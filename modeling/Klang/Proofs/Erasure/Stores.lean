import Klang.Proofs.EvalSteps
import Klang.Proofs.Masks
import Klang.Proofs.Respan

/-! Stores without places and traces. Functions forget where their bodies stood in a source, and all
that a program can read or write is the same with or without these places. -/

namespace Klang

def Closure.erase (closure : Closure) : Closure := { closure with body := closure.body.respan none }

def Value.erase : Value → Value
  | .function closure => .function closure.erase
  | value => value

def Binding.erase (binding : Binding) : Binding := { binding with value := binding.value.erase }

def Frame.erase (frame : Frame) : Frame := { frame with bindings := frame.bindings.map Binding.erase }

def Cell.erase : Cell → Cell
  | .list items => .list (items.map Value.erase)
  | .map entries => .map (entries.map Value.erase)

def Store.erase (store : Store) : Store where
  frames := store.frames.map Frame.erase
  cells := store.cells.map Cell.erase
  output := store.output
  trace := #[]

namespace Value

lemma eq_or_function_of_erase_eq {v w : Value} (h : v.erase = w.erase) :
    v = w ∨ ∃ c d, v = .function c ∧ w = .function d ∧ c.erase = d.erase := by
  cases v with
  | function c =>
    cases w with
    | function d => exact .inr ⟨c, d, rfl, rfl, Value.function.inj h⟩
    | _ => cases h
  | _ => 
    cases w with
    | function d => cases h
    | _ => exact .inl h

@[simp] lemma tag_erase (v : Value) : v.erase.tag = v.tag := by
  cases v <;> rfl

lemma tag_eq_of_erase_eq {v w : Value} (h : v.erase = w.erase) : v.tag = w.tag := by
  rw [← tag_erase v, h, tag_erase]

end Value

def erasing : Mask where
  closure := Closure.erase
  builtin := id
  closure_name := fun _ => rfl
  builtin_name := fun _ => rfl

lemma Value.mask_erasing : Value.mask erasing = Value.erase := by
  funext v
  cases v <;> rfl

lemma Binding.mask_erasing : Binding.mask erasing = Binding.erase := by
  funext b
  rw [Binding.mask, Value.mask_erasing, Binding.erase]

lemma Cell.mask_erasing : Cell.mask erasing = Cell.erase := by
  funext c
  cases c <;> simp only [Cell.mask, Cell.erase, Value.mask_erasing]

namespace Store

variable (store : Store)

lemma mask_erasing : store.mask erasing #[] = store.erase := by
  have hframe : Frame.mask erasing = Frame.erase := by
    funext f
    rw [Frame.mask, Frame.erase, Binding.mask_erasing]
  rw [mask, erase, hframe, Cell.mask_erasing]

@[simp] lemma bindings_erase (frame : FrameId) :
    store.erase.bindings frame = (store.bindings frame).map Binding.erase := by
  rw [← mask_erasing, bindings_mask, Binding.mask_erasing]

@[simp] lemma owner?_erase (name : String) (frame : FrameId) :
    store.erase.owner? name frame = store.owner? name frame := by
  rw [← mask_erasing, owner?_mask]

@[simp] lemma binding?_erase (frame : FrameId) (name : String) :
    store.erase.binding? frame name = (store.binding? frame name).map Binding.erase := by
  rw [← mask_erasing, binding?_mask, Binding.mask_erasing]

@[simp] lemma items_erase (cell : CellId) :
    store.erase.items cell = (store.items cell).map Value.erase := by
  rw [← mask_erasing, items_mask, Value.mask_erasing]

@[simp] lemma entries_erase (cell : CellId) :
    store.erase.entries cell = (store.entries cell).map Value.erase := by
  rw [← mask_erasing, entries_mask, Value.mask_erasing]

@[simp] lemma size_frames_erase : store.erase.frames.size = store.frames.size := by
  simp [erase]

@[simp] lemma size_cells_erase : store.erase.cells.size = store.cells.size := by
  simp [erase]

@[simp] lemma display?_erase (value : Value) :
    store.erase.display? value.erase = store.display? value := by
  rw [← mask_erasing, ← Value.mask_erasing, display?_mask]

@[simp] lemma describeFrame_erase (frame : FrameId) :
    store.erase.describeFrame frame = store.describeFrame frame := by
  rw [← mask_erasing, describeFrame_mask]

@[simp] lemma erase_pushFrame (parent : Option FrameId) :
    (store.pushFrame parent).erase = store.erase.pushFrame parent := by
  simp only [← mask_erasing, mask_pushFrame]

@[simp] lemma erase_pushCell (cell : Cell) :
    (store.pushCell cell).erase = store.erase.pushCell cell.erase := by
  simp only [← mask_erasing, mask_pushCell, Cell.mask_erasing]

@[simp] lemma erase_setBinding (frame : FrameId) (name : String) (binding : Binding) :
    (store.setBinding frame name binding).erase =
      store.erase.setBinding frame name binding.erase := by
  simp only [← mask_erasing, mask_setBinding, Binding.mask_erasing]

@[simp] lemma erase_setItem (cell : CellId) (index : Nat) (value : Value) :
    (store.setItem cell index value).erase = store.erase.setItem cell index value.erase := by
  simp only [← mask_erasing, mask_setItem, Value.mask_erasing]

@[simp] lemma erase_setEntry (cell : CellId) (key : String) (value : Value) :
    (store.setEntry cell key value).erase = store.erase.setEntry cell key value.erase := by
  simp only [← mask_erasing, mask_setEntry, Value.mask_erasing]

@[simp] lemma erase_print (text : String) : (store.print text).erase = store.erase.print text := rfl

@[simp] lemma erase_logAll (debug : Bool) (lines : List String) :
    (store.logAll debug lines).erase = store.erase := by
  unfold logAll
  split
  · induction lines generalizing store with
    | nil => rfl
    | cons line lines ih => exact ih (store.log line)
  · rfl

end Store

end Klang

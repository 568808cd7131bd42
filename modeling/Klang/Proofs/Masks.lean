import Klang.Session
import Mathlib.Tactic.Lemma

/-! Values and stores behind a mask. A mask may change what functions and builtins carry inside but
not their names, and nothing that a program can read from its store looks different behind it. -/

namespace Klang

namespace Table

variable {α β : Type}

def map (f : α → β) (table : Table α) : Table β where
  entries := table.entries.map fun e => (e.1, f e.2)
  nodup := by
    rw [List.map_map]
    exact table.nodup

variable (f : α → β)

lemma ext_entries {t u : Table α} (h : t.entries = u.entries) : t = u := by
  cases t
  cases u
  cases h
  rfl

@[simp] lemma map_empty : (empty : Table α).map f = empty := rfl

lemma map_id (table : Table α) : table.map id = table := by
  apply ext_entries
  simp [map]

@[simp] lemma keys_map (table : Table α) : (table.map f).keys = table.keys := by
  simp [map, keys]

@[simp] lemma find?_map (table : Table α) (key : String) :
    (table.map f).find? key = (table.find? key).map f := by
  change (table.entries.map fun e => (e.1, f e.2)).lookup key = (table.entries.lookup key).map f
  induction table.entries with
  | nil => rfl
  | cons entry entries ih =>
    rw [List.map_cons, List.lookup_cons, List.lookup_cons]
    cases key == entry.1 with
    | true => rfl
    | false => exact ih

@[simp] lemma contains_map (table : Table α) (key : String) :
    (table.map f).contains key = table.contains key := by
  rw [contains, find?_map, Option.isSome_map, contains]

@[simp] lemma map_insert (table : Table α) (key : String) (value : α) :
    (table.insert key value).map f = (table.map f).insert key (f value) := by
  apply ext_entries
  simp only [map, insert]
  induction table.entries with
  | nil => rfl
  | cons entry entries ih =>
    simp only [putEntry, List.map_cons]
    split
    · rfl
    · rw [List.map_cons, ih]

end Table

structure Mask where
  closure : Closure → Closure
  builtin : Builtin → Builtin
  closure_name : ∀ c, (closure c).name = c.name
  builtin_name : ∀ b, (builtin b).name = b.name

def Mask.ofPolicies (f : Policies → Policies) : Mask where
  closure := id
  builtin := fun b => { b with policies := f b.policies }
  closure_name := fun _ => rfl
  builtin_name := fun _ => rfl

variable (m : Mask)

def Value.mask : Value → Value
  | .function c => .function (m.closure c)
  | .builtin b => .builtin (m.builtin b)
  | value => value

def Binding.mask (binding : Binding) : Binding := { binding with value := binding.value.mask m }

def Frame.mask (frame : Frame) : Frame :=
  { frame with bindings := frame.bindings.map (Binding.mask m) }

def Cell.mask : Cell → Cell
  | .list items => .list (items.map (Value.mask m))
  | .map entries => .map (entries.map (Value.mask m))

def Store.mask (trace : Array String) (store : Store) : Store where
  frames := store.frames.map (Frame.mask m)
  cells := store.cells.map (Cell.mask m)
  output := store.output
  trace := trace

@[simp] lemma Value.tag_mask (v : Value) : (v.mask m).tag = v.tag := by
  cases v <;> rfl

lemma bindingFault?_mask (v : Value) (ascription : Option String) :
    bindingFault? (v.mask m) ascription = bindingFault? v ascription := by
  unfold bindingFault? ascriptionFault?
  rw [Value.tag_mask]

namespace Store

lemma mask_of_eq (h : Value.mask m = id) (store : Store) : store.mask m store.trace = store := by
  have hbinding : Binding.mask m = id := by
    funext b
    rw [Binding.mask, h]
    rfl
  have hframe : Frame.mask m = id := by
    funext f
    rw [Frame.mask, hbinding, Table.map_id]
    rfl
  have hcell : Cell.mask m = id := by
    funext c
    cases c with
    | list items => rw [Cell.mask, h, Array.map_id, id]
    | map entries => rw [Cell.mask, h, Table.map_id, id]
  rw [mask, hframe, hcell, Array.map_id, Array.map_id]

variable (trace : Array String) (store : Store)

@[simp] lemma bindings_mask (frame : FrameId) :
    (store.mask m trace).bindings frame = (store.bindings frame).map (Binding.mask m) := by
  simp only [bindings, mask, Array.getElem?_map]
  cases store.frames[frame]? <;> rfl

@[simp] lemma parent?_mask (frame : FrameId) :
    (store.mask m trace).parent? frame = store.parent? frame := by
  simp only [parent?, mask, Array.getElem?_map]
  cases store.frames[frame]? <;> rfl

@[simp] lemma owner?_mask (name : String) (frame : FrameId) :
    (store.mask m trace).owner? name frame = store.owner? name frame := by
  induction frame using Nat.strongRecOn with
  | ind frame ih =>
    rw [owner?, owner?, bindings_mask, Table.contains_map, parent?_mask]
    split
    · rfl
    · cases store.parent? frame with
      | none => rfl
      | some parent =>
        dsimp only
        split
        · rename_i hlt
          exact ih parent hlt
        · rfl

@[simp] lemma depth_mask (frame : FrameId) : (store.mask m trace).depth frame = store.depth frame := by
  induction frame using Nat.strongRecOn with
  | ind frame ih =>
    rw [depth, depth, parent?_mask]
    cases store.parent? frame with
    | none => rfl
    | some parent =>
      dsimp only
      split
      · rename_i hlt
        rw [ih parent hlt]
      · rfl

@[simp] lemma binding?_mask (frame : FrameId) (name : String) :
    (store.mask m trace).binding? frame name = (store.binding? frame name).map (Binding.mask m) := by
  rw [binding?, owner?_mask, binding?]
  cases store.owner? name frame with
  | none => rfl
  | some owner => simp

@[simp] lemma items_mask (cell : CellId) :
    (store.mask m trace).items cell = (store.items cell).map (Value.mask m) := by
  simp only [items, mask, Array.getElem?_map]
  cases store.cells[cell]? with
  | none => simp
  | some found => cases found <;> simp [Cell.mask]

@[simp] lemma entries_mask (cell : CellId) :
    (store.mask m trace).entries cell = (store.entries cell).map (Value.mask m) := by
  simp only [entries, mask, Array.getElem?_map]
  cases store.cells[cell]? with
  | none => rfl
  | some found => cases found <;> rfl

@[simp] lemma size_frames_mask : (store.mask m trace).frames.size = store.frames.size := by
  simp [mask]

@[simp] lemma size_cells_mask : (store.mask m trace).cells.size = store.cells.size := by
  simp [mask]

lemma unfoldWithin_mask (bound : Nat) (path : List CellId) (value : Value) :
    (store.mask m trace).unfoldWithin bound path (value.mask m) =
      store.unfoldWithin bound path value := by
  induction bound generalizing path value with
  | zero => cases value <;> simp [Value.mask, unfoldWithin, m.closure_name, m.builtin_name]
  | succ bound ih =>
    cases value with
    | list cell =>
      have hpart : (store.mask m trace).unfoldWithin bound (cell :: path) ∘ Value.mask m =
          store.unfoldWithin bound (cell :: path) := funext fun v => ih (cell :: path) v
      rw [Value.mask, unfoldWithin, unfoldWithin, items_mask, Array.toList_map, List.mapM_map,
        hpart]
      all_goals exact fun _ h => Value.noConfusion h
    | map cell =>
      rw [Value.mask, unfoldWithin, unfoldWithin, entries_mask]
      · simp only [Table.map, List.mapM_map, Function.comp_def, ih]
      all_goals exact fun _ h => Value.noConfusion h
    | _ => simp [Value.mask, unfoldWithin, m.closure_name, m.builtin_name]

@[simp] lemma display?_mask (value : Value) :
    (store.mask m trace).display? (value.mask m) = store.display? value := by
  rw [display?, datum?, size_cells_mask, unfoldWithin_mask, display?, datum?]

@[simp] lemma describeFrame_mask (frame : FrameId) :
    (store.mask m trace).describeFrame frame = store.describeFrame frame := by
  unfold describeFrame
  rw [depth_mask, bindings_mask, Table.keys_map]

omit m trace store in
lemma map_modify {α β : Type} (g : α → β) {f : α → α} {f' : β → β} (h : ∀ x, g (f x) = f' (g x))
    (xs : Array α) (i : Nat) : (xs.modify i f).map g = (xs.map g).modify i f' := by
  apply Array.ext_getElem?
  intro j
  rw [Array.getElem?_map, Array.getElem?_modify, Array.getElem?_modify, Array.getElem?_map]
  split
  · cases xs[j]? with
    | none => rfl
    | some x => exact congrArg some (h x)
  · rfl

@[simp] lemma mask_pushFrame (parent : Option FrameId) :
    (store.pushFrame parent).mask m trace = (store.mask m trace).pushFrame parent := by
  simp [mask, pushFrame, Frame.mask]

@[simp] lemma mask_pushCell (cell : Cell) :
    (store.pushCell cell).mask m trace = (store.mask m trace).pushCell (cell.mask m) := by
  simp [mask, pushCell]

@[simp] lemma mask_setBinding (frame : FrameId) (name : String) (binding : Binding) :
    (store.setBinding frame name binding).mask m trace =
      (store.mask m trace).setBinding frame name (binding.mask m) := by
  simp only [mask, setBinding, Store.mk.injEq, and_true]
  exact map_modify (Frame.mask m) (fun f => by simp [Frame.mask]) _ _

@[simp] lemma mask_setItem (cell : CellId) (index : Nat) (value : Value) :
    (store.setItem cell index value).mask m trace =
      (store.mask m trace).setItem cell index (value.mask m) := by
  simp only [mask, setItem, Store.mk.injEq, and_true, true_and]
  refine map_modify (Cell.mask m) (fun c => ?_) _ _
  cases c <;> simp [Cell.mask]

@[simp] lemma mask_setEntry (cell : CellId) (key : String) (value : Value) :
    (store.setEntry cell key value).mask m trace =
      (store.mask m trace).setEntry cell key (value.mask m) := by
  simp only [mask, setEntry, Store.mk.injEq, and_true, true_and]
  refine map_modify (Cell.mask m) (fun c => ?_) _ _
  cases c <;> simp [Cell.mask]

@[simp] lemma mask_print (text : String) :
    (store.print text).mask m trace = (store.mask m trace).print text := rfl

end Store

end Klang

import Klang.Proofs.Erasure.Stores

/-! Computations that agree but for places and traces. From stores that differ in nothing else they
end in the same way, with results that belong together and stores that differ in nothing else. -/

namespace Klang

def Interrupt.erase : Interrupt → Interrupt
  | .fault reason _ => .fault reason none
  | .returning value => .returning value.erase
  | .tooDeep => .tooDeep
  | .exhausted => .exhausted

namespace Eval

variable {α β : Type}

inductive AgreeingEnds (p : α → α → Prop) :
    EStateM.Result Interrupt Store α → EStateM.Result Interrupt Store α → Prop
  | ok {a a' : α} {t t' : Store} : p a a' → t.erase = t'.erase →
      AgreeingEnds p (.ok a t) (.ok a' t')
  | error {e e' : Interrupt} {t t' : Store} : e.erase = e'.erase → t.erase = t'.erase →
      AgreeingEnds p (.error e t) (.error e' t')

def Agree (p : α → α → Prop) (m m' : Eval α) : Prop :=
  ∀ s s' : Store, s.erase = s'.erase → AgreeingEnds p (m s) (m' s')

variable {p : α → α → Prop} {q : β → β → Prop} {m m' : Eval α}

lemma Agree.symm (hp : ∀ a a', p a a' → p a' a) (h : Agree p m m') : Agree p m' m := by
  intro s s' hs
  have hends := h s' s hs.symm
  generalize m s' = r at hends ⊢
  generalize m' s = r' at hends ⊢
  cases hends with
  | ok ha ht => exact .ok (hp _ _ ha) ht.symm
  | error he ht => exact .error he.symm ht.symm

lemma Agree.trans {m'' : Eval α} (hp : ∀ a b c, p a b → p b c → p a c) (h : Agree p m m')
    (h' : Agree p m' m'') : Agree p m m'' := by
  intro s s' hs
  have hends := h s s' hs
  have hends' := h' s' s' rfl
  generalize m s = r at hends ⊢
  generalize m' s' = r' at hends hends'
  generalize m'' s' = r'' at hends' ⊢
  cases hends with
  | ok ha ht =>
    cases hends' with
    | ok hb hu => exact .ok (hp _ _ _ ha hb) (ht.trans hu)
  | error he ht =>
    cases hends' with
    | error hb hu => exact .error (he.trans hb) (ht.trans hu)

lemma Agree.imp {q : α → α → Prop} (h : Agree p m m') (hpq : ∀ a a', p a a' → q a a') :
    Agree q m m' := by
  intro s s' hs
  have hends := h s s' hs
  generalize m s = r at hends ⊢
  generalize m' s' = r' at hends ⊢
  cases hends with
  | ok ha ht => exact .ok (hpq _ _ ha) ht
  | error he ht => exact .error he ht

lemma agree_pure {a a' : α} (h : p a a') : Agree p (pure a) (pure a') :=
  fun _ _ hs => .ok h hs

lemma agree_throw {e e' : Interrupt} (h : e.erase = e'.erase) :
    Agree p (throw e : Eval α) (throw e') :=
  fun _ _ hs => .error h hs

lemma agree_raise (fault : Fault) : Agree p (raise fault : Eval α) (raise fault) := agree_throw rfl

lemma Agree.bind {k k' : α → Eval β} (h : Agree p m m')
    (hk : ∀ a a', p a a' → Agree q (k a) (k' a')) : Agree q (m >>= k) (m' >>= k') := by
  intro s s' hs
  have hends := h s s' hs
  generalize hr : m s = r at hends
  generalize hr' : m' s' = r' at hends
  cases hends with
  | ok ha ht =>
    rw [bind_ok hr, bind_ok hr']
    exact hk _ _ ha _ _ ht
  | error he ht =>
    rw [bind_error hr, bind_error hr']
    exact .error he ht

lemma Agree.bind_same {k k' : α → Eval β} (h : Agree Eq m m') (hk : ∀ a, Agree q (k a) (k' a)) :
    Agree q (m >>= k) (m' >>= k') := by
  refine h.bind fun a a' ha => ?_
  cases ha
  exact hk a

lemma agree_get {k k' : Store → Eval β}
    (h : ∀ s s' : Store, s.erase = s'.erase → Agree q (k s) (k' s')) :
    Agree q (get >>= k) (get >>= k') :=
  fun s s' hs => h s s' hs s s' hs

lemma agree_modify {w w' : Store → Store}
    (h : ∀ s s' : Store, s.erase = s'.erase → (w s).erase = (w' s').erase) :
    Agree Eq (modify w : Eval PUnit) (modify w') :=
  fun s s' hs => .ok rfl (h s s' hs)

lemma Agree.located_left (h : Agree p m m') (span : Option Source.Span) :
    Agree p (Eval.located span m) m' := by
  intro s s' hs
  have hends := h s s' hs
  unfold Eval.located
  generalize m s = r at hends
  generalize m' s' = r' at hends ⊢
  cases hends with
  | ok ha ht => exact .ok ha ht
  | @error e e' t t' he ht =>
    cases e with
    | fault reason place => cases place <;> exact .error he ht
    | _ => exact .error he ht

lemma Agree.located_right (h : Agree p m m') (span : Option Source.Span) :
    Agree p m (Eval.located span m') := by
  intro s s' hs
  have hends := h s s' hs
  unfold Eval.located
  generalize m s = r at hends ⊢
  generalize m' s' = r' at hends
  cases hends with
  | ok ha ht => exact .ok ha ht
  | @error e e' t t' he ht =>
    cases e' with
    | fault reason place => cases place <;> exact .error he ht
    | _ => exact .error he ht

/-- Values that differ in places only. -/
abbrev SameButPlaces (v v' : Value) : Prop := v.erase = v'.erase

def eraseResult :
    EStateM.Result Interrupt Store Value → EStateM.Result Interrupt Store Value
  | .ok v store => .ok v.erase store.erase
  | .error interrupt store => .error interrupt.erase store.erase

lemma AgreeingEnds.eraseResult_eq {r r' : EStateM.Result Interrupt Store Value}
    (h : AgreeingEnds SameButPlaces r r') : eraseResult r = eraseResult r' := by
  cases h with
  | ok hv ht => rw [eraseResult, eraseResult, hv, ht]
  | error he ht => rw [eraseResult, eraseResult, he, ht]

lemma Agree.callResult {m m' : Eval Value} (h : Agree SameButPlaces m m') (policies : Policies) :
    Agree SameButPlaces (Evaluator.callResult policies m) (Evaluator.callResult policies m') := by
  intro s s' hs
  have hends := h s s' hs
  unfold Evaluator.callResult
  generalize m s = r at hends
  generalize m' s' = r' at hends
  cases hends with
  | ok hv ht =>
    dsimp only
    split
    · exact .ok hv ht
    · exact .ok rfl ht
  | @error e e' t t' he ht =>
    cases e with
    | returning v =>
      cases e' with
      | returning v' => exact .ok (Interrupt.returning.inj he) ht
      | _ => cases he
    | _ =>
      cases e' with
      | returning v' => cases he
      | _ => exact .error he ht

lemma agree_raiseIf (fault : Option Fault) : Agree Eq (raiseIf fault) (raiseIf fault) := by
  cases fault with
  | none => exact agree_pure rfl
  | some fault => exact agree_raise fault

lemma agree_child (frame : FrameId) : Agree Eq (child frame) (child frame) := by
  intro s s' hs
  have hsize : s.frames.size = s'.frames.size := by
    rw [← s.size_frames_erase, hs, s'.size_frames_erase]
  refine .ok hsize ?_
  rw [Store.erase_pushFrame, hs, Store.erase_pushFrame]

lemma agree_alloc {cell cell' : Cell} (h : cell.erase = cell'.erase) :
    Agree Eq (alloc cell) (alloc cell') := by
  intro s s' hs
  have hsize : s.cells.size = s'.cells.size := by
    rw [← s.size_cells_erase, hs, s'.size_cells_erase]
  refine .ok hsize ?_
  rw [Store.erase_pushCell, hs, h, Store.erase_pushCell]

lemma agree_newList {items items' : Array Value}
    (h : items.map Value.erase = items'.map Value.erase) :
    Agree SameButPlaces (newList items) (newList items') :=
  (agree_alloc (show Cell.erase (.list items) = Cell.erase (.list items') from
    congrArg Cell.list h)).bind_same fun _ => agree_pure rfl

lemma agree_newMap {entries entries' : Table Value}
    (h : entries.map Value.erase = entries'.map Value.erase) :
    Agree SameButPlaces (newMap entries) (newMap entries') :=
  (agree_alloc (show Cell.erase (.map entries) = Cell.erase (.map entries') from
    congrArg Cell.map h)).bind_same fun _ => agree_pure rfl

lemma agree_items (cell : CellId) :
    Agree (fun items items' => items.map Value.erase = items'.map Value.erase) (items cell)
      (items cell) := by
  refine agree_get fun s s' hs => agree_pure ?_
  rw [← s.items_erase, hs, s'.items_erase]

lemma agree_entries (cell : CellId) :
    Agree (fun entries entries' => entries.map Value.erase = entries'.map Value.erase) (entries cell)
      (entries cell) := by
  refine agree_get fun s s' hs => agree_pure ?_
  rw [← s.entries_erase, hs, s'.entries_erase]

variable {v v' : Value}

lemma agree_setItem (cell : CellId) (index : Nat) (h : v.erase = v'.erase) :
    Agree Eq (modify (·.setItem cell index v)) (modify (·.setItem cell index v')) := by
  refine agree_modify fun s s' hs => ?_
  rw [Store.erase_setItem, hs, h, Store.erase_setItem]

lemma agree_setEntry (cell : CellId) (key : String) (h : v.erase = v'.erase) :
    Agree Eq (modify (·.setEntry cell key v)) (modify (·.setEntry cell key v')) := by
  refine agree_modify fun s s' hs => ?_
  rw [Store.erase_setEntry, hs, h, Store.erase_setEntry]

lemma agree_print (text : String) : Agree Eq (print text) (print text) := by
  refine agree_modify fun s s' hs => ?_
  rw [Store.erase_print, hs, Store.erase_print]

lemma agree_log (line line' : String) : Agree Eq (log line) (log line') :=
  agree_modify fun _ _ hs => hs

lemma Agree.log_left (h : Agree p m m') (line : String) :
    Agree p (log line >>= fun _ => m) m' := fun s s' hs => h (s.log line) s' hs

lemma agree_display (h : v.erase = v'.erase) : Agree Eq (display v) (display v') := by
  refine agree_get fun s s' hs => ?_
  have htext : s.display? v = s'.display? v' := by
    rw [← s.display?_erase, hs, h, s'.display?_erase]
  rw [htext]
  split
  · exact agree_pure rfl
  · exact agree_throw rfl

lemma agree_scopeOf (caller : Option FrameId) :
    Agree SameButPlaces (Builtin.scopeOf caller) (Builtin.scopeOf caller) := by
  cases caller with
  | none => exact agree_pure rfl
  | some frame =>
    refine agree_get fun s s' hs => agree_pure ?_
    rw [← s.describeFrame_erase, hs, s'.describeFrame_erase]

lemma bindingFault?_eq_of_erase_eq (h : v.erase = v'.erase) (ascription : Option String) :
    bindingFault? v ascription = bindingFault? v' ascription := by
  unfold bindingFault? ascriptionFault?
  rw [Value.tag_eq_of_erase_eq h]

lemma bindings_eq_of_erase_eq {s s' : Store} (hs : s.erase = s'.erase) (frame : FrameId) :
    (s.bindings frame).map Binding.erase = (s'.bindings frame).map Binding.erase := by
  rw [← s.bindings_erase, hs, s'.bindings_erase]

lemma agree_declare (frame : FrameId) (name : String) (h : v.erase = v'.erase) (isFinal : Bool)
    (ascription : Option String) :
    Agree SameButPlaces (declare frame name v isFinal ascription)
      (declare frame name v' isFinal ascription) := by
  refine agree_get fun s s' hs => ?_
  have hcontains : (s.bindings frame).contains name = (s'.bindings frame).contains name := by
    rw [← Table.contains_map Binding.erase, bindings_eq_of_erase_eq hs, Table.contains_map]
  rw [hcontains, bindingFault?_eq_of_erase_eq h]
  split
  · exact agree_raise _
  · refine (agree_raiseIf _).bind_same fun _ => (agree_modify ?_).bind_same fun _ => agree_pure h
    intro t t' ht
    rw [Store.erase_setBinding, ht, Store.erase_setBinding, Binding.erase, Binding.erase, h]

lemma agree_lookup (frame : FrameId) (name : String) :
    Agree SameButPlaces (lookup frame name) (lookup frame name) := by
  refine agree_get fun s s' hs => ?_
  have hbinding : (s.binding? frame name).map Binding.erase =
      (s'.binding? frame name).map Binding.erase := by
    rw [← s.binding?_erase, hs, s'.binding?_erase]
  cases hb : s.binding? frame name with
  | none =>
    rw [hb] at hbinding
    rw [Option.map_eq_none_iff.1 hbinding.symm]
    exact agree_raise _
  | some b =>
    rw [hb] at hbinding
    obtain ⟨b', hb', he⟩ := Option.map_eq_some_iff.1 hbinding.symm
    rw [hb']
    exact agree_pure (congrArg Binding.value he.symm)

lemma agree_resolve (frame : FrameId) (name : String) :
    Agree Eq (resolve frame name) (resolve frame name) := by
  refine agree_get fun s s' hs => ?_
  have howner : s.owner? name frame = s'.owner? name frame := by
    rw [← s.owner?_erase, hs, s'.owner?_erase]
  rw [howner]
  split
  · exact agree_pure rfl
  · exact agree_raise _

lemma agree_assign (frame : FrameId) (name : String) (h : v.erase = v'.erase) :
    Agree SameButPlaces (assign frame name v) (assign frame name v') := by
  refine (agree_resolve frame name).bind_same fun owner => agree_get fun s s' hs => ?_
  have hfind : ((s.bindings owner).find? name).map Binding.erase =
      ((s'.bindings owner).find? name).map Binding.erase := by
    rw [← Table.find?_map, bindings_eq_of_erase_eq hs, Table.find?_map]
  cases hb : (s.bindings owner).find? name with
  | none =>
    rw [hb] at hfind
    rw [Option.map_eq_none_iff.1 hfind.symm]
    exact agree_raise _
  | some b =>
    rw [hb] at hfind
    obtain ⟨b', hb', he⟩ := Option.map_eq_some_iff.1 hfind.symm
    obtain ⟨-, hfinal, hascription⟩ := Binding.mk.inj he
    rw [hb']
    dsimp only
    rw [hfinal, hascription, bindingFault?_eq_of_erase_eq h]
    split
    · exact agree_raise _
    · refine (agree_raiseIf _).bind_same fun _ => (agree_modify ?_).bind_same fun _ => agree_pure h
      intro t t' ht
      rw [Store.erase_setBinding, ht, Store.erase_setBinding]
      simp only [Binding.erase, h]

end Eval

end Klang

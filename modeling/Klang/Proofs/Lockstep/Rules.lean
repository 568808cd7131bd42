import Klang.Proofs.StoreInvariants
import Klang.Proofs.Masks
import Klang.Proofs.Simulation.Faults

/-! Runs in lockstep. A run and a second one, whose builtins may carry other policies, go from stores
that belong together to results that belong together, and all that the first one comes across is of a
kind that was agreed on. With the second run equal to the first this is what a single run keeps. -/

namespace Klang

open Source

/-- What is agreed on. -/
structure Lockstep where
  policies : Policies → Policies := id
  policy : Policies → Prop := fun _ => True
  closure : Closure → Prop := fun _ => True
  node : FrameId → Node → Prop
  fault : Fault → Prop := fun _ => True
  place : Option Span → Prop := fun _ => True
  /-- The frames of this store get no new names. -/
  base : Store := {}
  /-- Whether the second run must fail when the first one does, and leave the same trace. -/
  faithful : Prop := True

namespace Lockstep

variable (d : Lockstep)

def mask : Mask := .ofPolicies d.policies

def value : Value → Prop
  | .function c => d.closure c
  | .builtin b => d.policy b.policies
  | _ => True

abbrev image : Value → Value := Value.mask d.mask

abbrev Imaged (v v' : Value) : Prop := v' = d.image v ∧ d.value v

def context (context : Context) : Context := { context with policies := d.policies context.policies }

def Opened (frame : FrameId) : Prop := d.base.frames.size ≤ frame

def Near (span : Option Span) : Prop := span = none ∨ d.place span

structure Stores (s s' : Store) : Prop where
  holds : s.Holds d.value
  names : d.base.KeepsNames s
  image : s' = s.mask d.mask s'.trace
  trace : d.faithful → s'.trace = s.trace

inductive Meets (near : Option Span → Prop) : Interrupt → Interrupt → Prop
  | fault {reason : Fault} {span : Option Span} : d.fault reason → near span →
      Meets near (.fault reason span) (.fault reason span)
  | returning {v : Value} : d.value v → Meets near (.returning v) (.returning (d.image v))
  | tooDeep : Meets near .tooDeep .tooDeep
  | exhausted : Meets near .exhausted .exhausted

/-- How two computations end: with results that belong together, or both cut short. A second run that
need not be faithful may do anything once the first one has failed. -/
inductive Ends {α : Type} (near : Option Span → Prop) (p : α → α → Prop) :
    EStateM.Result Interrupt Store α → EStateM.Result Interrupt Store α → Prop
  | ok {a a' : α} {t t' : Store} : p a a' → d.Stores t t' → Ends near p (.ok a t) (.ok a' t')
  | error {e e' : Interrupt} {t t' : Store} : d.Meets near e e' → d.Stores t t' →
      Ends near p (.error e t) (.error e' t')
  | loose {e : Interrupt} {t : Store} {r : EStateM.Result Interrupt Store α} : ¬ d.faithful →
      (∀ v, e ≠ .returning v) → Ends near p (.error e t) r

def Along {α : Type} (near : Option Span → Prop) (p : α → α → Prop) (m m' : Eval α) : Prop :=
  ∀ s s', d.Stores s s' → d.Ends near p (m s) (m' s')

/-- Computations of a value that is good; their faults have their final place, or none yet. -/
abbrev Goes (m m' : Eval Value) : Prop := d.Along d.Near d.Imaged m m'

variable {d} {α β : Type} {near near' : Option Span → Prop} {p : α → α → Prop} {q : β → β → Prop}
  {m m' : Eval α}

lemma Stores.keep {s s' t t' : Store} (h : d.Stores s s') (ht : t.Holds d.value)
    (hn : d.base.KeepsNames t) (hi : t.mask d.mask s'.trace = t') (htrace : t.trace = s.trace) :
    d.Stores t t' := by
  subst hi
  exact ⟨ht, hn, rfl, fun hf => (h.trace hf).trans htrace.symm⟩

lemma image_eq_id (hp : d.policies = id) : d.image = id := by
  funext v
  cases v with
  | builtin b => simp only [image, Value.mask, mask, Mask.ofPolicies, hp, id_eq]
  | _ => rfl

lemma Stores.refl (hp : d.policies = id) {s : Store} (hs : s.Holds d.value)
    (hn : d.base.KeepsNames s) : d.Stores s s :=
  ⟨hs, hn, (Store.mask_of_eq d.mask (image_eq_id hp) s).symm, fun _ => rfl⟩

lemma Stores.eq (hp : d.policies = id) (hf : d.faithful) {s s' : Store} (h : d.Stores s s') :
    s' = s := by
  rw [h.image, h.trace hf]
  exact Store.mask_of_eq d.mask (image_eq_id hp) s

lemma Ends.stores (hf : d.faithful) {r r' : EStateM.Result Interrupt Store α}
    (h : d.Ends near p r r') : d.Stores (finalStore r) (finalStore r') := by
  cases h with
  | ok _ ht => exact ht
  | error _ ht => exact ht
  | loose hn _ => exact absurd hf hn

lemma Ends.eq (hp : d.policies = id) (hf : d.faithful) {r r' : EStateM.Result Interrupt Store Value}
    (h : d.Ends near d.Imaged r r') : r' = r := by
  cases h with
  | ok ha ht => rw [ha.1, image_eq_id hp, ht.eq hp hf, id]
  | error he ht =>
    rw [ht.eq hp hf]
    cases he with
    | returning => rw [image_eq_id hp, id]
    | _ => rfl
  | loose hn _ => exact absurd hf hn

lemma Ends.fault (hf : d.faithful) {r' : EStateM.Result Interrupt Store α} {reason : Fault}
    {span : Option Span} {t : Store} (h : d.Ends near p (.error (.fault reason span) t) r') :
    d.fault reason ∧ near span := by
  cases h with
  | error he _ =>
    cases he with
    | fault hr hs => exact ⟨hr, hs⟩
  | loose hn _ => exact absurd hf hn

lemma Meets.mono (hnear : ∀ span, near span → near' span) {e e' : Interrupt}
    (h : d.Meets near e e') : d.Meets near' e e' := by
  cases h with
  | fault hr hs => exact .fault hr (hnear _ hs)
  | returning hv => exact .returning hv
  | tooDeep => exact .tooDeep
  | exhausted => exact .exhausted

lemma Ends.mono (hnear : ∀ span, near span → near' span) {r r' : EStateM.Result Interrupt Store α}
    (h : d.Ends near p r r') : d.Ends near' p r r' := by
  cases h with
  | ok ha ht => exact .ok ha ht
  | error he ht => exact .error (he.mono hnear) ht
  | loose hf he => exact .loose hf he

lemma Along.mono (h : d.Along near p m m') (hnear : ∀ span, near span → near' span) :
    d.Along near' p m m' :=
  fun s s' hs => (h s s' hs).mono hnear

lemma Along.imp {q : α → α → Prop} (h : d.Along near p m m') (hpq : ∀ a a', p a a' → q a a') :
    d.Along near q m m' := by
  intro s s' hs
  have he := h s s' hs
  generalize m s = r at he ⊢
  generalize m' s' = r' at he ⊢
  cases he with
  | ok ha ht => exact .ok (hpq _ _ ha) ht
  | error he ht => exact .error he ht
  | loose hf he => exact .loose hf he

lemma along_pure {a a' : α} (ha : p a a') : d.Along near p (pure a) (pure a') :=
  fun _ _ hs => .ok ha hs

lemma along_throw {e e' : Interrupt} (h : d.Meets near e e') :
    d.Along near p (throw e : Eval α) (throw e') :=
  fun _ _ hs => .error h hs

lemma along_raise {reason : Fault} (h : d.fault reason) :
    d.Along d.Near p (Eval.raise reason : Eval α) (Eval.raise reason) :=
  along_throw (.fault h (.inl rfl))

lemma Along.bind {k k' : α → Eval β} (h : d.Along near p m m')
    (hk : ∀ a a', p a a' → d.Along near q (k a) (k' a')) :
    d.Along near q (m >>= k) (m' >>= k') := by
  intro s s' hs
  have he := h s s' hs
  generalize hr : m s = r at he
  generalize hr' : m' s' = r' at he
  cases he with
  | ok ha ht =>
    rw [Eval.bind_ok hr, Eval.bind_ok hr']
    exact hk _ _ ha _ _ ht
  | error he ht =>
    rw [Eval.bind_error hr, Eval.bind_error hr']
    exact .error he ht
  | loose hf hv =>
    rw [Eval.bind_error hr]
    exact .loose hf hv

lemma Along.located (h : d.Along d.Near p m m') {span : Option Span} (hp : d.place span) :
    d.Along d.place p (Eval.located span m) (Eval.located span m') := by
  intro s s' hs
  have he := h s s' hs
  unfold Eval.located
  generalize m s = r at he
  generalize m' s' = r' at he
  cases he with
  | ok ha ht => exact .ok ha ht
  | error he ht =>
    cases he with
    | @fault reason place hr hn =>
      cases place with
      | none => exact .error (.fault hr hp) ht
      | some place => exact .error (.fault hr (hn.resolve_left nofun)) ht
    | returning hv => exact .error (.returning hv) ht
    | tooDeep => exact .error .tooDeep ht
    | exhausted => exact .error .exhausted ht
  | @loose e t _ hf hv =>
    cases e with
    | fault reason place => cases place <;> exact .loose hf nofun
    | _ => exact .loose hf hv

/-- Policies only matter to the value of a call if its body can come to its end. -/
lemma Goes.callResult {m m' : Eval Value} (h : d.Goes m m') {policies policies' : Policies}
    (hp : (∃ s v t, m s = .ok v t) → policies'.implicitReturn = policies.implicitReturn) :
    d.Goes (Evaluator.callResult policies m) (Evaluator.callResult policies' m') := by
  intro s s' hs
  have he := h s s' hs
  unfold Evaluator.callResult
  generalize hm : m s = r at he
  generalize m' s' = r' at he
  cases he with
  | ok ha ht =>
    dsimp only
    rw [hp ⟨s, _, _, hm⟩]
    split
    · exact .ok ha ht
    · exact .ok ⟨rfl, trivial⟩ ht
  | error he ht =>
    cases he with
    | fault hr hn => exact .error (.fault hr hn) ht
    | returning hv => exact .ok ⟨rfl, hv⟩ ht
    | tooDeep => exact .error .tooDeep ht
    | exhausted => exact .error .exhausted ht
  | @loose e t _ hf hv =>
    cases e with
    | returning v => exact absurd rfl (hv v)
    | _ => exact .loose hf hv

abbrev Plain (d : Lockstep) (m m' : Eval α) : Prop := d.Along d.Near Eq m m'

lemma Plain.bind {k k' : α → Eval β} (h : d.Plain m m')
    (hk : ∀ a, d.Along d.Near q (k a) (k' a)) : d.Along d.Near q (m >>= k) (m' >>= k') := by
  refine Along.bind h fun a a' ha => ?_
  cases ha
  exact hk a

lemma plain_raiseIf {reason : Option Fault} (h : ∀ r ∈ reason, d.fault r) :
    d.Plain (Eval.raiseIf reason) (Eval.raiseIf reason) := by
  cases reason with
  | none => exact along_pure rfl
  | some reason => exact along_raise (h reason rfl)

lemma along_get {k k' : Store → Eval β}
    (h : ∀ s s', d.Stores s s' → d.Along near q (k s) (k' s')) :
    d.Along near q (get >>= k) (get >>= k') :=
  fun s s' hs => h s s' hs s s' hs

lemma along_modify {w w' : Store → Store} (h : ∀ s s', d.Stores s s' → d.Stores (w s) (w' s')) :
    d.Along near Eq (modify w : Eval PUnit) (modify w') :=
  fun s s' hs => .ok rfl (h s s' hs)

lemma along_child (frame : FrameId) :
    d.Along d.Near (fun g g' => g = g' ∧ d.Opened g) (Eval.child frame) (Eval.child frame) := by
  intro s s' hs
  have hsize : s'.frames.size = s.frames.size := by rw [hs.image, Store.size_frames_mask]
  simp only [Eval.child, hsize]
  refine .ok ⟨rfl, hs.names.size⟩ (hs.keep (hs.holds.pushFrame _) (hs.names.pushFrame _) ?_ rfl)
  rw [Store.mask_pushFrame, ← hs.image]

lemma plain_alloc {cell : Cell} (hc : cell.All d.value) :
    d.Plain (Eval.alloc cell) (Eval.alloc (cell.mask d.mask)) := by
  intro s s' hs
  have hsize : s'.cells.size = s.cells.size := by rw [hs.image, Store.size_cells_mask]
  simp only [Eval.alloc, hsize]
  refine .ok rfl (hs.keep (hs.holds.pushCell hc) (hs.names.of_frames_eq rfl) ?_ rfl)
  rw [Store.mask_pushCell, ← hs.image]

lemma goes_newList {items : Array Value} (h : ∀ v ∈ items, d.value v) :
    d.Goes (Eval.newList items) (Eval.newList (items.map d.image)) :=
  Plain.bind (plain_alloc (show Cell.All d.value (.list items) from h)) fun _ =>
    along_pure ⟨rfl, trivial⟩

lemma goes_newMap {entries : Table Value} (h : entries.All d.value) :
    d.Goes (Eval.newMap entries) (Eval.newMap (entries.map d.image)) :=
  Plain.bind (plain_alloc (show Cell.All d.value (.map entries) from h)) fun _ =>
    along_pure ⟨rfl, trivial⟩

lemma along_items (cell : CellId) :
    d.Along d.Near (fun items items' => items' = items.map d.image ∧ ∀ v ∈ items, d.value v)
      (Eval.items cell) (Eval.items cell) := by
  refine along_get fun s s' hs => along_pure ⟨?_, hs.holds.items cell⟩
  rw [hs.image, Store.items_mask]

lemma along_entries (cell : CellId) :
    d.Along d.Near (fun entries entries' => entries' = entries.map d.image ∧ entries.All d.value)
      (Eval.entries cell) (Eval.entries cell) := by
  refine along_get fun s s' hs => along_pure ⟨?_, hs.holds.entries cell⟩
  rw [hs.image, Store.entries_mask]

lemma plain_setItem (cell : CellId) (index : Nat) {v : Value} (hv : d.value v) :
    d.Plain (modify (·.setItem cell index v)) (modify (·.setItem cell index (d.image v))) := by
  refine along_modify fun s s' hs =>
    hs.keep (hs.holds.setItem hv cell index) (hs.names.of_frames_eq rfl) ?_ rfl
  rw [Store.mask_setItem, ← hs.image]

lemma plain_setEntry (cell : CellId) (key : String) {v : Value} (hv : d.value v) :
    d.Plain (modify (·.setEntry cell key v)) (modify (·.setEntry cell key (d.image v))) := by
  refine along_modify fun s s' hs =>
    hs.keep (hs.holds.setEntry hv cell key) (hs.names.of_frames_eq rfl) ?_ rfl
  rw [Store.mask_setEntry, ← hs.image]

lemma plain_print (text : String) : d.Plain (Eval.print text) (Eval.print text) := by
  refine along_modify fun s s' hs => hs.keep (hs.holds.print text) (hs.names.of_frames_eq rfl) ?_ rfl
  rw [Store.mask_print, ← hs.image]

lemma along_log (line : String) : d.Along near Eq (Eval.log line) (Eval.log line) := by
  refine along_modify fun s s' hs => ⟨hs.holds.log line, hs.names.of_frames_eq rfl, ?_, ?_⟩
  · change s'.log line = s.mask d.mask (s'.trace.push line)
    conv => lhs; rw [hs.image]
    rfl
  · intro hf
    simp only [Store.log, hs.trace hf]

lemma plain_display (v : Value) : d.Plain (Eval.display v) (Eval.display (d.image v)) := by
  refine along_get fun s s' hs => ?_
  have htext : s'.display? (d.image v) = s.display? v := by rw [hs.image, Store.display?_mask]
  rw [htext]
  split
  · exact along_pure rfl
  · exact along_throw .tooDeep

lemma goes_scopeOf (caller : Option FrameId) :
    d.Goes (Builtin.scopeOf caller) (Builtin.scopeOf caller) := by
  cases caller with
  | none => exact along_pure ⟨rfl, trivial⟩
  | some frame =>
    refine along_get fun s s' hs => along_pure ⟨?_, trivial⟩
    rw [hs.image, Store.describeFrame_mask]
    rfl

section

variable (hf : ∀ reason : Fault, ¬ reason.IsDefensive → d.fault reason) {v : Value}

include hf

lemma goes_declare {frame : FrameId} (ho : d.Opened frame) (name : String) (hv : d.value v)
    (isFinal : Bool) (ascription : Option String) :
    d.Goes (Eval.declare frame name v isFinal ascription)
      (Eval.declare frame name (d.image v) isFinal ascription) := by
  refine along_get fun s s' hs => ?_
  have hcontains : (s'.bindings frame).contains name = (s.bindings frame).contains name := by
    rw [hs.image, Store.bindings_mask, Table.contains_map]
  rw [hcontains, bindingFault?_mask]
  split
  · exact along_raise (hf _ id)
  · refine Plain.bind (plain_raiseIf fun r hr => hf r (not_isDefensive_of_bindingFault? hr)) fun _ => ?_
    refine Plain.bind (along_modify fun t t' ht => ?_) fun _ => along_pure ⟨rfl, hv⟩
    refine ht.keep (ht.holds.setBinding (b := ⟨v, isFinal, ascription⟩) hv frame name)
      (ht.names.setBinding fun hlt => absurd ho (Nat.not_le.2 hlt)) ?_ rfl
    rw [Store.mask_setBinding, ← ht.image]
    rfl

lemma goes_lookup (frame : FrameId) (name : String) :
    d.Goes (Eval.lookup frame name) (Eval.lookup frame name) := by
  refine along_get fun s s' hs => ?_
  have hbinding : s'.binding? frame name = (s.binding? frame name).map (Binding.mask d.mask) := by
    rw [hs.image, Store.binding?_mask]
  rw [hbinding]
  cases hb : s.binding? frame name with
  | none => exact along_raise (hf _ id)
  | some b => exact along_pure ⟨rfl, hs.holds.binding hb⟩

lemma goes_assign (frame : FrameId) (name : String) (hv : d.value v) :
    d.Goes (Eval.assign frame name v) (Eval.assign frame name (d.image v)) := by
  intro s s' hs
  have howner : s'.owner? name frame = s.owner? name frame := by rw [hs.image, Store.owner?_mask]
  have hfind (owner : FrameId) : (s'.bindings owner).find? name =
      ((s.bindings owner).find? name).map (Binding.mask d.mask) := by
    rw [hs.image, Store.bindings_mask, Table.find?_map]
  have hfails {reason : Fault} (h : ¬ reason.IsDefensive) :
      d.Ends d.Near d.Imaged (.error (.fault reason none) s) (.error (.fault reason none) s') :=
    .error (.fault (hf reason h) (.inl rfl)) hs
  rw [Eval.assign_apply, Eval.assign_apply, howner]
  cases s.owner? name frame with
  | none => exact hfails id
  | some owner =>
    dsimp only
    rw [hfind]
    cases hb : (s.bindings owner).find? name with
    | none => exact hfails id
    | some b =>
      simp only [Option.map_some, Binding.mask, bindingFault?_mask]
      split
      · exact hfails id
      · split
        · rename_i hr
          exact hfails (not_isDefensive_of_bindingFault? hr)
        · refine .ok ⟨rfl, hv⟩ ?_
          have hname : name ∈ (s.bindings owner).keys := by
            rw [← Table.contains_eq_true_iff, Table.contains, hb]
            rfl
          refine hs.keep (hs.holds.setBinding (b := { b with value := v }) hv owner name)
            (hs.names.setBinding fun _ => hname) ?_ rfl
          rw [Store.mask_setBinding, ← hs.image]
          rfl

end

end Lockstep

end Klang

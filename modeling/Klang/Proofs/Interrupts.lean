import Klang.Proofs.Simulation.Shared

/-! What cuts an evaluation short. Faults come from everywhere. A `return` comes from its statement
only, and only calls and loops with a condition can go on for too long. -/

namespace Klang

def Interrupt.IsReturn (e : Interrupt) : Prop := ∃ v, e = .returning v

namespace Eval

variable {α β : Type} {kind : Interrupt → Prop} {m : Eval α}

/-- Apart from faults, the computation is cut short by interrupts of one kind only. -/
def StopsBy (kind : Interrupt → Prop) (m : Eval α) : Prop :=
  ∀ s e t, m s = .error e t → (∃ reason span, e = .fault reason span) ∨ kind e

lemma stopsBy_pure (a : α) : StopsBy kind (pure a) := fun _ _ _ h => nomatch h

lemma stopsBy_throw {e : Interrupt} (h : kind e) : StopsBy kind (throw e : Eval α) := by
  intro s e' t he
  cases he
  exact .inr h

lemma stopsBy_raise (reason : Fault) : StopsBy kind (raise reason : Eval α) := by
  intro s e t he
  cases he
  exact .inl ⟨reason, none, rfl⟩

lemma StopsBy.bind {k : α → Eval β} (h : StopsBy kind m)
    (hk : ∀ s a t, m s = .ok a t → StopsBy kind (k a)) : StopsBy kind (m >>= k) := by
  intro s e t he
  cases hm : m s with
  | ok a u =>
    rw [bind_ok hm] at he
    exact hk s a u hm u e t he
  | error e' u =>
    rw [bind_error hm] at he
    cases he
    exact h s e t hm

lemma stopsBy_get : StopsBy kind (get : Eval Store) := fun _ _ _ h => nomatch h

lemma stopsBy_modify (w : Store → Store) : StopsBy kind (modify w : Eval PUnit) :=
  fun _ _ _ h => nomatch h

lemma stopsBy_child (frame : FrameId) : StopsBy kind (child frame) := fun _ _ _ h => nomatch h

lemma stopsBy_newList (items : Array Value) : StopsBy kind (newList items) :=
  fun _ _ _ h => nomatch h

lemma stopsBy_newMap (entries : Table Value) : StopsBy kind (newMap entries) :=
  fun _ _ _ h => nomatch h

lemma StopsBy.located (h : StopsBy kind m) (span : Option Source.Span) :
    StopsBy kind (Eval.located span m) := by
  intro s e t he
  rw [Eval.located] at he
  split at he
  · cases he
    exact .inl ⟨_, _, rfl⟩
  · exact h s e t he

lemma stopsBy_declare (frame : FrameId) (name : String) (value : Value) (isFinal : Bool)
    (ascription : Option String) : StopsBy kind (declare frame name value isFinal ascription) := by
  intro s e t he
  rw [declare_apply] at he
  split at he
  · cases he
    exact .inl ⟨_, _, rfl⟩
  · split at he
    · cases he
      exact .inl ⟨_, _, rfl⟩
    · cases he

lemma stopsBy_assign (frame : FrameId) (name : String) (value : Value) :
    StopsBy kind (assign frame name value) := by
  intro s e t he
  rw [assign_apply] at he
  repeat' split at he
  all_goals
    cases he
    try exact .inl ⟨_, _, rfl⟩

def StopsWith (kind : Interrupt → Prop) (α : Type) (p : α → α → Prop) (m _ : Eval α) : Prop :=
  StopsBy kind m ∧ ∀ s a t, m s = .ok a t → ∃ a', p a a'

lemma StopsBy.with_eq {m' : Eval α} (h : StopsBy kind m) : StopsWith kind α Eq m m' :=
  ⟨h, fun _ a _ _ => ⟨a, rfl⟩⟩

end Eval

open Eval Simulation

variable {kind : Interrupt → Prop}

lemma sharedLaws_stopsWith {node part : Node → Prop} {endless : Prop}
    (hkind : endless → kind .tooDeep ∧ kind .exhausted)
    (hpart : ∀ {n m}, node n → m ∈ n.here ∨ m ∈ n.inside → part m)
    (hendless : ∀ {n}, node n → n.isCall = true ∨ n.isWhileLoop = true → endless)
    (hreturn : ∀ {n}, node n → n.isReturn = true → ∀ v, kind (.returning v)) :
    SharedLaws (StopsWith kind) node part endless False where
  mono hm hpq := ⟨hm.1, fun s a t ha => (hm.2 s a t ha).imp fun a' => hpq a a'⟩
  pure ha := by
    refine ⟨stopsBy_pure _, fun s b t hb => ?_⟩
    cases hb
    exact ⟨_, ha⟩
  bind := by
    intro α β p q m m' k k' hm hk
    have hends {s a t} (ha : m s = .ok a t) : StopsBy kind (k a) ∧
        ∀ s b t, k a s = .ok b t → ∃ b', q b b' := by
      obtain ⟨a', hp⟩ := hm.2 s a t ha
      exact hk a a' hp
    refine ⟨hm.1.bind fun s a t ha => (hends ha).1, fun s b t hb => ?_⟩
    cases ha : m s with
    | ok a u =>
      rw [bind_ok ha] at hb
      exact (hends ha).2 u b t hb
    | error e u =>
      rw [bind_error ha] at hb
      cases hb
  raise reason := ⟨stopsBy_raise reason, nofun⟩
  tooDeep he := ⟨stopsBy_throw (hkind he).1, nofun⟩
  exhausted he := ⟨stopsBy_throw (hkind he).2, nofun⟩
  giveUp := False.elim
  get := stopsBy_get.with_eq
  log _ := (stopsBy_modify _).with_eq
  print _ := (stopsBy_modify _).with_eq
  child f := (stopsBy_child f).with_eq
  newList items := (stopsBy_newList items).with_eq
  newMap entries := (stopsBy_newMap entries).with_eq
  declare f x v isFinal ascription := (stopsBy_declare f x v isFinal ascription).with_eq
  assign f x v := (stopsBy_assign f x v).with_eq
  setItem _ _ _ := (stopsBy_modify _).with_eq
  setEntry _ _ _ := (stopsBy_modify _).with_eq
  here hn hm := hpart hn (.inl hm)
  inside hn hm := hpart hn (.inr hm)
  endless := hendless
  returning v hn hr := ⟨stopsBy_throw (hreturn hn hr v), nofun⟩

namespace Evaluator

variable {inner : Evaluator} {bound : Nat} {context : Context} {frame : FrameId} {n : Node}

section

variable
  (hparts : ∀ m, m ∈ n.here ∨ m ∈ n.inside →
    ∀ context frame, StopsBy kind (inner.node context frame m))
  (hendless : n.isCall = true ∨ n.isWhileLoop = true → (kind .tooDeep ∧ kind .exhausted) ∧
    ∀ context function arguments caller, StopsBy kind (inner.call context function arguments caller))
  (hreturn : n.isReturn = true → ∀ v, kind (.returning v))

include hparts hendless hreturn

lemma stopsBy_meaning : StopsBy kind (meaning inner bound context frame n) := by
  let part (m : Node) : Prop := ∀ context frame, StopsBy kind (inner.node context frame m)
  have hlaws : SharedLaws (StopsWith kind) (· = n) part (n.isCall = true ∨ n.isWhileLoop = true)
      False := by
    apply sharedLaws_stopsWith fun he => (hendless he).1
    · rintro _ m rfl hm
      exact hparts m hm
    · rintro _ rfl he
      exact he
    · rintro _ rfl hr
      exact hreturn hr
  have hmeaning : StopsWith kind Value Eq (meaning inner bound context frame n)
      (meaning inner bound context frame n) :=
    hlaws.meaning (fun context frame m hm => (hm context frame).with_eq)
      (fun he context g vs caller => ((hendless he).2 context g vs caller).with_eq) (.inl rfl) rfl
  exact hmeaning.1

end

lemma stopsBy_visit (h : StopsBy kind (meaning inner bound context frame n)) :
    StopsBy kind (visit inner bound context frame n) := by
  unfold Evaluator.visit
  split
  · exact (stopsBy_modify _).bind fun _ _ _ _ => h.located n.span
  · exact h.located n.span

lemma stopsBy_perform (hkind : kind .tooDeep ∧ kind .exhausted)
    (hcall : ∀ context function arguments caller,
      StopsBy kind (inner.call context function arguments caller))
    (hbody : ∀ context frame (closure : Closure), StopsBy kind
      (callResult context.policies (statements inner context frame closure.body.statements .null)))
    (function : Value) (arguments : List Value) (caller : Option FrameId) :
    StopsBy kind (perform inner bound context function arguments caller) := by
  have hlaws : SharedLaws (StopsWith kind) (fun _ => False) (fun _ => False) True False :=
    sharedLaws_stopsWith (fun _ => hkind) (fun hn _ => hn) (fun _ _ => trivial) fun hn => hn.elim
  have hperform : StopsWith kind Value Eq (perform inner bound context function arguments caller)
      (perform inner bound context function arguments caller) :=
    hlaws.perform (fun _ _ _ hn => hn.elim)
      (fun _ context g vs caller => (hcall context g vs caller).with_eq) (.inl rfl) trivial
      (fun context frame closure => (hbody context frame closure).with_eq) function arguments caller
  exact hperform.1

end Evaluator

end Klang

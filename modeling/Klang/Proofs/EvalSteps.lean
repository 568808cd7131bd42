import Klang.Session
import Mathlib.Tactic.Lemma

/-! What the operations of a run do to a given store, as equations. -/

namespace Klang

variable {α β : Type}

def finalStore : EStateM.Result Interrupt Store α → Store
  | .ok _ store => store
  | .error _ store => store

@[simp] lemma finalStore_ok (a : α) (s : Store) :
    finalStore (.ok a s : EStateM.Result Interrupt Store α) = s := rfl

@[simp] lemma finalStore_error (e : Interrupt) (s : Store) :
    finalStore (.error e s : EStateM.Result Interrupt Store α) = s := rfl

namespace Eval

lemma bind_ok {m : Eval α} {k : α → Eval β} {a : α} {s t : Store} (h : m s = .ok a t) :
    (m >>= k) s = k a t := by
  simp only [bind, EStateM.bind, h]

lemma bind_error {m : Eval α} {k : α → Eval β} {e : Interrupt} {s t : Store}
    (h : m s = .error e t) : (m >>= k) s = .error e t := by
  simp only [bind, EStateM.bind, h]

@[simp] lemma pure_apply (a : α) (s : Store) : (pure a : Eval α) s = .ok a s := rfl

@[simp] lemma throw_apply (e : Interrupt) (s : Store) : (throw e : Eval α) s = .error e s := rfl

@[simp] lemma raise_apply (fault : Fault) (s : Store) :
    (raise fault : Eval α) s = .error (.fault fault none) s := rfl

@[simp] lemma modify_apply (f : Store → Store) (s : Store) :
    (modify f : Eval PUnit) s = .ok ⟨⟩ (f s) := rfl

@[simp] lemma get_bind (k : Store → Eval β) (s : Store) : (get >>= k) s = k s s := rfl

lemma declare_apply (frame : FrameId) (name : String) (value : Value) (isFinal : Bool)
    (ascription : Option String) (s : Store) :
    declare frame name value isFinal ascription s =
      if (s.bindings frame).contains name then .error (.fault (.redeclared name) none) s
      else match bindingFault? value ascription with
        | some fault => .error (.fault fault none) s
        | none => .ok value (s.setBinding frame name ⟨value, isFinal, ascription⟩) := by
  simp only [declare, get_bind]
  split
  · rfl
  · cases bindingFault? value ascription <;> rfl

lemma assign_apply (frame : FrameId) (name : String) (value : Value) (s : Store) :
    assign frame name value s =
      match s.owner? name frame with
      | none => .error (.fault (.undefined name) none) s
      | some owner => match (s.bindings owner).find? name with
        | none => .error (.fault (.undefined name) none) s
        | some b =>
          if b.isFinal then .error (.fault (.finalAssigned name) none) s
          else match bindingFault? value b.ascription with
            | some fault => .error (.fault fault none) s
            | none => .ok value (s.setBinding owner name { b with value }) := by
  cases ho : s.owner? name frame with
  | none =>
    have hr : resolve frame name s = .error (.fault (.undefined name) none) s := by
      simp only [resolve, get_bind, ho, raise_apply]
    simp only [assign, bind_error hr]
  | some owner =>
    have hr : resolve frame name s = .ok owner s := by
      simp only [resolve, get_bind, ho, pure_apply]
    simp only [assign, bind_ok hr, get_bind]
    cases (s.bindings owner).find? name with
    | none => rfl
    | some b =>
      cases hf : b.isFinal with
      | true => simp [hf]
      | false =>
        simp only [hf, Bool.false_eq_true, if_false]
        cases bindingFault? value b.ascription <;> rfl

end Eval

end Klang

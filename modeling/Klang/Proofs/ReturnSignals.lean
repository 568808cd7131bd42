import Klang.Proofs.Interrupts

/-! Where a `return` goes. It leaves no call, and no node whose `return` statements all stand in
functions of the node. -/

namespace Klang

namespace Node

def outside (node : Node) : List Node :=
  node :: if node.isFunction then []
    else node.children.attach.flatMap fun ⟨child, _⟩ => outside child
termination_by node
decreasing_by exact sizeOf_lt_of_mem_children ‹_›

def ReturnsInside (node : Node) : Prop := ∀ m ∈ node.outside, m.isReturn = false

variable {n m : Node}

lemma mem_outside : m ∈ n.outside ↔
    m = n ∨ n.isFunction = false ∧ ∃ c ∈ n.children, m ∈ c.outside := by
  rw [outside]
  cases n.isFunction with
  | true => simp
  | false => simp

namespace ReturnsInside

lemma self (h : n.ReturnsInside) : n.isReturn = false := h n (mem_outside.2 (.inl rfl))

lemma intro (hn : n.isReturn = false)
    (hc : n.isFunction = false → ∀ c ∈ n.children, c.ReturnsInside) : n.ReturnsInside := by
  intro m hm
  obtain rfl | ⟨hf, c, hmem, hm⟩ := mem_outside.1 hm
  · exact hn
  · exact hc hf c hmem m hm

lemma child (h : n.ReturnsInside) (hf : n.isFunction = false) (hm : m ∈ n.children) :
    m.ReturnsInside :=
  fun k hk => h k (mem_outside.2 (.inr ⟨hf, m, hm, hk⟩))

lemma here (h : n.ReturnsInside) (hm : m ∈ n.here) : m.ReturnsInside := by
  obtain ⟨hf, hm | ⟨target, ht, htf, hm⟩⟩ := mem_here hm
  · exact h.child hf hm
  · exact (h.child hf ht).child htf hm

lemma inside (h : n.ReturnsInside) (hm : m ∈ n.inside) : m.ReturnsInside :=
  h.child (mem_inside hm).1 (mem_inside hm).2

end ReturnsInside

end Node

namespace Eval

variable {α : Type} {m : Eval α}

/-- No `return` leaves the computation. -/
def Contained (m : Eval α) : Prop := ∀ s v t, m s ≠ .error (.returning v) t

lemma contained_iff : Contained m ↔ StopsBy (fun e => ¬ e.IsReturn) m := by
  constructor
  · intro h s e t he
    refine .inr ?_
    rintro ⟨v, rfl⟩
    exact h s v t he
  · intro h s v t he
    obtain ⟨reason, span, hfault⟩ | hreturn := h s _ t he
    · cases hfault
    · exact hreturn ⟨v, rfl⟩

lemma not_isReturn_tooDeep : ¬ Interrupt.tooDeep.IsReturn := fun ⟨_, h⟩ => nomatch h

lemma not_isReturn_exhausted : ¬ Interrupt.exhausted.IsReturn := fun ⟨_, h⟩ => nomatch h

lemma contained_declare (frame : FrameId) (name : String) (value : Value) (isFinal : Bool)
    (ascription : Option String) : Contained (declare frame name value isFinal ascription) :=
  contained_iff.2 (stopsBy_declare _ _ _ _ _)

lemma contained_iterationItems (iterable : Value) : Contained (iterationItems iterable) := by
  intro s v t h
  cases iterable <;> cases h

end Eval

open Eval

structure Evaluator.Contains (inner : Evaluator) : Prop where
  node : ∀ {context frame n}, n.ReturnsInside → Contained (inner.node context frame n)
  call : ∀ context function arguments caller,
    Contained (inner.call context function arguments caller)

namespace Evaluator

variable {inner : Evaluator} {context : Context} {frame : FrameId} {n : Node}

lemma contained_expectBoolean (construct : Construct) (v : Value) :
    Contained (expectBoolean construct v) := by
  intro s w t h
  cases v <;> cases h

section

variable (h : inner.Contains)

include h

lemma contained_meaning (bound : Nat) (hn : n.ReturnsInside) :
    Contained (meaning inner bound context frame n) := by
  rw [contained_iff]
  apply stopsBy_meaning
  · rintro m (hm | hm) context frame
    · exact contained_iff.1 (h.node (hn.here hm))
    · exact contained_iff.1 (h.node (hn.inside hm))
  · exact fun _ => ⟨⟨not_isReturn_tooDeep, not_isReturn_exhausted⟩,
      fun context g vs caller => contained_iff.1 (h.call context g vs caller)⟩
  · exact fun hreturn => Bool.noConfusion (hreturn.symm.trans hn.self)

lemma contained_visit (bound : Nat) (hn : n.ReturnsInside) :
    Contained (visit inner bound context frame n) :=
  contained_iff.2 (stopsBy_visit (contained_iff.1 (contained_meaning h bound hn)))

end

lemma contained_callResult (policies : Policies) (body : Eval Value) :
    Contained (callResult policies body) := by
  intro s v t he
  rw [callResult] at he
  split at he
  · cases he
  · cases he
  · rename_i hnone _
    exact hnone v t he

lemma contained_perform (h : inner.Contains) (bound : Nat) (function : Value)
    (arguments : List Value) (caller : Option FrameId) :
    Contained (perform inner bound context function arguments caller) := by
  rw [contained_iff]
  apply stopsBy_perform ⟨not_isReturn_tooDeep, not_isReturn_exhausted⟩
  · exact fun context g vs caller => contained_iff.1 (h.call context g vs caller)
  · exact fun context frame closure => contained_iff.1 (contained_callResult context.policies _)

end Evaluator

lemma contains_within (bound : Nat) :
    Evaluator.Contains ⟨evaluateWithin bound, callWithin bound⟩ := by
  have hnothing {α : Type} : Contained (throw .exhausted : Eval α) :=
    contained_iff.2 (stopsBy_throw not_isReturn_exhausted)
  induction bound with
  | zero => exact ⟨fun _ => hnothing, fun _ _ _ _ => hnothing⟩
  | succ bound ih =>
    constructor
    · intro context frame n hn
      exact Evaluator.contained_visit ih bound hn
    · intro context function arguments caller
      exact Evaluator.contained_perform ih bound function arguments caller

end Klang

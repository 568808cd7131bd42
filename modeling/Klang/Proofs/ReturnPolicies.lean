import Klang.Proofs.Concatenation.Runs
import Klang.Proofs.Lockstep.Code
import Klang.Proofs.ReturnSignals

/-! The policies about `return` only matter where one is missing or misplaced. If every function ends
with a `return`, and none stands outside of all functions, runs under any of these policies are the
same. -/

namespace Klang

open Eval

namespace Node

def endsInReturn (body : Node) : Bool := body.statements.getLast?.any isReturn

/-- The body of a function has a `return` as its last statement. -/
def HasFinalReturn : Node → Prop
  | function _ _ body | definition _ _ _ body => body.endsInReturn = true
  | _ => True

end Node

namespace Eval

variable {α β : Type} {m : Eval α}

def Unfinished (m : Eval α) : Prop := ∀ s v t, m s ≠ .ok v t

lemma unfinished_throw (e : Interrupt) : Unfinished (throw e : Eval α) := fun _ _ _ h => nomatch h

lemma Unfinished.bind_left (h : Unfinished m) (k : α → Eval β) : Unfinished (m >>= k) := by
  intro s v t hr
  cases hm : m s with
  | ok a u => exact h s a u hm
  | error e u =>
    rw [bind_error hm] at hr
    cases hr

lemma Unfinished.bind_right {k : α → Eval β} (h : ∀ a, Unfinished (k a)) :
    Unfinished (m >>= k) := by
  intro s v t hr
  cases hm : m s with
  | ok a u =>
    rw [bind_ok hm] at hr
    exact h a u v t hr
  | error e u =>
    rw [bind_error hm] at hr
    cases hr

lemma Unfinished.located (h : Unfinished m) (span : Option Source.Span) :
    Unfinished (Eval.located span m) := by
  intro s v t hr
  rw [Eval.located] at hr
  split at hr
  · cases hr
  · exact h s v t hr

end Eval

lemma unfinished_return (bound : Nat) (context : Context) (frame : FrameId) {n : Node}
    (hn : n.isReturn = true) : Unfinished (evaluateWithin bound context frame n) := by
  cases bound with
  | zero => exact unfinished_throw _
  | succ bound =>
    obtain ⟨span, value, rfl⟩ : ∃ span value, n = .returnStatement span value := by
      cases n with
      | returnStatement span value => exact ⟨span, value, rfl⟩
      | _ => cases hn
    have hmeaning : Unfinished (Evaluator.meaning ⟨evaluateWithin bound, callWithin bound⟩ bound
        context frame (.returnStatement span value)) := by
      cases value with
      | none => exact unfinished_throw _
      | some value => exact .bind_right fun v => unfinished_throw _
    rw [evaluateWithin, Evaluator.visit]
    split
    · exact .bind_right fun _ => hmeaning.located _
    · exact hmeaning.located _

lemma unfinished_body (bound : Nat) (context : Context) (frame : FrameId) {body : Node}
    (h : body.endsInReturn = true) (last : Value) :
    Unfinished (Evaluator.statements ⟨evaluateWithin bound, callWithin bound⟩ context frame
      body.statements last) := by
  rw [Node.endsInReturn, Option.any_eq_true_iff_get] at h
  obtain ⟨hsome, hreturn⟩ := h
  obtain ⟨nodes, hnodes⟩ := List.getLast?_eq_some_iff.1 (Option.some_get hsome).symm
  rw [hnodes, Evaluator.statements_append]
  refine .bind_right fun v => ?_
  exact (unfinished_return bound context frame hreturn).bind_left _

def Policies.withReturns (implicitReturn topLevelReturn : Bool) (policies : Policies) : Policies :=
  { policies with implicitReturn, topLevelReturn }

def returningCode (implicitReturn topLevelReturn : Bool) : Lockstep where
  policies := Policies.withReturns implicitReturn topLevelReturn
  closure c := c.body.Everywhere Node.HasFinalReturn ∧ c.body.endsInReturn = true
  node _ n := n.Everywhere Node.HasFinalReturn

variable {implicitReturn topLevelReturn : Bool}

lemma lawful_returningCode : (returningCode implicitReturn topLevelReturn).Lawful where
  debug := fun _ => rfl
  ordinary := fun _ _ => trivial
  misuse := fun _ _ => trivial
  place := fun _ => trivial
  here := fun hn hm => hn.here hm
  inside := fun hn hm _ => hn.inside hm
  closure := by
    intro frame n c hn hc
    refine ⟨hn.closure hc, ?_⟩
    have hself := hn.self
    cases n with
    | function | definition =>
      obtain rfl := Option.some.inj hc
      exact hself
    | _ => cases hc
  body := fun hc hm _ => hc.1.child (Node.mem_children_of_mem_statements hm)
  declares := fun _ _ => Nat.zero_le _

lemma follows_returningCode (bound : Nat) :
    Evaluator.Follows (returningCode implicitReturn topLevelReturn)
      ⟨evaluateWithin bound, callWithin bound⟩ ⟨evaluateWithin bound, callWithin bound⟩ := by
  have hd : (returningCode implicitReturn topLevelReturn).Lawful := lawful_returningCode
  refine Lockstep.follows_within hd (fun _ h => Lockstep.carriesBinary h hd fun _ => rfl) ?_ bound
  rintro bound h w context _ frame c _ ⟨rfl, hp⟩ ⟨rfl, hc⟩ ho
  -- No body ends without a `return`, so the policy has no last value to decide about.
  refine Lockstep.runs_iff.2 ((Lockstep.goes_body h hd hp hc ho).callResult ?_)
  rintro ⟨s, v, t, hok⟩
  exact absurd hok (unfinished_body bound context frame hc.2 .null s v t)

def Interrupt.mask (m : Mask) : Interrupt → Interrupt
  | .returning v => .returning (v.mask m)
  | interrupt => interrupt

def maskResult (m : Mask) :
    EStateM.Result Interrupt Store Value → EStateM.Result Interrupt Store Value
  | .ok v s => .ok (v.mask m) (s.mask m s.trace)
  | .error e s => .error (e.mask m) (s.mask m s.trace)

lemma finalStore_maskResult (m : Mask) (r : EStateM.Result Interrupt Store Value) :
    finalStore (maskResult m r) = (finalStore r).mask m (finalStore r).trace := by
  cases r <;> rfl

lemma Lockstep.Ends.eq_maskResult {d : Lockstep} (hf : d.faithful)
    {near : Option Source.Span → Prop} {r r' : EStateM.Result Interrupt Store Value}
    (h : d.Ends near d.Imaged r r') : r' = maskResult d.mask r := by
  cases h with
  | ok ha ht => rw [maskResult, ha.1, ht.image, ht.trace hf]
  | error he ht =>
    rw [maskResult, ht.image, ht.trace hf]
    cases he <;> rfl
  | loose hn _ => exact absurd hf hn

lemma settle_of_contained {m : Eval Value} (h : Contained m) (policies : Policies) (s : Store) :
    settle policies (m s) = m s := by
  unfold settle
  split
  · rename_i v t hr
    exact absurd hr (h s v t)
  · rfl

lemma evaluate_returnPolicies {program : Node} (hp : program.Everywhere Node.HasFinalReturn)
    {policies : Policies} {frame : FrameId} {s s' : Store}
    (hs : (returningCode implicitReturn topLevelReturn).Stores s s') :
    evaluate (policies.withReturns implicitReturn topLevelReturn) frame program s' =
      maskResult (.ofPolicies (Policies.withReturns implicitReturn topLevelReturn))
        (evaluate policies frame program s) := by
  have hfollows := @follows_returningCode implicitReturn topLevelReturn stepBound
  have hpolicy : (returningCode implicitReturn topLevelReturn).policy
      (Context.ofPolicies policies).policies := trivial
  exact (hfollows.node hpolicy hp s s' hs).eq_maskResult trivial

/-- A program whose functions end with a `return`, and whose `return` statements all stand in functions,
run in fresh stores under policies that differ about `return`. The results and the stores they leave
are the same but for the policies that builtins were made with. -/
theorem runProgram_returnPolicies {program : Node} (hfinal : ∀ n ∈ program.preorder, n.HasFinalReturn)
    (hinside : program.ReturnsInside) {policies : Policies} {extra : List (String × HostFunction)}
    {start : Store} (hstart : globalStore policies extra = .ok start)
    (implicitReturn topLevelReturn : Bool) :
    let mask := Mask.ofPolicies (Policies.withReturns implicitReturn topLevelReturn)
    let other := policies.withReturns implicitReturn topLevelReturn
    ∃ start', globalStore other extra = .ok start' ∧
      let result := runProgram policies rootFrame program start
      let result' := runProgram other rootFrame program start'
      result' = maskResult mask result ∧
        (finalStore result').output = (finalStore result).output ∧
          ∀ frame, (finalStore result').bindings frame =
            ((finalStore result).bindings frame).map (Binding.mask mask) := by
  intro mask other
  obtain ⟨start', hstart', hstores⟩ := Lockstep.stores_globalStore
    (d := returningCode implicitReturn topLevelReturn) (fun _ _ => trivial) trivial rfl trivial hstart
  have hcontained (policies : Policies) : Contained (evaluate policies rootFrame program) :=
    (contains_within stepBound).node hinside
  have hruns : runProgram other rootFrame program start' =
      maskResult mask (runProgram policies rootFrame program start) := by
    rw [runProgram_eq_settle, runProgram_eq_settle, settle_of_contained (hcontained other),
      settle_of_contained (hcontained policies)]
    exact evaluate_returnPolicies (Node.everywhere_of_preorder hfinal) hstores
  refine ⟨start', hstart', hruns, ?_, ?_⟩
  · rw [hruns, finalStore_maskResult]
    rfl
  · intro frame
    rw [hruns, finalStore_maskResult, Store.bindings_mask]

theorem runProgram_returnPolicies_call :
    let program : Node := .program none [.expressionStatement none (.call none
      (.function none [] (.block none [.returnStatement none (some (.boolean none true))])) [])]
    (∀ n ∈ program.preorder, n.HasFinalReturn) ∧ program.ReturnsInside ∧
      ∀ implicitReturn topLevelReturn,
        let other := Policies.withReturns implicitReturn topLevelReturn {}
        ∃ start' after', globalStore other [] = .ok start' ∧
          runProgram other rootFrame program start' = .ok (.boolean true) after' := by
  intro program
  have hfinal : program.Everywhere Node.HasFinalReturn := by
    refine .intro trivial (List.forall_mem_singleton.2 ?_)
    refine .intro trivial (List.forall_mem_singleton.2 ?_)
    refine .intro trivial (List.forall_mem_singleton.2 ?_)
    refine .intro rfl (List.forall_mem_singleton.2 ?_)
    refine .intro trivial (List.forall_mem_singleton.2 ?_)
    refine .intro trivial (List.forall_mem_singleton.2 ?_)
    exact .intro trivial (List.forall_mem_nil _)
  have hinside : program.ReturnsInside := by
    refine .intro rfl fun _ => List.forall_mem_singleton.2 ?_
    refine .intro rfl fun _ => List.forall_mem_singleton.2 ?_
    refine .intro rfl fun _ => List.forall_mem_singleton.2 ?_
    exact .intro rfl nofun
  have hpreorder : ∀ n ∈ program.preorder, n.HasFinalReturn := fun _ => hfinal.of_mem_preorder
  refine ⟨hpreorder, hinside, fun implicitReturn topLevelReturn => ?_⟩
  have hstart : globalStore {} [] = .ok (standardStore {}) := rfl
  obtain ⟨after, hrun⟩ : ∃ after, runProgram {} rootFrame program (standardStore {}) =
      .ok (.boolean true) after := by
    obtain ⟨bound, hbound⟩ : ∃ bound, stepBound = bound + 6 := ⟨stepBound - 6, by decide⟩
    unfold runProgram evaluate
    rw [hbound]
    exact ⟨_, rfl⟩
  obtain ⟨start', hstart', hruns, -⟩ :=
    runProgram_returnPolicies hpreorder hinside hstart implicitReturn topLevelReturn
  rw [hrun] at hruns
  exact ⟨start', _, hstart', hruns⟩

end Klang

import Klang.Proofs.Concatenation.Runs
import Klang.Proofs.Lockstep.Code
import Klang.Proofs.ParsedNodes

/-! Leaving out right operands of `&&` and `||` once the left one decides. Where these operands have no
effects, a run that evaluates them and ends with a value is followed by the run that leaves them
out. -/

namespace Klang

open Eval

namespace Node

/-- Nodes that call, write or make something new. -/
def isEffect : Node → Bool
  | call .. | assignment .. | function .. | list .. | map .. | binary _ .add _ _ => true
  | _ => false

def IsEffectFree (n : Node) : Prop := ∀ m ∈ n.preorder, m.isEffect = false

/-- The right operand of a logical operator has no effects. -/
def HasQuietRight : Node → Prop
  | binary _ operator _ right => Evaluator.isLogical operator = true → right.IsEffectFree
  | _ => True

variable {n m : Node}

lemma IsEffectFree.self (h : n.IsEffectFree) : n.isEffect = false := h n (mem_preorder.2 (.inl rfl))

lemma IsEffectFree.child (h : n.IsEffectFree) (hm : m ∈ n.children) : m.IsEffectFree :=
  fun k hk => h k (mem_preorder.2 (.inr ⟨m, hm, hk⟩))

end Node

structure Store.SameData (s t : Store) : Prop where
  frames : t.frames = s.frames
  cells : t.cells = s.cells
  output : t.output = s.output

namespace Eval

variable {α β : Type}

/-- A computation that leaves nothing but traces, and no `return`. -/
def Quiet (m : Eval α) : Prop :=
  ∀ s, s.SameData (finalStore (m s)) ∧ ∀ v t, m s ≠ .error (.returning v) t

lemma quiet_pure (a : α) : Quiet (pure a) := by
  refine fun s => ⟨⟨rfl, rfl, rfl⟩, fun v t h => ?_⟩
  cases h

lemma quiet_throw {e : Interrupt} (he : ∀ v, e ≠ .returning v) : Quiet (throw e : Eval α) := by
  refine fun s => ⟨⟨rfl, rfl, rfl⟩, fun v t h => ?_⟩
  cases h
  exact he v rfl

lemma quiet_raise (reason : Fault) : Quiet (raise reason : Eval α) := quiet_throw nofun

lemma quiet_log (line : String) : Quiet (log line) := by
  refine fun s => ⟨⟨rfl, rfl, rfl⟩, fun v t h => ?_⟩
  cases h

lemma quiet_ofExcept (r : Except Fault α) : Quiet (ofExcept r) := by
  cases r with
  | ok a => exact quiet_pure a
  | error reason => exact quiet_raise reason

lemma quiet_get {k : Store → Eval β} (h : ∀ s, Quiet (k s)) : Quiet (get >>= k) := fun s => h s s

lemma Quiet.bind {m : Eval α} {k : α → Eval β} (h : Quiet m) (hk : ∀ a, Quiet (k a)) :
    Quiet (m >>= k) := by
  intro s
  obtain ⟨hdata, hreturn⟩ := h s
  cases hr : m s with
  | ok a t =>
    rw [hr] at hdata
    obtain ⟨hdata', hreturn'⟩ := hk a t
    rw [bind_ok hr]
    exact ⟨⟨hdata'.frames.trans hdata.frames, hdata'.cells.trans hdata.cells,
      hdata'.output.trans hdata.output⟩, hreturn'⟩
  | error e t =>
    rw [hr] at hdata hreturn
    rw [bind_error hr]
    refine ⟨hdata, fun v u h => ?_⟩
    cases h
    exact hreturn v t rfl

lemma Quiet.located {m : Eval α} (h : Quiet m) (span : Option Source.Span) :
    Quiet (Eval.located span m) := by
  intro s
  obtain ⟨hdata, hreturn⟩ := h s
  unfold Eval.located
  split
  · rename_i hr
    rw [hr] at hdata
    refine ⟨hdata, fun v t h => ?_⟩
    cases h
  · exact ⟨hdata, hreturn⟩

lemma quiet_lookup (frame : FrameId) (name : String) : Quiet (lookup frame name) := by
  refine quiet_get fun s => ?_
  split
  · exact quiet_pure _
  · exact quiet_raise _

lemma quiet_indexValue (target index : Value) : Quiet (indexValue target index) := by
  cases target with
  | list cell =>
    exact (quiet_get fun _ => quiet_pure _).bind fun _ => (quiet_ofExcept _).bind fun _ => quiet_pure _
  | string text => exact (quiet_ofExcept _).bind fun _ => quiet_pure _
  | map cell =>
    exact (quiet_ofExcept _).bind fun _ => (quiet_get fun _ => quiet_pure _).bind fun _ => quiet_pure _
  | _ => exact quiet_raise _

lemma quiet_binaryApply {operator : BinaryOperator} (ho : operator ≠ .add) (left right : Value) :
    Quiet (operator.apply left right) := by
  cases hs : operator.onScalars? left right with
  | some v =>
    unfold BinaryOperator.apply
    rw [hs]
    exact quiet_pure v
  | none =>
    rw [BinaryOperator.apply_eq_of_onScalars? hs (fun h => ho h.1) (fun h => ho h.1),
      if_neg fun h => ho h.1]
    exact quiet_raise _

lemma quiet_expectBoolean (construct : Construct) (v : Value) :
    Quiet (Evaluator.expectBoolean construct v) := by
  cases v with
  | boolean b => exact quiet_pure b
  | _ => exact quiet_raise _

end Eval

namespace Evaluator

variable {inner : Evaluator} {context : Context} {frame : FrameId}

lemma quiet_shortCircuit {right : Node} (hr : Quiet (inner.node context frame right))
    (operator : BinaryOperator) (left : Value) :
    Quiet (shortCircuit inner context frame operator left right) := by
  refine (quiet_expectBoolean _ left).bind fun decided => ?_
  split
  · exact quiet_pure _
  · refine hr.bind fun second => ?_
    cases second with
    | boolean b => exact quiet_pure _
    | _ => exact quiet_raise _

lemma quiet_meaning
    (h : ∀ {n : Node}, n.IsExpression → n.IsEffectFree → Quiet (inner.node context frame n))
    (bound : Nat) {n : Node} (hn : n.IsExpression) (he : n.IsEffectFree) :
    Quiet (meaning inner bound context frame n) := by
  have hself := he.self
  cases hn with
  | number | string | boolean => exact quiet_pure _
  | identifier => exact quiet_lookup frame _
  | unary _ ho =>
    exact (h ho (he.child (by simp [Node.children]))).bind fun _ => quiet_ofExcept _
  | @binary _ operator _ _ _ hl hr =>
    have hadd : operator ≠ .add := by
      rintro rfl
      cases hself
    have hright := h hr (he.child (by simp [Node.children]))
    refine (h hl (he.child (by simp [Node.children]))).bind fun first => ?_
    split
    · exact quiet_shortCircuit hright operator first
    · exact hright.bind fun second => quiet_binaryApply hadd first second
  | index ht hk =>
    exact (h ht (he.child (by simp [Node.children]))).bind fun _ =>
      (h hk (he.child (by simp [Node.children]))).bind fun _ => quiet_indexValue _ _
  | list | map | assignment | call | function => cases hself

end Evaluator

lemma quiet_evaluateWithin (bound : Nat) (context : Context) (frame : FrameId) {n : Node}
    (hn : n.IsExpression) (he : n.IsEffectFree) : Quiet (evaluateWithin bound context frame n) := by
  induction bound generalizing n with
  | zero => exact quiet_throw nofun
  | succ bound ih =>
    have hmeaning : Quiet (Evaluator.meaning ⟨evaluateWithin bound, callWithin bound⟩ bound context
        frame n) := Evaluator.quiet_meaning (fun hn he => ih hn he) bound hn he
    simp only [evaluateWithin, Evaluator.visit]
    split
    · exact (quiet_log _).bind fun _ => hmeaning.located _
    · exact hmeaning.located _

def Policies.shortCircuiting (policies : Policies) : Policies :=
  { policies with shortCircuit := true }

def shortCircuiting : Mask := .ofPolicies Policies.shortCircuiting

/-- A run that evaluates both operands of logical operators, followed by one that need not do so. -/
abbrev quietCode : Lockstep :=
  .code Node.HasQuietRight (fun _ => True) Policies.shortCircuiting (fun p => p.shortCircuit = false)
    False

lemma lawful_quietCode : quietCode.Lawful :=
  Lockstep.lawful_code (fun _ _ => trivial) fun _ => rfl

lemma stores_of_sameData {s s' t : Store} (hs : quietCode.Stores s s') (ht : s.SameData t) :
    quietCode.Stores t s' := by
  refine ⟨⟨?_, ?_⟩, ?_, ?_, False.elim⟩
  · rw [ht.frames]
    exact hs.holds.frames
  · rw [ht.cells]
    exact hs.holds.cells
  · exact hs.names.of_frames_eq ht.frames
  · conv => lhs; rw [hs.image]
    simp only [Store.mask, ht.frames, ht.cells, ht.output]

lemma apply_logical_cases {operator : BinaryOperator} (ho : Evaluator.isLogical operator = true)
    (left right : Value) :
    (∃ reason, operator.apply left right = raise reason) ∨
      ∃ a b, left = .boolean a ∧ right = .boolean b ∧
        operator.apply left right =
          pure (.boolean (if a = (operator = .or : Bool) then a else b)) := by
  have hcases : operator = .and ∨ operator = .or := by simpa [Evaluator.isLogical] using ho
  have hadd : operator ≠ .add := by rcases hcases with rfl | rfl <;> exact nofun
  by_cases hb : ∃ a b, left = .boolean a ∧ right = .boolean b
  · obtain ⟨a, b, rfl, rfl⟩ := hb
    refine .inr ⟨a, b, rfl, rfl, ?_⟩
    rcases hcases with rfl | rfl <;> cases a <;> cases b <;> rfl
  · have hscalars : operator.onScalars? left right = none := by
      unfold BinaryOperator.onScalars?
      split
      · rcases hcases with rfl | rfl <;> rfl
      · rcases hcases with rfl | rfl <;> rfl
      · exact absurd ⟨_, _, rfl, rfl⟩ hb
      · rfl
    refine .inl ⟨.operation left.tag operator right.tag, ?_⟩
    rw [BinaryOperator.apply_eq_of_onScalars? hscalars (fun h => hadd h.1) (fun h => hadd h.1),
      if_neg fun h => hadd h.1]

lemma Evaluator.shortCircuit_boolean (inner : Evaluator) (context : Context) (frame : FrameId)
    (operator : BinaryOperator) (a : Bool) (right : Node) :
    shortCircuit inner context frame operator (.boolean a) right =
      if a = (operator = .or : Bool) then pure (.boolean a)
      else inner.node context frame right >>= fun second =>
        match second with
        | .boolean _ => pure second
        | _ => raise (.operation .boolean operator second.tag) := rfl

section

variable {bound : Nat} {context : Context} {frame : FrameId} {operator : BinaryOperator} {right : Node}
  (h : Evaluator.Follows quietCode ⟨evaluateWithin bound, callWithin bound⟩
    ⟨evaluateWithin bound, callWithin bound⟩)

include h

lemma goes_logical (hp : context.policies.shortCircuit = false)
    (ho : Evaluator.isLogical operator = true) (hr : quietCode.node frame right)
    (hquiet : Quiet (evaluateWithin bound context frame right)) (first : Value) :
    quietCode.Goes (evaluateWithin bound context frame right >>= operator.apply first)
      (Evaluator.shortCircuit ⟨evaluateWithin bound, callWithin bound⟩ (quietCode.context context)
        frame operator (quietCode.image first) right) := by
  intro s s' hs
  obtain ⟨hdata, hreturn⟩ := hquiet s
  cases hrun : evaluateWithin bound context frame right s with
  | error e t =>
    -- The second run may leave out what fails here; nothing is asked of it any more.
    rw [hrun] at hreturn
    rw [bind_error hrun]
    exact .loose id fun v he => hreturn v t (he ▸ rfl)
  | ok second t =>
    rw [hrun] at hdata
    rw [bind_ok hrun]
    rcases apply_logical_cases ho first second with ⟨reason, happly⟩ | ⟨a, b, rfl, rfl, happly⟩
    · rw [happly]
      exact .loose id nofun
    · have himage : quietCode.image (.boolean a) = .boolean a := rfl
      rw [happly, himage, Evaluator.shortCircuit_boolean]
      split
      -- The left operand decides, and the right one has left nothing but traces.
      · exact .ok ⟨rfl, trivial⟩ (stores_of_sameData hs hdata)
      · have hends := h.node hp hr s s' hs
        simp only [hrun] at hends
        generalize hrun' : evaluateWithin bound (quietCode.context context) frame right s' = r'
          at hends
        cases hends with
        | ok ha ht =>
          obtain ⟨rfl, _⟩ := ha
          rw [bind_ok hrun']
          exact .ok ⟨rfl, trivial⟩ ht

lemma carriesBinary_quietCode :
    quietCode.simulation.CarriesBinary ⟨evaluateWithin bound, callWithin bound⟩
      ⟨evaluateWithin bound, callWithin bound⟩ := by
  rintro w context _ frame s s' operator _ left _ right ⟨rfl, hp⟩ hn ⟨rfl, hleft⟩ ⟨rfl, hright⟩
  have hcarries := Lockstep.carries h
  have hlawful := Lockstep.lawful lawful_quietCode
  have hstrict : context.policies.shortCircuit = false := hp
  have hshort : (quietCode.context context).policies.shortCircuit = true := rfl
  refine hlawful.bind (hcarries.node ⟨rfl, hp⟩ ⟨rfl, hleft⟩) fun _ first first' _ hfirst => ?_
  rw [hstrict, hshort, Bool.false_and, Bool.true_and, if_neg Bool.false_ne_true]
  cases ho : Evaluator.isLogical operator with
  | false =>
    refine hlawful.bind (hcarries.node ⟨rfl, hp⟩ ⟨rfl, hright⟩) fun _ second second' _ hsecond => ?_
    exact hlawful.binaryApply operator hfirst hsecond
  | true =>
    have hexpression : right.IsExpression := by
      rcases hn.2.self.1 with hb | hb | hb
      · exact hb.here (by simp [Node.here])
      · exact hb.here (by simp [Node.here])
      · cases hb
    obtain ⟨rfl, _⟩ := (Lockstep.alike_iff first first').1 hfirst
    rw [if_pos rfl]
    exact Lockstep.runs_iff.2 (goes_logical h hp ho hright
      (quiet_evaluateWithin bound context frame hexpression (hn.2.self.2 ho)) first)

end

lemma follows_quietCode (bound : Nat) :
    Evaluator.Follows quietCode ⟨evaluateWithin bound, callWithin bound⟩
      ⟨evaluateWithin bound, callWithin bound⟩ :=
  Lockstep.follows_within lawful_quietCode (fun _ h => carriesBinary_quietCode h)
    (fun _ h => Lockstep.carriesBody h lawful_quietCode fun _ => rfl) bound

lemma stores_fresh {policies : Policies} (hp : policies.shortCircuit = false)
    {extra : List (String × HostFunction)} {start : Store}
    (h : globalStore policies extra = .ok start) :
    ∃ start', globalStore policies.shortCircuiting extra = .ok start' ∧
      quietCode.Stores start start' := by
  let d : Lockstep := .code Node.HasQuietRight (fun _ => True) Policies.shortCircuiting
    (fun p => p.shortCircuit = false) True
  obtain ⟨start', hstart', hs⟩ := Lockstep.stores_globalStore (d := d) (fun _ h => h) trivial rfl hp h
  exact ⟨start', hstart', hs.holds, hs.names, hs.image, False.elim⟩

lemma settle_eq_ok {policies : Policies} {near : Option Source.Span → Prop}
    {r r' : EStateM.Result Interrupt Store Value}
    (h : quietCode.Ends near quietCode.Imaged r r') {v : Value} {t : Store}
    (hr : settle policies r = .ok v t) :
    ∃ t', settle policies.shortCircuiting r' = .ok (quietCode.image v) t' ∧
      quietCode.Stores t t' := by
  cases h with
  | ok ha ht =>
    cases hr
    exact ⟨_, ha.1 ▸ rfl, ht⟩
  | error he ht =>
    cases he with
    | returning =>
      cases hreturn : policies.topLevelReturn with
      | true =>
        simp only [settle, hreturn, if_true] at hr
        cases hr
        refine ⟨_, ?_, ht⟩
        simp only [settle, Policies.shortCircuiting, hreturn, if_true]
      | false =>
        simp only [settle, hreturn, Bool.false_eq_true, if_false] at hr
        cases hr
    | _ => cases hr
  | @loose e _ _ _ he =>
    cases e with
    | returning v => exact absurd rfl (he v)
    | _ => cases hr

/-- A program whose logical operators have right operands without effects, run with and without
leaving these out. The values and stores are the same but for the policies that builtins were made
with, and for the traces. -/
theorem runProgram_shortCircuit {policies : Policies} (hp : policies.shortCircuit = false)
    {tokens : List Token} {program : Node} (hparse : parseProgram tokens = .ok program)
    (hquiet : ∀ n ∈ program.preorder, n.HasQuietRight) {extra : List (String × HostFunction)}
    {start after : Store} (hstart : globalStore policies extra = .ok start) {value : Value}
    (hrun : runProgram policies rootFrame program start = .ok value after) :
    ∃ start' after', globalStore policies.shortCircuiting extra = .ok start' ∧
      runProgram policies.shortCircuiting rootFrame program start' =
        .ok (value.mask shortCircuiting) after' ∧
      after'.output = after.output ∧
      (∀ frame, after'.bindings frame = (after.bindings frame).map (Binding.mask shortCircuiting)) ∧
      after'.frames = after.frames.map (Frame.mask shortCircuiting) ∧
      after'.cells = after.cells.map (Cell.mask shortCircuiting) := by
  have hmask : quietCode.mask = shortCircuiting := rfl
  obtain ⟨start', hstart', hs⟩ := stores_fresh hp hstart
  have hcode : quietCode.node rootFrame program :=
    (everywhere_of_parseProgram hparse).and (Node.everywhere_of_preorder hquiet)
  have hpolicy : quietCode.policy (Context.ofPolicies policies).policies := hp
  have hends := (follows_quietCode stepBound).node hpolicy hcode start start' hs
  rw [runProgram_eq_settle] at hrun
  obtain ⟨after', hrun', ht⟩ := settle_eq_ok hends hrun
  refine ⟨start', after', hstart', ?_, ?_, ?_, ?_, ?_⟩
  · rw [runProgram_eq_settle]
    exact hrun'
  · rw [ht.image]
    rfl
  · intro frame
    rw [ht.image, hmask, Store.bindings_mask]
  · rw [ht.image]
    rfl
  · rw [ht.image]
    rfl

theorem runProgram_shortCircuit_conjunction :
    let tokens : List Token := [⟨.keyword, "false", default⟩, ⟨.operator, "&&", default⟩,
      ⟨.keyword, "true", default⟩, ⟨.eof, "", default⟩]
    let program : Node := .program (some default) [.expressionStatement (some default)
      (.binary (some default) .and (.boolean (some default) false) (.boolean (some default) true))]
    parseProgram tokens = .ok program ∧
      ∃ start' after', globalStore (Policies.shortCircuiting {}) [] = .ok start' ∧
        runProgram (Policies.shortCircuiting {}) rootFrame program start' =
          .ok (.boolean false) after' := by
  intro tokens program
  have hparse : parseProgram tokens = .ok program := by rfl
  have hleaf {p : Node → Prop} {b : Bool} (h : p (.boolean (some default) b)) :
      (Node.boolean (some default) b).Everywhere p := .intro h (by simp [Node.children])
  have hfree : (Node.boolean (some default) true).IsEffectFree := by
    intro m hm
    exact (hleaf (p := fun m => m.isEffect = false) rfl).of_mem_preorder hm
  have hquiet : program.Everywhere Node.HasQuietRight := by
    refine .intro trivial fun m hm => ?_
    obtain rfl := List.mem_singleton.1 hm
    refine .intro trivial fun m hm => ?_
    obtain rfl := List.mem_singleton.1 hm
    refine .intro (fun _ => hfree) fun m hm => ?_
    simp only [Node.children, List.mem_cons, List.not_mem_nil, or_false] at hm
    rcases hm with rfl | rfl
    · exact hleaf trivial
    · exact hleaf trivial
  have hstart : globalStore {} [] = .ok (standardStore {}) := rfl
  obtain ⟨after, hrun⟩ : ∃ after, runProgram {} rootFrame program (standardStore {}) =
      .ok (.boolean false) after := by
    obtain ⟨bound, hbound⟩ : ∃ bound, stepBound = bound + 4 := ⟨stepBound - 4, by decide⟩
    unfold runProgram evaluate
    rw [hbound]
    exact ⟨_, rfl⟩
  obtain ⟨start', after', hs, hr, -⟩ := runProgram_shortCircuit rfl hparse
    (fun _ => hquiet.of_mem_preorder) hstart hrun
  exact ⟨hparse, start', after', hs, hr⟩

end Klang

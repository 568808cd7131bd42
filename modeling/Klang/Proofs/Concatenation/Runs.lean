import Klang.Proofs.Concatenation.Sources
import Klang.Proofs.Erasure.Evaluator

/-! Running two sources one after the other and running them as one come to the same, apart from
places and traces. -/

namespace Klang

open Eval

variable {policies : Policies} {frame : FrameId}

lemma Evaluator.statements_append (inner : Evaluator) (context : Context) (frame : FrameId)
    (xs ys : List Node) (last : Value) :
    inner.statements context frame (xs ++ ys) last =
      inner.statements context frame xs last >>= inner.statements context frame ys := by
  induction xs generalizing last with
  | nil => rfl
  | cons x xs ih =>
    simp only [List.cons_append, Evaluator.statements, bind_assoc, ih]

lemma agree_evaluate (policies : Policies) (frame : FrameId) (node : Node) :
    Agree SameButPlaces (evaluate policies frame node) (evaluate policies frame node) :=
  (blind_within stepBound).node _ frame node node rfl

lemma exists_agree_statements (policies : Policies) (frame : FrameId) :
    ∃ inner : Evaluator, inner.Blind ∧ ∀ span nodes,
      Agree SameButPlaces (evaluate policies frame (.program span nodes))
        (inner.statements (.ofPolicies policies) frame nodes .null) := by
  obtain ⟨bound, hbound⟩ : ∃ bound, stepBound = bound + 1 :=
    Nat.exists_eq_succ_of_ne_zero (by decide)
  have hblind := blind_within bound
  refine ⟨_, hblind, fun span nodes => ?_⟩
  have hnodes := Evaluator.agree_statements hblind (.ofPolicies policies) frame
    (show Node.EachAlike nodes nodes from rfl) (show Value.null.erase = Value.null.erase from rfl)
  have hlocated := hnodes.located_left span
  unfold evaluate
  rw [hbound, evaluateWithin]
  unfold Evaluator.visit
  split
  · exact hlocated.log_left _
  · exact hlocated

/-- A program behind another one starts in the store that one left and drops its value. -/
lemma eraseResult_evaluate_append {span spanA spanB : Option Source.Span} {xs ys nodes : List Node}
    (hnodes : Node.EachAlike (xs ++ ys) nodes) (hne : ys ≠ []) {s s' t after : Store} {value : Value}
    (hs : s.erase = s'.erase) (ht : t.erase = after.erase)
    (hrun : evaluate policies frame (.program spanA xs) s' = .ok value after) :
    eraseResult (evaluate policies frame (.program span nodes) s) =
      eraseResult (evaluate policies frame (.program spanB ys) t) := by
  obtain ⟨inner, hblind, hprogram⟩ := exists_agree_statements policies frame
  let run := inner.statements (.ofPolicies policies) frame
  have hwhole : eraseResult (evaluate policies frame (.program span nodes) s) =
      eraseResult (run (xs ++ ys) .null s) := by
    rw [(hprogram span nodes s s rfl).eraseResult_eq]
    exact (Evaluator.agree_statements hblind _ frame hnodes.symm rfl s s rfl).eraseResult_eq
  have hfirst : AgreeingEnds SameButPlaces (.ok value after) (run xs .null s) := by
    rw [← hrun]
    exact hprogram spanA xs s' s hs.symm
  obtain ⟨y, ys, rfl⟩ := List.exists_cons_of_ne_nil hne
  generalize hm : run xs .null s = r at hfirst
  cases hfirst with
  | @ok _ v _ u _ hu =>
    have happend : run (xs ++ y :: ys) .null s = run (y :: ys) v u := by
      simp only [run, Evaluator.statements_append]
      exact bind_ok hm
    rw [hwhole, happend]
    -- The value of the first program is dropped by the first statement of the second one.
    exact (hprogram spanB (y :: ys) t u (ht.trans hu)).eraseResult_eq.symm

namespace Outcome

/-- What a run tells apart from places: its value, or the category and the message of its error. -/
def erase : Outcome → Outcome
  | value result => value result.erase
  | failed diagnostic => failed { diagnostic with span := none }
  | returned => returned
  | tooDeep => tooDeep
  | exhausted => exhausted

lemma erase_of (r : EStateM.Result Interrupt Store Value) :
    ((of r).1.erase, (of r).2.erase) = of (eraseResult r) := by
  cases r with
  | ok result s => rfl
  | error interrupt s => cases interrupt <;> rfl

end Outcome

def settle (policies : Policies) :
    EStateM.Result Interrupt Store Value → EStateM.Result Interrupt Store Value
  | .error (.returning value) store =>
    if policies.topLevelReturn then .ok value store else .error (.fault .strayReturn none) store
  | result => result

lemma runProgram_eq_settle (policies : Policies) (frame : FrameId) (program : Node) (s : Store) :
    runProgram policies frame program s = settle policies (evaluate policies frame program s) := by
  unfold runProgram settle
  rfl

lemma settle_eq_fault {policies : Policies} {r : EStateM.Result Interrupt Store Value}
    {reason : Fault} {span : Option Source.Span} {t : Store}
    (h : settle policies r = .error (.fault reason span) t) :
    r = .error (.fault reason span) t ∨ reason = .strayReturn ∧ span = none := by
  unfold settle at h
  split at h
  · split at h
    · cases h
    · cases h
      exact .inr ⟨rfl, rfl⟩
  · exact .inl h

lemma eraseResult_settle (policies : Policies) (r : EStateM.Result Interrupt Store Value) :
    eraseResult (settle policies r) = settle policies (eraseResult r) := by
  cases r with
  | ok result s => rfl
  | error interrupt s =>
    cases interrupt with
    | returning result =>
      by_cases hp : policies.topLevelReturn = true
      · simp [settle, eraseResult, Interrupt.erase, hp]
      · simp [settle, eraseResult, Interrupt.erase, hp]
    | _ => rfl

lemma runSource_of_ok {debug : Bool} {file source : String} {program : Node}
    (h : (readProgram file source).result = .ok program) (s : Store) :
    runSource debug policies file source s = Outcome.of (settle policies
      (evaluate policies rootFrame program (s.logAll debug (readProgram file source).trace))) := by
  rw [runSource, h, ← runProgram_eq_settle]

lemma runSource_erase {debug : Bool} {file source : String} {program : Node}
    (h : (readProgram file source).result = .ok program) {store after : Store} {value : Value}
    (hrun : evaluate policies rootFrame program store = .ok value after) :
    (runSource debug policies file source store).2.erase = after.erase := by
  have hagree := agree_evaluate policies rootFrame program
    (store.logAll debug (readProgram file source).trace) store (Store.erase_logAll store debug _)
  rw [hrun] at hagree
  rw [runSource_of_ok h]
  generalize evaluate policies rootFrame program _ = r at hagree ⊢
  cases hagree with
  | ok _ ht => exact ht

/-- Two sources that can be read, with a semicolon on a line of its own between them, run as they do
one after the other, provided the first one runs to its end and the second one has a statement. -/
theorem runSource_separated {debug : Bool} {policies : Policies} {fileA fileB a b : String}
    {programA programB : Node} (ha : (readProgram fileA a).result = .ok programA)
    (hb : (readProgram fileB b).result = .ok programB) (hne : programB.statements ≠ [])
    {store after : Store} {value : Value}
    (hrun : evaluate policies rootFrame programA store = .ok value after) (file : String) :
    let first := runSource debug policies fileA a store
    let second := runSource debug policies fileB b first.2
    let whole := runSource debug policies file (a ++ "\n;\n" ++ b) store
    whole.1.erase = second.1.erase ∧ whole.2.erase = second.2.erase ∧
      whole.2.output = second.2.output ∧
        (whole.2.bindings rootFrame).map Binding.erase =
          (second.2.bindings rootFrame).map Binding.erase := by
  intro first second whole
  obtain ⟨-, -, -, spanA, -, -, hprogramA⟩ := exists_program_of_readProgram ha
  obtain ⟨-, -, -, spanB, -, -, hprogramB⟩ := exists_program_of_readProgram hb
  obtain ⟨span, nodes, hread, hnodes⟩ := readProgram_separated ha hb file
  have hfirst : first.2.erase = after.erase := runSource_erase ha hrun
  have hevaluate :
      eraseResult (evaluate policies rootFrame (.program span nodes)
        (store.logAll debug (readProgram file (a ++ "\n;\n" ++ b)).trace)) =
      eraseResult (evaluate policies rootFrame programB
        (first.2.logAll debug (readProgram fileB b).trace)) := by
    rw [hprogramA] at hrun
    rw [hprogramB]
    exact eraseResult_evaluate_append hnodes hne (Store.erase_logAll store debug _)
      ((Store.erase_logAll first.2 debug _).trans hfirst) hrun
  have hends : (whole.1.erase, whole.2.erase) = (second.1.erase, second.2.erase) := by
    simp only [whole, second]
    rw [runSource_of_ok hread, runSource_of_ok hb, Outcome.erase_of, Outcome.erase_of,
      eraseResult_settle, eraseResult_settle, hevaluate]
  obtain ⟨houtcome, hstore⟩ := Prod.mk.inj hends
  have houtput : whole.2.erase.output = second.2.erase.output := congrArg Store.output hstore
  exact ⟨houtcome, hstore, houtput, bindings_eq_of_erase_eq hstore rootFrame⟩

theorem runSource_separated_comment :
    let store := standardStore {}
    let first := runSource true {} "first" "let a = true//" store
    let second := runSource true {} "second" "!a" first.2
    let whole := runSource true {} "whole" ("let a = true//" ++ "\n;\n" ++ "!a") store
    ∃ programA programB value after,
      (readProgram "first" "let a = true//").result = .ok programA ∧
        (readProgram "second" "!a").result = .ok programB ∧ programB.statements ≠ [] ∧
          evaluate {} rootFrame programA store = .ok value after ∧
            whole.1.erase = second.1.erase ∧ whole.2.erase = second.2.erase := by
  intro store first second whole
  have hlet : Token.front (Token.layout "let a = true//".toList).2 =
      .lexeme .keyword "let".toList " a = true//".toList := Token.front_layout_of_none rfl
  have hname : Token.front (Token.layout " a = true//".toList).2 =
      .lexeme .identifier "a".toList " = true//".toList :=
    (Token.front_layout_of_some rfl).trans (Token.front_layout_of_none rfl)
  have hequals : Token.front (Token.layout " = true//".toList).2 =
      .lexeme .operator "=".toList " true//".toList :=
    (Token.front_layout_of_some rfl).trans (Token.front_layout_of_none rfl)
  have htrue : Token.front (Token.layout " true//".toList).2 =
      .lexeme .keyword "true".toList "//".toList :=
    (Token.front_layout_of_some rfl).trans (Token.front_layout_of_none rfl)
  have hcomment : Token.front (Token.layout "//".toList).2 = .done :=
    (Token.front_layout_of_some rfl).trans (Token.front_layout_of_none rfl)
  have hbang : Token.front (Token.layout "!a".toList).2 =
      .lexeme .operator "!".toList "a".toList := Token.front_layout_of_none rfl
  have hoperand : Token.front (Token.layout "a".toList).2 =
      .lexeme .identifier "a".toList "".toList := Token.front_layout_of_none rfl
  have hend : Token.front (Token.layout "".toList).2 = .done := Token.front_layout_of_none rfl
  have hpieces := Token.pieces_of_lexeme hlet
  rw [Token.pieces_of_lexeme hname, Token.pieces_of_lexeme hequals, Token.pieces_of_lexeme htrue,
    Token.pieces_of_done hcomment] at hpieces
  have hpieces' := Token.pieces_of_lexeme hbang
  rw [Token.pieces_of_lexeme hoperand, Token.pieces_of_done hend] at hpieces'
  obtain ⟨place, htokens⟩ := Token.tokenize_of_pieces "first" hpieces
  obtain ⟨place', htokens'⟩ := Token.tokenize_of_pieces "second" hpieces'
  obtain ⟨s, t, u, ha⟩ : ∃ s t u, (readProgram "first" "let a = true//").result =
      .ok (.program s [.declaration t "a" (.boolean u true) false none]) :=
    ⟨_, _, _, readProgram_of_ok htokens rfl⟩
  obtain ⟨v, first, others, hb⟩ : ∃ v first others, (readProgram "second" "!a").result =
      .ok (.program v (first :: others)) := ⟨_, _, _, readProgram_of_ok htokens' rfl⟩
  obtain ⟨value, after, hrun⟩ : ∃ value after, evaluate {} rootFrame
      (.program s [.declaration t "a" (.boolean u true) false none]) store = .ok value after := by
    obtain ⟨bound, hbound⟩ : ∃ bound, stepBound = bound + 3 := ⟨stepBound - 3, by decide⟩
    unfold evaluate
    rw [hbound]
    exact ⟨_, _, rfl⟩
  have hne : (Node.program v (first :: others)).statements ≠ [] := List.cons_ne_nil first others
  obtain ⟨houtcome, hstore, -⟩ := runSource_separated ha hb hne hrun "whole"
  exact ⟨_, _, value, after, ha, hb, hne, hrun, houtcome, hstore⟩

end Klang

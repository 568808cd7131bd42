import Klang.Proofs.Concatenation.Runs
import Klang.Proofs.Locations.Parsers
import Klang.Proofs.Locations.Tokens
import Klang.Proofs.Lockstep.Code
import Klang.Proofs.ParsedNodes

/-! Failures are located. Wherever reading or running a source in a fresh store fails, the failure has
the place of a token, and its report shows this place. -/

namespace Klang

open Source Token

variable {file source : String}

def InSource (file source : String) (place : Option Span) : Prop :=
  ∃ span, place = some span ∧ IsPlace file source span

lemma readProgram_located (file source : String) :
    (∃ program, (readProgram file source).result = .ok program ∧
      program.Everywhere fun n => n.IsWellFormed ∧ InSource file source n.span) ∨
    ∃ d, (readProgram file source).result = .error d ∧ InSource file source d.span := by
  cases htokens : tokenize file source with
  | error e =>
    refine .inr ⟨e.diagnostic, ?_, e.span, rfl, isPlace_of_error htokens⟩
    simp only [readProgram, readWith, readTokens, htokens]
  | ok tokens =>
    rcases parseProgram_located (getLast?_of_tokenize htokens) with
      ⟨program, hparse, hplaced⟩ | ⟨c, t, ht, hparse⟩
    · have hplaces : program.Everywhere fun n => InSource file source n.span := by
        refine hplaced.mono fun n hn => ?_
        obtain ⟨t, ht, hspan⟩ := hn
        exact ⟨t.span, hspan, isPlace_of_mem htokens ht⟩
      exact .inl ⟨program, readProgram_of_ok htokens hparse,
        (everywhere_of_parseProgram hparse).and hplaces⟩
    · refine .inr ⟨(ParseError.rejected c t).diagnostic source, ?_, t.span, rfl,
        isPlace_of_mem htokens ht⟩
      simp only [readProgram, readWith, readTokens, htokens, hparse]
      rfl

lemma Outcome.of_eq_failed {r : EStateM.Result Interrupt Store Value} {d : Diagnostic} {t : Store}
    (h : of r = (failed d, t)) :
    ∃ reason span, r = .error (.fault reason span) t ∧ d = reason.diagnostic span := by
  cases r with
  | ok => cases h
  | error interrupt =>
    cases interrupt with
    | fault reason span =>
      cases h
      exact ⟨reason, span, rfl, rfl⟩
    | _ => cases h

lemma runSource_empty_saysMore (debug : Bool) (policies : Policies) (file : String)
    (start : Store) : ∃ store, runSource debug policies file "" start = (.value .null, store) ∧
      start.SaysMore store := by
  have hpieces : pieces "".toList = ([], .clean (layout "".toList).1) :=
    pieces_of_done (front_layout_of_none rfl)
  obtain ⟨place, htokens⟩ := tokenize_of_pieces file hpieces
  rw [runSource_of_ok (readProgram_of_ok htokens rfl)]
  have hlog := start.saysMore_logAll debug (readProgram file "").trace
  obtain ⟨bound, hbound⟩ : ∃ bound, stepBound = bound + 1 := ⟨stepBound - 1, by decide⟩
  unfold evaluate
  rw [hbound, evaluateWithin, Evaluator.visit]
  cases hdebug : (Context.ofPolicies policies).policies.debug with
  | true => exact ⟨_, rfl, hlog.trans (Store.saysMore_log _ _)⟩
  | false => exact ⟨_, rfl, hlog⟩

lemma runSource_empty (debug : Bool) (policies : Policies) (file : String) (start : Store) :
    ∃ store, runSource debug policies file "" start = (.value .null, store) := by
  obtain ⟨store, hrun, -⟩ := runSource_empty_saysMore debug policies file start
  exact ⟨store, hrun⟩

end Klang

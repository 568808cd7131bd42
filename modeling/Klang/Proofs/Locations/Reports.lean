import Klang.Diagnostic
import Klang.Proofs.Locations.Excerpts

/-! What a report shows. The report of a failure in a source has the line where it lies among its
own lines, and a caret on the line below. -/

namespace Klang

namespace Source

def IsEnded (text : String) : Prop := text = "" ∨ ∃ body, text = body ++ "\n"

lemma IsEnded.append {a b : String} (ha : IsEnded a) (hb : IsEnded b) : IsEnded (a ++ b) := by
  rcases hb with rfl | ⟨body, rfl⟩
  · rwa [String.append_empty]
  · exact .inr ⟨a ++ body, (String.append_assoc ..).symm⟩

lemma IsEnded.suffix {a : String} (ha : IsEnded a) (b : String) : lines b <:+ lines (a ++ b) := by
  rcases ha with rfl | ⟨body, rfl⟩
  · rw [String.empty_append]
  · rw [lines_append]
    exact List.suffix_append _ _

end Source

open Source

namespace Diagnostic

variable (d : Diagnostic)

lemma isEnded_locationLine : IsEnded d.locationLine := by
  unfold locationLine
  split
  · exact .inr ⟨_, rfl⟩
  · exact .inl rfl

lemma isEnded_expectationLines : IsEnded d.expectationLines := by
  have hif (c : Prop) [Decidable c] (body : String) : IsEnded (if c then "" else body ++ "\n") := by
    split
    · exact .inl rfl
    · exact .inr ⟨_, rfl⟩
  unfold expectationLines
  split
  · refine (hif _ _).append ?_
    split
    · exact hif _ _
    · exact .inl rfl
  · exact .inl rfl

lemma infix_lines_report {source : String} {span : Span} (hspan : d.span = some span)
    (hfirst : 1 ≤ span.start.line) (hlast : span.start.line ≤ (lines source).length)
    (hsource : source ≠ "") :
    [numberedLine span.start.line.toNat (line source span.start.line), caretLine span.start.column]
      <:+: lines (d.report source) := by
  have hsurroundings : d.surroundings source =
      excerpt source span.start.line span.start.column 2 ++ "\n" ++ "" := by
    simp only [surroundings, hspan, if_neg hsource, String.append_empty]
  have hhead : IsEnded (s!"{d.category.title}: {d.message}\n" ++ d.locationLine ++
      d.expectationLines) :=
    (IsEnded.append (.inr ⟨_, rfl⟩) d.isEnded_locationLine).append d.isEnded_expectationLines
  calc [numberedLine span.start.line.toNat (line source span.start.line),
        caretLine span.start.column]
      <:+: excerptLines source span.start.line span.start.column 2 :=
        infix_excerptLines hfirst hlast (by decide)
    _ = lines (excerpt source span.start.line span.start.column 2) :=
        (lines_excerpt hfirst hlast (by decide)).symm
    _ <:+: lines (d.surroundings source) := by
        rw [hsurroundings, lines_append]
        exact (List.prefix_append _ _).isInfix
    _ <:+: lines (d.report source) := (hhead.suffix _).isInfix

end Diagnostic

end Klang

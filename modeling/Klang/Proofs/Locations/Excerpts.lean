import Klang.Source.Excerpt
import Klang.Source.Position
import Mathlib.Data.List.Infix
import Mathlib.Tactic.Lemma

/-! Excerpts line by line. An excerpt shows the lines around a given one in order, and a caret
directly behind this one. -/

namespace Klang.Source

lemma splitLines_eq_splitOn (text : List Char) : splitLines text = text.splitOn '\n' := by
  induction text with
  | nil => rfl
  | cons c rest ih =>
    rw [List.splitOn_cons_eq_if_modifyHead, ← ih, splitLines]
    by_cases hc : c = '\n'
    · simp [hc]
    · simp only [hc, beq_iff_eq, if_false]
      cases hlines : splitLines rest with
      | nil => exact absurd hlines (splitLines_ne_nil rest)
      | cons line others => rfl

lemma newline_not_mem_of_mem_splitLines {text line : List Char} (h : line ∈ splitLines text) :
    '\n' ∉ line := by
  induction text generalizing line with
  | nil =>
    obtain rfl := List.mem_singleton.1 h
    exact List.not_mem_nil
  | cons c rest ih =>
    rw [splitLines] at h
    split at h
    · rcases List.mem_cons.1 h with rfl | h
      · exact List.not_mem_nil
      · exact ih h
    · rename_i hc
      cases hlines : splitLines rest with
      | nil => exact absurd hlines (splitLines_ne_nil rest)
      | cons first others =>
        rw [hlines] at h ih
        rcases List.mem_cons.1 h with rfl | h
        · exact List.not_mem_cons_of_ne_of_not_mem (Ne.symm hc) (ih List.mem_cons_self)
        · exact ih (List.mem_cons_of_mem _ h)

lemma length_splitLines (text : List Char) (offset : Nat) :
    (splitLines text).length = (newlinesFrom offset text).length + 1 := by
  induction text generalizing offset with
  | nil => rfl
  | cons c rest ih =>
    rw [splitLines, newlinesFrom]
    split
    · rw [List.length_cons, ih (offset + 1), List.length_cons]
    · rw [← ih (offset + 1)]
      cases hlines : splitLines rest with
      | nil => exact absurd hlines (splitLines_ne_nil rest)
      | cons first others => rfl

lemma length_lines (source : String) :
    (lines source).length = (newlines source.toList).length + 1 := by
  rw [lines, List.length_map, length_splitLines _ 0, newlines]

lemma newline_not_mem_of_mem_lines {source line : String} (h : line ∈ lines source) :
    '\n' ∉ line.toList := by
  obtain ⟨text, htext, rfl⟩ := List.mem_map.1 h
  rw [String.toList_ofList]
  exact newline_not_mem_of_mem_splitLines htext

lemma lines_append (a b : String) : lines (a ++ "\n" ++ b) = lines a ++ lines b := by
  have htext : (a ++ "\n" ++ b).toList = a.toList ++ '\n' :: b.toList := by simp
  simp only [lines, htext, splitLines_eq_splitOn, List.splitOn_append_cons_self, List.map_append]

lemma lines_intercalate {texts : List String} (h : ∀ text ∈ texts, '\n' ∉ text.toList)
    (hne : texts ≠ []) : lines ("\n".intercalate texts) = texts := by
  have htext : ("\n".intercalate texts).toList = ['\n'].intercalate (texts.map String.toList) :=
    String.toList_intercalate
  rw [lines, splitLines_eq_splitOn, htext, List.splitOn_intercalate '\n' (by simpa using h)
    (by simpa using hne), List.map_map]
  simp

lemma toList_pushn (text : String) (c : Char) (count : Nat) :
    (text.pushn c count).toList = text.toList ++ List.replicate count c := by
  induction count with
  | zero => simp [String.pushn, Nat.repeat]
  | succ count ih =>
    have hpush : text.pushn c (count + 1) = (text.pushn c count).push c := rfl
    rw [hpush, String.toList_push, ih, List.append_assoc, List.replicate_succ']

lemma newline_not_mem_numberedLine (number : Nat) {text : String} (h : '\n' ∉ text.toList) :
    '\n' ∉ (numberedLine number text).toList := by
  have hdigits : '\n' ∉ Nat.toDigits 10 number := by
    intro hc
    exact absurd (Nat.isDigit_of_mem_toDigits (by decide) (by decide) hc) (by decide)
  simp [numberedLine, toList_pushn, h, hdigits]

lemma newline_not_mem_caretLine (column : Int) : '\n' ∉ (caretLine column).toList := by
  simp [caretLine, toList_pushn]

variable {source : String} {number radius : Nat} {column : Int}

lemma newline_not_mem_of_mem_excerptLines {number radius : Int} {text : String}
    (h : text ∈ excerptLines source number column radius) : '\n' ∉ text.toList := by
  obtain ⟨⟨content, index⟩, hmem, htext⟩ := List.mem_flatMap.1 h
  have hcontent : '\n' ∉ content.toList :=
    newline_not_mem_of_mem_lines (List.fst_mem_of_mem_zipIdx hmem)
  have hnumbered := newline_not_mem_numberedLine (index + 1) hcontent
  dsimp only at htext
  split at htext
  · split at htext
    · rcases List.mem_cons.1 htext with rfl | htext
      · exact hnumbered
      · obtain rfl := List.mem_singleton.1 htext
        exact newline_not_mem_caretLine column
    · obtain rfl := List.mem_singleton.1 htext
      exact hnumbered
  · cases htext

/-- What is shown for one line of a source. -/
def shownAt (source : String) (number : Nat) (column : Int) (radius index : Nat) : List String :=
  if number - radius ≤ index ∧ index ≤ number + radius then
    numberedLine index (line source index) :: if index = number then [caretLine column] else []
  else []

def numberedLines (source : String) (first last : Nat) : List String :=
  (List.range' first (last + 1 - first)).map fun index => numberedLine index (line source index)

lemma zipIdx_lines (source : String) :
    (lines source).zipIdx =
      (List.range (lines source).length).map
        fun index => (line source (index + 1 : Nat), index) := by
  refine List.ext_getElem (by simp) fun index _ hindex => ?_
  have hlt : index < (lines source).length := by simpa using hindex
  have hpositive : (1 : Int) ≤ (index + 1 : Nat) := by omega
  rw [List.getElem_map, List.getElem_range, List.getElem_zipIdx, line, if_pos hpositive]
  simp [hlt]

lemma excerptLines_eq_flatMap (source : String) (number : Nat) (column : Int) (radius : Nat) :
    excerptLines source number column radius =
      (List.range' 1 (lines source).length).flatMap (shownAt source number column radius) := by
  rw [excerptLines, zipIdx_lines, List.flatMap_map, List.range'_succ_left, List.flatMap_map,
    List.range_eq_range']
  refine List.flatMap_congr fun index _ => ?_
  have hnear : ((number : Int) - radius - 1 ≤ index ∧ (index : Int) < number + radius) ↔
      number - radius ≤ index + 1 ∧ index + 1 ≤ number + radius := by omega
  have hhere : (index : Int) = number - 1 ↔ index + 1 = number := by omega
  simp only [shownAt, hnear, hhere]
  split
  · split <;> rfl
  · rfl

lemma flatMap_shownAt_far {first count : Nat}
    (h : ∀ index, first ≤ index → index < first + count →
      index < number - radius ∨ number + radius < index) :
    (List.range' first count).flatMap (shownAt source number column radius) = [] := by
  refine List.flatMap_eq_nil_iff.2 fun index hindex => if_neg ?_
  obtain ⟨hle, hlt⟩ := List.mem_range'_1.1 hindex
  have hfar := h index hle hlt
  omega

lemma flatMap_shownAt_near {first last : Nat} (hfirst : number - radius ≤ first)
    (hlast : last ≤ number + radius) (hnumber : number < first ∨ last < number) :
    (List.range' first (last + 1 - first)).flatMap (shownAt source number column radius) =
      numberedLines source first last := by
  rw [numberedLines, List.map_eq_flatMap]
  refine List.flatMap_congr fun index hindex => ?_
  rw [List.mem_range'_1] at hindex
  rw [shownAt, if_pos (by omega), if_neg (by omega)]

lemma numberedLines_concat {first : Nat} (h : first ≤ number + 1) :
    numberedLines source first (number + 1) =
      numberedLines source first number ++
        [numberedLine (number + 1) (line source (number + 1 : Nat))] := by
  have hcount : number + 1 + 1 - first = number + 1 - first + 1 := by omega
  have hlast : first + (number + 1 - first) = number + 1 := by omega
  rw [numberedLines, hcount, List.range'_1_concat, hlast, List.map_append, numberedLines]
  rfl

lemma range'_eq_append {first last count : Nat} (hone : 1 ≤ first) (hfirst : first ≤ number)
    (hlast : number ≤ last) (hcount : last ≤ count) :
    List.range' 1 count = List.range' 1 (first - 1) ++ (List.range' first (number - first) ++
      number :: (List.range' (number + 1) (last - number) ++
        List.range' (last + 1) (count - last))) := by
  have hbehind : number :: List.range' (number + 1) (count - number) =
      List.range' number (count - number + 1) := (List.range'_succ ..).symm
  have hrest : List.range' (number + 1) (last - number) ++ List.range' (last + 1) (count - last) =
      List.range' (number + 1) (count - number) := by
    have hnext : last + 1 = number + 1 + (last - number) := by omega
    rw [hnext, List.range'_append_1]
    congr 1
    omega
  have hfrom : List.range' first (number - first) ++ List.range' number (count - number + 1) =
      List.range' first (count + 1 - first) := by
    have hnext : number = first + (number - first) := by omega
    nth_rewrite 2 [hnext]
    rw [List.range'_append_1]
    congr 1
    omega
  have hnext : first = 1 + (first - 1) := by omega
  rw [hrest, hbehind, hfrom]
  nth_rewrite 2 [hnext]
  rw [List.range'_append_1]
  congr 1
  omega

lemma excerptLines_eq (hnumber : 1 ≤ number) (hcount : number ≤ (lines source).length) :
    excerptLines source number column radius =
      numberedLines source (max 1 (number - radius)) number ++ caretLine column ::
        numberedLines source (number + 1) (min (lines source).length (number + radius)) := by
  obtain ⟨before, rfl⟩ := Nat.exists_eq_add_of_le' hnumber
  generalize hfirst : max 1 (before + 1 - radius) = first
  generalize hlast : min (lines source).length (before + 1 + radius) = last
  have hbehind : last - (before + 1) = last + 1 - (before + 1 + 1) := by omega
  have hone : 1 ≤ first := by omega
  have hfrom : first ≤ before + 1 := by omega
  have hto : before + 1 ≤ last := by omega
  rw [excerptLines_eq_flatMap, range'_eq_append hone hfrom hto (by omega), List.flatMap_append,
    List.flatMap_append, List.flatMap_cons, List.flatMap_append, hbehind,
    flatMap_shownAt_far fun _ _ _ => by omega,
    flatMap_shownAt_near (by omega) (by omega) (by omega),
    flatMap_shownAt_near (by omega) (by omega) (by omega),
    flatMap_shownAt_far fun _ _ _ => by omega, numberedLines_concat (by omega), shownAt,
    if_pos (by omega), if_pos rfl]
  simp

section

variable {number radius : Int}

lemma infix_excerptLines (hfirst : 1 ≤ number) (hlast : number ≤ (lines source).length)
    (hradius : 0 ≤ radius) :
    [numberedLine number.toNat (line source number), caretLine column] <:+:
      excerptLines source number column radius := by
  obtain ⟨before, rfl⟩ : ∃ before : Nat, number = (before + 1 : Nat) :=
    ⟨(number - 1).toNat, by omega⟩
  obtain ⟨radius, rfl⟩ := Int.eq_ofNat_of_zero_le hradius
  rw [excerptLines_eq (by omega) (by omega), numberedLines_concat (by omega), List.append_assoc]
  exact (List.prefix_append [_, _] _).isInfix.trans (List.suffix_append _ _).isInfix

lemma lines_excerpt (hfirst : 1 ≤ number) (hlast : number ≤ (lines source).length)
    (hradius : 0 ≤ radius) :
    lines (excerpt source number column radius) = excerptLines source number column radius := by
  refine lines_intercalate (fun text htext => newline_not_mem_of_mem_excerptLines htext) ?_
  intro hnil
  have hinfix : _ <:+: excerptLines source number column radius :=
    infix_excerptLines hfirst hlast hradius
  rw [hnil, List.infix_nil] at hinfix
  cases hinfix

end

end Klang.Source

import Klang.Proofs.Locations.Positions

/-! Where the caret of an excerpt stands: under the character at the offset that it is made for, up
to line 9999. -/

namespace Klang.Source

lemma toList_numberedLine (index : Nat) (text : String) :
    ∃ label : List Char, (numberedLine index text).toList = label ++ text.toList ∧
      label.length = max 4 (Nat.toDigits 10 index).length + 2 := by
  refine ⟨List.replicate (4 - (Nat.toDigits 10 index).length) ' ' ++ Nat.toDigits 10 index ++
    [':', ' '], ?_, ?_⟩
  · simp [numberedLine, toList_pushn, Nat.repr_eq_ofList_toDigits]
  · rw [List.length_append, List.length_append, List.length_replicate, List.length_cons,
      List.length_singleton]
    omega

lemma toList_caretLine (column : Nat) :
    (caretLine (column + 1)).toList = List.replicate (6 + column) ' ' ++ "^ Error here".toList := by
  simp [caretLine, toList_pushn, List.replicate_add]

lemma idxOf_caretLine (column : Nat) : (caretLine (column + 1)).toList.idxOf '^' = 6 + column := by
  rw [toList_caretLine, List.idxOf_append_of_notMem (by simp), List.length_replicate]
  rfl

/-- The excerpt around an offset of a source shows the lines about its own one, numbered and in
order, and the caret directly behind this one. What follows the offset in its line stands exactly
above the caret up to line 9999, and from there on as many columns further right as the number has
more than four digits. -/
theorem excerpt_position {source : String} {offset : Nat} (h : offset ≤ source.toList.length)
    (radius : Nat) :
    ∃ number column : Nat, position source.toList offset = ⟨number, column + 1⟩ ∧
      1 ≤ number ∧ number ≤ (lines source).length ∧
      lines (excerpt source number (column + 1) radius) =
        numberedLines source (max 1 (number - radius)) number ++ caretLine (column + 1) ::
          numberedLines source (number + 1) (min (lines source).length (number + radius)) ∧
      ∃ before, (numberedLine number (line source number)).toList =
          before ++ (source.toList.drop offset).takeWhile (· ≠ '\n') ∧
        before.length = (caretLine (column + 1)).toList.idxOf '^' +
          ((toString number).length - 4) ∧
        (before.length = (caretLine (column + 1)).toList.idxOf '^' ↔ number ≤ 9999) := by
  obtain ⟨ended, last, _, hposition, hlt, hline⟩ := exists_ruled_position h
  obtain ⟨label, hlabel, hlength⟩ :=
    toList_numberedLine (ended.length + 1) (line source (ended.length + 1 : Nat))
  have hdigits : (Nat.toDigits 10 (ended.length + 1)).length ≤ 4 ↔ ended.length + 1 < 10 ^ 4 :=
    Nat.length_toDigits_le_iff (by decide) (by decide)
  have hstring : (toString (ended.length + 1)).length =
      (Nat.toDigits 10 (ended.length + 1)).length := by
    rw [Nat.toString_eq_ofList_toDigits, String.length_ofList]
  refine ⟨ended.length + 1, last.length, hposition, by omega, hlt, ?_, label ++ last, ?_, ?_, ?_⟩
  · have hshown : excerptLines source (ended.length + 1 : Nat) (last.length + 1 : Nat) radius = _ :=
      excerptLines_eq (by omega) hlt
    rw [lines_excerpt (by omega) (by omega) (by omega)]
    exact hshown
  · rw [hlabel, List.append_assoc]
    exact congrArg (label ++ ·) hline
  · rw [idxOf_caretLine, List.length_append, hlength, hstring]
    omega
  · rw [idxOf_caretLine, List.length_append, hlength]
    omega

lemma ruled_replicate (count : Nat) :
    Ruled (List.replicate count '\n') (List.replicate count []) [] := by
  induction count with
  | zero => exact .nil
  | succ count ih => exact .ended ih

/-- The caret for the first character behind 9999 line feeds is a column too far left. -/
theorem excerpt_position_shifted :
    let source := "".pushn '\n' 9999 ++ "x"
    9999 ≤ source.toList.length ∧ position source.toList 9999 = ⟨10000, 1⟩ ∧
      ∃ before, (numberedLine 10000 (line source 10000)).toList =
          before ++ (source.toList.drop 9999).takeWhile (· ≠ '\n') ∧
        before.length = (caretLine 1).toList.idxOf '^' + 1 := by
  intro source
  have hsource : source.toList = List.replicate 9999 '\n' ++ ['x'] := by
    have hone : "x".toList = ['x'] := rfl
    simp only [source, String.toList_append, toList_pushn, String.toList_empty, List.nil_append,
      hone]
  have hlength : 9999 ≤ source.toList.length := by
    rw [hsource, List.length_append, List.length_replicate]
    omega
  have hposition : position source.toList 9999 = ⟨10000, 1⟩ := by
    have hruled := (ruled_replicate 9999).position_append ['x']
    rw [← hsource, List.length_replicate, List.length_replicate] at hruled
    exact hruled
  obtain ⟨number, column, hplace, _, _, _, before, hbefore, hshift, _⟩ :=
    excerpt_position hlength 2
  have hsame : (⟨number, column + 1⟩ : Position) = ⟨10000, 1⟩ := hplace.symm.trans hposition
  obtain ⟨hline, hcolumn⟩ := Position.mk.inj hsame
  obtain rfl : number = 10000 := by omega
  obtain rfl : column = 0 := by omega
  have hfive : (toString 10000).length - 4 = 1 := by decide
  rw [hfive] at hshift
  exact ⟨hlength, hposition, before, hbefore, hshift⟩

end Klang.Source

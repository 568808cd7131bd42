import Klang.Proofs.Locations.Positions
import Mathlib.Data.Int.ConditionallyCompleteOrder
import Mathlib.Data.Int.SuccPred
import Mathlib.Data.Prod.Lex

/-! Offsets against lines and columns. One character further, a position moves on by a column, or
behind a line feed to the next line. So lines count the line feeds before an offset, columns the
characters from the beginning of its line, and positions are in the order of their offsets. -/

namespace Klang.Source

variable {text last : List Char} {lines : List (List Char)} {offset start : Nat}
  {c : Char}

lemma Ruled.concat_newline (h : Ruled text lines last) :
    Ruled (text ++ ['\n']) (lines ++ [last]) [] := by
  induction h with
  | nil => exact .ended .nil
  | ended h ih => exact .ended ih
  | inLast hc h ih => exact .inFirst hc ih
  | inFirst hc h ih => exact .inFirst hc ih

lemma Ruled.concat (h : Ruled text lines last) (hc : c ≠ '\n') :
    Ruled (text ++ [c]) lines (last ++ [c]) := by
  induction h with
  | nil => exact .inLast hc .nil
  | ended h ih => exact .ended ih
  | inLast hd h ih => exact .inLast hd ih
  | inFirst hd h ih => exact .inFirst hd ih

lemma position_zero (text : List Char) : position text (0 : Nat) = ⟨1, 1⟩ :=
  Ruled.nil.position_append text

lemma position_succ (hc : text[offset]? = some c) :
    position text (offset + 1 : Nat) =
      if c = '\n' then ⟨(position text offset).line + 1, 1⟩
      else ⟨(position text offset).line, (position text offset).column + 1⟩ := by
  obtain ⟨hlt, rfl⟩ := List.getElem?_eq_some_iff.1 hc
  obtain ⟨lines, last, hruled⟩ := exists_ruled (text.take offset)
  have hhere := hruled.position_append (text.drop offset)
  rw [List.take_append_drop, List.length_take_of_le hlt.le] at hhere
  -- The text up to the next offset has the lines of the text up to this one and a character more.
  have hnext {lines last} (h : Ruled (text.take offset ++ [text[offset]]) lines last) :
      position text (offset + 1 : Nat) = ⟨lines.length + 1, last.length + 1⟩ := by
    have hplace := h.position_append (text.drop (offset + 1))
    rwa [List.take_append_getElem hlt, List.take_append_drop, List.length_take_of_le hlt] at hplace
  rw [hhere]
  split
  · rename_i hfeed
    rw [hnext (hfeed ▸ hruled.concat_newline), List.length_append]
    rfl
  · rename_i hfeed
    rw [hnext (hruled.concat hfeed), List.length_append]
    rfl

lemma line_position (h : offset ≤ text.length) :
    (position text offset).line = (text.take offset).count '\n' + 1 := by
  induction offset with
  | zero =>
    rw [position_zero]
    rfl
  | succ offset ih =>
    have hlt : offset < text.length := h
    rw [position_succ (List.getElem?_eq_getElem hlt), ← List.take_append_getElem hlt,
      List.count_append]
    split
    · rename_i hfeed
      rw [hfeed, List.count_singleton_self, ih hlt.le]
      push_cast
      rfl
    · rename_i hfeed
      rw [List.count_singleton, if_neg (by simpa using hfeed), ih hlt.le]
      rfl

/-- The offsets at which a line begins: the first one, and those directly behind a line feed. -/
def BeginsLine (text : List Char) (start : Nat) : Prop :=
  start = 0 ∨ ∃ feed, text[feed]? = some '\n' ∧ start = feed + 1

def IsLineStart (text : List Char) (offset start : Nat) : Prop :=
  IsGreatest {start | start ≤ offset ∧ BeginsLine text start} start

lemma BeginsLine.isLineStart (h : BeginsLine text offset) : IsLineStart text offset offset :=
  ⟨⟨le_rfl, h⟩, fun _ hstart => hstart.1⟩

lemma IsLineStart.succ (h : IsLineStart text offset start) (hc : text[offset]? ≠ some '\n') :
    IsLineStart text (offset + 1) start := by
  obtain ⟨⟨hle, hbegins⟩, hgreatest⟩ := h
  refine ⟨⟨Nat.le_succ_of_le hle, hbegins⟩, ?_⟩
  rintro other ⟨hother, rfl | ⟨feed, hfeed, rfl⟩⟩
  · exact Nat.zero_le start
  · have hne : feed ≠ offset := by
      rintro rfl
      exact hc hfeed
    exact hgreatest ⟨by omega, .inr ⟨feed, hfeed, rfl⟩⟩

lemma column_position (h : offset ≤ text.length) :
    ∃ start, IsLineStart text offset start ∧
      (position text offset).column = (offset : Int) - start + 1 := by
  induction offset with
  | zero =>
    have hbegins : BeginsLine text 0 := .inl rfl
    refine ⟨0, hbegins.isLineStart, ?_⟩
    rw [position_zero]
    rfl
  | succ offset ih =>
    have hlt : offset < text.length := h
    have hchar := List.getElem?_eq_getElem hlt
    rw [position_succ hchar]
    split
    · rename_i hfeed
      have hbegins : BeginsLine text (offset + 1) := .inr ⟨offset, hfeed ▸ hchar, rfl⟩
      exact ⟨offset + 1, hbegins.isLineStart, by simp⟩
    · rename_i hfeed
      obtain ⟨start, hstart, hcolumn⟩ := ih hlt.le
      refine ⟨start, hstart.succ (by simpa [hchar] using hfeed), ?_⟩
      change (position text offset).column + 1 = _
      omega

lemma getElem?_line_position {source : String} (h : offset ≤ source.toList.length) :
    let place := position source.toList offset
    place.column - 1 ≤ (line source place.line).toList.length ∧
      (line source place.line).toList[(place.column - 1).toNat]? =
        source.toList[offset]?.filter (· ≠ '\n') := by
  obtain ⟨ended, last, -, hposition, -, hline⟩ := exists_ruled_position h
  have hcolumn : ((last.length : Int) + 1 - 1).toNat = last.length := by omega
  simp only [hposition, hline, hcolumn]
  constructor
  · rw [List.length_append]
    omega
  · rw [List.getElem?_append_right le_rfl, Nat.sub_self, ← List.head?_eq_getElem?,
      List.head?_takeWhile, List.head?_drop]

def Position.lex (place : Position) : ℤ ×ₗ ℤ := toLex (place.line, place.column)

lemma strictMonoOn_position (text : List Char) :
    StrictMonoOn (fun offset => (position text offset).lex) (Set.Icc 0 text.length) := by
  refine strictMonoOn_of_lt_add_one Set.ordConnected_Icc fun offset _ hoffset hnext => ?_
  obtain ⟨offset, rfl⟩ := Int.eq_ofNat_of_zero_le hoffset.1
  have hlt : offset < text.length := by
    have hle := hnext.2
    omega
  have hstep := position_succ (List.getElem?_eq_getElem hlt)
  rw [Int.natCast_succ] at hstep
  rw [hstep, Position.lex, Position.lex, Prod.Lex.toLex_lt_toLex]
  split
  · exact .inl (Int.lt_succ _)
  · exact .inr ⟨rfl, Int.lt_succ _⟩

lemma injOn_position (text : List Char) : Set.InjOn (position text) (Set.Icc 0 text.length) :=
  fun _ ha _ hb h => (strictMonoOn_position text).injOn ha hb (congrArg Position.lex h)

lemma position_congr {a b : Int} (h : (min a text.length).toNat = (min b text.length).toNat) :
    position text a = position text b := by
  rw [position, position, locate, locate, h]

/-- A position for an offset of a source: its line comes behind as many line feeds as there are
before the offset, its column is the distance from the start of this line, and there the line shows
the character at the offset, or ends if this is a line feed or the end of the source. -/
structure IsPositionOf (source : String) (offset : Nat) (place : Position) : Prop where
  line_eq : place.line - 1 = (source.toList.take offset).count '\n'
  column_eq : ∃ start, IsLineStart source.toList offset start ∧
    place.column - 1 = (offset : Int) - start
  column_le : place.column - 1 ≤ (line source place.line).toList.length
  shown : ∀ c, source.toList[offset]? = some c → c ≠ '\n' →
    (line source place.line).toList[(place.column - 1).toNat]? = some c
  ended : source.toList[offset]? = some '\n' ∨ offset = source.toList.length →
    place.column - 1 = (line source place.line).toList.length

lemma isPositionOf_position {source : String} (h : offset ≤ source.toList.length) :
    IsPositionOf source offset (position source.toList offset) := by
  obtain ⟨start, hstart, hcolumn⟩ := column_position h
  obtain ⟨hle, hchar⟩ := getElem?_line_position h
  refine ⟨?_, ⟨start, hstart, ?_⟩, hle, ?_, ?_⟩
  · rw [line_position h, add_sub_cancel_right]
  · rw [hcolumn, add_sub_cancel_right]
  · intro c hc hfeed
    rw [hchar, hc, Option.filter_some, if_pos (by simpa using hfeed)]
  · intro hend
    have hnone : source.toList[offset]?.filter (· ≠ '\n') = none := by
      rcases hend with hfeed | rfl
      · rw [hfeed]
        rfl
      · rw [List.getElem?_eq_none le_rfl]
        rfl
    rw [hnone, List.getElem?_eq_none_iff] at hchar
    have hfirst : start ≤ offset := hstart.1.1
    omega

/-- Offsets and positions of a source correspond, whether the offsets of its line feeds are given or
not: each offset has its line and column, in their order, so that no two have the same ones, and
offsets outside the source have those of its nearer end. -/
theorem locate_offsets (source : String) :
    let text := source.toList
    let place := locate text.length (newlines text).toArray
    (∀ offset : Nat, offset ≤ text.length → IsPositionOf source offset (place offset)) ∧
      StrictMonoOn (fun offset => (place offset).lex) (Set.Icc 0 text.length) ∧
      Set.InjOn place (Set.Icc 0 text.length) ∧
      (∀ offset ≤ 0, place offset = place 0) ∧
      (∀ offset ≥ (text.length : Int), place offset = place text.length) ∧
      ∀ offset, position text offset = place offset := by
  intro text place
  refine ⟨fun offset h => isPositionOf_position h, strictMonoOn_position text, injOn_position text,
    fun offset h => position_congr ?_, fun offset h => position_congr ?_, fun offset => rfl⟩
  · omega
  · omega

theorem locate_offsets_emptyLine :
    let source := "ab\n\nc"
    let text := source.toList
    let place := locate text.length (newlines text).toArray
    3 ≤ text.length ∧ place 3 = ⟨2, 1⟩ ∧ IsPositionOf source 3 (place 3) ∧
      (place 3).lex < (place 4).lex ∧ place (-1) = place 0 ∧ place 7 = place text.length := by
  intro source text place
  obtain ⟨hplace, horder, -, hbefore, hbehind, -⟩ := locate_offsets source
  have hempty : place 3 = ⟨2, 1⟩ := by
    simp [place, text, source, locate, newlines, newlinesFrom, bisect]
  exact ⟨by decide, hempty, hplace 3 (by decide), horder (by decide) (by decide) (by decide),
    hbefore (-1) (by decide), hbehind 7 (by decide)⟩

end Klang.Source

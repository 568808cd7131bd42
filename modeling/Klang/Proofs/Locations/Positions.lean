import Klang.Proofs.Locations.Tokens

/-! Offsets and positions. The position of an offset is the number of lines begun before it and how
far the last of them has come, so the text from a position on is the text from its offset on. -/

namespace Klang.Source

lemma newlinesFrom_append (offset : Nat) (a b : List Char) :
    newlinesFrom offset (a ++ b) = newlinesFrom offset a ++ newlinesFrom (offset + a.length) b := by
  induction a generalizing offset with
  | nil => rfl
  | cons c a ih =>
    have hshift : offset + (c :: a).length = offset + 1 + a.length := by
      rw [List.length_cons]
      omega
    rw [List.cons_append, newlinesFrom, newlinesFrom, ih, hshift]
    split <;> rfl

lemma mem_newlinesFrom {text : List Char} {offset place : Nat}
    (h : place ∈ newlinesFrom offset text) :
    offset ≤ place ∧ place < offset + text.length := by
  induction text generalizing offset with
  | nil => cases h
  | cons c text ih =>
    rw [newlinesFrom] at h
    rw [List.length_cons]
    split at h
    · rcases List.mem_cons.1 h with rfl | h
      · omega
      · have hrest := ih h
        omega
    · have hrest := ih h
      omega

lemma bisect_append {xs ys : List Nat} {bound low high : Nat} (hxs : ∀ x ∈ xs, x < bound)
    (hys : ∀ y ∈ ys, bound ≤ y) (hlow : low ≤ xs.length) (hxs' : xs.length ≤ high)
    (hhigh : high ≤ (xs ++ ys).length) :
    bisect (xs ++ ys).toArray bound low high = xs.length := by
  have hentry {middle : Nat} (hm : middle < high) :
      (xs ++ ys).toArray[middle]?.getD 0 < bound ↔ middle < xs.length := by
    have hlt : middle < (xs ++ ys).length := hm.trans_le hhigh
    rw [List.getElem?_toArray, List.getElem?_eq_getElem hlt, Option.getD_some]
    by_cases hside : middle < xs.length
    · rw [List.getElem_append_left hside]
      exact iff_of_true (hxs _ (List.getElem_mem hside)) hside
    · rw [List.getElem_append_right (Nat.le_of_not_lt hside)]
      refine iff_of_false ?_ hside
      exact Nat.not_lt.2 (hys _ (List.getElem_mem _))
  fun_induction bisect (xs ++ ys).toArray bound low high with
  | case1 low high hlt middle hbelow ih =>
    have hleft := (hentry (by omega)).1 hbelow
    exact ih (by omega) hxs' hhigh hentry
  | case2 low high hlt middle hbelow ih =>
    have hright := mt (hentry (by omega)).2 hbelow
    exact ih hlow (by omega) (by omega) fun hm => hentry (by omega)
  | case3 low high hlt => omega

/-- A text as the lines that are ended in it, and the one that is not. -/
inductive Ruled : List Char → List (List Char) → List Char → Prop
  | nil : Ruled [] [] []
  | ended {text last : List Char} {lines : List (List Char)} : Ruled text lines last →
      Ruled ('\n' :: text) ([] :: lines) last
  | inLast {c : Char} {text last : List Char} : c ≠ '\n' → Ruled text [] last →
      Ruled (c :: text) [] (c :: last)
  | inFirst {c : Char} {text line last : List Char} {lines : List (List Char)} : c ≠ '\n' →
      Ruled text (line :: lines) last → Ruled (c :: text) ((c :: line) :: lines) last

lemma exists_ruled (text : List Char) : ∃ lines last, Ruled text lines last := by
  induction text with
  | nil => exact ⟨_, _, .nil⟩
  | cons c text ih =>
    obtain ⟨lines, last, h⟩ := ih
    by_cases hc : c = '\n'
    · subst hc
      exact ⟨_, _, .ended h⟩
    · cases lines with
      | nil => exact ⟨_, _, .inLast hc h⟩
      | cons line lines => exact ⟨_, _, .inFirst hc h⟩

namespace Ruled

variable {text rest last first : List Char} {lines behind : List (List Char)}

lemma splitLines_append (h : Ruled text lines last) (hb : splitLines rest = first :: behind) :
    splitLines (text ++ rest) = lines ++ (last ++ first) :: behind := by
  induction h with
  | nil => exact hb
  | ended h ih => rw [List.cons_append, splitLines, if_pos rfl, ih, List.cons_append]
  | inLast hc h ih | inFirst hc h ih =>
    rw [List.cons_append, splitLines, if_neg hc, ih]
    rfl

lemma length_newlinesFrom (h : Ruled text lines last) (offset : Nat) :
    (newlinesFrom offset text).length = lines.length := by
  induction h generalizing offset with
  | nil => rfl
  | ended h ih => rw [newlinesFrom, if_pos rfl, List.length_cons, ih, List.length_cons]
  | inLast hc h ih => rw [newlinesFrom, if_neg hc, ih]
  | inFirst hc h ih => rw [newlinesFrom, if_neg hc, ih, List.length_cons, List.length_cons]

lemma text_eq (h : Ruled text lines last) : lines.flatMap (· ++ ['\n']) ++ last = text := by
  induction h with
  | nil => rfl
  | ended h ih => simpa using ih
  | inLast hc h ih => simpa using ih
  | inFirst hc h ih => simpa using ih

lemma start (h : Ruled text lines last) (offset : Nat) :
    ((newlinesFrom offset text).getLast?.map (· + 1)).getD offset + last.length =
      offset + text.length := by
  induction h generalizing offset with
  | nil => rfl
  | @ended text last lines h ih =>
    have hrest := ih (offset + 1)
    rw [newlinesFrom, if_pos rfl, List.getLast?_cons, List.length_cons]
    cases hlast : (newlinesFrom (offset + 1) text).getLast? with
    | none =>
      simp only [hlast, Option.map_none, Option.map_some, Option.getD_none, Option.getD_some]
        at hrest ⊢
      omega
    | some place =>
      simp only [hlast, Option.map_some, Option.getD_some] at hrest ⊢
      omega
  | inLast hc h ih =>
    have hrest := ih (offset + 1)
    have hnil := List.eq_nil_of_length_eq_zero (h.length_newlinesFrom (offset + 1))
    rw [newlinesFrom, if_neg hc]
    simp only [hnil, List.getLast?_nil, Option.map_none, Option.getD_none, List.length_cons]
      at hrest ⊢
    omega
  | @inFirst c text line last lines hc h ih =>
    have hrest := ih (offset + 1)
    have hne : newlinesFrom (offset + 1) text ≠ [] := by
      intro hnil
      have hlength := h.length_newlinesFrom (offset + 1)
      rw [hnil] at hlength
      cases hlength
    rw [newlinesFrom, if_neg hc, List.length_cons]
    simp only [List.getLast?_eq_some_getLast hne, Option.map_some, Option.getD_some] at hrest ⊢
    omega

lemma position_append (h : Ruled text lines last) (rest : List Char) :
    position (text ++ rest) text.length = ⟨lines.length + 1, last.length + 1⟩ := by
  have hlength : (newlines text).length = lines.length := h.length_newlinesFrom 0
  have hstart : ((newlines text).getLast?.map (· + 1)).getD 0 + last.length = text.length :=
    (h.start 0).trans (Nat.zero_add _)
  have hbreaks : newlines (text ++ rest) = newlines text ++ newlinesFrom text.length rest := by
    rw [newlines, newlinesFrom_append, Nat.zero_add, newlines]
  have hplace : (min (text.length : Int) (text ++ rest).length).toNat = text.length := by
    rw [List.length_append]
    omega
  have hindex : bisect (newlines (text ++ rest)).toArray text.length 0
      (newlines (text ++ rest)).toArray.size = lines.length := by
    rw [hbreaks, ← hlength]
    refine bisect_append ?_ (fun y hy => (mem_newlinesFrom hy).1) (Nat.zero_le _) ?_ ?_
    · intro x hx
      exact (mem_newlinesFrom hx).2.trans_eq (Nat.zero_add _)
    · simp
    · simp
  have hbegin : (if lines.length = 0 then 0
      else (newlines (text ++ rest)).toArray[lines.length - 1]?.getD 0 + 1) =
      ((newlines text).getLast?.map (· + 1)).getD 0 := by
    rw [List.getElem?_toArray, hbreaks, List.getLast?_eq_getElem?, hlength]
    split
    · rename_i hnil
      rw [hnil] at hlength
      rw [List.eq_nil_of_length_eq_zero hlength]
      rfl
    · have hlt : lines.length - 1 < (newlines text).length := by omega
      rw [List.getElem?_append_left hlt, List.getElem?_eq_getElem hlt]
      rfl
  rw [position, locate, hplace, hindex, hbegin]
  congr 1
  omega

end Ruled

lemma position_take {text : List Char} {offset length : Nat} (h : offset ≤ length)
    (hlength : length ≤ text.length) : position (text.take length) offset = position text offset := by
  obtain ⟨lines, last, hruled⟩ := exists_ruled (text.take offset)
  have hplace (rest : List Char) := hruled.position_append rest
  rw [List.length_take_of_le (h.trans hlength)] at hplace
  have hshort := hplace ((text.take length).drop offset)
  have hwhole := hplace (text.drop offset)
  have htake : text.take offset = (text.take length).take offset := by
    rw [List.take_take, Nat.min_eq_left h]
  rw [List.take_append_drop] at hwhole
  rw [htake, List.take_append_drop] at hshort
  rw [hshort, hwhole]

inductive IsLineAt : List Char → Nat → List Char → Prop
  | mk {before line after : List Char} {offset : Nat} (hbefore : ∀ c ∈ before.getLast?, c = '\n')
      (hafter : ∀ c ∈ after.head?, c = '\n') (hline : '\n' ∉ line) (hle : before.length ≤ offset)
      (hbound : offset ≤ (before ++ line).length) : IsLineAt (before ++ line ++ after) offset line

lemma eq_takeWhile_of_splitLines {text first : List Char} {behind : List (List Char)}
    (h : splitLines text = first :: behind) : first = text.takeWhile (· ≠ '\n') := by
  induction text generalizing first behind with
  | nil =>
    cases h
    rfl
  | cons c text ih =>
    rw [splitLines] at h
    split at h
    · rename_i hc
      cases h
      simp [hc]
    · rename_i hc
      obtain ⟨line, others, hlines⟩ := List.exists_cons_of_ne_nil (splitLines_ne_nil text)
      rw [hlines] at h
      cases h
      rw [List.takeWhile_cons_of_pos (by simpa using hc), ← ih hlines]

lemma exists_ruled_position {source : String} {offset : Nat} (h : offset ≤ source.toList.length) :
    ∃ ended last, Ruled (source.toList.take offset) ended last ∧
      position source.toList offset = ⟨ended.length + 1, last.length + 1⟩ ∧
      ended.length < (lines source).length ∧
      (line source (ended.length + 1)).toList =
        last ++ (source.toList.drop offset).takeWhile (· ≠ '\n') := by
  obtain ⟨ended, last, hruled⟩ := exists_ruled (source.toList.take offset)
  obtain ⟨first, behind, hrest⟩ :=
    List.exists_cons_of_ne_nil (splitLines_ne_nil (source.toList.drop offset))
  have hlines := hruled.splitLines_append hrest
  have hposition := hruled.position_append (source.toList.drop offset)
  rw [List.take_append_drop] at hlines hposition
  rw [List.length_take_of_le h] at hposition
  refine ⟨ended, last, hruled, hposition, ?_, ?_⟩
  · rw [lines, List.length_map, hlines, List.length_append, List.length_cons]
    omega
  · rw [← eq_takeWhile_of_splitLines hrest, line, if_pos (by omega), lines, hlines]
    simp

lemma isLineAt_position {source : String} {offset : Nat} (h : offset ≤ source.toList.length) :
    IsLineAt source.toList offset (line source (position source.toList offset).line).toList := by
  obtain ⟨ended, last, hruled, hposition, hlt, hline⟩ := exists_ruled_position h
  rw [hposition]
  have hlength := congrArg List.length hruled.text_eq
  rw [List.length_append, List.length_take_of_le h] at hlength
  have htext : source.toList = ended.flatMap (· ++ ['\n']) ++
      (last ++ (source.toList.drop offset).takeWhile (· ≠ '\n')) ++
        (source.toList.drop offset).dropWhile (· ≠ '\n') := by
    rw [← List.append_assoc, hruled.text_eq, List.append_assoc, List.takeWhile_append_dropWhile,
      List.take_append_drop]
  have hbefore : ∀ c ∈ (ended.flatMap (· ++ ['\n'])).getLast?, c = '\n' := by
    rcases List.eq_nil_or_concat ended with rfl | ⟨others, line, rfl⟩
    · simp
    · simp
  have hafter : ∀ c ∈ ((source.toList.drop offset).dropWhile (· ≠ '\n')).head?, c = '\n' := by
    intro c hc
    have hhead := List.head?_dropWhile_not (· ≠ '\n') (source.toList.drop offset)
    rw [Option.mem_def.1 hc] at hhead
    simpa using hhead
  have hnone : '\n' ∉ (line source (ended.length + 1)).toList := by
    have hmem : line source (ended.length + 1) ∈ lines source := by
      rw [line, if_pos (by omega)]
      simp [hlt]
    exact newline_not_mem_of_mem_lines hmem
  rw [hline] at hnone ⊢
  generalize (source.toList.drop offset).takeWhile (· ≠ '\n') = first at htext hnone ⊢
  generalize (source.toList.drop offset).dropWhile (· ≠ '\n') = after at htext hafter
  rw [htext]
  exact .mk hbefore hafter hnone (by omega)
    (by rw [List.length_append, List.length_append]; omega)

def textFrom (text : List Char) (position : Position) : List Char :=
  (['\n'].intercalate ((splitLines text).drop (position.line - 1).toNat)).drop
    (position.column - 1).toNat

lemma textFrom_position {text : List Char} {offset : Nat} (h : offset ≤ text.length) :
    textFrom text (position text offset) = text.drop offset := by
  obtain ⟨lines, last, hruled⟩ := exists_ruled (text.take offset)
  obtain ⟨first, behind, hrest⟩ := List.exists_cons_of_ne_nil (splitLines_ne_nil (text.drop offset))
  have hlines := hruled.splitLines_append hrest
  have hposition := hruled.position_append (text.drop offset)
  rw [List.take_append_drop, List.length_take_of_le h] at hposition
  rw [List.take_append_drop] at hlines
  have hjoin : ['\n'].intercalate ((last ++ first) :: behind) = last ++ text.drop offset := by
    have hrejoin : ['\n'].intercalate (splitLines (text.drop offset)) = text.drop offset := by
      rw [splitLines_eq_splitOn, List.intercalate_splitOn]
    rw [hrest] at hrejoin
    rw [← hrejoin]
    cases behind <;> simp [List.intercalate]
  have hline : ((lines.length : Int) + 1 - 1).toNat = lines.length := by omega
  have hcolumn : ((last.length : Int) + 1 - 1).toNat = last.length := by omega
  rw [textFrom, hposition, hlines, hline, List.drop_left, hjoin, hcolumn, List.drop_left]

end Klang.Source

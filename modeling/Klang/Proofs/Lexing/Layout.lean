import Klang.Proofs.Lexing.Classes

/-! Layout: spaces and comments. What is skipped in front of a lexeme is layout, and layout of every
shape is skipped. -/

namespace Klang.Token

/-- A block comment ends with the first closing mark behind its opening. -/
inductive IsBlockComment : List Char → Prop
  | mk (body : List Char) (h : ¬ ['*', '/'] <:+: body ++ ['*']) :
      IsBlockComment ('/' :: '*' :: body ++ ['*', '/'])

inductive IsLineComment : List Char → Prop
  | mk (body : List Char) (h : '\n' ∉ body) : IsLineComment ('/' :: '/' :: body)

inductive IsLayout : List Char → Prop
  | nil : IsLayout []
  | space {c : Char} {gap : List Char} (hc : isSpace c = true) (h : IsLayout gap) : IsLayout (c :: gap)
  | block {comment gap : List Char} (hc : IsBlockComment comment) (h : IsLayout gap) :
      IsLayout (comment ++ gap)
  | line {comment gap : List Char} (hc : IsLineComment comment) (h : IsLayout gap) :
      IsLayout (comment ++ '\n' :: gap)

/-- Layout at the end of a text, where a line comment needs no line feed. -/
inductive IsLastLayout : List Char → Prop
  | whole {gap : List Char} (h : IsLayout gap) : IsLastLayout gap
  | line {gap comment : List Char} (h : IsLayout gap) (hc : IsLineComment comment) :
      IsLastLayout (gap ++ comment)

variable {text tail body gap comment rest : List Char}

lemma exists_body_of_closeComment? (h : closeComment? text = some (tail, rest)) :
    ∃ body, tail = body ++ ['*', '/'] ∧ ¬ ['*', '/'] <:+: body ++ ['*'] := by
  fun_induction closeComment? text generalizing tail rest with
  | case1 => cases h
  | case2 =>
    cases h
    exact ⟨[], rfl, by decide⟩
  | case3 c text hmark ih =>
    obtain ⟨⟨inner, after⟩, hinner, he⟩ := Option.map_eq_some_iff.1 h
    cases he
    obtain ⟨body, rfl, hbody⟩ := ih hinner
    refine ⟨c :: body, rfl, ?_⟩
    rw [List.cons_append, List.infix_cons_iff, not_or]
    refine ⟨?_, hbody⟩
    -- a mark at the very front would have closed the comment
    intro hfront
    obtain ⟨rfl, hslash⟩ := List.cons_prefix_cons.1 hfront
    cases body with
    | nil => exact absurd hslash (by decide)
    | cons d body =>
      obtain ⟨rfl, -⟩ := List.cons_prefix_cons.1 hslash
      exact hmark _ rfl (closeComment?_append hinner).symm

lemma closeComment?_body (h : ¬ ['*', '/'] <:+: body ++ ['*']) (rest : List Char) :
    closeComment? (body ++ ['*', '/'] ++ rest) = some (body ++ ['*', '/'], rest) := by
  induction body with
  | nil => rfl
  | cons c body ih =>
    rw [List.cons_append, List.infix_cons_iff, not_or] at h
    have hmark (after : List Char) (hc : c = '*')
        (he : body ++ ['*', '/'] ++ rest = '/' :: after) : False := by
      apply h.1
      subst hc
      cases body with
      | nil => cases he
      | cons d body =>
        cases he
        exact ⟨body ++ ['*'], rfl⟩
    rw [List.cons_append, List.cons_append, closeComment?.eq_3 _ _ hmark, ih h.2]
    rfl

lemma skipped?_block (h : IsBlockComment comment) (rest : List Char) :
    skipped? (comment ++ rest) = some (comment, rest) := by
  cases h with
  | mk body h =>
    rw [List.cons_append, List.cons_append, List.cons_append, List.cons_append, skipped?,
      closeComment?_body h]
    rfl

lemma skipped?_line (h : IsLineComment comment) (hrest : ∀ c ∈ rest.head?, c = '\n') :
    skipped? (comment ++ rest) = some (comment, rest) := by
  cases h with
  | mk body h =>
    have hhead (c : Char) (hc : c ∈ rest.head?) : decide (c ≠ '\n') = false := by
      rw [hrest c hc]
      decide
    have hbody (c : Char) (hc : c ∈ body) : decide (c ≠ '\n') = true := by
      apply decide_eq_true
      rintro rfl
      exact h hc
    rw [List.cons_append, List.cons_append, skipped?, takeWhile_append_of_head hhead,
      dropWhile_append_of_head hhead, List.takeWhile_eq_self_iff.2 hbody,
      List.dropWhile_eq_nil_iff.2 hbody, List.nil_append]

lemma skipped?_space {c : Char} (hc : isSpace c = true) (rest : List Char) :
    skipped? (c :: rest) = some ([c], rest) := by
  rw [skipped?_cons (ne_of_class hc rfl), if_pos hc]

lemma skipped?_cases (h : skipped? text = some (gap, rest)) :
    (∃ c, isSpace c = true ∧ gap = [c]) ∨ IsBlockComment gap ∨
      IsLineComment gap ∧ ∀ c ∈ rest.head?, c = '\n' := by
  unfold skipped? at h
  split at h
  · obtain ⟨⟨inner, after⟩, hinner, he⟩ := Option.map_eq_some_iff.1 h
    cases he
    obtain ⟨body, rfl, hbody⟩ := exists_body_of_closeComment? hinner
    exact .inr (.inl (.mk body hbody))
  · rename_i tail
    cases h
    refine .inr (.inr ⟨.mk _ ?_, ?_⟩)
    · intro hm
      exact absurd (List.mem_takeWhile_imp hm) (by decide)
    · intro c hc
      have hstop := List.head?_dropWhile_not (· ≠ '\n') tail
      rw [hc] at hstop
      simpa using hstop
  · split at h
    · rename_i hspace
      cases h
      exact .inl ⟨_, hspace, rfl⟩
    · cases h
  · cases h

lemma layout_isLayout (h : IsLayout gap) (rest : List Char) :
    (layout (gap ++ rest)).2 = (layout rest).2 := by
  induction h with
  | nil => rfl
  | space hc h ih => rw [List.cons_append, layout_of_some (skipped?_space hc _), ih]
  | block hc h ih => rw [List.append_assoc, layout_of_some (skipped?_block hc _), ih]
  | @line comment gap hc h ih =>
    have hline : skipped? (comment ++ '\n' :: (gap ++ rest)) = some (comment, '\n' :: (gap ++ rest)) :=
      skipped?_line hc fun _ hm => (Option.some.inj hm).symm
    rw [List.append_assoc, List.cons_append, layout_of_some hline,
      layout_of_some (skipped?_space rfl _), ih]

lemma IsLayout.of_newline (h : IsLayout ('\n' :: gap)) : IsLayout gap := by
  generalize he : '\n' :: gap = whole at h
  cases h with
  | nil => cases he
  | space hc h =>
    cases he
    exact h
  | block hc h =>
    cases hc
    cases he
  | line hc h =>
    cases hc
    cases he

lemma IsLastLayout.of_newline (h : IsLastLayout ('\n' :: gap)) : IsLastLayout gap := by
  generalize he : '\n' :: gap = whole at h
  cases h with
  | whole h =>
    subst he
    exact .whole h.of_newline
  | @line front comment h hc =>
    cases front with
    | nil =>
      cases hc
      cases he
    | cons c front =>
      cases he
      exact .line h.of_newline hc

lemma IsLastLayout.space {c : Char} (hc : isSpace c = true) (h : IsLastLayout gap) :
    IsLastLayout (c :: gap) := by
  cases h with
  | whole h => exact .whole (h.space hc)
  | line h hline => exact .line (h.space hc) hline

lemma IsLastLayout.block (hc : IsBlockComment comment) (h : IsLastLayout gap) :
    IsLastLayout (comment ++ gap) := by
  cases h with
  | whole h => exact .whole (h.block hc)
  | line h hline =>
    rw [← List.append_assoc]
    exact .line (h.block hc) hline

lemma IsLastLayout.behind_line (hc : IsLineComment comment) (h : IsLastLayout gap) :
    IsLastLayout (comment ++ '\n' :: gap) := by
  cases h with
  | whole h => exact .whole (h.line hc)
  | line h hline =>
    rw [← List.cons_append, ← List.append_assoc]
    exact .line (h.line hc) hline

lemma isLayout_layout (text : List Char) : IsLastLayout (layout text).1 ∧
    ((layout text).2 ≠ [] → IsLayout (layout text).1) := by
  fun_induction layout text with
  | case1 text hnone => exact ⟨.whole .nil, fun _ => .nil⟩
  | case2 text gap rest hsome more after hrest ih =>
    rw [hrest] at ih
    obtain ⟨hlast, hlayout⟩ := ih
    rcases skipped?_cases hsome with ⟨c, hc, rfl⟩ | hblock | ⟨hline, hend⟩
    · exact ⟨hlast.space hc, fun hne => (hlayout hne).space hc⟩
    · exact ⟨hlast.block hblock, fun hne => (hlayout hne).block hblock⟩
    · -- behind a line comment the text ends, or its line feed is skipped next
      cases rest with
      | nil =>
        rw [layout_of_none rfl] at hrest
        cases hrest
        rw [List.append_nil]
        exact ⟨.line .nil hline, fun hne => absurd rfl hne⟩
      | cons c rest =>
        obtain rfl := hend c rfl
        rw [layout_of_some (skipped?_space rfl rest)] at hrest
        cases hrest
        exact ⟨hlast.of_newline.behind_line hline, fun hne => (hlayout hne).of_newline.line hline⟩

end Klang.Token

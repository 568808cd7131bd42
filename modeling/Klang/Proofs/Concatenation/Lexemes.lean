import Klang.Token.Lexer
import Mathlib.Tactic.Lemma

/-! Cutting a text that goes on behind a line feed. A line feed ends every lexeme and every line
comment, so what stands before it is cut as if it stood alone. -/

namespace Klang

section

variable {α : Type} {p : α → Bool}

lemma takeWhile_append_of_head {ys : List α} (h : ∀ y ∈ ys.head?, p y = false) (xs : List α) :
    (xs ++ ys).takeWhile p = xs.takeWhile p := by
  induction xs with
  | nil =>
    cases ys with
    | nil => rfl
    | cons y ys => simp [h y rfl]
  | cons x xs ih => simp only [List.cons_append, List.takeWhile_cons, ih]

lemma dropWhile_append_of_head {ys : List α} (h : ∀ y ∈ ys.head?, p y = false) (xs : List α) :
    (xs ++ ys).dropWhile p = xs.dropWhile p ++ ys := by
  induction xs with
  | nil =>
    cases ys with
    | nil => rfl
    | cons y ys => simp [h y rfl]
  | cons x xs ih =>
    simp only [List.cons_append, List.dropWhile_cons, ih]
    split <;> rfl

lemma takeWhile_append_cons {c : α} (hc : p c = false) (xs ys : List α) :
    (xs ++ c :: ys).takeWhile p = xs.takeWhile p :=
  takeWhile_append_of_head (by simpa using hc) xs

lemma dropWhile_append_cons {c : α} (hc : p c = false) (xs ys : List α) :
    (xs ++ c :: ys).dropWhile p = xs.dropWhile p ++ c :: ys :=
  dropWhile_append_of_head (by simpa using hc) xs

end

namespace Token

open Text

variable {text gap lexeme rest after : List Char} {kind : TokenKind} (more : List Char)

lemma closeComment?_more (h : closeComment? text = some (gap, rest)) :
    closeComment? (text ++ more) = some (gap, rest ++ more) := by
  fun_induction closeComment? text generalizing gap rest with
  | case1 => cases h
  | case2 rest' =>
    cases h
    rfl
  | case3 c rest' hnot ih =>
    obtain ⟨⟨body, after⟩, hb, he⟩ := Option.map_eq_some_iff.1 h
    cases he
    have hskip : ∀ tail, c = '*' → rest' ++ more = '/' :: tail → False := by
      intro tail hc ht
      cases rest' with
      | nil => cases hb
      | cons d ds =>
        cases ht
        exact hnot ds hc rfl
    rw [List.cons_append, closeComment?.eq_3 _ _ hskip, ih hb]
    rfl

lemma closeString?_more (h : closeString? text = some (gap, rest)) :
    closeString? (text ++ more) = some (gap, rest ++ more) := by
  fun_induction closeString? text generalizing gap rest with
  | case1 => cases h
  | case2 rest' =>
    cases h
    rfl
  | case3 c rest' ih =>
    obtain ⟨⟨body, after⟩, hb, he⟩ := Option.map_eq_some_iff.1 h
    cases he
    simp [closeString?, ih hb]
  | case4 c rest' hquote hslash ih =>
    obtain ⟨⟨body, after⟩, hb, he⟩ := Option.map_eq_some_iff.1 h
    cases he
    have hskip : ∀ d tail, c = '\\' → rest' ++ more = d :: tail → False := by
      intro d tail hc ht
      cases rest' with
      | nil => cases hb
      | cons d ds => exact hslash d ds hc rfl
    rw [List.cons_append, closeString?.eq_4 _ _ hquote hskip, ih hb]
    rfl

lemma skipped?_cons {c : Char} (hc : c ≠ '/') (rest : List Char) :
    skipped? (c :: rest) = if isSpace c then some ([c], rest) else none := by
  unfold skipped?
  split
  · rename_i he
    cases he
    exact absurd rfl hc
  · rename_i he
    cases he
    exact absurd rfl hc
  · rename_i he
    cases he
    rfl
  · rename_i he
    cases he

lemma skipped?_slash {c : Char} (hstar : c ≠ '*') (hslash : c ≠ '/') (rest : List Char) :
    skipped? ('/' :: c :: rest) = none := by
  unfold skipped?
  split
  · rename_i he
    cases he
    exact absurd rfl hstar
  · rename_i he
    cases he
    exact absurd rfl hslash
  · rename_i he
    cases he
    rfl
  · rfl

lemma skipped?_more (h : skipped? text = some (gap, rest)) :
    skipped? (text ++ '\n' :: more) = some (gap, rest ++ '\n' :: more) := by
  unfold skipped? at h
  split at h
  · obtain ⟨⟨body, after⟩, hb, he⟩ := Option.map_eq_some_iff.1 h
    cases he
    simp [skipped?, closeComment?_more _ hb]
  · cases h
    have htake := takeWhile_append_cons (p := (· ≠ '\n')) (c := '\n') (by simp)
    have hdrop := dropWhile_append_cons (p := (· ≠ '\n')) (c := '\n') (by simp)
    simp only [List.cons_append, skipped?, htake, hdrop]
  · rename_i c tail hblock hline
    split at h
    · rename_i hspace
      cases h
      have hc : c ≠ '/' := by
        rintro rfl
        cases hspace
      rw [List.cons_append, skipped?_cons hc, if_pos hspace]
    · cases h
  · cases h

/-- Where nothing is to skip and no comment has been left open, a line feed far ahead changes
nothing. -/
lemma skipped?_more_none (hne : text ≠ []) (h : skipped? text = none)
    (hopen : ∀ tail, text ≠ '/' :: '*' :: tail) : skipped? (text ++ '\n' :: more) = none := by
  cases text with
  | nil => exact absurd rfl hne
  | cons c tail =>
    by_cases hc : c = '/'
    · subst hc
      cases tail with
      | nil => rfl
      | cons d tail =>
        have hstar : d ≠ '*' := by
          rintro rfl
          exact hopen tail rfl
        have hslash : d ≠ '/' := by
          rintro rfl
          cases h
        rw [List.cons_append, List.cons_append, skipped?_slash hstar hslash]
    · rw [skipped?_cons hc] at h
      rw [List.cons_append, skipped?_cons hc]
      split at h
      · cases h
      · rename_i hspace
        rw [if_neg hspace]

lemma layout_of_none (h : skipped? text = none) : layout text = ([], text) := by
  rw [layout]
  split
  · rfl
  · rename_i he
    rw [h] at he
    cases he

lemma layout_of_some (h : skipped? text = some (gap, rest)) :
    layout text = (gap ++ (layout rest).1, (layout rest).2) := by
  rw [layout]
  split
  · rename_i he
    rw [h] at he
    cases he
  · rename_i he
    rw [h] at he
    cases he
    rfl

lemma front_layout_of_none (h : skipped? text = none) : front (layout text).2 = front text := by
  rw [layout_of_none h]

lemma front_layout_of_some (h : skipped? text = some (gap, rest)) :
    front (layout text).2 = front (layout rest).2 := by
  rw [layout_of_some h]

lemma layout_more_nil (h : (layout text).2 = []) :
    (layout (text ++ '\n' :: more)).2 = (layout more).2 := by
  fun_induction layout text with
  | case1 text hnone =>
    subst h
    have hskip : skipped? ('\n' :: more) = some (['\n'], more) := rfl
    rw [List.nil_append, layout_of_some hskip]
  | case2 text gap rest hsome gap' after hrest ih =>
    rw [layout_of_some (skipped?_more more hsome)]
    rw [hrest] at ih
    exact ih h

lemma layout_more (hne : (layout text).2 ≠ [])
    (hopen : ∀ tail, (layout text).2 ≠ '/' :: '*' :: tail) :
    (layout (text ++ '\n' :: more)).2 = (layout text).2 ++ '\n' :: more := by
  fun_induction layout text with
  | case1 text hnone => rw [layout_of_none (skipped?_more_none more hne hnone hopen)]
  | case2 text gap rest hsome gap' after hrest ih =>
    rw [layout_of_some (skipped?_more more hsome)]
    rw [hrest] at ih
    exact ih hne hopen

lemma isDigit_newline : isDigit '\n' = false := by decide

lemma numeral_more (text : List Char) :
    numeral (text ++ '\n' :: more) = ((numeral text).1, (numeral text).2 ++ '\n' :: more) := by
  unfold numeral
  rw [takeWhile_append_cons isDigit_newline, dropWhile_append_cons isDigit_newline]
  cases text.dropWhile isDigit with
  | nil => rfl
  | cons c fraction =>
    by_cases hc : c = '.'
    · subst hc
      have hhead : (((fraction ++ '\n' :: more).head?).map isDigit).getD false =
          (fraction.head?.map isDigit).getD false := by
        cases fraction with
        | nil => exact isDigit_newline
        | cons d fraction => rfl
      simp only [List.cons_append, hhead]
      split
      · rw [takeWhile_append_cons isDigit_newline, dropWhile_append_cons isDigit_newline]
      · rfl
    · simp [hc]

lemma symbol?_more (h : symbol? text = some (kind, lexeme, rest)) :
    symbol? (text ++ '\n' :: more) = some (kind, lexeme, rest ++ '\n' :: more) := by
  match text with
  | [] => cases h
  | [c] =>
    have hlong : String.ofList [c, '\n'] ∉ longOperators := by
      intro hm
      simp only [longOperators, List.mem_cons, List.not_mem_nil, or_false] at hm
      have hlast {symbol : String} (he : String.ofList [c, '\n'] = symbol) :
          symbol.toList.getLast? = some '\n' := by
        rw [← he, String.toList_ofList]
        rfl
      rcases hm with he | he | he | he | he | he | he <;> exact absurd (hlast he) (by decide)
    simp only [symbol?] at h
    simp only [List.cons_append, List.nil_append, symbol?, if_neg hlong]
    split at h
    · rename_i hs
      cases h
      rw [if_pos hs]
      rfl
    · rename_i hs
      rw [if_neg hs]
      split at h
      · rename_i hd
        cases h
        rw [if_pos hd]
        rfl
      · cases h
  | c :: d :: text =>
    simp only [symbol?] at h
    simp only [List.cons_append, symbol?]
    split at h
    · rename_i hl
      cases h
      rw [if_pos hl]
    · rename_i hl
      rw [if_neg hl]
      split at h
      · rename_i hs
        cases h
        rw [if_pos hs]
        rfl
      · rename_i hs
        rw [if_neg hs]
        split at h
        · rename_i hd
          cases h
          rw [if_pos hd]
          rfl
        · cases h

lemma front_cons {c : Char} (hquote : c ≠ '"') (hopen : ∀ tail, c = '/' → text ≠ '*' :: tail) :
    front (c :: text) =
      if isDigit c then .lexeme .number (numeral (c :: text)).1 (numeral (c :: text)).2
      else if isWordStart c then
        .lexeme (wordKind (c :: text.takeWhile isWordChar)) (c :: text.takeWhile isWordChar)
          (text.dropWhile isWordChar)
      else match symbol? (c :: text) with
        | some (kind, lexeme, after) => .lexeme kind lexeme after
        | none => .fault (.unexpected c) [c] :=
  front.eq_4 c text hquote hopen

lemma front_more (h : front text = .lexeme kind lexeme rest) :
    front (text ++ '\n' :: more) = .lexeme kind lexeme (rest ++ '\n' :: more) := by
  cases text with
  | nil => cases h
  | cons c text =>
    by_cases hquote : c = '"'
    · subst hquote
      simp only [front] at h
      cases hclose : closeString? text with
      | none =>
        rw [hclose] at h
        cases h
      | some r =>
        obtain ⟨body, after⟩ := r
        rw [hclose] at h
        cases h
        simp only [List.cons_append, front, closeString?_more _ hclose]
    · have hopen : ∀ tail, c = '/' → text ≠ '*' :: tail := by
        rintro tail rfl rfl
        cases h
      have hopen' : ∀ tail, c = '/' → text ++ '\n' :: more ≠ '*' :: tail := by
        intro tail hc ht
        cases text with
        | nil => cases ht
        | cons d text =>
          cases ht
          exact hopen text hc rfl
      have hword : isWordChar '\n' = false := by decide
      rw [front_cons hquote hopen] at h
      rw [List.cons_append, front_cons hquote hopen', ← List.cons_append, numeral_more,
        takeWhile_append_cons hword, dropWhile_append_cons hword]
      split at h
      · rename_i hd
        cases h
        rw [if_pos hd]
      · rename_i hd
        rw [if_neg hd]
        split at h
        · rename_i hs
          cases h
          rw [if_pos hs]
        · rename_i hs
          rw [if_neg hs]
          cases hsymbol : symbol? (c :: text) with
          | none =>
            rw [hsymbol] at h
            cases h
          | some r =>
            obtain ⟨kind', lexeme', after⟩ := r
            rw [hsymbol] at h
            cases h
            rw [symbol?_more more hsymbol]

lemma symbol?_kind (h : symbol? text = some (kind, lexeme, rest)) : kind ≠ .eof := by
  rintro rfl
  match text with
  | [] => cases h
  | [c] =>
    simp only [symbol?] at h
    split at h
    · cases h
    · split at h <;> cases h
  | c :: d :: text =>
    simp only [symbol?] at h
    split at h
    · cases h
    · split at h
      · cases h
      · split at h <;> cases h

lemma front_kind (h : front text = .lexeme kind lexeme rest) : kind ≠ .eof := by
  unfold front at h
  split at h
  · cases h
  · split at h
    · cases h
      decide
    · cases h
  · cases h
  · split at h
    · cases h
      decide
    · split at h
      · cases h
        simp only [wordKind]
        split <;> decide
      · split at h
        · rename_i hsymbol
          cases h
          exact symbol?_kind hsymbol
        · cases h

def lexemes (text : List Char) : List (TokenKind × List Char) :=
  (pieces text).1.map fun piece => (piece.kind, piece.text)

def Ending.isClean : Ending → Bool
  | .clean _ => true
  | .fault .. => false

lemma pieces_of_done (h : front (layout text).2 = .done) :
    pieces text = ([], .clean (layout text).1) := by
  rw [pieces]
  split <;> simp_all

lemma pieces_of_fault {fault : LexFault} (h : front (layout text).2 = .fault fault lexeme) :
    pieces text = ([], .fault (layout text).1 fault lexeme) := by
  rw [pieces]
  split <;> simp_all

lemma pieces_of_lexeme (h : front (layout text).2 = .lexeme kind lexeme rest) :
    pieces text = (⟨(layout text).1, kind, lexeme⟩ :: (pieces rest).1, (pieces rest).2) := by
  rw [pieces]
  split <;> simp_all

lemma lexemes_congr {other : List Char} (h : (layout text).2 = (layout other).2) :
    lexemes text = lexemes other ∧ (pieces text).2.isClean = (pieces other).2.isClean := by
  cases hf : front (layout text).2 with
  | done =>
    have hg := hf
    rw [h] at hg
    rw [lexemes, lexemes, pieces_of_done hf, pieces_of_done hg]
    exact ⟨rfl, rfl⟩
  | fault fault lexeme =>
    have hg := hf
    rw [h] at hg
    rw [lexemes, lexemes, pieces_of_fault hf, pieces_of_fault hg]
    exact ⟨rfl, rfl⟩
  | lexeme kind lexeme rest =>
    have hg := hf
    rw [h] at hg
    rw [lexemes, lexemes, pieces_of_lexeme hf, pieces_of_lexeme hg]
    exact ⟨rfl, rfl⟩

lemma front_eq_done (h : front text = .done) : text = [] := by
  unfold front at h
  split at h
  · rfl
  · split at h <;> cases h
  · cases h
  · split at h
    · cases h
    · split at h
      · cases h
      · split at h <;> cases h

/-- A text that can be cut is cut in the same way in front of a line feed. -/
lemma lexemes_append (hclean : (pieces text).2.isClean = true) :
    lexemes (text ++ '\n' :: more) = lexemes text ++ lexemes more ∧
      (pieces (text ++ '\n' :: more)).2.isClean = (pieces more).2.isClean := by
  -- induction along the pieces of the first text
  fun_induction pieces text with
  | case1 text hdone =>
    obtain ⟨hlexemes, hends⟩ := lexemes_congr (layout_more_nil more (front_eq_done hdone))
    refine ⟨?_, hends⟩
    rw [hlexemes, lexemes, lexemes, pieces_of_done hdone]
    rfl
  | case2 text fault lexeme hfault => cases hclean
  | case3 text kind lexeme rest hlexeme found ending hrest ih =>
    rw [hrest] at ih
    obtain ⟨ihlexemes, ihends⟩ := ih hclean
    have hne : (layout text).2 ≠ [] := by
      intro he
      rw [he] at hlexeme
      cases hlexeme
    have hopen : ∀ tail, (layout text).2 ≠ '/' :: '*' :: tail := by
      intro tail he
      rw [he] at hlexeme
      cases hlexeme
    have hfront : front (layout (text ++ '\n' :: more)).2 =
        .lexeme kind lexeme (rest ++ '\n' :: more) := by
      rw [layout_more more hne hopen]
      exact front_more more hlexeme
    have hfirst : lexemes text = (kind, lexeme) :: lexemes rest := by
      rw [lexemes, pieces_of_lexeme hlexeme]
      rfl
    have hwhole : lexemes (text ++ '\n' :: more) =
        (kind, lexeme) :: lexemes (rest ++ '\n' :: more) := by
      rw [lexemes, pieces_of_lexeme hfront]
      rfl
    refine ⟨?_, ?_⟩
    · rw [hwhole, hfirst, ihlexemes, List.cons_append]
    · rw [pieces_of_lexeme hfront]
      exact ihends

lemma lexemes_kind {kind : TokenKind} {lexeme : List Char} (h : (kind, lexeme) ∈ lexemes text) :
    kind ≠ .eof := by
  fun_induction pieces text with
  | case1 text hdone =>
    rw [lexemes, pieces_of_done hdone] at h
    cases h
  | case2 text fault lexeme hfault =>
    rw [lexemes, pieces_of_fault hfault] at h
    cases h
  | case3 text kind' lexeme' rest hlexeme found ending hrest ih =>
    rw [lexemes, pieces_of_lexeme hlexeme, List.map_cons] at h
    rcases List.mem_cons.1 h with he | hm
    · cases he
      exact front_kind hlexeme
    · exact ih hm

end Token

end Klang

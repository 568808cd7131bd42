import Klang.Proofs.Concatenation.Lexemes
import Mathlib.Data.List.TakeWhile

/-! The lexemes of the language, class by class. What is cut off at the front of a text is a lexeme,
and no lexeme is there that goes further. In front of a space every lexeme is cut off as it is. -/

namespace Klang.Token

open Text

/-- A string literal behind its opening quote. A backslash takes the next character with it. -/
inductive IsStringTail : List Char → Prop
  | quote : IsStringTail ['"']
  | plain {c : Char} {tail : List Char} (hquote : c ≠ '"') (hslash : c ≠ '\\')
      (h : IsStringTail tail) : IsStringTail (c :: tail)
  | escape (c : Char) {tail : List Char} (h : IsStringTail tail) : IsStringTail ('\\' :: c :: tail)

structure IsDigits (text : List Char) : Prop where
  ne_nil : text ≠ []
  digit : ∀ c ∈ text, isDigit c = true

inductive IsLexeme : TokenKind → List Char → Prop
  | string {tail : List Char} (h : IsStringTail tail) : IsLexeme .string ('"' :: tail)
  | whole {digits : List Char} (h : IsDigits digits) : IsLexeme .number digits
  | decimal {whole fraction : List Char} (hw : IsDigits whole) (hf : IsDigits fraction) :
      IsLexeme .number (whole ++ '.' :: fraction)
  | word {c : Char} {tail : List Char} (hc : isWordStart c = true)
      (h : ∀ d ∈ tail, isWordChar d = true) : IsLexeme (wordKind (c :: tail)) (c :: tail)
  | operator {text : List Char} (h : String.ofList text ∈ longOperators ++ shortOperators) :
      IsLexeme .operator text
  | delimiter {text : List Char} (h : String.ofList text ∈ delimiters) : IsLexeme .delimiter text

variable {c d : Char} {text tail lexeme rest : List Char} {kind : TokenKind}

lemma ne_of_class {p : Char → Bool} (hc : p c = true) (hd : p d = false) : c ≠ d := by
  rintro rfl
  rw [hc] at hd
  cases hd

lemma isSpace_iff : isSpace c = true ↔ c = ' ' ∨ c = '\t' ∨ c = '\r' ∨ c = '\n' := by
  simp [isSpace, or_assoc]

lemma isDigit_of_isSpace (h : isSpace c = true) : isDigit c = false := by
  rcases isSpace_iff.1 h with rfl | rfl | rfl | rfl <;> decide

lemma isWordChar_of_isSpace (h : isSpace c = true) : isWordChar c = false := by
  rcases isSpace_iff.1 h with rfl | rfl | rfl | rfl <;> decide

lemma isDigit_range (h : isDigit c = true) : c.toNat < 58 ∨ 1632 ≤ c.toNat := by
  have hzeros : ∀ point ∈ zeroPoints, point = 48 ∨ 1632 ≤ point := by decide
  rw [isDigit, digitValue?, Option.isSome_map] at h
  obtain ⟨point, hpoint⟩ := Option.isSome_iff_exists.1 h
  have hrange := List.find?_some hpoint
  rw [Bool.and_eq_true, decide_eq_true_eq, decide_eq_true_eq] at hrange
  have hzero := hzeros point (List.mem_of_find?_eq_some hpoint)
  omega

lemma isWordStart_range (h : isWordStart c = true) : 65 ≤ c.toNat ∧ c.toNat ≤ 122 := by
  change (decide (65 ≤ c.val ∧ c.val ≤ 90) || decide (97 ≤ c.val) && decide (c.val ≤ 122) ||
    c == '_') = true at h
  rw [Bool.or_eq_true, Bool.or_eq_true, Bool.and_eq_true, decide_eq_true_eq, decide_eq_true_eq,
    decide_eq_true_eq, beq_iff_eq] at h
  change ((65 ≤ c.toNat ∧ c.toNat ≤ 90) ∨ (97 ≤ c.toNat ∧ c.toNat ≤ 122)) ∨ c = '_' at h
  rcases h with (h | h) | rfl
  · omega
  · omega
  · decide

lemma isDigit_of_isWordStart (h : isWordStart c = true) : isDigit c = false := by
  apply Bool.eq_false_iff.2
  intro hd
  have hdigit := isDigit_range hd
  have hword := isWordStart_range h
  omega

lemma isStringTail_of_closeString? (h : closeString? text = some (tail, rest)) :
    IsStringTail tail := by
  fun_induction closeString? text generalizing tail rest with
  | case1 => cases h
  | case2 =>
    cases h
    exact .quote
  | case3 c text ih =>
    obtain ⟨⟨body, after⟩, hbody, he⟩ := Option.map_eq_some_iff.1 h
    cases he
    exact (ih hbody).escape c
  | case4 c text hquote hescape ih =>
    obtain ⟨⟨body, after⟩, hbody, he⟩ := Option.map_eq_some_iff.1 h
    cases he
    refine (ih hbody).plain hquote ?_
    -- a backslash would have taken a character with it, as the literal is closed behind it
    intro hslash
    cases text with
    | nil => cases hbody
    | cons d text => exact hescape d text hslash rfl

lemma closeString?_of_isStringTail (h : IsStringTail tail) (rest : List Char) :
    closeString? (tail ++ rest) = some (tail, rest) := by
  induction h with
  | quote => rfl
  | plain hquote hslash h ih =>
    rw [List.cons_append, closeString?.eq_4 _ _ hquote fun _ _ he => absurd he hslash, ih]
    rfl
  | escape c h ih =>
    rw [List.cons_append, List.cons_append, closeString?, ih]
    rfl

lemma front_string (h : IsStringTail tail) (rest : List Char) :
    front ('"' :: tail ++ rest) = .lexeme .string ('"' :: tail) rest := by
  rw [List.cons_append, front, closeString?_of_isStringTail h]

lemma front_of_isDigit (hc : isDigit c = true) (text : List Char) : front (c :: text) =
    .lexeme .number (numeral (c :: text)).1 (numeral (c :: text)).2 := by
  have hquote : c ≠ '"' := ne_of_class hc (by decide)
  have hslash : c ≠ '/' := ne_of_class hc (by decide)
  rw [front_cons hquote fun _ he => absurd he hslash, if_pos hc]

lemma numeral_of_not_decimal (h : ∀ d tail, text.dropWhile isDigit = '.' :: d :: tail →
    isDigit d = false) : numeral text = (text.takeWhile isDigit, text.dropWhile isDigit) := by
  unfold numeral
  split
  · rename_i rest hrest
    cases rest with
    | nil => simp [hrest]
    | cons d tail => simp [hrest, h d tail hrest]
  · rfl

lemma numeral_decimal {whole : List Char} (hwhole : ∀ c ∈ whole, isDigit c = true)
    (hd : isDigit d = true) (tail : List Char) : numeral (whole ++ '.' :: d :: tail) =
      (whole ++ '.' :: (d :: tail).takeWhile isDigit, (d :: tail).dropWhile isDigit) := by
  have hpoint : isDigit '.' = false := by decide
  have htake : (whole ++ '.' :: d :: tail).takeWhile isDigit = whole := by
    rw [takeWhile_append_cons hpoint, List.takeWhile_eq_self_iff.2 hwhole]
  have hdrop : (whole ++ '.' :: d :: tail).dropWhile isDigit = '.' :: d :: tail := by
    rw [dropWhile_append_cons hpoint, List.dropWhile_eq_nil_iff.2 hwhole, List.nil_append]
  unfold numeral
  simp only [hdrop, htake, List.head?_cons, Option.map_some, Option.getD_some, hd, if_true]

lemma numeral_cases (text : List Char) :
    numeral text = (text.takeWhile isDigit, text.dropWhile isDigit) ∨
      ∃ d tail, isDigit d = true ∧ numeral text =
        (text.takeWhile isDigit ++ '.' :: (d :: tail).takeWhile isDigit,
          (d :: tail).dropWhile isDigit) := by
  by_cases h : ∃ d tail, text.dropWhile isDigit = '.' :: d :: tail ∧ isDigit d = true
  · obtain ⟨d, tail, hrest, hd⟩ := h
    refine .inr ⟨d, tail, hd, ?_⟩
    have hwhole : ∀ c ∈ text.takeWhile isDigit, isDigit c = true :=
      fun _ hm => List.mem_takeWhile_imp hm
    rw [← numeral_decimal hwhole hd, ← hrest, List.takeWhile_append_dropWhile]
  · left
    apply numeral_of_not_decimal
    intro d tail hrest
    apply Bool.eq_false_iff.2
    exact fun hd => h ⟨d, tail, hrest, hd⟩

lemma isDigits_takeWhile (hc : isDigit c = true) (text : List Char) :
    IsDigits ((c :: text).takeWhile isDigit) where
  ne_nil := by simp [hc]
  digit := fun _ hm => List.mem_takeWhile_imp hm

lemma isLexeme_numeral (hc : isDigit c = true) (text : List Char) :
    IsLexeme .number (numeral (c :: text)).1 := by
  rcases numeral_cases (c :: text) with h | ⟨d, tail, hd, h⟩
  · rw [h]
    exact .whole (isDigits_takeWhile hc text)
  · rw [h]
    exact .decimal (isDigits_takeWhile hc text) (isDigits_takeWhile hd tail)

lemma front_digits {digits : List Char} (h : IsDigits digits) (rest : List Char) :
    front (digits ++ rest) =
      .lexeme .number (numeral (digits ++ rest)).1 (numeral (digits ++ rest)).2 := by
  obtain ⟨c, tail, rfl⟩ := List.exists_cons_of_ne_nil h.ne_nil
  exact front_of_isDigit (h.digit c List.mem_cons_self) _

lemma length_le_numeral {digits : List Char} (h : ∀ c ∈ digits, isDigit c = true)
    (rest : List Char) : digits.length ≤ (numeral (digits ++ rest)).1.length := by
  have htake : (digits ++ rest).takeWhile isDigit = digits ++ rest.takeWhile isDigit :=
    List.takeWhile_append_of_pos h
  rcases numeral_cases (digits ++ rest) with he | ⟨d, tail, -, he⟩
  · simp [he, htake]
  · simp [he, htake]

lemma numeral_fraction {whole fraction : List Char} (hw : IsDigits whole) (hf : IsDigits fraction)
    (rest : List Char) : numeral (whole ++ '.' :: fraction ++ rest) =
      (whole ++ '.' :: fraction ++ rest.takeWhile isDigit, rest.dropWhile isDigit) := by
  obtain ⟨d, tail, rfl⟩ := List.exists_cons_of_ne_nil hf.ne_nil
  have hd := hf.digit d List.mem_cons_self
  have hparts := numeral_decimal hw.digit hd (tail ++ rest)
  rw [← List.cons_append, List.takeWhile_append_of_pos hf.digit,
    List.dropWhile_append_of_pos hf.digit] at hparts
  simpa using hparts

lemma front_of_isWordStart (hc : isWordStart c = true) (text : List Char) : front (c :: text) =
    .lexeme (wordKind (c :: text.takeWhile isWordChar)) (c :: text.takeWhile isWordChar)
      (text.dropWhile isWordChar) := by
  have hquote : c ≠ '"' := ne_of_class hc (by decide)
  have hslash : c ≠ '/' := ne_of_class hc (by decide)
  have hdigit : ¬ isDigit c = true := by simp [isDigit_of_isWordStart hc]
  rw [front_cons hquote fun _ he => absurd he hslash, if_neg hdigit, if_pos hc]

def symbols : List String := longOperators ++ shortOperators ++ delimiters

lemma head_symbol : ∀ symbol ∈ symbols, symbol.toList.headD ' ' ≠ '"' ∧
    isDigit (symbol.toList.headD ' ') = false ∧ isWordStart (symbol.toList.headD ' ') = false := by
  decide

lemma head_symbol_layout : ∀ symbol ∈ symbols, isSpace (symbol.toList.headD ' ') = false ∧
    (symbol.toList.headD ' ' = '/' → symbol.toList.tail = []) := by
  decide

lemma length_symbol : ∀ symbol ∈ symbols, symbol.toList ≠ [] ∧ symbol.toList.length ≤ 2 ∧
    (symbol.toList.length = 2 → symbol ∈ longOperators) := by
  decide

lemma longOperators_ends : ∀ symbol ∈ longOperators, symbol.toList.length = 2 ∧
    symbol.toList.headD ' ' ≠ '/' ∧ isSpace (symbol.toList.getLastD ' ') = false := by
  decide

lemma mem_symbols_cases (h : String.ofList text ∈ symbols) :
    (∃ c, text = [c]) ∨ ∃ c d, text = [c, d] ∧ String.ofList [c, d] ∈ longOperators := by
  have hlength := length_symbol _ h
  rw [String.toList_ofList] at hlength
  match text with
  | [] => exact absurd rfl hlength.1
  | [c] => exact .inl ⟨c, rfl⟩
  | [c, d] => exact .inr ⟨c, d, rfl, hlength.2.2 rfl⟩
  | c :: d :: e :: text =>
    have htwo := hlength.2.1
    simp at htwo

lemma symbol?_long (h : String.ofList [c, d] ∈ longOperators) (rest : List Char) :
    symbol? (c :: d :: rest) = some (.operator, [c, d], rest) := by
  rw [symbol?, if_pos h]

lemma symbol?_single (hlong : ∀ d ∈ rest.head?, String.ofList [c, d] ∉ longOperators) :
    symbol? (c :: rest) =
      if String.ofList [c] ∈ shortOperators then some (.operator, [c], rest)
      else if String.ofList [c] ∈ delimiters then some (.delimiter, [c], rest)
      else none := by
  cases rest with
  | nil => simp only [symbol?, String.singleton_eq_ofList]
  | cons d rest => simp only [symbol?, String.singleton_eq_ofList, if_neg (hlong d rfl)]

lemma symbol?_spec (h : symbol? text = some (kind, lexeme, rest)) : IsLexeme kind lexeme ∧
    ∀ longer, longer <+: text → String.ofList longer ∈ symbols → longer.length ≤ lexeme.length := by
  cases text with
  | nil => cases h
  | cons c text =>
    -- no symbol has three characters, so only a second one can be missed
    by_cases hlong : ∃ d tail, text = d :: tail ∧ String.ofList [c, d] ∈ longOperators
    · obtain ⟨d, tail, rfl, hmem⟩ := hlong
      rw [symbol?_long hmem] at h
      cases h
      refine ⟨.operator (List.mem_append_left _ hmem), ?_⟩
      intro longer _ hsymbol
      have hlength := (length_symbol _ hsymbol).2.1
      rwa [String.toList_ofList] at hlength
    · have hsingle : ∀ d ∈ text.head?, String.ofList [c, d] ∉ longOperators := by
        intro d hd hmem
        obtain ⟨tail, rfl⟩ := List.head?_eq_some_iff.1 hd
        exact hlong ⟨d, tail, rfl, hmem⟩
      have hlexeme : IsLexeme kind lexeme ∧ lexeme.length = 1 := by
        rw [symbol?_single hsingle] at h
        split at h
        · rename_i hoperator
          cases h
          exact ⟨.operator (List.mem_append_right _ hoperator), rfl⟩
        · split at h
          · rename_i hdelimiter
            cases h
            exact ⟨.delimiter hdelimiter, rfl⟩
          · cases h
      refine ⟨hlexeme.1, ?_⟩
      intro longer ⟨tail, ht⟩ hsymbol
      rw [hlexeme.2]
      rcases mem_symbols_cases hsymbol with ⟨e, rfl⟩ | ⟨e, d, rfl, hmem⟩
      · exact Nat.le_refl 1
      · cases ht
        exact absurd hmem (hsingle d rfl)

lemma front_symbol_iff (hhead : String.ofList (c :: tail) ∈ symbols)
    (hopen : ∀ tail, c = '/' → text ≠ '*' :: tail) :
    front (c :: text) = .lexeme kind lexeme rest ↔ symbol? (c :: text) = some (kind, lexeme, rest) := by
  have hclass := head_symbol _ hhead
  rw [String.toList_ofList, List.headD_cons] at hclass
  obtain ⟨hquote, hdigit, hword⟩ := hclass
  rw [front_cons hquote hopen, if_neg (by simp [hdigit]), if_neg (by simp [hword])]
  cases symbol? (c :: text) with
  | none => simp
  | some found =>
    obtain ⟨kind', lexeme', rest'⟩ := found
    simp

lemma front_not_open (h : front (c :: text) = .lexeme kind lexeme rest) (tail : List Char)
    (hc : c = '/') : text ≠ '*' :: tail := by
  subst hc
  rintro rfl
  cases h

lemma length_symbol_le {symbol : List Char} (hsymbol : String.ofList symbol ∈ symbols)
    (h : front (symbol ++ text) = .lexeme kind lexeme rest) : symbol.length ≤ lexeme.length := by
  cases symbol with
  | nil => exact Nat.zero_le _
  | cons c tail =>
    have hfound := (front_symbol_iff hsymbol (front_not_open h)).1 h
    exact (symbol?_spec hfound).2 _ (List.prefix_append _ _) hsymbol

lemma front_long (h : String.ofList [c, d] ∈ longOperators) (rest : List Char) :
    front (c :: d :: rest) = .lexeme .operator [c, d] rest := by
  have hslash := (longOperators_ends _ h).2.1
  rw [String.toList_ofList] at hslash
  have hsymbol : String.ofList [c, d] ∈ symbols :=
    List.mem_append_left _ (List.mem_append_left _ h)
  exact (front_symbol_iff hsymbol fun _ he => absurd he hslash).2 (symbol?_long h rest)

lemma front_single (hsymbol : String.ofList [c] ∈ symbols)
    (hrest : ∀ d ∈ rest.head?, isSpace d = true)
    (h : (if String.ofList [c] ∈ shortOperators then some (TokenKind.operator, [c], rest)
      else if String.ofList [c] ∈ delimiters then some (.delimiter, [c], rest)
      else none) = some (kind, [c], rest)) : front (c :: rest) = .lexeme kind [c] rest := by
  -- the space opens no comment and is no part of an operator
  have hopen (tail : List Char) (_ : c = '/') : rest ≠ '*' :: tail := by
    rintro rfl
    exact absurd (hrest '*' rfl) (by decide)
  have hlong (d : Char) (hd : d ∈ rest.head?) : String.ofList [c, d] ∉ longOperators := by
    intro hmem
    have hlast := (longOperators_ends _ hmem).2.2
    rw [String.toList_ofList] at hlast
    exact absurd (hrest d hd) (Bool.eq_false_iff.1 hlast)
  rw [front_symbol_iff hsymbol hopen, symbol?_single hlong]
  exact h

lemma front_operator (h : String.ofList text ∈ longOperators ++ shortOperators)
    (hrest : ∀ d ∈ rest.head?, isSpace d = true) :
    front (text ++ rest) = .lexeme .operator text rest := by
  have hsymbol : String.ofList text ∈ symbols := List.mem_append_left _ h
  rcases mem_symbols_cases hsymbol with ⟨c, rfl⟩ | ⟨c, d, rfl, hlong⟩
  · have hshort : String.ofList [c] ∈ shortOperators := by
      rcases List.mem_append.1 h with hlong | hshort
      · have htwo := (longOperators_ends _ hlong).1
        rw [String.toList_ofList] at htwo
        cases htwo
      · exact hshort
    exact front_single hsymbol hrest (if_pos hshort)
  · exact front_long hlong rest

lemma front_delimiter (h : String.ofList text ∈ delimiters)
    (hrest : ∀ d ∈ rest.head?, isSpace d = true) :
    front (text ++ rest) = .lexeme .delimiter text rest := by
  have hother : ∀ symbol ∈ delimiters, symbol ∉ longOperators ∧ symbol ∉ shortOperators := by decide
  obtain ⟨hlong, hshort⟩ := hother _ h
  have hsymbol : String.ofList text ∈ symbols := List.mem_append_right _ h
  rcases mem_symbols_cases hsymbol with ⟨c, rfl⟩ | ⟨c, d, rfl, hmem⟩
  · exact front_single hsymbol hrest ((if_neg hshort).trans (if_pos h))
  · exact absurd hmem hlong

lemma IsDigits.exists_cons {digits : List Char} (h : IsDigits digits) :
    ∃ c tail, digits = c :: tail ∧ isSpace c = false ∧ c ≠ '/' := by
  obtain ⟨c, tail, rfl⟩ := List.exists_cons_of_ne_nil h.ne_nil
  have hc := h.digit c List.mem_cons_self
  refine ⟨c, tail, rfl, ?_, ne_of_class hc (by decide)⟩
  apply Bool.eq_false_iff.2
  intro hs
  rw [isDigit_of_isSpace hs] at hc
  cases hc

lemma exists_cons_of_mem_symbols (h : String.ofList text ∈ symbols) :
    ∃ c tail, text = c :: tail ∧ isSpace c = false ∧ (c = '/' → tail = []) := by
  cases text with
  | nil => exact absurd rfl (length_symbol _ h).1
  | cons c tail =>
    have hhead := head_symbol_layout _ h
    rw [String.toList_ofList] at hhead
    exact ⟨c, tail, rfl, hhead⟩

lemma IsLexeme.exists_cons (h : IsLexeme kind lexeme) :
    ∃ c tail, lexeme = c :: tail ∧ isSpace c = false ∧ (c = '/' → tail = []) := by
  cases h with
  | @string tail h => exact ⟨'"', tail, rfl, rfl, fun he => absurd he (by decide)⟩
  | whole h =>
    obtain ⟨c, tail, rfl, hspace, hslash⟩ := h.exists_cons
    exact ⟨c, tail, rfl, hspace, fun he => absurd he hslash⟩
  | decimal hw hf =>
    obtain ⟨c, tail, rfl, hspace, hslash⟩ := hw.exists_cons
    exact ⟨c, _, rfl, hspace, fun he => absurd he hslash⟩
  | @word c tail hc h =>
    have hslash : c ≠ '/' := ne_of_class hc (by decide)
    refine ⟨c, tail, rfl, ?_, fun he => absurd he hslash⟩
    apply Bool.eq_false_iff.2
    intro hs
    rcases isSpace_iff.1 hs with rfl | rfl | rfl | rfl <;> exact absurd hc (by decide)
  | operator h => exact exists_cons_of_mem_symbols (List.mem_append_left _ h)
  | delimiter h => exact exists_cons_of_mem_symbols (List.mem_append_right _ h)

lemma IsLexeme.ne_eof (h : IsLexeme kind lexeme) : kind ≠ .eof := by
  cases h with
  | word hc htail =>
    rw [wordKind]
    split <;> decide
  | _ => decide

lemma isLexeme_of_front (h : front text = .lexeme kind lexeme rest) : IsLexeme kind lexeme := by
  unfold front at h
  split at h
  · cases h
  · split at h
    · rename_i hclose
      cases h
      exact .string (isStringTail_of_closeString? hclose)
    · cases h
  · cases h
  · split at h
    · rename_i hdigit
      cases h
      exact isLexeme_numeral hdigit _
    · split at h
      · rename_i hword
        cases h
        exact .word hword fun _ hm => List.mem_takeWhile_imp hm
      · split at h
        · rename_i hsymbol
          cases h
          exact (symbol?_spec hsymbol).1
        · cases h

lemma length_le_of_front (h : front text = .lexeme kind lexeme rest) {other : TokenKind}
    {longer : List Char} (hlexeme : IsLexeme other longer) (hp : longer <+: text) :
    longer.length ≤ lexeme.length := by
  obtain ⟨after, rfl⟩ := hp
  cases hlexeme with
  | string hstring =>
    rw [front_string hstring] at h
    cases h
    exact Nat.le_refl _
  | whole hdigits =>
    rw [front_digits hdigits] at h
    cases h
    exact length_le_numeral hdigits.digit after
  | decimal hw hf =>
    -- the point is not lost, as a digit follows it
    rw [List.append_assoc, front_digits hw, ← List.append_assoc, numeral_fraction hw hf] at h
    cases h
    simp
  | word hc htail =>
    rw [List.cons_append, front_of_isWordStart hc, List.takeWhile_append_of_pos htail] at h
    cases h
    simp
  | operator hmem => exact length_symbol_le (List.mem_append_left _ hmem) h
  | delimiter hmem => exact length_symbol_le (List.mem_append_right _ hmem) h

lemma front_isLexeme (h : IsLexeme kind lexeme) (hrest : ∀ c ∈ rest.head?, isSpace c = true) :
    front (lexeme ++ rest) = .lexeme kind lexeme rest := by
  have hdigit (c : Char) (hc : c ∈ rest.head?) := isDigit_of_isSpace (hrest c hc)
  have hword (c : Char) (hc : c ∈ rest.head?) := isWordChar_of_isSpace (hrest c hc)
  cases h with
  | string hstring => exact front_string hstring rest
  | whole hdigits =>
    have htake := takeWhile_append_of_head hdigit lexeme
    have hdrop := dropWhile_append_of_head hdigit lexeme
    rw [List.takeWhile_eq_self_iff.2 hdigits.digit] at htake
    rw [List.dropWhile_eq_nil_iff.2 hdigits.digit, List.nil_append] at hdrop
    have hpoint (d : Char) (tail : List Char)
        (he : (lexeme ++ rest).dropWhile isDigit = '.' :: d :: tail) : isDigit d = false := by
      rw [hdrop] at he
      subst he
      exact absurd (hrest '.' rfl) (by decide)
    rw [front_digits hdigits, numeral_of_not_decimal hpoint, htake, hdrop]
  | @decimal whole fraction hw hf =>
    have htake := takeWhile_append_of_head hdigit []
    have hdrop := dropWhile_append_of_head hdigit []
    rw [List.nil_append, List.takeWhile_nil] at htake
    rw [List.nil_append, List.dropWhile_nil, List.nil_append] at hdrop
    rw [List.append_assoc, front_digits hw, ← List.append_assoc, numeral_fraction hw hf, htake, hdrop,
      List.append_nil]
  | @word c tail hc htail =>
    rw [List.cons_append, front_of_isWordStart hc, takeWhile_append_of_head hword,
      dropWhile_append_of_head hword, List.takeWhile_eq_self_iff.2 htail,
      List.dropWhile_eq_nil_iff.2 htail, List.nil_append]
  | operator hmem => exact front_operator hmem hrest
  | delimiter hmem => exact front_delimiter hmem hrest

lemma isLexeme_of_mem_lexemes (h : (kind, lexeme) ∈ lexemes text) : IsLexeme kind lexeme := by
  fun_induction pieces text with
  | case1 text hdone =>
    rw [lexemes, pieces_of_done hdone] at h
    cases h
  | case2 text fault lexeme' hfault =>
    rw [lexemes, pieces_of_fault hfault] at h
    cases h
  | case3 text kind' lexeme' rest hlexeme more ending hmore ih =>
    rw [lexemes, pieces_of_lexeme hlexeme, List.map_cons] at h
    rcases List.mem_cons.1 h with he | hm
    · cases he
      exact isLexeme_of_front hlexeme
    · exact ih hm

end Klang.Token

import Klang.Proofs.Lexing.Classes
import Klang.Proofs.Locations.Tokens

/-! String literals. Between its quotes a literal spells its value: each character stands for itself,
or behind a backslash. Every way to do so is read as the value, and nothing else is found there. -/

namespace Klang

namespace Text

def escapes : List (Char × Char) :=
  [('n', '\n'), ('t', '\t'), ('r', '\r'), ('\\', '\\'), ('"', '"'), ('0', '\x00')]

/-- A value, and a way to write it between quotes. -/
inductive Spells : List Char → List Char → Prop
  | nil : Spells [] []
  | plain {c : Char} {value written : List Char} (hquote : c ≠ '"') (hslash : c ≠ '\\')
      (h : Spells value written) : Spells (c :: value) (c :: written)
  | escape {letter c : Char} {value written : List Char} (hc : (letter, c) ∈ escapes)
      (h : Spells value written) : Spells (c :: value) ('\\' :: letter :: written)
  | itself {c : Char} {value written : List Char} (hc : c ∉ escapes.map Prod.fst)
      (h : Spells value written) : Spells (c :: value) ('\\' :: c :: written)

def unescape? : List Char → Option (List Char)
  | [] => some []
  | ['\\'] => none
  | '\\' :: c :: rest => (unescape? rest).map (escapedChar c :: ·)
  | c :: rest => (unescape? rest).map (c :: ·)

variable {c : Char} {text value written : List Char}

lemma unescape_of_unescape? (h : unescape? text = some value) : unescape text = value := by
  fun_induction unescape? text generalizing value with
  | case1 =>
    cases h
    rfl
  | case2 => cases h
  | case3 c rest ih =>
    obtain ⟨more, hmore, rfl⟩ := Option.map_eq_some_iff.1 h
    rw [unescape, ih hmore]
  | case4 c rest hlone hslash ih =>
    obtain ⟨more, hmore, rfl⟩ := Option.map_eq_some_iff.1 h
    rw [unescape.eq_3 _ _ fun d tail he => hslash d tail he, ih hmore]

lemma unescape?_cons (hslash : c ≠ '\\') (rest : List Char) :
    unescape? (c :: rest) = (unescape? rest).map (c :: ·) :=
  unescape?.eq_4 _ _ (fun hc _ => hslash hc) fun _ _ hc _ => hslash hc

lemma escapedChar_of_mem {letter : Char} (h : (letter, c) ∈ escapes) : escapedChar letter = c := by
  have hall : ∀ e ∈ escapes, escapedChar e.1 = e.2 := by decide
  exact hall _ h

lemma escapedChar_of_notMem (h : c ∉ escapes.map Prod.fst) : escapedChar c = c := by
  unfold escapedChar
  split
  · exact absurd h (by decide)
  · exact absurd h (by decide)
  · exact absurd h (by decide)
  · exact absurd h (by decide)
  · rfl

namespace Spells

lemma unescape?_eq (h : Spells value written) : unescape? written = some value := by
  induction h with
  | nil => rfl
  | plain hquote hslash h ih => rw [unescape?_cons hslash, ih, Option.map_some]
  | escape hc h ih => rw [unescape?, ih, Option.map_some, escapedChar_of_mem hc]
  | itself hc h ih => rw [unescape?, ih, Option.map_some, escapedChar_of_notMem hc]

lemma escaped (h : Spells value written) (c : Char) :
    Spells (escapedChar c :: value) ('\\' :: c :: written) := by
  by_cases hc : c ∈ escapes.map Prod.fst
  · obtain ⟨e, he, rfl⟩ := List.mem_map.1 hc
    rw [escapedChar_of_mem he]
    exact .escape he h
  · rw [escapedChar_of_notMem hc]
    exact .itself hc h

end Spells

end Text

namespace Token

open Source Text

variable {value written tail : List Char}

lemma isStringTail_of_spells (h : Spells value written) : IsStringTail (written ++ ['"']) := by
  induction h with
  | nil => exact .quote
  | plain hquote hslash h ih => exact .plain hquote hslash ih
  | escape hc h ih | itself hc h ih => exact .escape _ ih

lemma exists_spells (h : IsStringTail tail) :
    ∃ value written, tail = written ++ ['"'] ∧ Spells value written := by
  induction h with
  | quote => exact ⟨[], [], rfl, .nil⟩
  | @plain c tail hquote hslash h ih =>
    obtain ⟨value, written, rfl, hspells⟩ := ih
    exact ⟨c :: value, c :: written, rfl, hspells.plain hquote hslash⟩
  | escape c h ih =>
    obtain ⟨value, written, rfl, hspells⟩ := ih
    exact ⟨_, _, rfl, hspells.escaped c⟩

lemma IsLexeme.exists_stringTail {text : List Char} (h : IsLexeme .string text) :
    ∃ tail, text = '"' :: tail ∧ IsStringTail tail := by
  generalize hkind : TokenKind.string = kind at h
  cases h with
  | string h => exact ⟨_, rfl, h⟩
  | word hc h =>
    rw [wordKind] at hkind
    split at hkind <;> cases hkind
  | _ => cases hkind

lemma value_of_spells (h : Spells value written) (gap : List Char) :
    Piece.value ⟨gap, .string, '"' :: (written ++ ['"'])⟩ = String.ofList value := by
  simp only [Piece.value, List.drop_succ_cons, List.drop_zero, List.dropLast_concat,
    unescape_of_unescape? h.unescape?_eq]

lemma pieces_literal (h : Spells value written) :
    pieces ('"' :: (written ++ ['"'])) =
      ([⟨[], .string, '"' :: (written ++ ['"'])⟩], .clean []) := by
  have hskip : skipped? ('"' :: (written ++ ['"'])) = none := rfl
  have hfront := front_string (isStringTail_of_spells h) []
  rw [List.append_nil, ← front_layout_of_none hskip] at hfront
  have hend : front (layout []).2 = .done := front_layout_of_none rfl
  rw [pieces_of_lexeme hfront, pieces_of_done hend, layout_of_none hskip, layout_of_none rfl]

/-- Every spelling of a value, put between quotes, is one string token with this value. The token of
every literal has a spelling of its value between the quotes, with no backslash left over. -/
theorem tokenize_literal :
    (∀ (file value : String) (written : List Char), Spells value.toList written →
      let text := '"' :: (written ++ ['"'])
      let last := position text text.length
      tokenize file (String.ofList text) =
        .ok [⟨.string, value, ⟨file, position text 0, last, String.ofList text⟩⟩,
          ⟨.eof, "", ⟨file, last, last, ""⟩⟩]) ∧
    ∀ (file source : String) (tokens : List Token), tokenize file source = .ok tokens →
      ∀ t ∈ tokens, t.kind = .string → ∃ written, t.span.text.toList = '"' :: (written ++ ['"']) ∧
        Spells t.value.toList written ∧ unescape? written = some (unescape written) := by
  constructor
  · intro file value written h text last
    have hpieces : pieces text = ([⟨[], .string, text⟩], .clean []) := pieces_literal h
    have hvalue : Piece.value ⟨[], .string, text⟩ = value := by
      rw [value_of_spells h, String.ofList_toList]
    simp only [tokenize, String.toList_ofList, hpieces, placeAll, hvalue, List.length_nil,
      Nat.add_zero, List.singleton_append, spanIn, Nat.zero_add]
    rfl
  · intro file source tokens htokens t ht hkind
    obtain ⟨found, gap, hpieces, rfl⟩ := tokenize_eq_ok htokens
    rcases List.mem_append.1 ht with ht | ht
    · obtain ⟨⟨gap, kind, text⟩, hm, offset, rfl⟩ := exists_piece_of_mem_placeAll ht
      obtain rfl : kind = .string := hkind
      have hmem : (TokenKind.string, text) ∈ lexemes source.toList := by
        rw [lexemes, hpieces]
        exact List.mem_map_of_mem hm
      obtain ⟨tail, rfl, htail⟩ := (isLexeme_of_mem_lexemes hmem).exists_stringTail
      obtain ⟨value, written, rfl, hspells⟩ := exists_spells htail
      have hstrict := hspells.unescape?_eq
      refine ⟨written, String.toList_ofList, ?_, ?_⟩
      · rw [value_of_spells hspells, String.toList_ofList]
        exact hspells
      · rw [hstrict, unescape_of_unescape? hstrict]
    · obtain rfl := List.mem_singleton.1 ht
      cases hkind

theorem tokenize_literal_backslashes :
    let value := ['\\', '"', '\n', 'q', '\n', '/', '*', '\\']
    let written := ['\\', '\\', '\\', '"', '\\', 'n', '\\', 'q', '\n', '/', '*', '\\', '\\']
    ∃ t last, tokenize "f" (String.ofList ('"' :: (written ++ ['"']))) = .ok [t, last] ∧
      t.kind = .string ∧ t.value = String.ofList value ∧ last.kind = .eof ∧
        ∃ inner, t.span.text.toList = '"' :: (inner ++ ['"']) ∧ Spells t.value.toList inner ∧
          unescape? inner = some (unescape inner) := by
  intro value written
  have hspells : Spells (String.ofList value).toList written := by
    rw [String.toList_ofList]
    refine .escape (by decide) (.escape (by decide) (.escape (by decide) (.itself (by decide) ?_)))
    refine .plain (by decide) (by decide) (.plain (by decide) (by decide) ?_)
    exact .plain (by decide) (by decide) (.escape (by decide) .nil)
  have htokens := tokenize_literal.1 "f" (String.ofList value) written hspells
  exact ⟨_, _, htokens, rfl, rfl, rfl,
    tokenize_literal.2 "f" _ _ htokens _ List.mem_cons_self rfl⟩

end Token

end Klang

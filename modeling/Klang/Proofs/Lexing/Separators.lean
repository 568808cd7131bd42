import Klang.Proofs.Concatenation.Sources
import Klang.Proofs.Lexing.Layout
import Klang.Proofs.Locations.Tokens

/-! Layout carries no meaning. The texts of the tokens of a source, written again with other layout
between them, are the same tokens. -/

namespace Klang.Token

inductive IsSeparator : List Char → Prop
  | mk {c : Char} {gap : List Char} (hc : isSpace c = true) (h : IsLayout gap) : IsSeparator (c :: gap)

/-- Texts one behind the other with a separator between every two. -/
inductive Written : List (List Char) → List Char → Prop
  | nil : Written [] []
  | single (text : List Char) : Written [text] text
  | cons {next separator rest : List Char} {texts : List (List Char)} (text : List Char)
      (hs : IsSeparator separator) (h : Written (next :: texts) rest) :
      Written (text :: next :: texts) (text ++ (separator ++ rest))

variable {file source : String} {text lexeme rest separator : List Char} {kind : TokenKind}

lemma skipped?_isLexeme (h : IsLexeme kind lexeme) (hrest : ∀ c ∈ rest.head?, isSpace c = true) :
    skipped? (lexeme ++ rest) = none := by
  obtain ⟨c, tail, rfl, hspace, hslash⟩ := h.exists_cons
  -- a slash is a lexeme of its own, and what follows it makes no comment of it
  by_cases hc : c = '/'
  · obtain rfl := hslash hc
    subst hc
    cases rest with
    | nil => rfl
    | cons d rest =>
      have hd := hrest d rfl
      exact skipped?_slash (ne_of_class hd rfl) (ne_of_class hd rfl) rest
  · rw [List.cons_append, skipped?_cons hc, hspace]
    rfl

lemma lexemes_cons (h : IsLexeme kind lexeme) (hrest : ∀ c ∈ rest.head?, isSpace c = true) :
    lexemes (lexeme ++ rest) = (kind, lexeme) :: lexemes rest ∧
      (pieces (lexeme ++ rest)).2.isClean = (pieces rest).2.isClean := by
  have hfront : front (layout (lexeme ++ rest)).2 = .lexeme kind lexeme rest := by
    rw [layout_of_none (skipped?_isLexeme h hrest)]
    exact front_isLexeme h hrest
  rw [lexemes, pieces_of_lexeme hfront]
  exact ⟨rfl, rfl⟩

lemma lexemes_behind (h : IsSeparator separator) (text : List Char) :
    lexemes (separator ++ text) = lexemes text ∧
      (pieces (separator ++ text)).2.isClean = (pieces text).2.isClean := by
  cases h with
  | mk hc h => exact lexemes_congr (layout_isLayout (h.space hc) text)

lemma IsSeparator.isSpace_head (h : IsSeparator separator) (rest : List Char) :
    ∀ c ∈ (separator ++ rest).head?, isSpace c = true := by
  cases h with
  | mk hc h =>
    intro c hm
    cases hm
    exact hc

lemma lexemes_nil : lexemes [] = [] ∧ (pieces []).2.isClean = true := by
  have hdone : front (layout []).2 = .done := front_layout_of_none rfl
  rw [lexemes, pieces_of_done hdone]
  exact ⟨rfl, rfl⟩

lemma lexemes_of_written {found : List (TokenKind × List Char)}
    (hfound : ∀ l ∈ found, IsLexeme l.1 l.2) {last : List (List Char)} (hlast : last = [] ∨ last = [[]])
    (h : Written (found.map Prod.snd ++ last) text) :
    lexemes text = found ∧ (pieces text).2.isClean = true := by
  induction found generalizing text with
  | nil =>
    have htext : text = [] := by
      rcases hlast with rfl | rfl
      · cases h
        rfl
      · cases h
        rfl
    rw [htext]
    exact lexemes_nil
  | cons l found ih =>
    obtain ⟨kind, lexeme⟩ := l
    rw [List.forall_mem_cons] at hfound
    obtain ⟨hl, hmore⟩ := hfound
    rw [List.map_cons, List.cons_append] at h
    generalize hnext : found.map Prod.snd ++ last = texts at h
    cases h with
    | single =>
      obtain ⟨hnil, rfl⟩ := List.append_eq_nil_iff.1 hnext
      obtain rfl := List.map_eq_nil_iff.1 hnil
      have hcons : lexemes (lexeme ++ []) = _ ∧ _ := lexemes_cons hl (by simp)
      rw [List.append_nil, lexemes_nil.1, lexemes_nil.2] at hcons
      exact hcons
    | cons _ hs h =>
      rw [← hnext] at h
      obtain ⟨hlexemes, hclean⟩ := ih hmore h
      obtain ⟨hcons, hends⟩ := lexemes_cons hl (hs.isSpace_head _)
      obtain ⟨hbehind, hends'⟩ := lexemes_behind hs _
      exact ⟨by rw [hcons, hbehind, hlexemes], by rw [hends, hends', hclean]⟩

lemma map_text_placeAll (file source : String) (offset : Nat) (found : List Piece) :
    (placeAll (spanAt file source) offset found).map (fun t => t.span.text.toList) =
      found.map Piece.text := by
  induction found generalizing offset with
  | nil => rfl
  | cons piece found ih =>
    rw [placeAll, List.map_cons, List.map_cons, ih]
    exact congrArg (· :: _) String.toList_ofList

lemma map_text_of_tokenize {tokens : List Token} (h : tokenize file source = .ok tokens) :
    tokens.map (fun t => t.span.text.toList) = (lexemes source.toList).map Prod.snd ++ [[]] := by
  obtain ⟨found, gap, hpieces, rfl⟩ := tokenize_eq_ok h
  rw [List.map_append, map_text_placeAll, lexemes, hpieces, List.map_map]
  rfl

lemma map_spelling_of_tokenize {tokens : List Token} (h : tokenize file source = .ok tokens) :
    tokens.map spelling = spellings source.toList ++ [(.eof, "")] := by
  obtain ⟨found, gap, hpieces, rfl⟩ := tokenize_eq_ok h
  rw [List.map_append, map_spelling_placeAll, spellings, lexemes, hpieces, List.map_map]
  rfl

/-- Writing the tokens of a source again with any separators between them, before the end of input
or not, gives the same tokens. -/
theorem tokenize_written {tokens : List Token} (h : tokenize file source = .ok tokens) {text : String}
    (hw : Written (tokens.map fun t => t.span.text.toList) text.toList ∨
      Written (tokens.dropLast.map fun t => t.span.text.toList) text.toList) (file' : String) :
    ∃ tokens', tokenize file' text = .ok tokens' ∧ tokens'.map spelling = tokens.map spelling := by
  have hfound (l : TokenKind × List Char) (hl : l ∈ lexemes source.toList) : IsLexeme l.1 l.2 :=
    isLexeme_of_mem_lexemes hl
  have hsame : lexemes text.toList = lexemes source.toList ∧
      (pieces text.toList).2.isClean = true := by
    rcases hw with hw | hw
    · rw [map_text_of_tokenize h] at hw
      exact lexemes_of_written hfound (.inr rfl) hw
    · rw [List.map_dropLast, map_text_of_tokenize h, List.dropLast_concat] at hw
      rw [← List.append_nil (List.map _ _)] at hw
      exact lexemes_of_written hfound (.inl rfl) hw
  obtain ⟨body, last, htokens, -, -⟩ := tokenize_of_isClean file' hsame.2
  refine ⟨_, htokens, ?_⟩
  rw [map_spelling_of_tokenize htokens, map_spelling_of_tokenize h, spellings, hsame.1, spellings]

theorem tokenize_written_division :
    ∃ tokens tokens', tokenize "f" "a/b" = .ok tokens ∧
      Written (tokens.dropLast.map fun t => t.span.text.toList) "a\t/ /*\"*/\n//\\\nb".toList ∧
        tokenize "g" "a\t/ /*\"*/\n//\\\nb" = .ok tokens' ∧
          tokens'.map spelling = tokens.map spelling := by
  have hleft : front (layout "a/b".toList).2 = .lexeme .identifier "a".toList "/b".toList :=
    front_layout_of_none rfl
  have hslash : front (layout "/b".toList).2 = .lexeme .operator "/".toList "b".toList :=
    front_layout_of_none rfl
  have hright : front (layout "b".toList).2 = .lexeme .identifier "b".toList "".toList :=
    front_layout_of_none rfl
  have hend : front (layout "".toList).2 = .done := front_layout_of_none rfl
  have hpieces := pieces_of_lexeme hleft
  rw [pieces_of_lexeme hslash, pieces_of_lexeme hright, pieces_of_done hend] at hpieces
  have hlexemes : (lexemes "a/b".toList).map Prod.snd = ["a".toList, "/".toList, "b".toList] := by
    rw [lexemes, hpieces]
    rfl
  obtain ⟨tokens, htokens⟩ : ∃ tokens, tokenize "f" "a/b" = .ok tokens :=
    (tokenize_of_pieces "f" hpieces).elim fun _ h => ⟨_, h⟩
  have htab : IsSeparator ['\t'] := .mk rfl .nil
  have hblock : IsBlockComment "/*\"*/".toList := .mk ['"'] (by decide)
  have hline : IsLineComment "//\\".toList := .mk ['\\'] (by decide)
  have hcomments : IsSeparator (' ' :: ("/*\"*/".toList ++ '\n' :: ("//\\".toList ++ ['\n']))) :=
    .mk rfl (.block hblock (.space rfl (.line hline .nil)))
  have hw : Written (tokens.dropLast.map fun t => t.span.text.toList)
      "a\t/ /*\"*/\n//\\\nb".toList := by
    rw [List.map_dropLast, map_text_of_tokenize htokens, List.dropLast_concat, hlexemes]
    exact .cons _ htab (.cons _ hcomments (.single _))
  obtain ⟨tokens', hagain⟩ := tokenize_written htokens (.inr hw) "g"
  exact ⟨tokens, tokens', htokens, hw, hagain⟩

end Klang.Token

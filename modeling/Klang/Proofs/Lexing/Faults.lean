import Klang.Proofs.Lexing.Tiling
import Klang.Proofs.Locations.Positions

/-! Texts that cannot be read to their end. A fault is at the first place where neither layout nor a
lexeme stands, and the text in front of it is read as it was with the fault behind it. -/

namespace Klang.Token

open Source

variable {file source : String} {text gap lexeme rest rest' : List Char} {kind : TokenKind}
  {fault : LexFault}

lemma not_infix_of_closeComment? (h : closeComment? text = none) : ¬ ['*', '/'] <:+: text := by
  fun_induction closeComment? text with
  | case1 => decide
  | case2 => cases h
  | case3 c rest hmark ih =>
    rw [List.infix_cons_iff, not_or]
    refine ⟨?_, ih (Option.map_eq_none_iff.1 h)⟩
    rintro ⟨after, he⟩
    cases he
    exact hmark after rfl rfl

lemma not_prefix_of_closeString? (h : closeString? text = none) {tail : List Char}
    (htail : IsStringTail tail) : ¬ tail <+: text := by
  rintro ⟨after, rfl⟩
  rw [closeString?_of_isStringTail htail] at h
  cases h

lemma isSome_symbol? {c : Char} (h : String.ofList [c] ∈ symbols) (rest : List Char) :
    (symbol? (c :: rest)).isSome = true := by
  have hsingle : String.ofList [c] ∈ shortOperators ∨ String.ofList [c] ∈ delimiters := by
    rcases List.mem_append.1 h with h | h
    · rcases List.mem_append.1 h with h | h
      · have htwo := (longOperators_ends _ h).1
        rw [String.toList_ofList] at htwo
        cases htwo
      · exact .inl h
    · exact .inr h
  by_cases hlong : ∀ d ∈ rest.head?, String.ofList [c, d] ∉ longOperators
  · rw [symbol?_single hlong]
    split
    · rfl
    · rename_i hshort
      rw [if_pos (hsingle.resolve_left hshort)]
      rfl
  · push Not at hlong
    obtain ⟨d, hd, hmem⟩ := hlong
    obtain ⟨tail, rfl⟩ := List.head?_eq_some_iff.1 hd
    rw [symbol?_long hmem]
    rfl

lemma exists_front_symbol (h : String.ofList lexeme ∈ symbols)
    (hopen : lexeme = ['/'] → rest.head? ≠ some '*') :
    ∃ kind lexeme' rest', front (lexeme ++ rest) = .lexeme kind lexeme' rest' := by
  rcases mem_symbols_cases h with ⟨c, rfl⟩ | ⟨c, d, rfl, hlong⟩
  · obtain ⟨⟨kind, lexeme', rest'⟩, hfound⟩ := Option.isSome_iff_exists.1 (isSome_symbol? h rest)
    refine ⟨kind, lexeme', rest', (front_symbol_iff h ?_).2 hfound⟩
    rintro tail rfl rfl
    exact hopen rfl rfl
  · exact ⟨_, _, _, front_long hlong rest⟩

lemma exists_front (h : IsLexeme kind lexeme) (hopen : lexeme = ['/'] → rest.head? ≠ some '*') :
    ∃ kind lexeme' rest', front (lexeme ++ rest) = .lexeme kind lexeme' rest' := by
  cases h with
  | string h => exact ⟨_, _, _, front_string h rest⟩
  | whole h => exact ⟨_, _, _, front_digits h rest⟩
  | decimal hw hf =>
    rw [List.append_assoc]
    exact ⟨_, _, _, front_digits hw _⟩
  | word hc h => exact ⟨_, _, _, front_of_isWordStart hc _⟩
  | operator h => exact exists_front_symbol (List.mem_append_left _ h) hopen
  | delimiter h => exact exists_front_symbol (List.mem_append_right _ h) hopen

lemma IsLexeme.kind_unique {other : TokenKind} (h : IsLexeme kind lexeme)
    (h' : IsLexeme other lexeme) : kind = other := by
  have hfront : front (lexeme ++ []) = .lexeme kind lexeme [] := front_isLexeme h (by simp)
  rw [front_isLexeme h' (by simp)] at hfront
  cases hfront
  rfl

lemma not_open_of_front (h : front (lexeme ++ rest) = .lexeme kind lexeme rest) :
    lexeme = ['/'] → rest.head? ≠ some '*' := by
  rintro rfl hstar
  obtain ⟨tail, rfl⟩ := List.head?_eq_some_iff.1 hstar
  cases h

lemma head?_of_isPrefix (hp : rest' <+: rest) {c : Char} (h : rest'.head? = some c) :
    rest.head? = some c := by
  obtain ⟨more, rfl⟩ := hp
  rw [List.head?_append, h]
  rfl

lemma front_cut (h : front (lexeme ++ rest) = .lexeme kind lexeme rest) (hp : rest' <+: rest) :
    front (lexeme ++ rest') = .lexeme kind lexeme rest' := by
  have hlexeme := isLexeme_of_front h
  have hopen : lexeme = ['/'] → rest'.head? ≠ some '*' := fun hslash hstar =>
    not_open_of_front h hslash (head?_of_isPrefix hp hstar)
  obtain ⟨other, found, behind, hfound⟩ := exists_front hlexeme hopen
  obtain ⟨hparts, -⟩ := front_append hfound
  have hother := isLexeme_of_front hfound
  have hprefix : found <+: lexeme ++ rest := by
    have hshort : found <+: lexeme ++ rest' := ⟨behind, hparts⟩
    exact hshort.trans ((List.prefix_append_right_inj lexeme).2 hp)
  have hlength : found.length = lexeme.length :=
    Nat.le_antisymm (length_le_of_front h hother hprefix)
      (length_le_of_front hfound hlexeme (List.prefix_append _ _))
  obtain ⟨rfl, rfl⟩ := List.append_inj hparts hlength
  obtain rfl := hlexeme.kind_unique hother
  exact hfound

lemma skipped?_layout (text : List Char) : skipped? (layout text).2 = none := by
  fun_induction layout text with
  | case1 text hnone => exact hnone
  | case2 text gap rest hsome more after hrest ih =>
    rw [hrest] at ih
    exact ih

lemma skipped?_cut (hskip : skipped? (lexeme ++ rest) = none)
    (h : front (lexeme ++ rest) = .lexeme kind lexeme rest) (hp : rest' <+: rest) :
    skipped? (lexeme ++ rest') = none := by
  obtain ⟨c, tail, rfl, hspace, hslash⟩ := (isLexeme_of_front h).exists_cons
  by_cases hc : c = '/'
  · subst hc
    obtain rfl := hslash rfl
    cases rest' with
    | nil => rfl
    | cons d rest' =>
      -- the same character stood behind the slash before, and made no comment of it
      obtain ⟨more, rfl⟩ := hp
      refine skipped?_slash ?_ ?_ rest'
      · rintro rfl
        exact not_open_of_front h rfl rfl
      · rintro rfl
        cases hskip
  · rw [List.cons_append, skipped?_cons hc, hspace]
    rfl

lemma layout_cut (hne : (layout text).2 ≠ []) (hskip : skipped? rest = none) :
    layout ((layout text).1 ++ rest) = ((layout text).1, rest) := by
  have hbehind := layout_isLayout ((isLayout_layout text).2 hne) rest
  rw [layout_of_none hskip] at hbehind
  have hparts := layout_append ((layout text).1 ++ rest)
  rw [hbehind] at hparts
  exact Prod.ext (List.append_cancel_right hparts) hbehind

lemma take_layout (text : List Char) (length : Nat) :
    text.take ((layout text).1.length + length) = (layout text).1 ++ (layout text).2.take length := by
  rw [← List.take_length_add_append, layout_append]

lemma pieces_cut {found : List Piece} (h : pieces text = (found, .fault gap fault lexeme)) :
    pieces (text.take ((found.map Piece.length).sum + gap.length)) = (found, .clean gap) := by
  -- induction along the pieces; each is found again in front of the shorter rest
  fun_induction pieces text generalizing found with
  | case1 text hdone => cases h
  | case2 text fault' lexeme' hfault =>
    cases h
    have hne : (layout text).2 ≠ [] := by
      intro he
      rw [he] at hfault
      cases hfault
    have hgap := take_layout text 0
    rw [Nat.add_zero, List.take_zero, List.append_nil] at hgap
    have hlayout : layout ((layout text).1 ++ []) = ((layout text).1, []) := layout_cut hne rfl
    rw [List.append_nil] at hlayout
    have hend : front (layout (layout text).1).2 = .done := by
      rw [hlayout]
      rfl
    rw [List.map_nil, List.sum_nil, Nat.zero_add, hgap, pieces_of_done hend, hlayout]
  | case3 text kind lexeme' rest hlexeme more ending hmore ih =>
    cases h
    have hagain := ih hmore
    generalize hlength : (more.map Piece.length).sum + gap.length = length at hagain
    obtain ⟨hparts, hne⟩ := front_append hlexeme
    have hcut : text.take ((layout text).1.length + lexeme'.length + length) =
        (layout text).1 ++ (lexeme' ++ rest.take length) := by
      rw [Nat.add_assoc, take_layout, ← hparts, List.take_length_add_append]
    have hbehind : (layout text).2 ≠ [] := by
      rw [← hparts]
      exact List.append_ne_nil_of_left_ne_nil hne _
    have hfront := hlexeme
    have hskip := skipped?_layout text
    rw [← hparts] at hfront hskip
    have hlayout := layout_cut hbehind (skipped?_cut hskip hfront (List.take_prefix length rest))
    have hfound : front (layout (text.take
        ((layout text).1.length + lexeme'.length + length))).2 =
          .lexeme kind lexeme' (rest.take length) := by
      rw [hcut, hlayout]
      exact front_cut hfront (List.take_prefix length rest)
    have hsum : ((⟨(layout text).1, kind, lexeme'⟩ :: more : List Piece).map Piece.length).sum +
        gap.length = (layout text).1.length + lexeme'.length + length := by
      rw [List.map_cons, List.sum_cons, ← hlength, ← Nat.add_assoc]
      rfl
    rw [hsum, pieces_of_lexeme hfound, hcut, hlayout, hagain]

lemma spanIn_take {offset length : Nat} (h : offset + lexeme.length ≤ length)
    (hlength : length ≤ text.length) :
    spanIn file (text.take length).length (newlines (text.take length)).toArray offset lexeme =
      spanIn file text.length (newlines text).toArray offset lexeme := by
  have hstart := position_take ((Nat.le_add_right _ _).trans h) hlength
  have hstop := position_take h hlength
  unfold position at hstart hstop
  rw [spanIn, spanIn, hstart, hstop]

lemma placeAll_congr {place place' : Nat → List Char → Span} {offset length : Nat}
    {found : List Piece} (hplace : ∀ start lexeme, start + lexeme.length ≤ length →
      place start lexeme = place' start lexeme)
    (h : offset + (found.map Piece.length).sum ≤ length) :
    placeAll place offset found = placeAll place' offset found := by
  induction found generalizing offset with
  | nil => rfl
  | cons piece found ih =>
    rw [List.map_cons, List.sum_cons, ← Nat.add_assoc] at h
    have hpiece : offset + piece.gap.length + piece.text.length ≤ length := by
      rw [Piece.length] at h
      omega
    rw [placeAll, placeAll, hplace _ _ hpiece, ih h]

def scanned (file source : String) : List Token :=
  placeAll (spanAt file source) 0 (pieces source.toList).1

/-- A text at whose front nothing can be read, with the characters that are pointed out and the
message about them. -/
inductive Unreadable : List Char → List Char → String → Prop
  | openString {rest : List Char} (h : ∀ tail, IsStringTail tail → ¬ tail <+: rest) :
      Unreadable ('"' :: rest) ['"'] "Unterminated string literal"
  | openComment {rest : List Char} (h : ¬ ['*', '/'] <:+: rest) :
      Unreadable ('/' :: '*' :: rest) ['/', '*'] "Unterminated block comment"
  | unexpected {c : Char} {rest : List Char} (hquote : c ≠ '"') (hspace : isSpace c = false)
      (h : ∀ kind lexeme, IsLexeme kind lexeme → ¬ lexeme <+: c :: rest) :
      Unreadable (c :: rest) [c] s!"Unexpected character '{c}'"

lemma Unreadable.ne_nil {message : String} (h : Unreadable text lexeme message) : text ≠ [] := by
  cases h <;> exact List.cons_ne_nil _ _

lemma front_eq_fault (h : front text = .fault fault lexeme) :
    (∃ rest, text = '"' :: rest ∧ fault = .openString ∧ lexeme = ['"'] ∧ closeString? rest = none) ∨
    (∃ rest, text = '/' :: '*' :: rest ∧ fault = .openComment ∧ lexeme = ['/', '*']) ∨
    ∃ c rest, text = c :: rest ∧ fault = .unexpected c ∧ lexeme = [c] ∧ c ≠ '"' ∧
      ∀ tail, c = '/' → rest ≠ '*' :: tail := by
  unfold front at h
  split at h
  · cases h
  · split at h
    · cases h
    · rename_i hclose
      cases h
      exact .inl ⟨_, rfl, rfl, rfl, hclose⟩
  · cases h
    exact .inr (.inl ⟨_, rfl, rfl, rfl⟩)
  · rename_i hquote hopen
    split at h
    · cases h
    · split at h
      · cases h
      · split at h
        · cases h
        · cases h
          exact .inr (.inr ⟨_, _, rfl, rfl, rfl, hquote, hopen⟩)

lemma isSpace_of_skipped? {c : Char} (h : skipped? (c :: rest) = none) : isSpace c = false := by
  by_cases hc : c = '/'
  · subst hc
    decide
  · rw [skipped?_cons hc] at h
    apply Bool.eq_false_iff.2
    intro hspace
    rw [if_pos hspace] at h
    cases h

lemma unreadable_of_front (h : front text = .fault fault lexeme) (hskip : skipped? text = none) :
    Unreadable text lexeme fault.message := by
  rcases front_eq_fault h with ⟨rest, rfl, rfl, rfl, hclose⟩ | ⟨rest, rfl, rfl, rfl⟩ |
    ⟨c, rest, rfl, rfl, rfl, hquote, hopen⟩
  · exact .openString fun _ htail => not_prefix_of_closeString? hclose htail
  · rw [skipped?, Option.map_eq_none_iff] at hskip
    exact .openComment (not_infix_of_closeComment? hskip)
  · refine .unexpected hquote (isSpace_of_skipped? hskip) ?_
    rintro kind lexeme hlexeme ⟨behind, hparts⟩
    have hslash : lexeme = ['/'] → behind.head? ≠ some '*' := by
      rintro rfl hstar
      obtain ⟨tail, rfl⟩ := List.head?_eq_some_iff.1 hstar
      cases hparts
      exact hopen tail rfl rfl
    obtain ⟨kind', lexeme', rest', hfront⟩ := exists_front hlexeme hslash
    rw [hparts, h] at hfront
    cases hfront

lemma layout_of_pieces (h : pieces text = ([], .fault gap fault lexeme)) :
    (layout text).1 = gap ∧ front (layout text).2 = .fault fault lexeme := by
  cases hfront : front (layout text).2 with
  | done =>
    rw [pieces_of_done hfront] at h
    cases h
  | lexeme kind lexeme rest =>
    rw [pieces_of_lexeme hfront] at h
    cases h
  | fault fault lexeme =>
    rw [pieces_of_fault hfront] at h
    cases h
    exact ⟨rfl, rfl⟩

lemma tokenize_cut {found : List Piece} {length : Nat}
    (h : pieces (source.toList.take length) = (found, .clean gap))
    (hlength : length ≤ source.toList.length) (hsum : (found.map Piece.length).sum ≤ length) :
    tokenize file (String.ofList (source.toList.take length)) =
      .ok (placeAll (spanAt file source) 0 found ++
        [⟨.eof, "", spanAt file source length []⟩]) := by
  have hspan (start : Nat) (lexeme : List Char) (hle : start + lexeme.length ≤ length) :
      spanIn file (source.toList.take length).length (newlines (source.toList.take length)).toArray
        start lexeme = spanAt file source start lexeme := spanIn_take hle hlength
  have hbody := placeAll_congr hspan ((Nat.zero_add _).trans_le hsum)
  have hend := hspan length [] (Nat.le_refl _)
  rw [List.length_take_of_le hlength] at hbody hend
  unfold tokenize
  simp only [String.toList_ofList, h, List.length_take_of_le hlength, hbody, hend]

lemma foldr_length (found : List Piece) (length : Nat) :
    (found.map Piece.length).foldr (· + ·) length = (found.map Piece.length).sum + length := by
  induction found with
  | nil => exact (Nat.zero_add _).symm
  | cons piece found ih =>
    rw [List.map_cons, List.foldr_cons, List.sum_cons, ih, Nat.add_assoc]

/-- The tokens of a source reach up to a place where nothing can be read, with layout between the
last one and the place. They are the tokens of the source up to there. -/
structure RejectedAt (file source : String) (e : LexError) (place : Nat) : Prop where
  bounded : place < source.toList.length
  scanned : ∃ last, LaidOut file source.toList 0 (scanned file source) last ∧ last ≤ place ∧
    IsLayout (source.toList.extract last place)
  prefix_tokens : tokenize file (String.ofList (source.toList.take place)) =
    .ok (Token.scanned file source ++
      [⟨.eof, "", ⟨file, position source.toList place, position source.toList place, ""⟩⟩])
  unreadable : ∃ lexeme, Unreadable (source.toList.drop place) lexeme e.diagnostic.message ∧
    e.span = ⟨file, position source.toList place,
      position source.toList (place + lexeme.length : Nat), String.ofList lexeme⟩
  context : IsLineAt source.toList place e.diagnostic.context.toList

/-- A source without tokens is rejected at the first place where nothing can be read. The message says
what cannot be read there, and the line of the place is given along. -/
theorem tokenize_fault {e : LexError} (h : tokenize file source = .error e) :
    ∃ place, RejectedAt file source e place := by
  obtain ⟨found, gap, lexeme, hpieces, hspan, hcontext⟩ := tokenize_eq_fault h
  obtain ⟨last, hlaid, hlast, hbound, hend⟩ :=
    laidOut_placeAll (Nat.zero_le source.toList.length) hpieces
  rw [Nat.zero_add] at hlast
  obtain ⟨hgap, hfault⟩ := layout_of_pieces hend
  have hscanned : scanned file source = placeAll (spanAt file source) 0 found := by
    rw [scanned, hpieces]
  have hdrop : source.toList.drop (last + gap.length) = (layout (source.toList.drop last)).2 := by
    rw [← List.drop_drop, ← hgap, drop_layout]
  have hparts : source.toList.drop last = gap ++ source.toList.drop (last + gap.length) := by
    rw [hdrop, ← hgap, layout_append]
  have hunreadable : Unreadable (source.toList.drop (last + gap.length)) lexeme e.fault.message := by
    rw [hdrop]
    exact unreadable_of_front hfault (skipped?_layout _)
  have hplace : last + gap.length < source.toList.length := by
    obtain ⟨c, rest, hrest⟩ := List.exists_cons_of_ne_nil hunreadable.ne_nil
    have hlength := congrArg List.length hrest
    rw [List.length_drop, List.length_cons] at hlength
    omega
  have hlayout : IsLayout gap := by
    rw [← hgap]
    refine (isLayout_layout _).2 ?_
    rw [← hdrop]
    exact hunreadable.ne_nil
  rw [foldr_length, hlast] at hspan
  refine ⟨last + gap.length, hplace, ⟨last, ?_, Nat.le_add_right _ _, ?_⟩, ?_,
    ⟨lexeme, hunreadable, hspan⟩, ?_⟩
  · rw [hscanned]
    exact hlaid
  · rw [extract_of_drop hparts]
    exact hlayout
  · have hcut := pieces_cut hpieces
    rw [hlast] at hcut
    rw [hscanned, tokenize_cut hcut hplace.le (by omega)]
    rfl
  · rw [LexError.diagnostic, hcontext, hspan]
    exact isLineAt_position hplace.le

theorem tokenize_fault_point : ∃ e, tokenize "f" "a\n1." = .error e ∧
    e.diagnostic.message = "Unexpected character '.'" ∧ ∃ place, RejectedAt "f" "a\n1." e place := by
  have hname : front (layout "a\n1.".toList).2 = .lexeme .identifier "a".toList "\n1.".toList :=
    front_layout_of_none rfl
  have hnumber : front (layout "\n1.".toList).2 = .lexeme .number "1".toList ".".toList :=
    (front_layout_of_some rfl).trans (front_layout_of_none rfl)
  have hpoint : front (layout ".".toList).2 = .fault (.unexpected '.') ['.'] :=
    front_layout_of_none rfl
  have hpieces := pieces_of_lexeme hname
  rw [pieces_of_lexeme hnumber, pieces_of_fault hpoint] at hpieces
  have htokens : ∃ e, tokenize "f" "a\n1." = .error e ∧ e.fault = .unexpected '.' := by
    simp only [tokenize, hpieces]
    exact ⟨_, rfl, rfl⟩
  obtain ⟨e, htokens, hfault⟩ := htokens
  refine ⟨e, htokens, ?_, tokenize_fault htokens⟩
  rw [LexError.diagnostic, hfault]
  rfl

end Klang.Token

import Klang.Proofs.Locations.Reports
import Klang.Token.Lexer

/-! Where the tokens of a source stand: on its lines, each at the text it was cut from. The lexeme for
which a source is rejected is found at its place, too. -/

namespace Klang

namespace Source

lemma bisect_le (entries : Array Nat) (bound : Nat) {low high : Nat} (h : low ≤ high) :
    bisect entries bound low high ≤ high := by
  fun_induction bisect entries bound low high with
  | case1 low high hlt middle hbelow ih => exact ih (by omega)
  | case2 low high hlt middle hbelow ih => exact (ih (by omega)).trans (by omega)
  | case3 low high hlt => exact h

lemma line_locate (length : Nat) (breaks : Array Nat) (offset : Int) :
    1 ≤ (locate length breaks offset).line ∧ (locate length breaks offset).line ≤ breaks.size + 1 := by
  have h := bisect_le breaks (min offset length).toNat (Nat.zero_le breaks.size)
  simp only [locate]
  omega

end Source

namespace Token

open Source

variable {file source : String} {text lexeme : List Char} {fault : LexFault}

def spanAt (file source : String) (offset : Nat) (text : List Char) : Span :=
  spanIn file source.toList.length (newlines source.toList).toArray offset text

lemma line_spanAt (file source : String) (offset : Nat) (text : List Char) :
    1 ≤ (spanAt file source offset text).start.line ∧
      (spanAt file source offset text).start.line ≤ (lines source).length := by
  have h := line_locate source.toList.length (newlines source.toList).toArray offset
  rw [List.size_toArray] at h
  rw [length_lines]
  exact_mod_cast h

lemma prefix_of_front (h : front text = .fault fault lexeme) : lexeme <+: text := by
  unfold front at h
  split at h
  · cases h
  · split at h
    · cases h
    · cases h
      exact List.prefix_append ['"'] _
  · cases h
    exact List.prefix_append ['/', '*'] _
  · split at h
    · cases h
    · split at h
      · cases h
      · split at h
        · cases h
        · cases h
          exact List.prefix_append [_] _

lemma drop_layout (text : List Char) : text.drop (layout text).1.length = (layout text).2 := by
  have h : ((layout text).1 ++ (layout text).2).drop (layout text).1.length = (layout text).2 :=
    List.drop_left
  rwa [layout_append] at h

lemma front_of_pieces {found : List Piece} {gap : List Char}
    (h : pieces text = (found, .fault gap fault lexeme)) :
    front (text.drop ((found.map Piece.length).foldr (· + ·) gap.length)) = .fault fault lexeme := by
  fun_induction pieces text generalizing found with
  | case1 text hdone => cases h
  | case2 text fault' lexeme' hfault =>
    cases h
    rw [List.map_nil, List.foldr_nil, drop_layout, hfault]
  | case3 text kind lexeme' rest hlexeme more ending hmore ih =>
    cases h
    have hrest : text.drop ((layout text).1.length + lexeme'.length) = rest := by
      rw [← List.drop_drop, drop_layout, ← (front_append hlexeme).1, List.drop_left]
    rw [List.map_cons, List.foldr_cons, ← List.drop_drop, Piece.length, hrest]
    exact ih hmore

lemma tokenize_eq_ok {tokens : List Token} (h : tokenize file source = .ok tokens) :
    ∃ found gap, pieces source.toList = (found, .clean gap) ∧
      tokens = placeAll (spanAt file source) 0 found ++
        [⟨.eof, "", spanAt file source source.toList.length []⟩] := by
  unfold tokenize at h
  cases hpieces : pieces source.toList with
  | mk found ending =>
    simp only [hpieces] at h
    cases ending with
    | clean gap =>
      cases h
      exact ⟨found, gap, rfl, rfl⟩
    | fault gap fault lexeme => cases h

lemma tokenize_eq_fault {e : LexError} (h : tokenize file source = .error e) :
    ∃ found gap lexeme, pieces source.toList = (found, .fault gap e.fault lexeme) ∧
      e.span = spanAt file source ((found.map Piece.length).foldr (· + ·) gap.length) lexeme ∧
      e.context = line source e.span.start.line := by
  unfold tokenize at h
  cases hpieces : pieces source.toList with
  | mk found ending =>
    simp only [hpieces] at h
    cases ending with
    | clean gap => cases h
    | fault gap fault lexeme =>
      cases h
      exact ⟨found, gap, lexeme, rfl, rfl, rfl⟩

lemma tokenize_eq_error {e : LexError} (h : tokenize file source = .error e) :
    ∃ offset lexeme, front (source.toList.drop offset) = .fault e.fault lexeme ∧
      e.span = spanAt file source offset lexeme := by
  obtain ⟨found, gap, lexeme, hpieces, hspan, -⟩ := tokenize_eq_fault h
  exact ⟨_, lexeme, front_of_pieces hpieces, hspan⟩

lemma getLast?_of_tokenize {tokens : List Token} (h : tokenize file source = .ok tokens) :
    tokens.getLast?.map kind = some .eof := by
  obtain ⟨found, gap, -, rfl⟩ := tokenize_eq_ok h
  rw [List.getLast?_concat]
  rfl

lemma exists_piece_of_mem_placeAll {place : Nat → List Char → Span} {offset : Nat}
    {found : List Piece} {t : Token} (h : t ∈ placeAll place offset found) :
    ∃ piece ∈ found, ∃ offset, t = ⟨piece.kind, piece.value, place offset piece.text⟩ := by
  induction found generalizing offset with
  | nil => cases h
  | cons piece found ih =>
    rcases List.mem_cons.1 h with rfl | h
    · exact ⟨piece, List.mem_cons_self, _, rfl⟩
    · obtain ⟨other, hm, ht⟩ := ih h
      exact ⟨other, List.mem_cons_of_mem _ hm, ht⟩

/-- The spans of the tokens of a source. If it has none, the span of the lexeme for which it is
rejected, at the offset where this lexeme stands. -/
def IsPlace (file source : String) (span : Span) : Prop :=
  match tokenize file source with
  | .ok tokens => ∃ t ∈ tokens, t.span = span
  | .error e => e.span = span ∧
      ∃ offset lexeme, front (source.toList.drop offset) = .fault e.fault lexeme ∧
        lexeme <+: source.toList.drop offset ∧ span = spanAt file source offset lexeme

lemma isPlace_of_mem {tokens : List Token} (h : tokenize file source = .ok tokens) {t : Token}
    (ht : t ∈ tokens) : IsPlace file source t.span := by
  rw [IsPlace, h]
  exact ⟨t, ht, rfl⟩

lemma isPlace_of_error {e : LexError} (h : tokenize file source = .error e) :
    IsPlace file source e.span := by
  obtain ⟨offset, lexeme, hfront, hspan⟩ := tokenize_eq_error h
  rw [IsPlace, h]
  exact ⟨rfl, offset, lexeme, hfront, prefix_of_front hfront, hspan⟩

lemma IsPlace.line {span : Span} (h : IsPlace file source span) :
    1 ≤ span.start.line ∧ span.start.line ≤ (lines source).length := by
  obtain ⟨offset, text, rfl⟩ : ∃ offset text, span = spanAt file source offset text := by
    unfold IsPlace at h
    cases htokens : tokenize file source with
    | ok tokens =>
      rw [htokens] at h
      obtain ⟨t, ht, rfl⟩ := h
      obtain ⟨found, gap, -, rfl⟩ := tokenize_eq_ok htokens
      rcases List.mem_append.1 ht with ht | ht
      · obtain ⟨piece, -, offset, rfl⟩ := exists_piece_of_mem_placeAll ht
        exact ⟨offset, piece.text, rfl⟩
      · obtain rfl := List.mem_singleton.1 ht
        exact ⟨_, _, rfl⟩
    | error e =>
      rw [htokens] at h
      obtain ⟨-, offset, lexeme, -, -, hspan⟩ := h
      exact ⟨offset, lexeme, hspan⟩
  exact line_spanAt file source offset text

end Token

end Klang

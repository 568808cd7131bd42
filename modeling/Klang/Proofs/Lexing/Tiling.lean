import Klang.Proofs.Concatenation.Sources
import Klang.Proofs.Lexing.Layout
import Klang.Proofs.Locations.Tokens
import Mathlib.Algebra.GroupWithZero.Nat

/-! The tokens of a source tile it: they stand one behind the other with nothing but layout between
them, each as long as it can be. -/

namespace Klang.Token

open Source

/-- A token stands between two offsets of a text: it is a lexeme, it has the span of what is between
them, and no lexeme that begins there goes further. -/
structure Occupies (file : String) (text : List Char) (t : Token) (start stop : Nat) : Prop where
  nonempty : start < stop
  bounded : stop ≤ text.length
  span : t.span = ⟨file, position text start, position text stop,
    String.ofList (text.extract start stop)⟩
  lexeme : IsLexeme t.kind (text.extract start stop)
  longest : ∀ kind longer, IsLexeme kind longer → longer <+: text.drop start →
    longer.length ≤ stop - start

/-- Tokens that stand one behind the other from an offset to the end of a text. -/
inductive Tiles (file : String) (text : List Char) : Nat → List Token → Prop
  | nil {offset : Nat} (hgap : IsLastLayout (text.drop offset)) : Tiles file text offset []
  | cons {offset start stop : Nat} {t : Token} {tokens : List Token} (hle : offset ≤ start)
      (hgap : IsLayout (text.extract offset start)) (ht : Occupies file text t start stop)
      (h : Tiles file text stop tokens) : Tiles file text offset (t :: tokens)

inductive LaidOut (file : String) (text : List Char) : Nat → List Token → Nat → Prop
  | nil {offset : Nat} : LaidOut file text offset [] offset
  | cons {offset start stop last : Nat} {t : Token} {tokens : List Token} (hle : offset ≤ start)
      (hgap : IsLayout (text.extract offset start)) (ht : Occupies file text t start stop)
      (h : LaidOut file text stop tokens last) : LaidOut file text offset (t :: tokens) last

variable {file source : String} {text gap lexeme rest : List Char} {kind : TokenKind}
  {tokens : List Token} {offset last : Nat}

lemma Tiles.ne_eof (h : Tiles file text offset tokens) : ∀ t ∈ tokens, t.kind ≠ .eof := by
  induction h with
  | nil hgap => exact fun _ hm => absurd hm List.not_mem_nil
  | cons hle hgap ht h ih => exact List.forall_mem_cons.2 ⟨ht.lexeme.ne_eof, ih⟩

lemma LaidOut.tiles (h : LaidOut file text offset tokens last)
    (hgap : IsLastLayout (text.drop last)) : Tiles file text offset tokens := by
  induction h with
  | nil => exact .nil hgap
  | cons hle hlayout ht h ih => exact .cons hle hlayout ht (ih hgap)

lemma extract_of_drop {part : List Char} {offset : Nat} (h : text.drop offset = part ++ rest) :
    text.extract offset (offset + part.length) = part := by
  rw [List.extract_eq_take_drop, Nat.add_sub_cancel_left, h, List.take_left]

lemma drop_of_drop {part : List Char} {offset : Nat} (h : text.drop offset = part ++ rest) :
    text.drop (offset + part.length) = rest := by
  rw [← List.drop_drop, h, List.drop_left]

lemma occupies_of_front {start : Nat} (hle : start ≤ text.length)
    (h : front (text.drop start) = .lexeme kind lexeme rest) (value : String) :
    Occupies file text ⟨kind, value, spanIn file text.length (newlines text).toArray start lexeme⟩
      start (start + lexeme.length) := by
  obtain ⟨hparts, hne⟩ := front_append h
  have hextract := extract_of_drop hparts.symm
  have hpos := List.length_pos_iff.2 hne
  have hlength := congrArg List.length hparts
  rw [List.length_append, List.length_drop] at hlength
  refine ⟨by omega, by omega, ?_, ?_, ?_⟩
  · rw [hextract]
    rfl
  · rw [hextract]
    exact isLexeme_of_front h
  · intro other longer hlonger hp
    rw [Nat.add_sub_cancel_left]
    exact length_le_of_front h hlonger hp

lemma isLastLayout_of_pieces (h : pieces text = ([], .clean gap)) : IsLastLayout text := by
  cases hfront : front (layout text).2 with
  | done =>
    have hgap := layout_append text
    have hlast := (isLayout_layout text).1
    rw [front_eq_done hfront, List.append_nil] at hgap
    rwa [hgap] at hlast
  | lexeme kind lexeme rest =>
    rw [pieces_of_lexeme hfront] at h
    cases h
  | fault fault lexeme =>
    rw [pieces_of_fault hfront] at h
    cases h

lemma laidOut_placeAll {found : List Piece} {ending : Ending} (hle : offset ≤ text.length)
    (h : pieces (text.drop offset) = (found, ending)) :
    ∃ last, LaidOut file text offset
        (placeAll (spanIn file text.length (newlines text).toArray) offset found) last ∧
      offset + (found.map Piece.length).sum = last ∧ last ≤ text.length ∧
        pieces (text.drop last) = ([], ending) := by
  -- induction along the pieces of what is left of the text
  generalize hleft : text.drop offset = left at h
  fun_induction pieces left generalizing offset found with
  | case1 left hdone =>
    cases h
    refine ⟨offset, .nil, rfl, hle, ?_⟩
    rw [hleft, pieces_of_done hdone]
  | case2 left fault lexeme hfault =>
    cases h
    refine ⟨offset, .nil, rfl, hle, ?_⟩
    rw [hleft, pieces_of_fault hfault]
  | case3 left kind lexeme rest hlexeme more ending hmore ih =>
    cases h
    have hparts : text.drop offset = (layout left).1 ++ (layout left).2 := by
      rw [layout_append, hleft]
    have hbehind := drop_of_drop hparts
    have hne : (layout left).2 ≠ [] := by
      intro he
      rw [he] at hlexeme
      cases hlexeme
    have hstart : offset + (layout left).1.length ≤ text.length := by
      have hlength := congrArg List.length hparts
      rw [List.length_append, List.length_drop] at hlength
      omega
    have hoccupies : Occupies file text _ _ _ := occupies_of_front hstart (hbehind ▸ hlexeme)
      (Piece.value ⟨(layout left).1, kind, lexeme⟩)
    have hrest := drop_of_drop (hbehind.trans (front_append hlexeme).1.symm)
    obtain ⟨last, hlaid, hlast, hbound, hend⟩ := ih hoccupies.bounded hrest hmore
    refine ⟨last, .cons (Nat.le_add_right _ _) ?_ hoccupies ?_, ?_, hbound, hend⟩
    · rw [extract_of_drop hparts]
      exact (isLayout_layout left).2 hne
    · rw [Nat.add_assoc] at hlaid ⊢
      exact hlaid
    · rw [← hlast, List.map_cons, List.sum_cons]
      change offset + ((layout left).1.length + lexeme.length + _) = _
      omega

lemma tiles_placeAll {found : List Piece} (hle : offset ≤ text.length)
    (h : pieces (text.drop offset) = (found, .clean gap)) :
    Tiles file text offset
      (placeAll (spanIn file text.length (newlines text).toArray) offset found) := by
  obtain ⟨last, hlaid, -, -, hend⟩ := laidOut_placeAll hle h
  exact hlaid.tiles (isLastLayout_of_pieces hend)

/-- The tokens of a source stand between layout, each as long as it can be, and the last one is the
end of input behind them all. -/
theorem tokenize_tiles {tokens : List Token} (h : tokenize file source = .ok tokens) :
    let text := source.toList
    let last := position text text.length
    ∃ body, tokens = body ++ [⟨.eof, "", ⟨file, last, last, ""⟩⟩] ∧ (∀ t ∈ body, t.kind ≠ .eof) ∧
      Tiles file text 0 body := by
  intro text last
  obtain ⟨found, gap, hpieces, rfl⟩ := tokenize_eq_ok h
  have htiles : Tiles file text 0 _ := tiles_placeAll (Nat.zero_le _) hpieces
  exact ⟨_, rfl, htiles.ne_eof, htiles⟩

theorem tokenize_tiles_comparison :
    let text := "a<=b//c".toList
    let last := position text text.length
    ∃ tokens body, tokenize "f" "a<=b//c" = .ok tokens ∧
      tokens.map value = ["a", "<=", "b", ""] ∧ tokens = body ++ [⟨.eof, "", ⟨"f", last, last, ""⟩⟩] ∧
        (∀ t ∈ body, t.kind ≠ .eof) ∧ Tiles "f" text 0 body := by
  intro text last
  have hleft : front (layout "a<=b//c".toList).2 = .lexeme .identifier "a".toList "<=b//c".toList :=
    front_layout_of_none rfl
  have hoperator : front (layout "<=b//c".toList).2 = .lexeme .operator "<=".toList "b//c".toList :=
    front_layout_of_none rfl
  have hright : front (layout "b//c".toList).2 = .lexeme .identifier "b".toList "//c".toList :=
    front_layout_of_none rfl
  have hcomment : skipped? "//c".toList = some ("//c".toList, []) := rfl
  have hend : front (layout "//c".toList).2 = .done :=
    (front_layout_of_some hcomment).trans (front_layout_of_none rfl)
  have hpieces := pieces_of_lexeme hleft
  rw [pieces_of_lexeme hoperator, pieces_of_lexeme hright, pieces_of_done hend] at hpieces
  obtain ⟨place, htokens⟩ := tokenize_of_pieces "f" hpieces
  obtain ⟨body, hbody⟩ := tokenize_tiles htokens
  exact ⟨_, body, htokens, rfl, hbody⟩

end Klang.Token

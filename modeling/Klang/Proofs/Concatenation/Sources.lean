import Klang.Node.Reader
import Klang.Proofs.Concatenation.Statements

/-! Source texts one behind the other. Two texts that can be read have one tree for both with a
semicolon on a line of its own between them. -/

namespace Klang

namespace Token

def spellings (text : List Char) : List (TokenKind × String) :=
  (lexemes text).map fun lexeme => (lexeme.1, Piece.value ⟨[], lexeme.1, lexeme.2⟩)

lemma spellings_append {text : List Char} (more : List Char)
    (hclean : (pieces text).2.isClean = true) :
    spellings (text ++ '\n' :: more) = spellings text ++ spellings more := by
  rw [spellings, (lexemes_append more hclean).1, List.map_append]
  rfl

lemma map_spelling_placeAll (place : Nat → List Char → Source.Span) (offset : Nat)
    (found : List Piece) :
    (placeAll place offset found).map spelling = found.map fun p => (p.kind, p.value) := by
  induction found generalizing offset with
  | nil => rfl
  | cons piece found ih =>
    rw [placeAll, List.map_cons, List.map_cons, ih]
    rfl

lemma tokenize_of_pieces (file : String) {source : String} {found : List Piece} {gap : List Char}
    (h : pieces source.toList = (found, .clean gap)) :
    ∃ place : Nat → List Char → Source.Span, tokenize file source =
      .ok (placeAll place 0 found ++ [⟨.eof, "", place source.toList.length []⟩]) := by
  refine ⟨spanIn file source.toList.length (Source.newlines source.toList).toArray, ?_⟩
  simp only [tokenize, h]

lemma tokenize_of_isClean (file : String) {source : String}
    (hclean : (pieces source.toList).2.isClean = true) :
    ∃ body last, tokenize file source = .ok (body ++ [last]) ∧ last.kind = .eof ∧
      body.map spelling = spellings source.toList := by
  cases hpieces : pieces source.toList with
  | mk found ending =>
    cases ending with
    | clean gap =>
      obtain ⟨place, htokens⟩ := tokenize_of_pieces file hpieces
      refine ⟨_, _, htokens, rfl, ?_⟩
      rw [map_spelling_placeAll, spellings, lexemes, hpieces, List.map_map]
      rfl
    | fault gap fault lexeme =>
      rw [hpieces] at hclean
      cases hclean

lemma isClean_of_tokenize {file source : String} {tokens : List Token}
    (h : tokenize file source = .ok tokens) : (pieces source.toList).2.isClean = true := by
  unfold tokenize at h
  cases hend : (pieces source.toList).2 with
  | clean gap => rfl
  | fault gap fault lexeme =>
    simp only [hend] at h
    cases h

lemma kind_ne_eof {text : List Char} {body : List Token} (h : body.map spelling = spellings text) :
    ∀ t ∈ body, t.kind ≠ .eof := by
  intro t ht
  have hmem : t.spelling ∈ spellings text := by
    rw [← h]
    exact List.mem_map_of_mem ht
  obtain ⟨lexeme, hlexeme, he⟩ := List.mem_map.1 hmem
  have hkind : lexeme.1 = t.kind := congrArg Prod.fst he
  rw [← hkind]
  exact lexemes_kind hlexeme

lemma lexemes_separator :
    lexemes [';'] = [(.delimiter, [';'])] ∧ (pieces [';']).2.isClean = true := by
  have hfront : front (layout [';']).2 = .lexeme .delimiter [';'] [] := front_layout_of_none rfl
  have hend : front (layout []).2 = .done := front_layout_of_none rfl
  rw [lexemes, pieces_of_lexeme hfront, pieces_of_done hend]
  exact ⟨rfl, rfl⟩

lemma spellings_separated {a b : List Char} (ha : (pieces a).2.isClean = true) :
    spellings (a ++ '\n' :: ';' :: '\n' :: b) =
      spellings a ++ (.delimiter, ";") :: spellings b := by
  have hmiddle : spellings (';' :: '\n' :: b) = (.delimiter, ";") :: spellings b := by
    rw [← List.singleton_append, spellings_append b lexemes_separator.2, spellings,
      lexemes_separator.1]
    rfl
  rw [spellings_append _ ha, hmiddle]

lemma isClean_separated {a b : List Char} (ha : (pieces a).2.isClean = true)
    (hb : (pieces b).2.isClean = true) :
    (pieces (a ++ '\n' :: ';' :: '\n' :: b)).2.isClean = true := by
  rw [(lexemes_append _ ha).2, ← List.singleton_append, (lexemes_append b lexemes_separator.2).2]
  exact hb

end Token

open Token

lemma readProgram_eq_ok {file source : String} {program : Node}
    (h : (readProgram file source).result = .ok program) :
    ∃ tokens, tokenize file source = .ok tokens ∧ parseProgram tokens = .ok program := by
  unfold readProgram readWith readTokens at h
  cases htokens : tokenize file source with
  | error e =>
    rw [htokens] at h
    cases h
  | ok tokens =>
    rw [htokens] at h
    refine ⟨tokens, rfl, ?_⟩
    cases hparse : parseProgram tokens with
    | error e =>
      simp only [hparse] at h
      cases h
    | ok found =>
      simp only [hparse] at h
      cases h
      rfl

lemma readProgram_of_ok {file source : String} {tokens : List Token} {program : Node}
    (htokens : tokenize file source = .ok tokens) (hparse : parseProgram tokens = .ok program) :
    (readProgram file source).result = .ok program := by
  simp only [readProgram, readWith, readTokens, htokens, hparse]
  rfl

lemma exists_program_of_readProgram {file source : String} {program : Node}
    (h : (readProgram file source).result = .ok program) :
    (pieces source.toList).2.isClean = true ∧ ∃ body rest span,
      body.map spelling = spellings source.toList ∧
        Parser.program body = .ok (program.statements, rest) ∧
          program = .program span program.statements := by
  obtain ⟨tokens, htokens, hparse⟩ := readProgram_eq_ok h
  have hclean := isClean_of_tokenize htokens
  obtain ⟨body, last, hbody, hlast, hspell⟩ := tokenize_of_isClean file hclean
  rw [hbody] at htokens
  cases htokens
  have hsplit := Parser.splitInput?_append hlast (kind_ne_eof hspell)
  obtain ⟨nodes, rest, hrun, rfl⟩ := (Parser.parseProgram_eq_ok hsplit).1 hparse
  exact ⟨hclean, body, rest, _, hspell, hrun, rfl⟩

lemma readProgram_separated {fileA fileB a b : String} {programA programB : Node}
    (ha : (readProgram fileA a).result = .ok programA)
    (hb : (readProgram fileB b).result = .ok programB) (file : String) :
    ∃ span nodes, (readProgram file (a ++ "\n;\n" ++ b)).result = .ok (.program span nodes) ∧
      Node.EachAlike (programA.statements ++ programB.statements) nodes := by
  obtain ⟨hcleana, as, resta, _, hspella, hruna, _⟩ := exists_program_of_readProgram ha
  obtain ⟨hcleanb, bs, restb, _, hspellb, hrunb, _⟩ := exists_program_of_readProgram hb
  have htext : (a ++ "\n;\n" ++ b).toList = a.toList ++ '\n' :: ';' :: '\n' :: b.toList := by
    simp
  obtain ⟨body, last, hbody, hlast, hspell⟩ :=
    tokenize_of_isClean file (htext ▸ isClean_separated hcleana hcleanb)
  have hsplit := Parser.splitInput?_append hlast (kind_ne_eof hspell)
  rw [htext, spellings_separated hcleana] at hspell
  obtain ⟨us, vs, rfl, hus, hvs⟩ := List.map_eq_append_iff.1 hspell
  obtain ⟨separator, ys, rfl, hseparator, hys⟩ := List.map_eq_cons_iff.1 hvs
  have hsemicolon : separator.isSymbol ";" = true := by
    obtain ⟨hkind, hvalue⟩ := Prod.mk.inj hseparator
    simp [isSymbol, hkind, hvalue]
  obtain ⟨joined, hjoined, halike⟩ := Parser.program_append hsemicolon (hspella.trans hus.symm)
    (hspellb.trans hys.symm) hruna hrunb
  exact ⟨_, joined, readProgram_of_ok hbody
    ((Parser.parseProgram_eq_ok hsplit).2 ⟨joined, [], hjoined, rfl⟩), halike⟩

end Klang

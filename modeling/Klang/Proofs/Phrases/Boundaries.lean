import Klang.Proofs.Phrases.Changes
import Mathlib.Logic.Relation

/-! Semicolons at the boundaries of statements. What is read is the same with any number of them. -/

namespace Klang

open Klang.Parser

namespace Phrase

/-- One more semicolon in a list of statements: at the beginning of a block that is not empty, or
behind a statement or another semicolon. Neither of these is without tokens. -/
inductive Boundary : Phrase → Phrase → Prop
  | opened {opening semicolon p closing} : semicolon.isSymbol ";" → p.tokens ≠ [] →
      Boundary (form .block [words [opening], p, words [closing]])
        (form .block [words [opening], form .statements [words [semicolon], p], words [closing]])
  | behind {p semicolon q} : semicolon.isSymbol ";" → p.tokens ≠ [] →
      Boundary (form .statements [p, q])
        (form .statements [p, form .statements [words [semicolon], q]])

/-- One more semicolon at the beginning of a program, or in the statements of the program or of a block
at any depth. -/
inductive Loosens : Phrase → Phrase → Prop
  | front {semicolon p} : semicolon.isSymbol ";" →
      Loosens p (form .statements [words [semicolon], p])
  | within {p p'} : Within Boundary p p' → Loosens p p'

variable {p p' : Phrase} {f : Follow} {node : Node} {nodes : List Node}

mutual

lemma Conditional.ended {f : Follow} {p : Phrase} {node : Node} (h : Conditional f p node) :
    Conditional (follow []) p node := by
  match h with
  | .conditional hw hc hb ho => exact .conditional hw hc hb ho.ended

lemma Otherwise.ended {f : Follow} {p : Phrase} {branch : Option Node} (h : Otherwise f p branch) :
    Otherwise (follow []) p branch := by
  match h with
  | .nothing _ => exact .nothing rfl
  | .block hk hb => exact .block hk hb
  | .conditional hk hc => exact .conditional hk hc.ended

end

lemma Statement.ended (h : Statement f p node) : Statement (follow []) p node := by
  cases h with
  | declaration hw hn ht he hv _ => exact .declaration hw hn ht he hv rfl
  | definition hw hn hp hb => exact .definition hw hn hp hb
  | conditional hc => exact .conditional hc.ended
  | whileLoop hw hc hb => exact .whileLoop hw hc hb
  | forLoop hw hi hb => exact .forLoop hw hi hb
  | returnNothing hw _ => exact .returnNothing hw rfl
  | returnValue hw hv _ => exact .returnValue hw hv rfl
  | block hb hmap => exact .block hb hmap
  | expression he _ => exact .expression he rfl

lemma Boundary.front (h : Boundary p p') : SameFront p.tokens p'.tokens := by
  cases h with
  | opened => simpa using .of_heads rfl
  | @behind p semicolon q _ hne =>
    simp only [tokens_form, tokensOf_cons]
    refine ⟨by simp [hne], by simp [hne], ?_⟩
    rw [follow_append_of_ne_nil hne, follow_append_of_ne_nil hne]

lemma Boundary.block {ps : List Phrase} (hs : Boundary (form .block ps) p')
    (h : Block (form .block ps) node) : Block p' node := by
  cases hs with
  | opened hsemicolon _ =>
    cases h with
    | block ho hstatements hc => exact .block ho (.separator hsemicolon hstatements) hc

lemma Boundary.statements {ps : List Phrase} (hs : Boundary (form .statements ps) p')
    (h : Statements (form .statements ps) nodes) : Statements p' nodes := by
  cases hs with
  | @behind p semicolon q hsemicolon _ =>
    cases h with
    | separator hother hq => exact .separator hother (.separator hsemicolon hq)
    | statement hp hq =>
      refine .statement ?_ (.separator hsemicolon hq)
      have hfollow : follow (semicolon :: q.tokens) = follow [] := follow_ending hsemicolon (.inr rfl) _
      simpa [hfollow] using hp.ended

lemma neutral_boundary : Neutral Boundary where
  not_words := nofun
  forms hs := by cases hs <;> decide
  front := Boundary.front
  binary hs := nomatch hs
  function hs := nomatch hs
  lambdaValue hs := nomatch hs
  loop hs := nomatch hs
  block := Boundary.block
  length_block hs := by
    cases hs with
    | opened => simp
  statements := Boundary.statements

lemma Loosens.program (hl : Loosens p p') (h : Program p node) : Program p' node := by
  cases hl with
  | front hs =>
    cases h with
    | program hstatements => exact .program (.separator hs hstatements)
  | within hw => exact h.of_within neutral_boundary hw

inductive OneMore : List Token → List Token → Prop
  | mk {semicolon : Token} (before after : List Token) : semicolon.isSymbol ";" →
      OneMore (before ++ after) (before ++ semicolon :: after)

lemma OneMore.unended {ts ts' : List Token} (h : OneMore ts ts') (hts : ∀ t ∈ ts, t.kind ≠ .eof) :
    ∀ t ∈ ts', t.kind ≠ .eof := by
  cases h with
  | mk before after hs =>
    rw [List.forall_mem_append] at hts
    rw [List.forall_mem_append, List.forall_mem_cons]
    exact ⟨hts.1, unended_of_isSymbol hs, hts.2⟩

lemma OneMore.within {ts ts' : List Token} (h : OneMore ts ts') (before after : List Token) :
    OneMore (before ++ (ts ++ after)) (before ++ (ts' ++ after)) := by
  cases h with
  | mk front behind hs => simpa using OneMore.mk (before ++ front) (behind ++ after) hs

lemma Boundary.oneMore (h : Boundary p p') : OneMore p.tokens p'.tokens := by
  cases h with
  | @opened opening semicolon p closing hs _ => simpa using .mk [opening] (p.tokens ++ [closing]) hs
  | @behind p semicolon q hs _ => simpa using .mk p.tokens q.tokens hs

lemma Loosens.oneMore (h : Loosens p p') : OneMore p.tokens p'.tokens := by
  cases h with
  | front hs => simpa using .mk [] p.tokens hs
  | within hw =>
    induction hw with
    | here hs => exact hs.oneMore
    | @inside form before p p' after _ ih =>
      simpa using ih.within (tokensOf before) (tokensOf after)

end Phrase

/-- Every program that is read is a phrase, and with any number of further semicolons at the boundaries
of its statements it is read as the same program again. -/
theorem separators_read_alike {tokens : List Token} {program : Node}
    (h : parseProgram tokens = .ok program) :
    (∃ phrase : Phrase, phrase.tokens = tokens.takeWhile (·.kind ≠ .eof) ∧
      Phrase.Program phrase program) ∧
    ∀ phrase phrase' : Phrase, phrase.tokens = tokens.takeWhile (·.kind ≠ .eof) →
      Phrase.Program phrase program → Relation.ReflTransGen Phrase.Loosens phrase phrase' →
      Relation.ReflTransGen Phrase.OneMore phrase.tokens phrase'.tokens ∧
      ∃ program', parseProgram (phrase'.tokens ++ tokens.dropWhile (·.kind ≠ .eof)) = .ok program' ∧
        program'.Alike program := by
  obtain ⟨last, hsplit⟩ := splitInput?_of_parseProgram h
  obtain ⟨_, _, hunended, _⟩ := splitInput?_eq_some_iff.1 hsplit
  refine ⟨?_, fun phrase phrase' hp hprogram hl => ?_⟩
  · obtain ⟨nodes, rest, hread, rfl⟩ := (parseProgram_eq_ok hsplit).1 h
    obtain ⟨phrase, hp, hs⟩ := phrase_of_program hread
    exact ⟨phrase, hp, .program hs⟩
  · rw [← hp] at hunended
    -- each semicolon leaves a phrase of the same program, without an end of input in it
    have hkept : Relation.ReflTransGen Phrase.OneMore phrase.tokens phrase'.tokens ∧
        Phrase.Program phrase' program ∧ ∀ t ∈ phrase'.tokens, t.kind ≠ .eof := by
      induction hl with
      | refl => exact ⟨.refl, hprogram, hunended⟩
      | tail _ hstep ih =>
        obtain ⟨hmore, hprogram', hunended'⟩ := ih
        exact ⟨hmore.tail hstep.oneMore, hstep.program hprogram', hstep.oneMore.unended hunended'⟩
    obtain ⟨hmore, hprogram', hunended'⟩ := hkept
    exact ⟨hmore, hprogram'.parses (splitInput?_replace hsplit hunended')⟩

theorem separators_read_alike_conditional :
    let token (kind : TokenKind) (value : String) : Token := ⟨kind, value, default⟩
    let separator := token .delimiter ";"
    ∃ program other, parseProgram [token .keyword "if", token .identifier "a",
        token .delimiter "\x7b", token .keyword "return", token .delimiter "\x7d",
        token .identifier "b", token .eof ""] = .ok program ∧
      parseProgram [separator, token .keyword "if", token .identifier "a",
        token .delimiter "\x7b", separator, token .keyword "return", token .delimiter "\x7d",
        separator, token .identifier "b", token .eof ""] = .ok other ∧
      other.Alike program := by
  intro token separator
  let statements (p q : Phrase) : Phrase := .form .statements [p, q]
  let conditional (body : Phrase) : Phrase := .form .conditional [.words [token .keyword "if"],
    .words [token .identifier "a"],
    .form .block [.words [token .delimiter "\x7b"], body, .words [token .delimiter "\x7d"]],
    .words []]
  let body : Phrase := statements (.words [token .keyword "return"]) (.words [])
  let behind : Phrase := statements (.words [token .identifier "b"]) (.words [])
  let branch : Node := .conditional (some default) (.identifier (some default) "a")
    (.block (some default) [.returnStatement (some default) none]) none
  let program : Node := .program (some default)
    [branch, .expressionStatement (some default) (.identifier (some default) "b")]
  have hread : parseProgram [token .keyword "if", token .identifier "a",
      token .delimiter "\x7b", token .keyword "return", token .delimiter "\x7d",
      token .identifier "b", token .eof ""] = .ok program := rfl
  have hname (name : String) : Phrase.Expression (.words [token .identifier name])
      (.identifier (some default) name) := .operand (.of_primary (.atom rfl) (by decide))
  have hbranch : Phrase.Statement (Phrase.follow behind.tokens) (conditional body) branch :=
    .conditional (.conditional rfl (hname "a")
      (.block rfl (.statement (.returnNothing rfl rfl) .nothing) rfl) (.nothing (by decide)))
  have hprogram : Phrase.Program (statements (conditional body) behind) program :=
    .program (.statement hbranch (.statement (.expression (hname "b") rfl) .nothing))
  have hfirst : Phrase.Loosens (statements (conditional body) behind)
      (statements (conditional body) (statements (.words [separator]) behind)) :=
    .within (.here (.behind rfl (by decide)))
  have hsecond : Phrase.Loosens
      (statements (conditional body) (statements (.words [separator]) behind))
      (statements (conditional (statements (.words [separator]) body))
        (statements (.words [separator]) behind)) :=
    .within (@Phrase.Within.inside _ _ [] _ _ _ (@Phrase.Within.inside _ _ [_, _] _ _ _
      (.here (.opened rfl (by decide)))))
  have hthird (p : Phrase) : Phrase.Loosens p (statements (.words [separator]) p) := .front rfl
  obtain ⟨-, other, hother, halike⟩ := (separators_read_alike hread).2
    (statements (conditional body) behind) _ (by decide) hprogram
    (((Relation.ReflTransGen.single hfirst).tail hsecond).tail (hthird _))
  exact ⟨_, other, hread, hother, halike⟩

end Klang

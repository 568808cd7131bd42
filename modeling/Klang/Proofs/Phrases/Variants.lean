import Klang.Proofs.Phrases.Changes

/-! Other words for the same. A construct that can be written in two ways is read as the same tree in
both, wherever it stands. -/

namespace Klang

open Klang.Parser

namespace Phrase

inductive Logical : Level → BinaryOperator → Token → Prop
  | conjunction {t : Token} : t.isOperator "&&" ∨ t.isKeyword "and" → Logical .conjunction .and t
  | disjunction {t : Token} : t.isOperator "||" ∨ t.isKeyword "or" → Logical .disjunction .or t

/-- Two ways to write a construct. Behind an arrow the empty block would be an empty map. -/
inductive Variant : Phrase → Phrase → Prop
  | operator {level operator p t t' q} : Logical level operator t → Logical level operator t' →
      Variant (form .binary [p, words [t], q]) (form .binary [p, words [t'], q])
  | loop {front front' behind behind' name p q} : LoopWords front behind name →
      LoopWords front' behind' name →
      Variant (form .forLoop [words front, p, words behind, q])
        (form .forLoop [words front', p, words behind', q])
  | function {front front' behind behind' ps p} : FunctionWords front behind →
      FunctionWords front' behind' → p.tokens.length ≠ 2 →
      Variant (form .function [words front, words ps, words behind, p])
        (form .function [words front', words ps, words behind', p])
  | lambdaValue {forge ps arrow p word opening keyword closing} : forge.isKeyword "forge" →
      word.isKeyword "def" → opening.isSymbol "\x7b" → keyword.isKeyword "return" →
      closing.isSymbol "\x7d" →
      Variant (form .lambdaValue [words [forge], words ps, words [arrow], p])
        (form .function [words [word], words ps, words [], form .block [words [opening],
          form .statements [form .returnStatement [words [keyword], p], words []],
          words [closing]]])

/-- One construct of the phrase, at any depth of it, is written in the other way. -/
inductive Replaces : Phrase → Phrase → Prop
  | here {p p'} : Variant p p' → Replaces p p'
  | inside {f before p p' after} : Replaces p p' →
      Replaces (form f (before ++ p :: after)) (form f (before ++ p' :: after))

variable {p p' : Phrase}

lemma Replaces.within (h : Replaces p p') : Within Variant p p' := by
  induction h with
  | here hv => exact .here hv
  | inside _ ih => exact .inside ih

lemma follow_of_isKeyword {t : Token} {word : String} (h : t.isKeyword word = true)
    (hw : word ∉ ["and", "or", "else"]) : follow [t] = ⟨false, false, false⟩ := by
  have hvalue : t.kind = .keyword ∧ t.value = word := by
    simpa [Token.isKeyword] using h
  simp only [List.mem_cons, List.not_mem_nil, or_false, not_or] at hw
  simp [follow, goesOn, continues, operatorOf, disjunctionOf, conjunctionOf, equalityOf,
    relationalOf, additiveOf, multiplicativeOf, symbolOf, Token.isSymbol, Token.isOperator,
    Token.isKeyword, hvalue, hw]

lemma Logical.operatorOf_eq {level : Level} {operator : BinaryOperator} {t : Token}
    (h : Logical level operator t) : operatorOf level t = some operator := by
  cases h with
  | conjunction ht => exact if_pos (Bool.or_eq_true _ _ ▸ ht)
  | disjunction ht => exact if_pos (Bool.or_eq_true _ _ ▸ ht)

lemma Logical.replace {level tight : Level} {operator operator' : BinaryOperator} {t t' : Token}
    (h : Logical level operator t) (h' : Logical level operator t')
    (ho : operatorOf tight t = some operator') : operatorOf tight t' = some operator' := by
  obtain rfl := level_unique (continues_of_operatorOf h.operatorOf_eq) (continues_of_operatorOf ho)
  rw [h'.operatorOf_eq, ← h.operatorOf_eq, ho]

lemma Logical.follow_eq {level : Level} {operator : BinaryOperator} {t : Token}
    (h : Logical level operator t) : follow [t] = ⟨true, false, false⟩ := by
  have hcontinues : goesOn t = true :=
    follow_of_continues (continues_of_operatorOf h.operatorOf_eq) []
  have hvalue : t.value ∉ ["\x7d", ";", "else"] := by
    have hmem := value_of_operatorOf h.operatorOf_eq
    cases h with
    | conjunction | disjunction =>
      simp only [goingOn, List.mem_cons, List.not_mem_nil, or_false] at hmem
      rcases hmem with hmem | hmem <;> simp [hmem]
  simp only [List.mem_cons, List.not_mem_nil, or_false, not_or] at hvalue
  simp [follow, hcontinues, Token.isSymbol, Token.isKeyword, hvalue]

lemma FunctionWords.head {front behind : List Token} (h : FunctionWords front behind) :
    ∃ t us, front = t :: us ∧ follow [t] = ⟨false, false, false⟩ := by
  cases h with
  | function hw | lambda hw | arrow hw => exact ⟨_, _, rfl, follow_of_isKeyword hw (by decide)⟩

lemma LoopWords.head {front behind : List Token} {name : String}
    (h : LoopWords front behind name) :
    ∃ t us, front = t :: us ∧ follow [t] = ⟨false, false, false⟩ := by
  cases h with
  | bare hw | parenthesized hw => exact ⟨_, _, rfl, follow_of_isKeyword hw (by decide)⟩

lemma Variant.front (h : Variant p p') : SameFront p.tokens p'.tokens := by
  cases h with
  | @operator _ _ p t t' q ht ht' =>
    simpa using (SameFront.of_heads (ht'.follow_eq.trans ht.follow_eq.symm)).prepend p.tokens
  | loop h h' =>
    obtain ⟨t, us, rfl, hf⟩ := h.head
    obtain ⟨t', us', rfl, hf'⟩ := h'.head
    simpa using .of_heads (hf'.trans hf.symm)
  | function h h' _ =>
    obtain ⟨t, us, rfl, hf⟩ := h.head
    obtain ⟨t', us', rfl, hf'⟩ := h'.head
    simpa using .of_heads (hf'.trans hf.symm)
  | lambdaValue h h' =>
    have hf := follow_of_isKeyword h (by decide)
    have hf' := follow_of_isKeyword h' (by decide)
    simpa using .of_heads (hf'.trans hf.symm)

lemma LoopWords.name_unique {front behind : List Token} {name name' : String}
    (h : LoopWords front behind name) (h' : LoopWords front behind name') : name = name' := by
  cases h <;> cases h' <;> rfl

lemma neutral_variant : Neutral Variant where
  not_words := nofun
  forms hv := by cases hv <;> decide
  front := Variant.front
  binary hv hp ho hq := by
    cases hv with
    | operator ht ht' => exact .binary hp (ht.replace ht' ho) hq
  function hv _ hp hb := by
    cases hv with
    -- the arrow may be new, and asks for a block that is no map
    | function _ hw hne => exact .function hw hp hb fun _ => hb.unmapped hne
  lambdaValue hv hp hvalue := by
    cases hv with
    | lambdaValue _ hw ho hreturn hc =>
      have hfollow : (follow (words []).tokens).continues = false := by simp [follow]
      exact .function (.function hw) hp (.block ho (.statement (.returnValue hreturn hvalue hfollow)
        .nothing) hc) fun hne => absurd rfl hne
  loop hv hw hi hb := by
    cases hv with
    | loop h h' =>
      obtain rfl := hw.name_unique h
      exact .forLoop h' hi hb
  block hv := nomatch hv
  length_block hv := nomatch hv
  statements hv := nomatch hv

lemma Expression.replace {node : Node} (h : Expression p node) (hr : Replaces p p') :
    Expression p' node :=
  h.of_within neutral_variant hr.within

lemma Program.replace {node : Node} (h : Program p node) (hr : Replaces p p') : Program p' node :=
  h.of_within neutral_variant hr.within

lemma Logical.unended {level : Level} {operator : BinaryOperator} {t : Token}
    (h : Logical level operator t) : t.kind ≠ .eof := by
  cases h with
  | conjunction ht | disjunction ht =>
    exact ht.elim (fun ho => unended_of_isSymbol (isSymbol_of_isOperator ho)) unended_of_isKeyword

lemma FunctionWords.unended {front behind : List Token} (h : FunctionWords front behind) :
    (∀ t ∈ front, t.kind ≠ .eof) ∧ ∀ t ∈ behind, t.kind ≠ .eof := by
  cases h with
  | function hw | lambda hw => simp [unended_of_isKeyword hw]
  | arrow hw ha =>
    simp [unended_of_isKeyword hw, unended_of_isSymbol (isSymbol_of_isOperator ha)]

lemma LoopWords.unended {front behind : List Token} {name : String}
    (h : LoopWords front behind name) :
    (∀ t ∈ front, t.kind ≠ .eof) ∧ ∀ t ∈ behind, t.kind ≠ .eof := by
  cases h with
  | bare hw hn hk =>
    simp [unended_of_isKeyword hw, unended_of_isIdentifier hn, unended_of_isKeyword hk]
  | parenthesized hw ho hn hk hc =>
    simp [unended_of_isKeyword hw, unended_of_isSymbol ho, unended_of_isIdentifier hn,
      unended_of_isKeyword hk, unended_of_isSymbol hc]

lemma Variant.unended (h : Variant p p') (hp : ∀ t ∈ p.tokens, t.kind ≠ .eof) :
    ∀ t ∈ p'.tokens, t.kind ≠ .eof := by
  cases h with
  | operator _ h' =>
    simp only [tokens_form, tokensOf_cons, tokens_words, tokensOf_nil, List.forall_mem_append,
      List.forall_mem_singleton] at hp ⊢
    exact ⟨hp.1, h'.unended, hp.2.2⟩
  | loop _ h' =>
    simp only [tokens_form, tokensOf_cons, tokens_words, tokensOf_nil,
      List.forall_mem_append] at hp ⊢
    exact ⟨h'.unended.1, hp.2.1, h'.unended.2, hp.2.2.2⟩
  | function _ h' _ =>
    simp only [tokens_form, tokensOf_cons, tokens_words, tokensOf_nil,
      List.forall_mem_append] at hp ⊢
    exact ⟨h'.unended.1, hp.2.1, h'.unended.2, hp.2.2.2⟩
  | lambdaValue _ hw ho hk hc =>
    simp only [tokens_form, tokensOf_cons, tokens_words, tokensOf_nil, List.forall_mem_append,
      List.forall_mem_singleton] at hp ⊢
    have hreturn := unended_of_isKeyword hk
    have hopening := unended_of_isSymbol ho
    have hclosing := unended_of_isSymbol hc
    exact ⟨unended_of_isKeyword hw, hp.2.1, by simp, ⟨hopening,
      ⟨⟨hreturn, hp.2.2.2.1, by simp⟩, by simp⟩, hclosing, by simp⟩, by simp⟩

lemma Replaces.unended (h : Replaces p p') (hp : ∀ t ∈ p.tokens, t.kind ≠ .eof) :
    ∀ t ∈ p'.tokens, t.kind ≠ .eof := by
  induction h with
  | here hv => exact hv.unended hp
  | inside _ ih =>
    simp only [tokens_form, tokensOf_append, tokensOf_cons, List.forall_mem_append] at hp ⊢
    exact ⟨hp.1, ih hp.2.1, hp.2.2⟩

end Phrase

/-- Every text that is read is a phrase, and when any construct of it is written in the other way,
the text is read as the same program or the same expression again. -/
theorem replacement_reads_alike (tokens : List Token) :
    (∀ program, parseProgram tokens = .ok program →
      (∃ phrase : Phrase, phrase.tokens = tokens.takeWhile (·.kind ≠ .eof) ∧
        Phrase.Program phrase program) ∧
      ∀ phrase phrase' : Phrase, phrase.tokens = tokens.takeWhile (·.kind ≠ .eof) →
        Phrase.Program phrase program → Phrase.Replaces phrase phrase' →
        ∃ program', parseProgram (phrase'.tokens ++ tokens.dropWhile (·.kind ≠ .eof)) = .ok program' ∧
          program'.Alike program) ∧
    (∀ expression, parseExpression tokens = .ok expression →
      (∃ phrase : Phrase, phrase.tokens = tokens.takeWhile (·.kind ≠ .eof) ∧
        Phrase.Expression phrase expression) ∧
      ∀ phrase phrase' : Phrase, phrase.tokens = tokens.takeWhile (·.kind ≠ .eof) →
        Phrase.Expression phrase expression → Phrase.Replaces phrase phrase' →
        ∃ expression', parseExpression (phrase'.tokens ++ tokens.dropWhile (·.kind ≠ .eof)) =
          .ok expression' ∧ expression'.Alike expression) := by
  constructor
  · intro program hparse
    obtain ⟨last, hsplit⟩ := splitInput?_of_parseProgram hparse
    obtain ⟨_, _, hunended, _⟩ := splitInput?_eq_some_iff.1 hsplit
    refine ⟨?_, fun phrase phrase' hp hprogram hr => ?_⟩
    · obtain ⟨nodes, rest, hread, rfl⟩ := (parseProgram_eq_ok hsplit).1 hparse
      obtain ⟨phrase, hp, hs⟩ := phrase_of_program hread
      exact ⟨phrase, hp, .program hs⟩
    · rw [← hp] at hunended
      exact (hprogram.replace hr).parses (splitInput?_replace hsplit (hr.unended hunended))
  · intro expression hparse
    obtain ⟨last, hsplit⟩ := splitInput?_of_parseExpression hparse
    obtain ⟨_, _, hunended, _⟩ := splitInput?_eq_some_iff.1 hsplit
    refine ⟨?_, fun phrase phrase' hp hexpression hr => ?_⟩
    · obtain ⟨rest, hread⟩ := (parseExpression_eq_ok hsplit).1 hparse
      exact phrase_of_singleExpression hread
    · rw [← hp] at hunended
      exact (hexpression.replace hr).parses (splitInput?_replace hsplit (hr.unended hunended))

theorem replacement_reads_alike_lambda :
    let token (kind : TokenKind) (value : String) : Token := ⟨kind, value, default⟩
    let text (operator : Token) := [token .keyword "forge", token .delimiter "(",
      token .delimiter ")", token .operator "->", token .identifier "a", operator,
      token .identifier "b", token .eof ""]
    ∃ program other defined, parseProgram (text (token .keyword "and")) = .ok program ∧
      parseProgram (text (token .operator "&&")) = .ok other ∧ other.Alike program ∧
      parseProgram [token .keyword "def", token .delimiter "(", token .delimiter ")",
        token .delimiter "\x7b", token .keyword "return", token .identifier "a",
        token .keyword "and", token .identifier "b", token .delimiter "\x7d", token .eof ""] =
          .ok defined ∧ defined.Alike program := by
  intro token text
  let value (operator : Token) : Phrase := .form .binary [.words [token .identifier "a"],
    .words [operator], .words [token .identifier "b"]]
  let lambda (operator : Token) : Phrase := .form .lambdaValue [.words [token .keyword "forge"],
    .words [token .delimiter "(", token .delimiter ")"], .words [token .operator "->"],
    value operator]
  let phrase (statement : Phrase) : Phrase := .form .statements [statement, .words []]
  let conjunction : Node := .binary (some default) .and (.identifier (some default) "a")
    (.identifier (some default) "b")
  let function : Node := .function (some default) [] (.block (some default)
    [.returnStatement (some default) (some conjunction)])
  have hread : parseProgram (text (token .keyword "and")) =
    .ok (.program (some default) [.expressionStatement (some default) function]) := rfl
  have hatom (closed : Bool) (level : Level) (hl : level ≠ .assignment) (name : String) :
      Phrase.Operand closed level (.words [token .identifier name])
        (.identifier (some default) name) := .of_primary (.atom rfl) hl
  have hvalue : Phrase.Operand true .conjunction (value (token .keyword "and")) conjunction :=
    .binary (hatom false .conjunction (by decide) "a") rfl (hatom true .equality (by decide) "b")
  have hlambda : Phrase.Operand true .disjunction (lambda (token .keyword "and")) function :=
    .of_primary (.lambdaValue rfl (.nothing rfl rfl) rfl (.operand (.tighter hvalue))) (by decide)
  have hkept (other : Phrase) (hr : Phrase.Replaces (lambda (token .keyword "and")) other) :=
    ((replacement_reads_alike (text (token .keyword "and"))).1 _ hread).2
      (phrase (lambda (token .keyword "and"))) (phrase other) (by decide)
      (.program (.statement (.expression (.operand hlambda) rfl) .nothing))
      (@Phrase.Replaces.inside _ [] _ _ _ hr)
  obtain ⟨other, hother, halike⟩ := hkept (lambda (token .operator "&&"))
    (@Phrase.Replaces.inside _ [_, _, _] _ _ []
      (.here (.operator (.conjunction (.inr rfl)) (.conjunction (.inl rfl)))))
  obtain ⟨defined, hdefined, halike'⟩ := hkept (.form .function [.words [token .keyword "def"],
      .words [token .delimiter "(", token .delimiter ")"], .words [],
      .form .block [.words [token .delimiter "\x7b"],
        phrase (.form .returnStatement [.words [token .keyword "return"],
          value (token .keyword "and")]),
        .words [token .delimiter "\x7d"]]])
    (.here (.lambdaValue rfl rfl rfl rfl rfl))
  exact ⟨_, other, defined, hread, hother, halike, hdefined, halike'⟩

end Klang

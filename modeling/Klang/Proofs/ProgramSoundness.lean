import Klang.Proofs.ParserSoundness

/-! Every program that tokens are parsed into is spelled by them according to the grammar, and is
well-formed. -/

namespace Klang

namespace Parser

open Grammar

variable {inner : Inner}

lemma reads_declaration (h : inner.Sound) {word : Token}
    (hw : word.isKeyword "let" = true ∨ word.isKeyword "final" = true) {ts rest : List Token}
    {node : Node} (hd : declaration inner (word :: ts) = .ok (node, rest)) :
    ∃ used, word :: ts = used ++ rest ∧ Statement used node := by
  simp only [declaration, advance_bind_cons, bind_eq_ok, expectIdentifier_eq_ok,
    expectSymbol_eq_ok] at hd
  obtain ⟨_, mid, ⟨name, rfl, hname, rfl⟩, type, mid', ht, equals, mid'', ⟨rfl, hequals⟩,
    value, mid''', hr, he⟩ := hd
  cases he
  obtain ⟨us, rfl, hu⟩ := reads_ascription _ _ _ ht
  obtain ⟨vs, rfl, hv⟩ := h.expression _ _ _ hr
  refine ⟨word :: name :: (us ++ equals :: vs), by simp, ?_⟩
  have hvalue {keyword : String} (hk : word.isKeyword keyword = true) : word.value = keyword := by
    simp only [Token.isKeyword, Bool.and_eq_true, decide_eq_true_eq] at hk
    exact hk.2
  rcases hw with hk | hk
  · simpa [hvalue hk] using .letDeclaration hk hname hu hequals hv
  · simpa [hvalue hk] using .finalDeclaration hk hname hu hequals hv

lemma startsDefinition_eq_true {ts : List Token} (h : startsDefinition ts = true) :
    ∃ word name rest, ts = word :: name :: rest ∧ word.isKeyword "def" = true ∧
      name.isIdentifier = true := by
  unfold startsDefinition at h
  split at h
  · rename_i word name rest
    simp only [Bool.and_eq_true] at h
    exact ⟨word, name, rest, rfl, h⟩
  · cases h

lemma reads_definition (h : inner.Sound) {word : Token} (hw : word.isKeyword "def" = true)
    {ts rest : List Token} {node : Node} (hd : definition inner (word :: ts) = .ok (node, rest)) :
    ∃ used, word :: ts = used ++ rest ∧ Statement used node := by
  simp only [definition, advance_bind_cons, bind_eq_ok, expectIdentifier_eq_ok] at hd
  obtain ⟨_, mid, ⟨name, rfl, hname, rfl⟩, params, mid', hp, body, mid'', hb, he⟩ := hd
  cases he
  obtain ⟨us, rfl, hu⟩ := reads_parameters _ _ _ hp
  obtain ⟨vs, rfl, hv⟩ := reads_block h _ _ _ hb
  exact ⟨word :: name :: (us ++ vs), by simp, .definition hw hname hu hv⟩

lemma reads_conditional (h : inner.Sound) {word : Token} (hw : word.isKeyword "if" = true)
    {ts rest : List Token} {node : Node} (hc : conditional inner (word :: ts) = .ok (node, rest)) :
    ∃ used, word :: ts = used ++ rest ∧ Conditional used node := by
  simp only [conditional, elseBranch, nextKeyword_bind, advance_bind_cons, bind_eq_ok] at hc
  obtain ⟨condition, mid, hr, thenBranch, mid', hb, otherwise, mid'', ho, he⟩ := hc
  cases he
  obtain ⟨us, rfl, hu⟩ := h.expression _ _ _ hr
  obtain ⟨vs, rfl, hv⟩ := reads_block h _ _ _ hb
  split at ho
  · rename_i ht
    obtain ⟨keyword, mid', rfl, hkeyword⟩ := head_of_test ht
    simp only [advance_bind_cons, nextKeyword_bind] at ho
    split at ho
    · rename_i ht
      obtain ⟨word', mid', rfl, hword'⟩ := head_of_test ht
      simp only [bind_eq_ok] at ho
      obtain ⟨branch, mid, hs, he⟩ := ho
      cases he
      obtain ⟨ws, he, hbranch⟩ := h.conditional hword' hs
      exact ⟨word :: (us ++ vs ++ keyword :: ws), by simp [he], .ifElseIf hw hu hv hkeyword hbranch⟩
    · simp only [bind_eq_ok] at ho
      obtain ⟨branch, mid, hs, he⟩ := ho
      cases he
      obtain ⟨ws, rfl, hbranch⟩ := reads_block h _ _ _ hs
      exact ⟨word :: (us ++ vs ++ keyword :: ws), by simp, .ifElse hw hu hv hkeyword hbranch⟩
  · cases ho
    exact ⟨word :: (us ++ vs), by simp, .ifOnly hw hu hv⟩

lemma reads_whileLoop (h : inner.Sound) {word : Token} (hw : word.isKeyword "while" = true)
    {ts rest : List Token} {node : Node} (hl : whileLoop inner (word :: ts) = .ok (node, rest)) :
    ∃ used, word :: ts = used ++ rest ∧ Statement used node := by
  simp only [whileLoop, advance_bind_cons, bind_eq_ok] at hl
  obtain ⟨condition, mid, hr, body, mid', hb, he⟩ := hl
  cases he
  obtain ⟨us, rfl, hu⟩ := h.expression _ _ _ hr
  obtain ⟨vs, rfl, hv⟩ := reads_block h _ _ _ hb
  exact ⟨word :: (us ++ vs), by simp, .whileLoop hw hu hv⟩

lemma parenthesizedHeader_eq_true {ts : List Token} (h : parenthesizedHeader ts = true) :
    ∃ opening rest, ts = opening :: rest ∧ opening.isSymbol "(" = true := by
  unfold parenthesizedHeader at h
  split at h
  · simp only [Bool.and_eq_true] at h
    exact ⟨_, _, rfl, h.1.1⟩
  · cases h

lemma reads_forLoop (h : inner.Sound) {word : Token} (hw : word.isKeyword "for" = true)
    {ts rest : List Token} {node : Node} (hl : forLoop inner (word :: ts) = .ok (node, rest)) :
    ∃ used, word :: ts = used ++ rest ∧ Statement used node := by
  simp only [forLoop, advance_bind_cons, ahead_bind, if_apply] at hl
  split at hl
  · rename_i hp
    obtain ⟨opening, ts, rfl, hopening⟩ := parenthesizedHeader_eq_true hp
    simp only [advance_bind_cons, bind_eq_ok, expectIdentifier_eq_ok, expect_eq_ok,
      expectSymbol_eq_ok] at hl
    obtain ⟨_, mid, ⟨name, rfl, hname, rfl⟩, keyword, mid', ⟨rfl, hkeyword⟩, iterable, mid'', hr,
      closing, mid''', ⟨rfl, hclosing⟩, body, mid'''', hb, he⟩ := hl
    cases he
    obtain ⟨us, rfl, hu⟩ := h.expression _ _ _ hr
    obtain ⟨vs, rfl, hv⟩ := reads_block h _ _ _ hb
    exact ⟨word :: opening :: name :: keyword :: (us ++ closing :: vs), by simp,
      .forLoopInParentheses hw hopening hname hkeyword hu hclosing hv⟩
  · rename_i hp
    simp only [bind_eq_ok, expectIdentifier_eq_ok, expect_eq_ok] at hl
    obtain ⟨_, mid, ⟨name, rfl, hname, rfl⟩, keyword, mid', ⟨rfl, hkeyword⟩, iterable, mid'', hr,
      body, mid''', hb, he⟩ := hl
    cases he
    obtain ⟨us, rfl, hu⟩ := h.expression _ _ _ hr
    obtain ⟨vs, rfl, hv⟩ := reads_block h _ _ _ hb
    exact ⟨word :: name :: keyword :: (us ++ vs), by simp, .forLoop hw hname hkeyword hu hv⟩

lemma reads_returnStatement (h : inner.Sound) {word : Token} (hw : word.isKeyword "return" = true)
    {ts rest : List Token} {node : Node}
    (hr : returnStatement inner (word :: ts) = .ok (node, rest)) :
    ∃ used, word :: ts = used ++ rest ∧ Statement used node := by
  simp only [returnStatement, advance_bind_cons, nextSymbol_bind, atEnd_bind, if_apply] at hr
  split at hr
  · cases hr
    exact ⟨[word], rfl, .returnNothing hw⟩
  · simp only [bind_eq_ok] at hr
    obtain ⟨value, mid, hv, he⟩ := hr
    cases he
    obtain ⟨us, rfl, hu⟩ := h.expression _ _ _ hv
    exact ⟨word :: us, rfl, .returnValue hw hu⟩

lemma reads_expressionStatement (h : inner.Sound) : Reads (expressionStatement inner) Statement := by
  intro ts node rest hs
  simp only [expressionStatement, get_bind, bind_eq_ok] at hs
  obtain ⟨value, mid, hv, he⟩ := hs
  cases he
  obtain ⟨us, rfl, hu⟩ := reads_assignment h _ _ _ hv
  exact ⟨us, rfl, .expression hu⟩

lemma reads_statement (h : inner.Sound) : Reads (statement inner) Statement := by
  intro ts node rest hs
  rw [statement_apply] at hs
  split at hs
  · rename_i hc
    simp only [Bool.or_eq_true] at hc
    rcases hc with hc | hc
    · obtain ⟨word, ts, rfl, hword⟩ := head_of_test hc
      exact reads_declaration h (.inl hword) hs
    · obtain ⟨word, ts, rfl, hword⟩ := head_of_test hc
      exact reads_declaration h (.inr hword) hs
  · split at hs
    · rename_i hc
      obtain ⟨word, name, ts, rfl, hword, _⟩ := startsDefinition_eq_true hc
      exact reads_definition h hword hs
    · split at hs
      · rename_i hc
        obtain ⟨word, ts, rfl, hword⟩ := head_of_test hc
        obtain ⟨used, hused, hu⟩ := reads_conditional h hword hs
        exact ⟨used, hused, .conditional hu⟩
      · split at hs
        · rename_i hc
          obtain ⟨word, ts, rfl, hword⟩ := head_of_test hc
          exact reads_whileLoop h hword hs
        · split at hs
          · rename_i hc
            obtain ⟨word, ts, rfl, hword⟩ := head_of_test hc
            exact reads_forLoop h hword hs
          · split at hs
            · rename_i hc
              obtain ⟨word, ts, rfl, hword⟩ := head_of_test hc
              exact reads_returnStatement h hword hs
            · split at hs
              · obtain ⟨used, hused, hu⟩ := reads_block h _ _ _ hs
                exact ⟨used, hused, .block hu⟩
              · exact reads_expressionStatement h _ _ _ hs

lemma statement_of_if {word : Token} (hw : word.isKeyword "if" = true) (ts : List Token) :
    statement inner (word :: ts) = conditional inner (word :: ts) := by
  simp only [Token.isKeyword, Bool.and_eq_true, decide_eq_true_eq] at hw
  obtain ⟨hkind, hvalue⟩ := hw
  have hd : startsDefinition (word :: ts) = false := by
    cases ts <;> simp [startsDefinition, Token.isKeyword, hvalue]
  simp [statement_apply, hd, Token.isKeyword, hkind, hvalue]

lemma sound_descend (depth : Nat) : (descend depth).Sound := by
  induction depth with
  | zero =>
    refine ⟨?_, ?_, ?_⟩
    · rintro ts node rest ⟨⟩
    · rintro ts node rest ⟨⟩
    · rintro word ts node rest _ ⟨⟩
  | succ depth ih =>
    refine ⟨reads_assignment ih, reads_statement ih, ?_⟩
    intro word ts node rest hw hs
    change statement (descend depth) (word :: ts) = _ at hs
    rw [statement_of_if hw] at hs
    exact reads_conditional ih hw hs

lemma reads_programStatements {statement : Parser Node} (hs : Reads statement Statement)
    {bound : Nat} {ts rest : List Token} {nodes : List Node}
    (h : programStatements statement bound ts = .ok (nodes, rest)) :
    rest = [] ∧ Statements ts nodes := by
  induction bound generalizing ts nodes with
  | zero => cases h
  | succ bound ih =>
    simp only [programStatements, atEnd_bind, if_apply] at h
    split at h
    · rename_i hc
      obtain rfl := List.isEmpty_iff.1 hc
      cases h
      exact ⟨rfl, .nothing⟩
    · simp only [bind_eq_ok, skipSeparators_bind] at h
      obtain ⟨first, mid, hf, others, mid', ho, he⟩ := h
      cases he
      obtain ⟨us, rfl, hu⟩ := hs _ _ _ hf
      obtain ⟨rfl, hst⟩ := ih ho
      have hmid : mid.dropWhile (Token.isSymbol ";") = mid.dropWhile (Token.isSymbol ";") ++ [] := by
        simp
      obtain ⟨vs, rfl, hv⟩ := statements_skipped mid hmid hst
      rw [List.append_nil]
      exact ⟨rfl, .statement hu hv⟩

end Parser

namespace Grammar

lemma isKnown_of_mem_operators (level : Level) :
    ∀ operator ∈ level.operators, operator.IsKnown := by
  unfold BinaryOperator.IsKnown
  cases level <;> decide

lemma Parameters.distinctNames {ts : List Token} {parameters : List Parameter}
    (h : Parameters ts parameters) : DistinctNames parameters := by
  cases h with
  | nothing => exact List.nodup_nil
  | some _ _ hd _ => exact hd

mutual

lemma Expression.isExpression {level : Level} {ts : List Token} {node : Node}
    (h : Expression level ts node) : node.IsExpression :=
  match h with
  | .tighter h => h.isExpression
  | .assignment ht htarget _ hv => .assignment htarget ht.isExpression hv.isExpression
  | .binary hl hm _ hr =>
    .binary (isKnown_of_mem_operators _ _ hm) hl.isExpression hr.isExpression
  | .unary hs ho => .unary hs.1 ho.isExpression
  | .call hc _ hi _ => .call hc.isExpression hi.all_isExpression
  | .index ht _ hk _ => .index ht.isExpression hk.isExpression
  | .number _ hv => .number ⟨_, hv⟩
  | .string _ => .string
  | .identifier _ => .identifier
  | .trueWord _ => .boolean
  | .falseWord _ => .boolean
  | .group _ h _ => h.isExpression
  | .list _ hi _ => .list hi.all_isExpression
  | .map _ he _ => .map he.all_isExpression
  | .function _ hp hb => .function hp.distinctNames hb.isBlock
  | .lambda _ hp hb => .function hp.distinctNames hb.isBlock
  | .lambdaBlock _ hp _ hb => .function hp.distinctNames hb.isBlock
  | .lambdaValue _ hp _ hv => .function hp.distinctNames
      (.block fun _ hm => List.mem_singleton.1 hm ▸ .returnValue hv.isExpression)

lemma Items.all_isExpression {ts : List Token} {nodes : List Node} (h : Items ts nodes) :
    ∀ node ∈ nodes, node.IsExpression := by
  match h with
  | .nothing => simp
  | .one he => simpa using he.isExpression
  | .more he _ hi _ => simpa using ⟨he.isExpression, hi.all_isExpression⟩

lemma Entries.all_isExpression {ts : List Token} {entries : List (String × Node)}
    (h : Entries ts entries) : ∀ entry ∈ entries, entry.2.IsExpression := by
  match h with
  | .nothing => simp
  | .one _ _ hv => simpa using hv.isExpression
  | .more _ _ hv _ he _ => exact List.forall_mem_cons.2 ⟨hv.isExpression, he.all_isExpression⟩

lemma Block.isBlock {ts : List Token} {node : Node} (h : Block ts node) : node.IsBlock :=
  match h with
  | .block _ hs _ => .block hs.all_isStatement

lemma Statements.all_isStatement {ts : List Token} {nodes : List Node} (h : Statements ts nodes) :
    ∀ node ∈ nodes, node.IsStatement := by
  match h with
  | .nothing => simp
  | .separator _ hs => exact hs.all_isStatement
  | .statement hn hs => simpa using ⟨hn.isStatement, hs.all_isStatement⟩

lemma Statement.isStatement {ts : List Token} {node : Node} (h : Statement ts node) :
    node.IsStatement :=
  match h with
  | .letDeclaration _ _ _ _ hv => .declaration hv.isExpression
  | .finalDeclaration _ _ _ _ hv => .declaration hv.isExpression
  | .definition _ _ hp hb => .definition hp.distinctNames hb.isBlock
  | .conditional hc => .conditional hc.isConditional
  | .whileLoop _ hc hb => .whileLoop hc.isExpression hb.isBlock
  | .forLoop _ _ _ hi hb => .forLoop hi.isExpression hb.isBlock
  | .forLoopInParentheses _ _ _ _ hi _ hb => .forLoop hi.isExpression hb.isBlock
  | .returnNothing _ => .returnNothing
  | .returnValue _ hv => .returnValue hv.isExpression
  | .block hb => .block hb.isBlock
  | .expression he => .expression he.isExpression

lemma Conditional.isConditional {ts : List Token} {node : Node} (h : Conditional ts node) :
    node.IsConditional :=
  match h with
  | .ifOnly _ hc hb => .ifOnly hc.isExpression hb.isBlock
  | .ifElse _ hc hb _ he => .ifElse hc.isExpression hb.isBlock he.isBlock
  | .ifElseIf _ hc hb _ he => .ifElseIf hc.isExpression hb.isBlock he.isConditional

end

lemma Program.isProgram {ts : List Token} {node : Node} (h : Program ts node) : node.IsProgram := by
  obtain ⟨hs⟩ := h
  exact .program hs.all_isStatement

end Grammar

/-- The tokens before the first end of input spell the program that they are parsed into. -/
theorem parseProgram_sound {tokens : List Token} {program : Node}
    (h : parseProgram tokens = .ok program) :
    Grammar.Program (tokens.takeWhile (·.kind ≠ .eof)) program ∧ program.IsProgram := by
  cases hsplit : Parser.splitInput? tokens with
  | none =>
    rw [parseProgram, hsplit] at h
    cases h
  | some input =>
    obtain ⟨body, last⟩ := input
    obtain ⟨nodes, rest, hp, rfl⟩ := (Parser.parseProgram_eq_ok hsplit).1 h
    obtain rfl := Parser.splitInput?_eq_some hsplit
    generalize tokens.takeWhile (·.kind ≠ .eof) = body at hp
    simp only [Parser.program, Parser.rounds_bind, Parser.skipSeparators_bind] at hp
    obtain ⟨rfl, hs⟩ := Parser.reads_programStatements (Parser.sound_descend _).statement hp
    have hbody : body.dropWhile (Token.isSymbol ";") =
      body.dropWhile (Token.isSymbol ";") ++ [] := by simp
    obtain ⟨used, hused, hu⟩ := Parser.statements_skipped body hbody hs
    rw [List.append_nil] at hused
    subst hused
    exact ⟨.program hu, Grammar.Program.isProgram (.program hu)⟩

theorem parseProgram_sound_reassignment :
    let tokens : List Token := [⟨.identifier, "a", default⟩, ⟨.operator, "=", default⟩,
      ⟨.identifier, "b", default⟩, ⟨.keyword, "or", default⟩, ⟨.identifier, "c", default⟩,
      ⟨.delimiter, ";", default⟩]
    let program : Node := .program (some default) [.expressionStatement (some default)
      (.assignment (some default) (.identifier (some default) "a")
        (.binary (some default) .or (.identifier (some default) "b")
          (.identifier (some default) "c")))]
    parseProgram (tokens ++ [⟨.eof, "", default⟩]) = .ok program ∧
      Grammar.Program tokens program ∧ program.IsProgram := by
  intro tokens program
  have h : parseProgram (tokens ++ [⟨.eof, "", default⟩]) = .ok program := by rfl
  exact ⟨h, parseProgram_sound h⟩

end Klang

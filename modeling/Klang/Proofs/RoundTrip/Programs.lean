import Klang.Proofs.RoundTrip.Trees

/-! Reading back statements and programs. Main statement: writing a program and parsing the tokens
gives the program back, at the place of the tokens. -/

namespace Klang

namespace Writer

open Klang.Parser

variable {w : Writer}

def StatementWritten (w : Writer) (node : Node) : Prop :=
  ∀ depth, (w.standing node (w.tokens node)).length < depth →
    w.Standing (descend depth).statement node

namespace StatementWritten

lemma of_reads {node : Node} {t : Token} {us : List Token}
    (htokens : w.standing node (w.tokens node) = t :: us)
    (hseparator : t.isSymbol ";" = false) (hclose : t.isSymbol "\x7d" = false)
    (hunmapped : t.isMapKey = true → ∀ brace rest,
      Token.looksLikeMap (brace :: (t :: us ++ w.delimiter ";" :: rest)) = false)
    (h : ∀ depth rest, (t :: us).length ≤ depth →
      statement (descend depth) (t :: us ++ w.delimiter ";" :: rest) =
        .ok (node.respan w.span, w.delimiter ";" :: rest)) : w.StatementWritten node := by
  intro depth hd
  obtain ⟨depth, rfl⟩ : ∃ d, depth = d + 1 := ⟨depth - 1, by omega⟩
  refine ⟨⟨t, us, htokens, hseparator, hclose⟩, ?_, ?_⟩
  · intro brace rest
    rw [htokens]
    cases hkey : t.isMapKey with
    | false => exact looksLikeMap_cons_of_not_isMapKey hclose hkey brace _
    | true => exact hunmapped hkey brace rest
  · intro rest
    rw [htokens] at hd ⊢
    exact h depth rest (by omega)

lemma of_first {node : Node} {t : Token} {us : List Token}
    (htokens : w.standing node (w.tokens node) = t :: us)
    (hseparator : t.isSymbol ";" = false) (hclose : t.isSymbol "\x7d" = false)
    (hkey : t.isMapKey = false)
    (h : ∀ depth rest, (t :: us).length ≤ depth →
      statement (descend depth) (t :: us ++ w.delimiter ";" :: rest) =
        .ok (node.respan w.span, w.delimiter ";" :: rest)) : w.StatementWritten node :=
  of_reads htokens hseparator hclose (fun hk => absurd hk (by simp [hkey])) h

lemma expression {span : Option Source.Span} {e : Node} (he : w.Written e) :
    w.StatementWritten (.expressionStatement span e) := by
  obtain ⟨t, us, ht, hsymbol, _⟩ := he.opening.first
  have hspan : t.span = w.span := (w.wrote_tokens e t (by simp [ht])).1
  refine of_reads ht (Bool.eq_false_iff.2 fun hs => ?_) (Bool.eq_false_iff.2 fun hs => ?_) ?_ ?_
  · simpa using hsymbol _ hs
  · simpa using hsymbol _ hs
  · intro _ brace rest
    rw [← ht]
    exact (he.opening.append rfl rest).looksLikeMap_cons_false brace
  · intro depth rest hd
    rw [← ht] at hd ⊢
    have hopening : Opening (w.tokens e ++ w.delimiter ";" :: rest) := he.opening.append rfl rest
    have hassignment : ReadAt (descend depth) .assignment (w.tokens e) (e.respan w.span) :=
      (he.reads depth hd).looser he.first_unsigned (Nat.zero_le _)
    have hread : Parser.assignment (descend depth) (w.tokens e ++ w.delimiter ";" :: rest) =
        .ok (e.respan w.span, w.delimiter ";" :: rest) :=
      hassignment.stops (w.stops_delimiter (by simp) _ rest)
    have hbrace : (((w.tokens e ++ w.delimiter ";" :: rest).head?.map
        (Token.isSymbol "\x7b")).getD false &&
        !Token.looksLikeMap (w.tokens e ++ w.delimiter ";" :: rest)) = false := by
      cases hb : ((w.tokens e ++ w.delimiter ";" :: rest).head?.map
          (Token.isSymbol "\x7b")).getD false with
      | false => rfl
      | true => simp [hopening.looksLikeMap_of_brace hb]
    rw [statement_apply, hopening.nextKeyword_false (by decide), hopening.nextKeyword_false (by decide),
      hopening.startsDefinition_false, hopening.nextKeyword_false (by decide),
      hopening.nextKeyword_false (by decide), hopening.nextKeyword_false (by decide),
      hopening.nextKeyword_false (by decide), hbrace]
    simp only [Bool.or_self, Bool.false_eq_true, if_false, expressionStatement, get_bind]
    rw [bind_of_ok hread, ht]
    simp [hspan, Node.respan]

lemma declaration {span : Option Source.Span} {name : String} {value : Node} {isFinal : Bool}
    {ascription : Option String} (hv : w.Written value) :
    w.StatementWritten (.declaration span name value isFinal ascription) := by
  refine of_first rfl rfl rfl rfl ?_
  intro depth rest hd
  have hstatement : statement (descend depth)
      (w.tokens (.declaration span name value isFinal ascription) ++ w.delimiter ";" :: rest) =
      Parser.declaration (descend depth)
      (w.tokens (.declaration span name value isFinal ascription) ++ w.delimiter ";" :: rest) := by
    cases isFinal <;> rfl
  have hascription := w.read_ascription ascription
    (show ((w.operator "=" :: (w.tokens value ++ w.delimiter ";" :: rest)).head?.map
      (Token.isSymbol ":")).getD false = false from rfl)
  have hequals : expectSymbol "=" (.equals name)
      (w.operator "=" :: (w.tokens value ++ w.delimiter ";" :: rest)) =
      .ok (w.operator "=", w.tokens value ++ w.delimiter ";" :: rest) := rfl
  simp only [List.length_cons, List.length_append] at hd
  have hvalue := hv.expression (show _ < depth by omega) _
    (w.stops_delimiter (show ";" ∈ _ by simp) _ rest)
  refine hstatement.trans ?_
  simp only [Writer.tokens, List.cons_append, List.append_assoc, Parser.declaration,
    advance_bind_cons]
  rw [bind_of_ok (w.read_identifier _ _ _), bind_of_ok hascription, bind_of_ok hequals,
    bind_of_ok hvalue]
  cases isFinal <;> rfl

lemma definition {span : Option Source.Span} {name : String} {parameters : List Parameter}
    {body : Node} (hp : DistinctNames parameters) (hb : w.BlockWritten body) :
    w.StatementWritten (.definition span name parameters body) := by
  refine of_first rfl rfl rfl rfl ?_
  intro depth rest hd
  have hstatement : statement (descend depth)
      (w.tokens (.definition span name parameters body) ++ w.delimiter ";" :: rest) =
      Parser.definition (descend depth)
      (w.tokens (.definition span name parameters body) ++ w.delimiter ";" :: rest) := rfl
  simp only [List.length_cons, List.length_append] at hd
  refine hstatement.trans ?_
  simp only [Writer.tokens, List.cons_append, List.append_assoc, Parser.definition,
    advance_bind_cons]
  rw [bind_of_ok (w.read_identifier _ _ _), bind_of_ok (w.read_parameters hp _),
    bind_of_ok (hb.reads depth _ (by omega))]
  rfl

lemma startsDefinition_keyword {word : String} (h : word ≠ "def") (ts : List Token) :
    startsDefinition (w.keyword word :: ts) = false := by
  cases ts with
  | nil => rfl
  | cons t ts => simp [startsDefinition, keyword, token, Token.isKeyword, h]

lemma startsDefinition_delimiter (value : String) (ts : List Token) :
    startsDefinition (w.delimiter value :: ts) = false := by
  cases ts <;> rfl

lemma whileLoop {span : Option Source.Span} {condition body : Node} (hc : w.Written condition)
    (hb : w.BlockWritten body) : w.StatementWritten (.whileLoop span condition body) := by
  refine of_first rfl rfl rfl rfl ?_
  intro depth rest hd
  have hstatement (ts : List Token) : statement (descend depth) (w.keyword "while" :: ts) =
      Parser.whileLoop (descend depth) (w.keyword "while" :: ts) := by
    rw [statement_apply, startsDefinition_keyword (by decide)]
    rfl
  simp only [List.length_cons, List.length_append] at hd
  have hcondition := hc.expression (show _ < depth by omega) _
    (hb.stops _ (w.delimiter ";" :: rest))
  rw [List.cons_append, hstatement]
  simp only [List.append_assoc, Parser.whileLoop, advance_bind_cons]
  rw [bind_of_ok hcondition, bind_of_ok (hb.reads depth _ (by omega))]
  rfl

lemma forLoop {span : Option Source.Span} {iterator : String} {iterable body : Node}
    (hi : w.Written iterable) (hb : w.BlockWritten body) :
    w.StatementWritten (.forLoop span iterator iterable body) := by
  refine of_first rfl rfl rfl rfl ?_
  intro depth rest hd
  have hstatement (ts : List Token) : statement (descend depth) (w.keyword "for" :: ts) =
      Parser.forLoop (descend depth) (w.keyword "for" :: ts) := by
    rw [statement_apply, startsDefinition_keyword (by decide)]
    rfl
  have hheader (ts : List Token) : parenthesizedHeader
      (w.identifier iterator :: w.keyword "in" :: ts) = false := by
    cases ts <;> rfl
  have hin : (w.keyword "in").isKeyword "in" = true := rfl
  simp only [List.length_cons, List.length_append] at hd
  have hiterable := hi.expression (show _ < depth by omega) _
    (hb.stops _ (w.delimiter ";" :: rest))
  rw [List.cons_append, hstatement]
  simp only [List.cons_append, List.append_assoc, Parser.forLoop, advance_bind_cons, ahead_bind,
    hheader, Bool.false_eq_true, if_false]
  rw [bind_of_ok (w.read_identifier _ _ _), expect_bind_cons hin, bind_of_ok hiterable,
    bind_of_ok (hb.reads depth _ (by omega))]
  rfl

lemma returnNothing (span : Option Source.Span) :
    w.StatementWritten (.returnStatement span none) := by
  refine of_first rfl rfl rfl rfl ?_
  intro depth rest _
  rfl

lemma returnValue {span : Option Source.Span} {value : Node} (hv : w.Written value) :
    w.StatementWritten (.returnStatement span (some value)) := by
  refine of_first rfl rfl rfl rfl ?_
  intro depth rest hd
  have hstatement (ts : List Token) : statement (descend depth) (w.keyword "return" :: ts) =
      Parser.returnStatement (descend depth) (w.keyword "return" :: ts) := by
    rw [statement_apply, startsDefinition_keyword (by decide)]
    rfl
  simp only [optional, List.length_cons] at hd
  have hopening : Opening (w.tokens value ++ w.delimiter ";" :: rest) := hv.opening.append rfl rest
  have hempty : (w.tokens value ++ w.delimiter ";" :: rest).isEmpty = false := by
    cases w.tokens value <;> rfl
  have hvalue := hv.expression (show _ < depth by omega) _
    (w.stops_delimiter (show ";" ∈ _ by simp) _ rest)
  rw [List.cons_append, hstatement]
  simp only [optional, Parser.returnStatement, advance_bind_cons, nextSymbol_bind, atEnd_bind,
    hopening.nextSymbol_false (show "\x7d" ∉ _ by decide),
    hopening.nextSymbol_false (show ";" ∉ _ by decide), hempty, Bool.or_self, Bool.false_eq_true,
    if_false]
  rw [bind_of_ok hvalue]
  rfl

end StatementWritten

lemma BlockWritten.of_statements {span : Option Source.Span} {statements : List Node}
    (h : ∀ n ∈ statements, w.StatementWritten n) : w.BlockWritten (.block span statements) := by
  refine ⟨⟨_, rfl⟩, ?_⟩
  intro depth rest hd
  simp only [Writer.tokens, braced, enclosed, List.length_cons, List.length_append] at hd
  have hstanding : ∀ n ∈ statements, w.Standing (descend depth).statement n := by
    intro n hn
    have := w.length_le_statements_of_mem hn
    exact h n hn depth (by omega)
  have hread := w.read_block hstanding rest
  simpa only [Writer.tokens, Node.respan, Node.respanEach_eq_map] using hread

lemma StatementWritten.block {span : Option Source.Span} {statements : List Node}
    (h : ∀ n ∈ statements, w.StatementWritten n) :
    w.StatementWritten (.block span statements) := by
  cases statements with
  | nil =>
    refine of_first rfl rfl rfl rfl ?_
    intro depth rest _
    rfl
  | cons n nodes =>
    refine of_first rfl rfl rfl rfl ?_
    intro depth rest hd
    have hwritten : w.BlockWritten (.block span (n :: nodes)) := .of_statements h
    have hblock := hwritten.reads depth (w.delimiter ";" :: rest) hd
    have hfirst := h n (by simp) _ (Nat.lt_succ_self _)
    have hlooks := hfirst.unmapped (w.delimiter "\x7b")
      (w.statements nodes ++ w.delimiter "\x7d" :: w.delimiter ";" :: rest)
    rw [statement_apply]
    simp only [Writer.tokens, braced, enclosed, Writer.statements, List.cons_append, List.append_assoc,
      List.nil_append] at hblock ⊢
    rw [startsDefinition_delimiter, hlooks]
    exact hblock

def ConditionalWritten (w : Writer) (node : Node) : Prop :=
  w.StatementWritten node ∧ ∃ span condition thenBranch elseBranch,
    node = .conditional span condition thenBranch elseBranch

lemma read_otherwise {branch : Option Node}
    (h : ∀ b ∈ branch, w.BlockWritten b ∨ w.ConditionalWritten b) (depth : Nat) (rest : List Token)
    (hd : (w.otherwise branch).length ≤ depth) :
    elseBranch (descend depth) (w.otherwise branch ++ w.delimiter ";" :: rest) =
      .ok (branch.map (Node.respan w.span), w.delimiter ";" :: rest) := by
  cases branch with
  | none => rfl
  | some b =>
    have helse : (w.keyword "else").isKeyword "else" = true := rfl
    simp only [otherwise, List.length_cons] at hd
    simp only [otherwise, List.cons_append, elseBranch, nextKeyword_bind, List.head?_cons,
      Option.map_some, Option.getD_some, helse, if_true, advance_bind_cons]
    rcases h b rfl with hb | ⟨hb, span, condition, thenBranch, branch, rfl⟩
    · obtain ⟨us, hus⟩ := hb.opening
      have hword : ((w.tokens b ++ w.delimiter ";" :: rest).head?.map
          (Token.isKeyword "if")).getD false = false := by
        rw [hus]
        rfl
      rw [hword]
      simp only [Bool.false_eq_true, if_false]
      rw [bind_of_ok (hb.reads depth _ (by omega))]
      rfl
    · have hread := (hb depth hd).reads rest
      exact bind_of_ok hread

lemma ConditionalWritten.conditional {span : Option Source.Span} {condition thenBranch : Node}
    {elseBranch : Option Node} (hc : w.Written condition) (ht : w.BlockWritten thenBranch)
    (he : ∀ b ∈ elseBranch, w.BlockWritten b ∨ w.ConditionalWritten b) :
    w.ConditionalWritten (.conditional span condition thenBranch elseBranch) := by
  refine ⟨.of_first rfl rfl rfl rfl ?_, _, _, _, _, rfl⟩
  intro depth rest hd
  have hstatement (ts : List Token) : statement (descend depth) (w.keyword "if" :: ts) =
      Parser.conditional (descend depth) (w.keyword "if" :: ts) := by
    rw [statement_apply, StatementWritten.startsDefinition_keyword (by decide)]
    rfl
  simp only [List.length_cons, List.length_append] at hd
  have hcondition := hc.expression (show _ < depth by omega) _
    (ht.stops _ (w.otherwise elseBranch ++ w.delimiter ";" :: rest))
  rw [List.cons_append, hstatement]
  simp only [List.append_assoc, Parser.conditional, advance_bind_cons]
  rw [bind_of_ok hcondition, bind_of_ok (ht.reads depth _ (by omega)),
    bind_of_ok (read_otherwise he depth rest (by omega))]
  simp [Node.respan, keyword, token]

mutual

lemma written_of_isExpression {node : Node} (h : node.IsExpression) : w.Written node :=
  match h with
  | .number hx => .number hx
  | .string => .string _ _
  | .boolean => .boolean _ _
  | .identifier => .identifier _ _
  | .list hs => .list fun e he => written_of_isExpression (hs e he)
  | .map hs => .map fun e he => written_of_isExpression (hs e he)
  | .unary hk ho => .unary hk (written_of_isExpression ho)
  | .binary hk hl hr => .binary hk (written_of_isExpression hl) (written_of_isExpression hr)
  | .index ht hk => .index (written_of_isExpression ht) (written_of_isExpression hk)
  | .assignment htarget ht hv =>
    .assignment htarget (written_of_isExpression ht) (written_of_isExpression hv)
  | .call hc ha => .call (written_of_isExpression hc) fun e he => written_of_isExpression (ha e he)
  | .function hp hb => .function hp (blockWritten_of_isBlock hb).1

lemma blockWritten_of_isBlock {node : Node} (h : node.IsBlock) :
    w.BlockWritten node ∧ w.StatementWritten node :=
  match h with
  | .block hs =>
    ⟨.of_statements fun n hn => statementWritten_of_isStatement (hs n hn),
      .block fun n hn => statementWritten_of_isStatement (hs n hn)⟩

lemma statementWritten_of_isStatement {node : Node} (h : node.IsStatement) :
    w.StatementWritten node :=
  match h with
  | .expression he => .expression (written_of_isExpression he)
  | .declaration hv => .declaration (written_of_isExpression hv)
  | .definition hp hb => .definition hp (blockWritten_of_isBlock hb).1
  | .conditional hc => (conditionalWritten_of_isConditional hc).1
  | .whileLoop hc hb => .whileLoop (written_of_isExpression hc) (blockWritten_of_isBlock hb).1
  | .forLoop hi hb => .forLoop (written_of_isExpression hi) (blockWritten_of_isBlock hb).1
  | .returnNothing => .returnNothing _
  | .returnValue hv => .returnValue (written_of_isExpression hv)
  | .block hb => (blockWritten_of_isBlock hb).2

lemma conditionalWritten_of_isConditional {node : Node} (h : node.IsConditional) :
    w.ConditionalWritten node :=
  match h with
  | .ifOnly hc ht => .conditional (written_of_isExpression hc) (blockWritten_of_isBlock ht).1
      fun _ hb => absurd hb (Option.not_mem_none _)
  | .ifElse hc ht he =>
    .conditional (written_of_isExpression hc) (blockWritten_of_isBlock ht).1
      fun | _, rfl => .inl (blockWritten_of_isBlock he).1
  | .ifElseIf hc ht he =>
    .conditional (written_of_isExpression hc) (blockWritten_of_isBlock ht).1
      fun | _, rfl => .inr (conditionalWritten_of_isConditional he)

end

end Writer

lemma Writer.read_program (w : Writer) {statements : List Node} (hs : ∀ n ∈ statements, n.IsStatement) :
    Parser.program (w.statements statements) =
      .ok (statements.map (Node.respan w.span), []) := by
  have hstanding : ∀ n ∈ statements, w.Standing
      (Parser.descend ((w.statements statements).length + 1)).statement n := by
    intro n hn
    have := w.length_le_statements_of_mem hn
    exact statementWritten_of_isStatement (hs n hn) _ (by omega)
  have hskip := w.skip_statements hstanding [] (by simp)
  rw [List.append_nil] at hskip
  have hlength := w.length_le_statements statements
  have hread := w.read_programStatements hstanding ((w.statements statements).length + 1) (by omega)
  simp only [Parser.program, Parser.rounds_bind, Parser.skipSeparators_bind, hskip, hread]

/-- The parser inverts the writer. -/
theorem parseProgram_tokens (w : Writer) {program : Node} (h : program.IsProgram) :
    parseProgram (w.tokens program ++ [w.token .eof ""]) = .ok (program.respan w.span) := by
  obtain @⟨span, statements, hs⟩ := h
  have hwrote : w.Wrote (w.statements statements) := w.wrote_statements statements
  have hsplit : Parser.splitInput? (w.statements statements ++ [w.token .eof ""]) =
      some (w.statements statements, w.token .eof "") :=
    Parser.splitInput?_append rfl fun t ht => (hwrote t ht).2
  have hspan : ((w.statements statements).headD (w.token .eof "")).span = w.span := by
    cases hts : w.statements statements with
    | nil => rfl
    | cons t ts => exact (hwrote t (by simp [hts])).1
  refine (Parser.parseProgram_eq_ok hsplit).2 ⟨_, [], w.read_program hs, ?_⟩
  rw [hspan, Node.respan, Node.respanEach_eq_map]

theorem parseProgram_tokens_difference :
    let difference (left right : Node) : Node := .binary none .subtract left right
    let program : Node := .program none [.expressionStatement none (difference (.identifier none "a")
      (difference (.number none 1.0) (.identifier none "b"))), .block none []]
    program.IsProgram ∧ parseProgram ((Writer.standard default).tokens program ++
      [(Writer.standard default).token .eof ""]) = .ok (program.respan (some default)) := by
  intro difference program
  have hknown : BinaryOperator.subtract.IsKnown := by simp [BinaryOperator.IsKnown, BinaryOperator.known]
  have hone : Number.IsWritable 1.0 := ⟨['1', '.', '0'], by rfl⟩
  have h : program.IsProgram := by
    refine .program fun n hn => ?_
    simp only [List.mem_cons, List.not_mem_nil, or_false] at hn
    rcases hn with rfl | rfl
    · exact .expression (.binary hknown .identifier (.binary hknown (.number hone) .identifier))
    · exact .block (.block (List.forall_mem_nil _))
  exact ⟨h, parseProgram_tokens (Writer.standard default) h⟩

end Klang

import Klang.Proofs.Phrases.Operands
import Klang.Proofs.Concatenation.Parsers

/-! Reading back phrases. The parsers read the tokens of every phrase, and they read them as a tree
that differs from the one of the phrase in nothing but its places. -/

namespace Klang

open Phrase

namespace Parser

variable {inner : Inner} {t : Token} {ts us rest : List Token} {node : Node}

lemma atom?_of_isSymbol {value : String} (h : t.isSymbol value = true) : atom? t = none := by
  simp only [Token.isSymbol, Bool.and_eq_true, Bool.or_eq_true, decide_eq_true_eq] at h
  rcases h.1 with hkind | hkind <;> simp [atom?, hkind]

lemma primary_of_def (h : t.isKeyword "def" = true) (ts : List Token) :
    primary inner (t :: ts) = functionExpression inner (t :: ts) := by
  have hatom : atom? t = none := by
    simp only [Token.isKeyword, Bool.and_eq_true, decide_eq_true_eq] at h
    simp [atom?, h]
  simp [primary, hatom, h]

lemma primary_of_forge (h : t.isKeyword "forge" = true) (ts : List Token) :
    primary inner (t :: ts) = lambda inner (t :: ts) := by
  simp only [Token.isKeyword, Bool.and_eq_true, decide_eq_true_eq] at h
  simp [primary, atom?, Token.isKeyword, h]

lemma primary_of_symbol {value : String} (h : t.isSymbol value = true) (ts : List Token) :
    primary inner (t :: ts) =
      (if value = "(" then group inner
      else if value = "[" then listLiteral inner
      else if value = "\x7b" then
        if Token.looksLikeMap (t :: ts) then mapLiteral inner else fail .mapInExpression
      else fail .expression) (t :: ts) := by
  have hvalue (other : String) : t.isSymbol other = decide (value = other) := by
    simp only [Token.isSymbol, Bool.and_eq_true, decide_eq_true_eq] at h ⊢
    simp [h]
  simp [primary, atom?_of_isSymbol h, not_isKeyword_of_isSymbol h, hvalue]

lemma group_reads {first closing : Token} (ho : first.isSymbol "(" = true)
    (h : ∀ rest, inner.expression (ts ++ closing :: rest) = .ok (node, closing :: rest))
    (hc : closing.isSymbol ")" = true) (rest : List Token) :
    primary inner (first :: (ts ++ closing :: rest)) = .ok (node, rest) := by
  rw [primary_of_symbol ho, if_pos rfl]
  simp only [group, advance_bind_cons]
  rw [bind_of_ok (h rest), bind_of_ok (expectSymbol_eq_ok.2 ⟨rfl, hc⟩)]
  rfl

lemma list_reads {first : Token} {elements : List Node} (ho : first.isSymbol "[" = true)
    (h : items inner.expression "]" .listClose ts = .ok (elements, rest)) :
    primary inner (first :: ts) = .ok (.list first.span elements, rest) := by
  rw [primary_of_symbol ho, if_neg (by decide), if_pos rfl]
  simp only [listLiteral, advance_bind_cons]
  rw [bind_of_ok h]
  rfl

lemma map_reads {first : Token} {entries : List (String × Node)} (ho : first.isSymbol "\x7b" = true)
    (hmap : Token.looksLikeMap (first :: ts) = true)
    (h : items (mapEntry inner) "\x7d" .mapClose ts = .ok (entries, rest)) :
    primary inner (first :: ts) = .ok (.map first.span entries, rest) := by
  rw [primary_of_symbol ho, if_neg (by decide), if_neg (by decide), if_pos rfl, if_pos hmap]
  simp only [mapLiteral, advance_bind_cons]
  rw [bind_of_ok h]
  rfl

lemma mapEntry_reads {key colon : Token} (hk : key.isMapKey = true) (hc : colon.isSymbol ":" = true)
    (h : inner.expression ts = .ok (node, rest)) :
    mapEntry inner (key :: colon :: ts) = .ok ((key.value, node), rest) := by
  simp only [mapEntry]
  rw [expect_bind_cons hk, bind_of_ok (expectSymbol_eq_ok.2 ⟨rfl, hc⟩), bind_of_ok h]
  rfl

lemma lambdaBody_of_brace {brace : Token} (h : brace.isSymbol "\x7b" = true) (ts : List Token) :
    lambdaBody inner (brace :: ts) = block inner (brace :: ts) := by
  have harrow : brace.isOperator "->" = false := by
    have := value_of_isSymbol h
    simp [Token.isOperator, this]
  simp [lambdaBody, harrow, h]

lemma lambdaBody_of_arrow {arrow brace : Token} (ha : arrow.isOperator "->" = true)
    (h : brace.isSymbol "\x7b" = true) (hmap : Token.looksLikeMap (brace :: ts) = false) :
    lambdaBody inner (arrow :: brace :: ts) = block inner (brace :: ts) := by
  simp [lambdaBody, ha, h, hmap]

lemma function_reads {words behind : List Token} {ps : List Parameter} {body : Node}
    (hw : FunctionWords words behind) (hp : Grammar.Parameters ts ps)
    (hfirst : ∃ brace vs, us = brace :: vs ∧ brace.isSymbol "\x7b" = true)
    (hmap : behind ≠ [] → Token.looksLikeMap (us ++ rest) = false)
    (hb : block inner (us ++ rest) = .ok (body, rest)) :
    primary inner (words ++ (ts ++ (behind ++ (us ++ rest)))) =
      .ok (.function (words.head?.map (·.span)) ps body, rest) := by
  obtain ⟨brace, vs, rfl, hbrace⟩ := hfirst
  cases hw with
  | @function word hw =>
    simp only [List.singleton_append, List.nil_append, primary_of_def hw, functionExpression,
      advance_bind_cons]
    rw [bind_of_ok (parameters_of_spelled hp _), bind_of_ok hb]
    rfl
  | @lambda word hw =>
    have hbody := (lambdaBody_of_brace hbrace (vs ++ rest)).trans hb
    simp only [List.singleton_append, List.nil_append, primary_of_forge hw, lambda,
      advance_bind_cons]
    rw [bind_of_ok (parameters_of_spelled hp _)]
    exact bind_of_ok hbody
  | @arrow word arrow hw harrow =>
    have hbody := (lambdaBody_of_arrow harrow hbrace (hmap (by simp))).trans hb
    simp only [List.singleton_append, primary_of_forge hw, lambda, advance_bind_cons]
    rw [bind_of_ok (parameters_of_spelled hp _)]
    exact bind_of_ok hbody

lemma looksLikeMap_of_opening (h : Opening ts) (rest : List Token) :
    (((ts ++ rest).head?.map (Token.isSymbol "\x7b")).getD false &&
      !Token.looksLikeMap (ts ++ rest)) = false := by
  cases hbrace : (ts.head?.map (Token.isSymbol "\x7b")).getD false with
  | false => rw [h.head?_append, hbrace, Bool.false_and]
  | true => rw [looksLikeMap_append (h.looksLikeMap_of_brace hbrace), Bool.not_true, Bool.and_false]

lemma lambdaBody_of_value {arrow : Token} {value : Node} (ha : arrow.isOperator "->" = true)
    (ho : Opening us) (hv : inner.expression (us ++ rest) = .ok (value, rest)) :
    lambdaBody inner (arrow :: (us ++ rest)) =
      .ok (.block value.span [.returnStatement value.span (some value)], rest) := by
  simp only [lambdaBody, next_bind, List.head?_cons, Option.map_some, Option.getD_some, ha, if_true,
    advance_bind_cons, nextSymbol_bind, ahead_bind, looksLikeMap_of_opening ho, Bool.false_eq_true,
    if_false]
  rw [bind_of_ok hv]
  rfl

lemma lambdaValue_reads {word arrow : Token} {ps : List Parameter} {value : Node}
    (hw : word.isKeyword "forge" = true) (hp : Grammar.Parameters ts ps)
    (ha : arrow.isOperator "->" = true) (ho : Opening us)
    (hv : inner.expression (us ++ rest) = .ok (value, rest)) :
    primary inner (word :: (ts ++ arrow :: (us ++ rest))) = .ok (.function word.span ps
      (.block value.span [.returnStatement value.span (some value)]), rest) := by
  simp only [primary_of_forge hw, lambda, advance_bind_cons]
  rw [bind_of_ok (parameters_of_spelled hp _)]
  exact bind_of_ok (lambdaBody_of_value ha ho hv)

lemma isTarget_of_alike {target : Node} (h : node.Alike target) (ht : target.IsTarget) :
    isTarget node = true := by
  rw [isTarget_eq_of_alike h]
  cases target with
  | identifier | index => rfl
  | _ => exact ht.elim

lemma assignment_of_operand (h : ReadsBack inner true .disjunction ts node)
    (hrest : (follow rest).continues = false) : assignment inner (ts ++ rest) = .ok (node, rest) := by
  have hstops := follow_continues.1 hrest
  have hread : disjunction inner (ts ++ rest) = .ok (node, rest) :=
    h.stops hstops.tighter fun _ => hstops
  have hnext : (rest.head?.map (Token.isOperator "=")).getD false = false :=
    next_false (hstops .assignment (Nat.le_refl _))
  simp only [assignment]
  rw [bind_of_ok hread]
  simp [hnext]

lemma assignment_of_target {equals : Token} {value : Node}
    (h : ReadsBack inner false .disjunction ts node) (ht : isTarget node = true)
    (he : equals.isOperator "=" = true)
    (hv : inner.expression (us ++ rest) = .ok (value, rest)) :
    assignment inner (ts ++ equals :: (us ++ rest)) =
      .ok (.assignment node.span node value, rest) := by
  have hstops : Stops .disjunction (equals :: (us ++ rest)) :=
    ReadsBack.stops_of_continues (show continues .assignment equals = true from he) (by decide) _
  have hread : disjunction inner (ts ++ equals :: (us ++ rest)) = .ok (node, equals :: (us ++ rest)) :=
    h.stops hstops fun hf => absurd hf Bool.false_ne_true
  simp only [assignment]
  rw [bind_of_ok hread]
  simp only [next_bind, List.head?_cons, Option.map_some, Option.getD_some, he, if_true,
    advance_bind_cons, ht]
  rw [bind_of_ok hv]
  rfl

inductive Run (statement : Parser Node) : List Token → List Node → List Token → Prop
  | done {ts : List Token} : Run statement ts [] ts
  | step {t : Token} {ts mid rest : List Token} {node nodes} : t.isSymbol "\x7d" = false →
      statement (t :: ts) = .ok (node, mid) → mid.length ≤ ts.length →
      Run statement (mid.dropWhile (Token.isSymbol ";")) nodes rest →
      Run statement (t :: ts) (node :: nodes) rest

variable {statement : Parser Node} {nodes : List Node}

lemma Run.length_le (h : Run statement ts nodes rest) : nodes.length ≤ ts.length := by
  induction h with
  | done => exact Nat.zero_le _
  | step _ _ hmid _ ih =>
    have := (List.dropWhile_sublist (Token.isSymbol ";")).length_le.trans hmid
    simp only [List.length_cons]
    omega

lemma blockStatements_of_run {closing : Token} (hc : closing.isSymbol "\x7d" = true)
    (h : Run statement ts nodes (closing :: rest)) (opening : Token) {k : Nat}
    (hk : nodes.length < k) : blockStatements statement opening k ts = .ok (nodes, rest) := by
  generalize hlast : closing :: rest = last at h
  induction h generalizing k with
  | done =>
    obtain ⟨k, rfl⟩ : ∃ k', k = k' + 1 := ⟨k - 1, by omega⟩
    subst hlast
    simp only [blockStatements, nextSymbol_bind, List.head?_cons, Option.map_some, Option.getD_some,
      hc, if_true, advance_bind_cons, pure_apply]
  | step hfirst hread _ _ ih =>
    obtain ⟨k, rfl⟩ : ∃ k', k = k' + 1 := ⟨k - 1, by omega⟩
    simp only [blockStatements, nextSymbol_bind, List.head?_cons, Option.map_some, Option.getD_some,
      hfirst, Bool.false_eq_true, if_false, atEnd_bind, List.isEmpty_cons]
    rw [bind_of_ok hread, skipSeparators_bind, bind_of_ok (ih (by simpa using hk) hlast)]
    rfl

lemma programStatements_of_run (h : Run statement ts nodes []) {k : Nat} (hk : nodes.length < k) :
    programStatements statement k ts = .ok (nodes, []) := by
  generalize hlast : [] = last at h
  induction h generalizing k with
  | done =>
    obtain ⟨k, rfl⟩ : ∃ k', k = k' + 1 := ⟨k - 1, by omega⟩
    subst hlast
    simp [programStatements]
  | step _ hread _ _ ih =>
    obtain ⟨k, rfl⟩ : ∃ k', k = k' + 1 := ⟨k - 1, by omega⟩
    simp only [programStatements, atEnd_bind, List.isEmpty_cons, Bool.false_eq_true, if_false]
    rw [bind_of_ok hread, skipSeparators_bind, bind_of_ok (ih (by simpa using hk) hlast)]
    rfl

lemma block_of_run {opening closing : Token} (ho : opening.isSymbol "\x7b" = true)
    (hc : closing.isSymbol "\x7d" = true)
    (h : Run inner.statement (ts.dropWhile (Token.isSymbol ";")) nodes (closing :: rest)) :
    block inner (opening :: ts) = .ok (.block opening.span nodes, rest) := by
  have hlength := h.length_le
  simp only [block]
  rw [bind_of_ok (expectSymbol_eq_ok.2 ⟨rfl, ho⟩), skipSeparators_bind, rounds_bind,
    bind_of_ok (blockStatements_of_run hc h opening (by omega))]
  rfl

lemma startsDefinition_of_head (h : t.isKeyword "def" = false) (ts : List Token) :
    startsDefinition (t :: ts) = false := by
  cases ts <;> simp [startsDefinition, h]

lemma statement_of_isKeyword {word : String} (h : t.isKeyword word = true) (hd : word ≠ "def")
    (ts : List Token) : Parser.statement inner (t :: ts) =
      (if word = "let" ∨ word = "final" then declaration inner
      else if word = "if" then conditional inner
      else if word = "while" then whileLoop inner
      else if word = "for" then forLoop inner
      else if word = "return" then returnStatement inner
      else expressionStatement inner) (t :: ts) := by
  have hword (other : String) : t.isKeyword other = decide (word = other) := by
    simp only [Token.isKeyword, Bool.and_eq_true, decide_eq_true_eq] at h ⊢
    simp [h]
  have hdef := startsDefinition_of_head (show t.isKeyword "def" = false by simpa [hword] using hd) ts
  simp only [statement_apply, List.head?_cons, Option.map_some, Option.getD_some, hword, hdef,
    not_isSymbol_of_isKeyword h, Bool.false_eq_true, if_false, Bool.false_and, Bool.or_eq_true,
    decide_eq_true_eq, if_apply]

lemma declaration_reads {word name equals : Token} {type : Option String} {value : Node}
    (hw : word.isKeyword "let" = true ∨ word.isKeyword "final" = true)
    (hn : name.isIdentifier = true) (ht : Grammar.Ascription ts type)
    (he : equals.isSymbol "=" = true) (hv : inner.expression us = .ok (value, rest)) :
    Parser.statement inner (word :: name :: (ts ++ equals :: us)) =
      .ok (.declaration word.span name.value value (word.value = "final") type, rest) := by
  have hstatement (vs : List Token) :
      Parser.statement inner (word :: vs) = declaration inner (word :: vs) := by
    rcases hw with hw | hw <;> rw [statement_of_isKeyword hw (by decide)] <;> rfl
  have hcolon := not_isSymbol_of_isSymbol he (show "=" ≠ ":" by decide)
  simp only [hstatement, declaration, advance_bind_cons]
  rw [bind_of_ok (expectIdentifier_eq_ok.2 ⟨_, rfl, hn, rfl⟩),
    bind_of_ok (ascription_of_spelled ht (by simpa using hcolon)),
    bind_of_ok (expectSymbol_eq_ok.2 ⟨rfl, he⟩), bind_of_ok hv]
  rfl

lemma definition_reads {word name : Token} {ps : List Parameter} {body : Node}
    (hw : word.isKeyword "def" = true) (hn : name.isIdentifier = true)
    (hp : Grammar.Parameters ts ps) (hb : block inner us = .ok (body, rest)) :
    Parser.statement inner (word :: name :: (ts ++ us)) =
      .ok (.definition word.span name.value ps body, rest) := by
  have hstatement (vs : List Token) :
      Parser.statement inner (word :: name :: vs) = definition inner (word :: name :: vs) := by
    have hword : word.kind = .keyword ∧ word.value = "def" := by simpa [Token.isKeyword] using hw
    simp [statement_apply, startsDefinition, hn, Token.isKeyword, hword]
  simp only [hstatement, definition, advance_bind_cons]
  rw [bind_of_ok (expectIdentifier_eq_ok.2 ⟨_, rfl, hn, rfl⟩),
    bind_of_ok (parameters_of_spelled hp _), bind_of_ok hb]
  rfl

lemma whileLoop_reads {word : Token} {condition body : Node} (hw : word.isKeyword "while" = true)
    (hc : inner.expression ts = .ok (condition, us)) (hb : block inner us = .ok (body, rest)) :
    Parser.statement inner (word :: ts) = .ok (.whileLoop word.span condition body, rest) := by
  rw [statement_of_isKeyword hw (by decide)]
  change whileLoop inner (word :: ts) = _
  simp only [whileLoop, advance_bind_cons]
  rw [bind_of_ok hc, bind_of_ok hb]
  rfl

lemma forLoop_reads {words behind : List Token} {name : String} {iterable body : Node}
    (hw : LoopWords words behind name)
    (hi : inner.expression ts = .ok (iterable, behind ++ us))
    (hb : block inner us = .ok (body, rest)) :
    Parser.statement inner (words ++ ts) =
      .ok (.forLoop (words.head?.map (·.span)) name iterable body, rest) := by
  cases hw with
  | @bare word name keyword hw hn hk =>
    have hheader : parenthesizedHeader (name :: keyword :: ts) = false := by
      have hkind : name.isSymbol "(" = false := by
        simp only [Token.isIdentifier, decide_eq_true_eq] at hn
        simp [Token.isSymbol, hn]
      cases ts <;> simp [parenthesizedHeader, hkind]
    rw [List.cons_append, statement_of_isKeyword hw (by decide)]
    change forLoop inner (word :: name :: keyword :: ts) = _
    simp only [forLoop, advance_bind_cons, ahead_bind, hheader, Bool.false_eq_true, if_false]
    rw [bind_of_ok (expectIdentifier_eq_ok.2 ⟨_, rfl, hn, rfl⟩), expect_bind_cons hk,
      bind_of_ok hi, List.nil_append, bind_of_ok hb]
    rfl
  | @parenthesized word first name keyword closing hw ho hn hk hc =>
    have hheader : parenthesizedHeader (first :: name :: keyword :: ts) = true := by
      simp [parenthesizedHeader, ho, hn, hk]
    rw [List.cons_append, statement_of_isKeyword hw (by decide)]
    change forLoop inner (word :: first :: name :: keyword :: ts) = _
    simp only [forLoop, advance_bind_cons, ahead_bind, hheader, if_true]
    rw [bind_of_ok (expectIdentifier_eq_ok.2 ⟨_, rfl, hn, rfl⟩), expect_bind_cons hk,
      bind_of_ok hi]
    simp only [List.singleton_append]
    rw [bind_of_ok (expectSymbol_eq_ok.2 ⟨rfl, hc⟩), bind_of_ok hb]
    rfl

lemma returnNothing_reads {word : Token} (hw : word.isKeyword "return" = true)
    (h : (follow rest).closes = true) :
    Parser.statement inner (word :: rest) = .ok (.returnStatement word.span none, rest) := by
  rw [statement_of_isKeyword hw (by decide)]
  change returnStatement inner (word :: rest) = _
  cases rest with
  | nil => rfl
  | cons t ts =>
    have hend : (t.isSymbol "\x7d" || t.isSymbol ";") = true := h
    simp only [returnStatement, advance_bind_cons, nextSymbol_bind, atEnd_bind, List.head?_cons,
      Option.map_some, Option.getD_some, hend, Bool.true_or, if_true, pure_apply]

lemma returnValue_reads {word : Token} {value : Node} (hw : word.isKeyword "return" = true)
    (ho : Opening ts) (hv : inner.expression (ts ++ us) = .ok (value, rest)) :
    Parser.statement inner (word :: (ts ++ us)) =
      .ok (.returnStatement word.span (some value), rest) := by
  have hempty : (ts ++ us).isEmpty = false := by
    obtain ⟨t, vs, rfl, -⟩ := ho.first
    rfl
  have hclose := ho.nextSymbol_false (show "\x7d" ∉ _ by decide)
  have hseparator := ho.nextSymbol_false (show ";" ∉ _ by decide)
  rw [← ho.head?_append us] at hclose hseparator
  rw [statement_of_isKeyword hw (by decide)]
  change returnStatement inner (word :: (ts ++ us)) = _
  simp only [returnStatement, advance_bind_cons, nextSymbol_bind, atEnd_bind, hclose, hseparator,
    hempty, Bool.or_self, Bool.false_eq_true, if_false]
  rw [bind_of_ok hv]
  rfl

lemma statement_of_block {brace : Token} (hb : brace.isSymbol "\x7b" = true)
    (hmap : Token.looksLikeMap (brace :: ts) = false) :
    Parser.statement inner (brace :: ts) = block inner (brace :: ts) := by
  have hword := not_isKeyword_of_isSymbol hb
  simp [statement_apply, startsDefinition_of_head (hword "def"), hword, hb, hmap]

lemma Opening.startsDefinition_append (h : Opening ts) (us : List Token) :
    startsDefinition (ts ++ us) = false := by
  cases h with
  | operand ht =>
    refine startsDefinition_of_head (Bool.eq_false_iff.2 fun hw => ?_) us
    have := isKeyword_of_startsOperand ht hw
    simp at this
  | operands ht hc => exact (Opening.operands ht hc).startsDefinition_false
  | function ht hu => exact (Opening.function ht hu).startsDefinition_false
  | lambda ht => exact (Opening.lambda ht).startsDefinition_false
  | map hm => exact (Opening.map (looksLikeMap_append hm us)).startsDefinition_false

lemma expressionStatement_reads {value : Node} (ho : Opening ts)
    (hv : assignment inner (ts ++ us) = .ok (value, rest)) :
    Parser.statement inner (ts ++ us) =
      .ok (.expressionStatement (ts.head?.map (·.span)) value, rest) := by
  have hword {word : String} (hw : word ∉ ["true", "false", "def", "forge"]) :
      ((ts ++ us).head?.map (Token.isKeyword word)).getD false = false := by
    rw [ho.head?_append]
    exact ho.nextKeyword_false hw
  rw [statement_apply, hword (by decide), hword (by decide), ho.startsDefinition_append,
    hword (by decide), hword (by decide), hword (by decide), hword (by decide),
    looksLikeMap_of_opening ho]
  simp only [Bool.or_self, Bool.false_eq_true, if_false, expressionStatement, get_bind]
  rw [bind_of_ok hv, ho.head?_append]
  rfl

lemma elseBranch_of_nothing (h : (follow rest).otherwise = false) :
    elseBranch inner rest = .ok (none, rest) := by
  have hnext : (rest.head?.map (Token.isKeyword "else")).getD false = false := by
    cases rest with
    | nil => rfl
    | cons t ts => exact h
  simp [elseBranch, hnext]

lemma elseBranch_of_block {keyword brace : Token} {branch : Node}
    (hk : keyword.isKeyword "else" = true) (hbrace : brace.isSymbol "\x7b" = true)
    (hb : block inner (brace :: ts) = .ok (branch, rest)) :
    elseBranch inner (keyword :: brace :: ts) = .ok (some branch, rest) := by
  simp only [elseBranch, nextKeyword_bind, List.head?_cons, Option.map_some, Option.getD_some, hk,
    if_true, advance_bind_cons, not_isKeyword_of_isSymbol hbrace, Bool.false_eq_true, if_false]
  rw [bind_of_ok hb]
  rfl

lemma elseBranch_of_if {keyword word : Token} {branch : Node}
    (hk : keyword.isKeyword "else" = true) (hw : word.isKeyword "if" = true)
    (hb : inner.statement (word :: ts) = .ok (branch, rest)) :
    elseBranch inner (keyword :: word :: ts) = .ok (some branch, rest) := by
  simp only [elseBranch, nextKeyword_bind, List.head?_cons, Option.map_some, Option.getD_some, hk,
    if_true, advance_bind_cons, hw]
  rw [bind_of_ok hb]
  rfl

lemma conditional_reads {word : Token} {condition thenBranch : Node} {branch : Option Node}
    {vs : List Token} (hw : word.isKeyword "if" = true)
    (hc : inner.expression ts = .ok (condition, us)) (hb : block inner us = .ok (thenBranch, vs))
    (he : elseBranch inner vs = .ok (branch, rest)) :
    Parser.statement inner (word :: ts) =
      .ok (.conditional word.span condition thenBranch branch, rest) := by
  rw [statement_of_if hw]
  simp only [conditional, advance_bind_cons]
  rw [bind_of_ok hc, bind_of_ok hb, bind_of_ok he]
  rfl

end Parser

end Klang

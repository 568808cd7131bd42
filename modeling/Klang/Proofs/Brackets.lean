import Klang.Proofs.Lexing.Separators
import Klang.Proofs.ProgramSoundness

/-! Brackets. Every phrase of the grammar closes the brackets that it opens, each by one of its own
shape. So a source that can be parsed does not wait for more input. -/

namespace Klang

inductive Shape where
  | round
  | square
  | curly
deriving DecidableEq

inductive Bracket where
  | opening (shape : Shape)
  | closing (shape : Shape)
deriving DecidableEq

namespace Bracket

def ofValue? : String → Option Bracket
  | "(" => some (.opening .round)
  | ")" => some (.closing .round)
  | "[" => some (.opening .square)
  | "]" => some (.closing .square)
  | "\x7b" => some (.opening .curly)
  | "\x7d" => some (.closing .curly)
  | _ => none

/-- Brackets that are all closed, in the reverse order of their opening and in their own shapes. -/
inductive Nested : List Bracket → Prop
  | nil : Nested []
  | pair {shape : Shape} {inner rest : List Bracket} : Nested inner → Nested rest →
      Nested (.opening shape :: (inner ++ .closing shape :: rest))

def count : Int → List Bracket → Int
  | depth, [] => depth
  | depth, .opening _ :: bs => count (depth + 1) bs
  | depth, .closing _ :: bs => count (depth - 1) bs

variable {bs cs : List Bracket}

lemma Nested.append (hb : Nested bs) (hc : Nested cs) : Nested (bs ++ cs) := by
  induction hb with
  | nil => exact hc
  | pair hi _ _ ih => simpa using Nested.pair hi ih

lemma Nested.enclose (h : Nested bs) (shape : Shape) :
    Nested (.opening shape :: (bs ++ [.closing shape])) := .pair h .nil

lemma count_append (depth : Int) (bs cs : List Bracket) :
    count depth (bs ++ cs) = count (count depth bs) cs := by
  induction bs generalizing depth with
  | nil => rfl
  | cons b bs ih => cases b <;> exact ih _

lemma Nested.count_eq (h : Nested bs) (depth : Int) : count depth bs = depth := by
  induction h generalizing depth with
  | nil => rfl
  | pair _ _ ihi ihr => rw [count, count_append, ihi, count, ihr, Int.add_sub_cancel]

end Bracket

open Klang.Bracket

namespace Token

def symbolBracket? (t : Token) : Option Bracket :=
  if t.kind = .operator ∨ t.kind = .delimiter then ofValue? t.value else none

def bracket? (t : Token) : Option Bracket := if t.kind = .delimiter then ofValue? t.value else none

def brackets (ts : List Token) : List Bracket := ts.filterMap bracket?

def symbolBrackets (ts : List Token) : List Bracket := ts.filterMap symbolBracket?

@[simp] lemma symbolBrackets_nil : symbolBrackets [] = [] := rfl

@[simp] lemma symbolBrackets_append (ts us : List Token) :
    symbolBrackets (ts ++ us) = symbolBrackets ts ++ symbolBrackets us :=
  List.filterMap_append

variable {t : Token} {ts : List Token}

lemma symbolBracket?_of_isSymbol {value : String} (h : t.isSymbol value = true) :
    symbolBracket? t = ofValue? value := by
  simp only [isSymbol, Bool.and_eq_true, Bool.or_eq_true, decide_eq_true_eq] at h
  rw [symbolBracket?, if_pos h.1, h.2]

lemma symbolBrackets_symbol {value : String} (h : t.isSymbol value = true)
    (hv : ofValue? value = none) (ts : List Token) : symbolBrackets (t :: ts) = symbolBrackets ts := by
  rw [symbolBrackets, List.filterMap_cons_none ((symbolBracket?_of_isSymbol h).trans hv)]
  rfl

lemma symbolBrackets_bracket {value : String} (h : t.isSymbol value = true) {b : Bracket}
    (hv : ofValue? value = some b) (ts : List Token) :
    symbolBrackets (t :: ts) = b :: symbolBrackets ts := by
  rw [symbolBrackets, List.filterMap_cons_some ((symbolBracket?_of_isSymbol h).trans hv)]
  rfl

lemma symbolBrackets_of_kind (h : t.kind ≠ .operator ∧ t.kind ≠ .delimiter) (ts : List Token) :
    symbolBrackets (t :: ts) = symbolBrackets ts := by
  have hnone : symbolBracket? t = none := if_neg fun hk => hk.elim h.1 h.2
  rw [symbolBrackets, List.filterMap_cons_none hnone]
  rfl

lemma symbolBrackets_keyword {word : String} (h : t.isKeyword word = true) (ts : List Token) :
    symbolBrackets (t :: ts) = symbolBrackets ts := by
  simp only [isKeyword, Bool.and_eq_true, decide_eq_true_eq] at h
  exact symbolBrackets_of_kind (by simp [h.1]) ts

lemma symbolBrackets_identifier (h : t.isIdentifier = true) (ts : List Token) :
    symbolBrackets (t :: ts) = symbolBrackets ts := by
  simp only [isIdentifier, decide_eq_true_eq] at h
  exact symbolBrackets_of_kind (by simp [h]) ts

lemma symbolBrackets_mapKey (h : t.isMapKey = true) (ts : List Token) :
    symbolBrackets (t :: ts) = symbolBrackets ts := by
  simp only [isMapKey, Bool.or_eq_true, decide_eq_true_eq] at h
  exact symbolBrackets_of_kind (by rcases h with h | h <;> simp [h]) ts

lemma nested_enclosed {first last : Token} {opens closes : String} {shape : Shape}
    (hfirst : first.isSymbol opens = true) (hlast : last.isSymbol closes = true)
    (ho : ofValue? opens = some (.opening shape)) (hc : ofValue? closes = some (.closing shape))
    (h : Nested (symbolBrackets ts)) : Nested (symbolBrackets (first :: (ts ++ [last]))) := by
  rw [symbolBrackets_bracket hfirst ho, symbolBrackets_append, symbolBrackets_bracket hlast hc]
  exact h.enclose shape

end Token

namespace Grammar

open Token

lemma ofValue?_symbol (level : Level) : ∀ operator ∈ level.operators,
    ofValue? operator.symbol = none := by
  cases level <;> decide

lemma symbolBrackets_operator {level : Level} {token : Token} {operator : BinaryOperator}
    (hm : operator ∈ level.operators) (h : SpellsOperator token operator) (ts : List Token) :
    symbolBrackets (token :: ts) = symbolBrackets ts := by
  rcases h with h | ⟨-, h⟩ | ⟨-, h⟩
  · exact symbolBrackets_symbol h (ofValue?_symbol level operator hm) ts
  · exact symbolBrackets_keyword h ts
  · exact symbolBrackets_keyword h ts

lemma symbolBrackets_sign {token : Token} {operator : UnaryOperator} (h : SpellsSign token operator)
    (ts : List Token) : symbolBrackets (token :: ts) = symbolBrackets ts := by
  obtain ⟨rfl | rfl, hs⟩ := h <;> exact symbolBrackets_symbol hs rfl ts

lemma Ascription.symbolBrackets {ts : List Token} {type : Option String} (h : Ascription ts type) :
    symbolBrackets ts = [] := by
  cases h with
  | nothing => rfl
  | type hcolon hname =>
    rw [symbolBrackets_symbol hcolon rfl, symbolBrackets_identifier hname, symbolBrackets_nil]

lemma symbolBrackets_parameters {ts : List Token} {parameters : List Parameter}
    (h : Separated SpellsParameter ts parameters) : symbolBrackets ts = [] := by
  have hone {ts : List Token} {p : Parameter} (hp : SpellsParameter ts p) :
      Token.symbolBrackets ts = [] := by
    obtain ⟨hname, htype⟩ := hp
    rw [symbolBrackets_identifier hname, htype.symbolBrackets]
  induction h with
  | one hp => exact hone hp
  | more hp hcomma _ ih =>
    rw [symbolBrackets_append, hone hp, symbolBrackets_symbol hcomma rfl, ih, List.append_nil]

lemma Parameters.nested {ts : List Token} {parameters : List Parameter}
    (h : Parameters ts parameters) : Nested (symbolBrackets ts) := by
  cases h with
  | nothing ho hc =>
    have hnone : Nested (symbolBrackets []) := .nil
    exact nested_enclosed ho hc rfl rfl hnone
  | some ho hs _ hc =>
    refine nested_enclosed ho hc rfl rfl ?_
    rw [symbolBrackets_parameters hs]
    exact .nil

lemma nested_header {first name keyword last : Token} {ts us : List Token}
    (ho : first.isSymbol "(" = true) (hn : name.isIdentifier = true)
    (hk : keyword.isKeyword "in" = true) (ht : Nested (symbolBrackets ts))
    (hc : last.isSymbol ")" = true) (hu : Nested (symbolBrackets us)) :
    Nested (symbolBrackets (first :: name :: keyword :: (ts ++ last :: us))) := by
  rw [symbolBrackets_bracket ho rfl, symbolBrackets_identifier hn, symbolBrackets_keyword hk,
    symbolBrackets_append, symbolBrackets_bracket hc rfl]
  exact .pair ht hu

mutual

lemma Expression.nested {level : Level} {ts : List Token} {node : Node}
    (h : Expression level ts node) : Nested (symbolBrackets ts) := by
  match h with
  | .tighter h => exact h.nested
  | .assignment ht _ he hv =>
    rw [symbolBrackets_append, symbolBrackets_symbol he rfl]
    exact ht.nested.append hv.nested
  | .binary hl hm hs hr =>
    rw [symbolBrackets_append, symbolBrackets_operator hm hs]
    exact hl.nested.append hr.nested
  | .unary hs ho =>
    rw [symbolBrackets_sign hs]
    exact ho.nested
  | .call hc ho hi hclose =>
    rw [symbolBrackets_append]
    exact hc.nested.append (nested_enclosed ho hclose rfl rfl hi.nested)
  | .index ht ho hk hclose =>
    rw [symbolBrackets_append]
    exact ht.nested.append (nested_enclosed ho hclose rfl rfl hk.nested)
  | .number hk _ | .string hk =>
    rw [symbolBrackets_of_kind (by simp [hk])]
    exact .nil
  | .identifier hi =>
    rw [symbolBrackets_identifier hi]
    exact .nil
  | .trueWord hw | .falseWord hw =>
    rw [symbolBrackets_keyword hw]
    exact .nil
  | .group ho h hc => exact nested_enclosed ho hc rfl rfl h.nested
  | .list ho hi hc => exact nested_enclosed ho hc rfl rfl hi.nested
  | .map ho he hc => exact nested_enclosed ho hc rfl rfl he.nested
  | .function hw hp hb | .lambda hw hp hb =>
    rw [symbolBrackets_keyword hw, symbolBrackets_append]
    exact hp.nested.append hb.nested
  | .lambdaBlock hw hp ha hb =>
    rw [symbolBrackets_keyword hw, symbolBrackets_append, symbolBrackets_symbol ha rfl]
    exact hp.nested.append hb.nested
  | .lambdaValue hw hp ha hv =>
    rw [symbolBrackets_keyword hw, symbolBrackets_append, symbolBrackets_symbol ha rfl]
    exact hp.nested.append hv.nested

lemma Items.nested {ts : List Token} {nodes : List Node} (h : Items ts nodes) :
    Nested (symbolBrackets ts) := by
  match h with
  | .nothing => exact .nil
  | .one he => exact he.nested
  | .more he hc hi _ =>
    rw [symbolBrackets_append, symbolBrackets_symbol hc rfl]
    exact he.nested.append hi.nested

lemma Entries.nested {ts : List Token} {entries : List (String × Node)} (h : Entries ts entries) :
    Nested (symbolBrackets ts) := by
  match h with
  | .nothing => exact .nil
  | .one hk hc hv =>
    rw [symbolBrackets_mapKey hk, symbolBrackets_symbol hc rfl]
    exact hv.nested
  | .more hk hc hv hcomma he _ =>
    rw [symbolBrackets_mapKey hk, symbolBrackets_symbol hc rfl, symbolBrackets_append,
      symbolBrackets_symbol hcomma rfl]
    exact hv.nested.append he.nested

lemma Block.nested {ts : List Token} {node : Node} (h : Block ts node) :
    Nested (symbolBrackets ts) := by
  match h with
  | .block ho hs hc => exact nested_enclosed ho hc rfl rfl hs.nested

lemma Statements.nested {ts : List Token} {nodes : List Node} (h : Statements ts nodes) :
    Nested (symbolBrackets ts) := by
  match h with
  | .nothing => exact .nil
  | .separator hs h =>
    rw [symbolBrackets_symbol hs rfl]
    exact h.nested
  | .statement hn h =>
    rw [symbolBrackets_append]
    exact hn.nested.append h.nested

lemma Statement.nested {ts : List Token} {node : Node} (h : Statement ts node) :
    Nested (symbolBrackets ts) := by
  match h with
  | .letDeclaration hw hn ht he hv | .finalDeclaration hw hn ht he hv =>
    rw [symbolBrackets_keyword hw, symbolBrackets_identifier hn, symbolBrackets_append,
      ht.symbolBrackets, symbolBrackets_symbol he rfl]
    exact hv.nested
  | .definition hw hn hp hb =>
    rw [symbolBrackets_keyword hw, symbolBrackets_identifier hn, symbolBrackets_append]
    exact hp.nested.append hb.nested
  | .conditional hc => exact hc.nested
  | .whileLoop hw hc hb =>
    rw [symbolBrackets_keyword hw, symbolBrackets_append]
    exact hc.nested.append hb.nested
  | .forLoop hw hn hk hi hb =>
    rw [symbolBrackets_keyword hw, symbolBrackets_identifier hn, symbolBrackets_keyword hk,
      symbolBrackets_append]
    exact hi.nested.append hb.nested
  | .forLoopInParentheses hw ho hn hk hi hc hb =>
    rw [symbolBrackets_keyword hw]
    exact nested_header ho hn hk hi.nested hc hb.nested
  | .returnNothing hw =>
    rw [symbolBrackets_keyword hw]
    exact .nil
  | .returnValue hw hv =>
    rw [symbolBrackets_keyword hw]
    exact hv.nested
  | .block hb => exact hb.nested
  | .expression he => exact he.nested

lemma Conditional.nested {ts : List Token} {node : Node} (h : Conditional ts node) :
    Nested (symbolBrackets ts) := by
  match h with
  | .ifOnly hw hc hb =>
    rw [symbolBrackets_keyword hw, symbolBrackets_append]
    exact hc.nested.append hb.nested
  | .ifElse hw hc hb hk he =>
    rw [symbolBrackets_keyword hw, symbolBrackets_append, symbolBrackets_append,
      symbolBrackets_keyword hk]
    exact (hc.nested.append hb.nested).append he.nested
  | .ifElseIf hw hc hb hk he =>
    rw [symbolBrackets_keyword hw, symbolBrackets_append, symbolBrackets_append,
      symbolBrackets_keyword hk]
    exact (hc.nested.append hb.nested).append he.nested

end

end Grammar

namespace Token

variable {ts us : List Token}

lemma brackets_congr (h : ts.map spelling = us.map spelling) : brackets ts = brackets us := by
  have hmap (vs : List Token) : brackets vs = (vs.map spelling).filterMap fun s =>
      if s.1 = .delimiter then ofValue? s.2 else none := by
    rw [brackets, List.filterMap_map]
    rfl
  rw [hmap, hmap, h]

lemma brackets_cons (t : Token) (ts : List Token) :
    brackets (t :: ts) = (bracket? t).toList ++ brackets ts := by
  rw [brackets, List.filterMap_cons]
  cases bracket? t <;> rfl

lemma counted_eq (t : Token) (depth : Int) :
    (if t.kind ≠ .delimiter then depth
      else if t.value ∈ ["(", "[", "\x7b"] then depth + 1
      else if t.value ∈ [")", "]", "\x7d"] then depth - 1
      else depth) = count depth (bracket? t).toList := by
  by_cases hk : t.kind = .delimiter
  · rw [if_neg (not_not_intro hk), bracket?, if_pos hk]
    generalize t.value = value
    fun_cases ofValue? value with
    | case7 => simp_all [count]
    | _ => simp [count]
  · simp [hk, bracket?, count]

lemma bracketDepth_eq (ts : List Token) : bracketDepth ts = count 0 (brackets ts) := by
  simp only [bracketDepth, counted_eq]
  -- the count goes on from where it is
  generalize (0 : Int) = depth
  induction ts generalizing depth with
  | nil => rfl
  | cons t ts ih => rw [List.foldl_cons, ih, brackets_cons, count_append]

lemma IsLexeme.ofValue? {text : List Char} (h : IsLexeme .operator text) :
    Bracket.ofValue? (String.ofList text) = none := by
  have hnone : ∀ value ∈ longOperators ++ shortOperators, Bracket.ofValue? value = none := by decide
  generalize hkind : TokenKind.operator = kind at h
  cases h with
  | operator hm => exact hnone _ hm
  | word =>
    unfold wordKind at hkind
    split at hkind <;> cases hkind
  | _ => cases hkind

lemma symbolBrackets_of_tokenize {file source : String} {tokens : List Token}
    (h : tokenize file source = .ok tokens) : symbolBrackets tokens = brackets tokens := by
  refine List.filterMap_congr fun t ht => ?_
  by_cases hk : t.kind = .operator
  · have hmem : t.spelling ∈ spellings source.toList ++ [(.eof, "")] := by
      rw [← map_spelling_of_tokenize h]
      exact List.mem_map_of_mem ht
    rcases List.mem_append.1 hmem with hmem | hmem
    · obtain ⟨⟨kind, lexeme⟩, hlexeme, he⟩ := List.mem_map.1 hmem
      obtain ⟨rfl, hvalue⟩ : kind = .operator ∧ String.ofList lexeme = t.value := by
        simp only [spelling, Prod.mk.injEq, hk] at he
        obtain ⟨rfl, hvalue⟩ := he
        exact ⟨rfl, hvalue⟩
      have hnone := (isLexeme_of_mem_lexemes hlexeme).ofValue?
      rw [hvalue] at hnone
      simp [symbolBracket?, bracket?, hk, hnone]
    · simp [spelling, hk] at hmem
  · simp [symbolBracket?, bracket?, hk]

end Token

namespace Parser

open Grammar

lemma expression_of_singleExpression {body rest : List Token} {e : Node}
    (h : singleExpression body = .ok (e, rest)) : Expression .assignment body e := by
  simp only [singleExpression, rounds_bind, atEnd_bind, bind_eq_ok, if_apply] at h
  obtain ⟨value, mid, hv, h⟩ := h
  split at h
  · rename_i hend
    cases h
    obtain ⟨used, rfl, hu⟩ := (sound_descend _).expression _ _ _ hv
    rwa [List.isEmpty_iff.1 hend, List.append_nil]
  · cases h

lemma statements_of_program {body rest : List Token} {nodes : List Node}
    (h : program body = .ok (nodes, rest)) : Statements body nodes := by
  simp only [program, rounds_bind, skipSeparators_bind] at h
  obtain ⟨rfl, hs⟩ := reads_programStatements (sound_descend _).statement h
  obtain ⟨used, hused, hu⟩ := statements_skipped body (List.append_nil _).symm hs
  rwa [hused, List.append_nil]

lemma brackets_of_splitInput? {file source : String} {tokens body : List Token} {last : Token}
    (htokens : Token.tokenize file source = .ok tokens)
    (hsplit : splitInput? tokens = some (body, last)) :
    Token.symbolBrackets body = Token.brackets tokens := by
  obtain ⟨written, stop, he, hstop, hspell⟩ :=
    Token.tokenize_of_isClean file (Token.isClean_of_tokenize htokens)
  rw [he] at htokens
  cases htokens
  rw [splitInput?_append hstop (Token.kind_ne_eof hspell)] at hsplit
  cases hsplit
  rw [← Token.symbolBrackets_of_tokenize he, Token.symbolBrackets_append,
    Token.symbolBrackets_of_kind (by simp [hstop]), Token.symbolBrackets_nil, List.append_nil]

end Parser

open Token

lemma readExpression_eq_ok {file source : String} {e : Node}
    (h : (readExpression file source).result = .ok e) :
    ∃ tokens, tokenize file source = .ok tokens ∧ parseExpression tokens = .ok e := by
  unfold readExpression readWith readTokens at h
  cases htokens : tokenize file source with
  | error fault =>
    rw [htokens] at h
    cases h
  | ok tokens =>
    simp only [htokens] at h
    refine ⟨tokens, rfl, ?_⟩
    cases hparse : parseExpression tokens with
    | error fault =>
      rw [hparse] at h
      cases h
    | ok found =>
      rw [hparse] at h
      cases h
      rfl

lemma needsMore_of_nested {file source : String} {tokens : List Token}
    (htokens : tokenize file source = .ok tokens) (h : Nested (brackets tokens)) :
    needsMore source = false := by
  obtain ⟨body, last, htyped, -, -⟩ := tokenize_of_isClean "<input>" (isClean_of_tokenize htokens)
  have hsame := brackets_congr
    ((map_spelling_of_tokenize htyped).trans (map_spelling_of_tokenize htokens).symm)
  rw [needsMore, htyped]
  change decide (0 < bracketDepth (body ++ [last])) = false
  rw [bracketDepth_eq, hsame, h.count_eq]
  rfl

/-- In a source that can be read, as a program or as an expression, every bracket is closed by one
of its own shape, so that it does not wait for more input. -/
theorem nested_of_read {file source : String}
    (h : (∃ program, (readProgram file source).result = .ok program) ∨
      ∃ e, (readExpression file source).result = .ok e) :
    ∃ tokens, tokenize file source = .ok tokens ∧ Nested (brackets tokens) ∧
      needsMore source = false := by
  obtain ⟨tokens, htokens, hnested⟩ :
      ∃ tokens, tokenize file source = .ok tokens ∧ Nested (brackets tokens) := by
    rcases h with ⟨program, h⟩ | ⟨e, h⟩
    · obtain ⟨tokens, htokens, hparse⟩ := readProgram_eq_ok h
      obtain ⟨last, hsplit⟩ := Parser.splitInput?_of_parseProgram hparse
      obtain ⟨nodes, rest, hp, -⟩ := (Parser.parseProgram_eq_ok hsplit).1 hparse
      exact ⟨tokens, htokens, Parser.brackets_of_splitInput? htokens hsplit ▸
        (Parser.statements_of_program hp).nested⟩
    · obtain ⟨tokens, htokens, hparse⟩ := readExpression_eq_ok h
      obtain ⟨last, hsplit⟩ := Parser.splitInput?_of_parseExpression hparse
      obtain ⟨rest, hp⟩ := (Parser.parseExpression_eq_ok hsplit).1 hparse
      exact ⟨tokens, htokens, Parser.brackets_of_splitInput? htokens hsplit ▸
        (Parser.expression_of_singleExpression hp).nested⟩
  exact ⟨tokens, htokens, hnested, needsMore_of_nested htokens hnested⟩

set_option maxRecDepth 1000 in
theorem nested_of_read_string :
    let source := "\x7b[(\")\")]\x7d"
    (∃ program, (readProgram "f" source).result = .ok program) ∧
      ∃ tokens, tokenize "f" source = .ok tokens ∧ tokens.length = 8 ∧ Nested (brackets tokens) ∧
        needsMore source = false := by
  intro source
  have hcurly : front (layout "\x7b[(\")\")]\x7d".toList).2 =
      .lexeme .delimiter ['\x7b'] "[(\")\")]\x7d".toList := front_layout_of_none rfl
  have hsquare : front (layout "[(\")\")]\x7d".toList).2 =
      .lexeme .delimiter ['['] "(\")\")]\x7d".toList := front_layout_of_none rfl
  have hround : front (layout "(\")\")]\x7d".toList).2 =
      .lexeme .delimiter ['('] "\")\")]\x7d".toList := front_layout_of_none rfl
  have hstring : front (layout "\")\")]\x7d".toList).2 =
      .lexeme .string "\")\"".toList ")]\x7d".toList := front_layout_of_none rfl
  have hround' : front (layout ")]\x7d".toList).2 = .lexeme .delimiter [')'] "]\x7d".toList :=
    front_layout_of_none rfl
  have hsquare' : front (layout "]\x7d".toList).2 = .lexeme .delimiter [']'] "\x7d".toList :=
    front_layout_of_none rfl
  have hcurly' : front (layout "\x7d".toList).2 = .lexeme .delimiter ['\x7d'] [] :=
    front_layout_of_none rfl
  have hend : front (layout []).2 = .done := front_layout_of_none rfl
  have hpieces := pieces_of_lexeme hcurly
  rw [pieces_of_lexeme hsquare, pieces_of_lexeme hround, pieces_of_lexeme hstring,
    pieces_of_lexeme hround', pieces_of_lexeme hsquare', pieces_of_lexeme hcurly',
    pieces_of_done hend] at hpieces
  obtain ⟨place, htokens⟩ := tokenize_of_pieces "f" hpieces
  have hread : ∃ program, (readProgram "f" source).result = .ok program :=
    ⟨_, readProgram_of_ok htokens rfl⟩
  obtain ⟨tokens, hsame, hnested⟩ := nested_of_read (.inl hread)
  refine ⟨hread, tokens, hsame, ?_, hnested⟩
  rw [htokens] at hsame
  cases hsame
  rfl

end Klang

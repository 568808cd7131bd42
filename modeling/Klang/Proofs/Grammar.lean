import Klang.Proofs.WellFormed

/-! The grammar of the language: which tokens spell which trees. The rules know nothing of what
follows a phrase, and they leave the spans of the trees open. -/

namespace Klang

inductive Level where
  | assignment
  | disjunction
  | conjunction
  | equality
  | relational
  | additive
  | multiplicative
  | unary
  | suffixed
  | primary
deriving DecidableEq

namespace Level

def rank : Level → Nat
  | assignment => 0
  | disjunction => 1
  | conjunction => 2
  | equality => 3
  | relational => 4
  | additive => 5
  | multiplicative => 6
  | unary => 7
  | suffixed => 8
  | primary => 9

def tighter : Level → Level
  | assignment => disjunction
  | disjunction => conjunction
  | conjunction => equality
  | equality => relational
  | relational => additive
  | additive => multiplicative
  | multiplicative => unary
  | unary => suffixed
  | suffixed | primary => primary

def operators : Level → List BinaryOperator
  | disjunction => [.or]
  | conjunction => [.and]
  | equality => [.equal, .unequal]
  | relational => [.less, .lessEqual, .greater, .greaterEqual]
  | additive => [.add, .subtract]
  | multiplicative => [.multiply, .divide, .remainder]
  | _ => []

end Level

namespace Grammar

/-- A logical operator is spelled by its symbol or by its word. -/
def SpellsOperator (token : Token) (operator : BinaryOperator) : Prop :=
  token.isSymbol operator.symbol ∨ (operator = .or ∧ token.isKeyword "or") ∨
    (operator = .and ∧ token.isKeyword "and")

def SpellsSign (token : Token) (operator : UnaryOperator) : Prop :=
  operator.IsKnown ∧ token.isSymbol operator.symbol

inductive Separated {α : Type} (phrase : List Token → α → Prop) : List Token → List α → Prop
  | one {ts a} : phrase ts a → Separated phrase ts [a]
  | more {ts a comma us as} : phrase ts a → comma.isSymbol "," → Separated phrase us as →
      Separated phrase (ts ++ comma :: us) (a :: as)

inductive Ascription : List Token → Option String → Prop
  | nothing : Ascription [] none
  | type {colon name : Token} : colon.isSymbol ":" → name.isIdentifier →
      Ascription [colon, name] (some name.value)

inductive SpellsParameter : List Token → Parameter → Prop
  | parameter {name : Token} {ts type} : name.isIdentifier → Ascription ts type →
      SpellsParameter (name :: ts) ⟨name.value, type⟩

inductive Parameters : List Token → List Parameter → Prop
  | nothing {opening closing : Token} : opening.isSymbol "(" → closing.isSymbol ")" →
      Parameters [opening, closing] []
  | some {opening closing : Token} {ts parameters} : opening.isSymbol "(" →
      Separated SpellsParameter ts parameters → DistinctNames parameters → closing.isSymbol ")" →
      Parameters (opening :: (ts ++ [closing])) parameters

mutual

inductive Expression : Level → List Token → Node → Prop
  | tighter {level ts node} : Expression level.tighter ts node → Expression level ts node
  | assignment {ts target equals us value span} : Expression .disjunction ts target →
      target.IsTarget → equals.isSymbol "=" → Expression .assignment us value →
      Expression .assignment (ts ++ equals :: us) (.assignment span target value)
  | binary {level ts left token operator us right span} : Expression level ts left →
      operator ∈ level.operators → SpellsOperator token operator →
      Expression level.tighter us right →
      Expression level (ts ++ token :: us) (.binary span operator left right)
  | unary {sign operator ts operand span} : SpellsSign sign operator →
      Expression .unary ts operand →
      Expression .unary (sign :: ts) (.unary span operator operand)
  | call {ts callee opening us arguments closing span} : Expression .suffixed ts callee →
      opening.isSymbol "(" → Items us arguments → closing.isSymbol ")" →
      Expression .suffixed (ts ++ opening :: (us ++ [closing])) (.call span callee arguments)
  | index {ts target opening us key closing span} : Expression .suffixed ts target →
      opening.isSymbol "[" → Expression .assignment us key → closing.isSymbol "]" →
      Expression .suffixed (ts ++ opening :: (us ++ [closing])) (.index span target key)
  | number {token value span} : token.kind = .number →
      Number.ofNumeral? token.value.toList = some value →
      Expression .primary [token] (.number span value)
  | string {token span} : token.kind = .string →
      Expression .primary [token] (.string span token.value)
  | identifier {token span} : token.isIdentifier →
      Expression .primary [token] (.identifier span token.value)
  | trueWord {token span} : token.isKeyword "true" → Expression .primary [token] (.boolean span true)
  | falseWord {token span} : token.isKeyword "false" →
      Expression .primary [token] (.boolean span false)
  | group {opening ts node closing} : opening.isSymbol "(" → Expression .assignment ts node →
      closing.isSymbol ")" → Expression .primary (opening :: (ts ++ [closing])) node
  | list {opening ts elements closing span} : opening.isSymbol "[" → Items ts elements →
      closing.isSymbol "]" →
      Expression .primary (opening :: (ts ++ [closing])) (.list span elements)
  | map {opening ts entries closing span} : opening.isSymbol "\x7b" → Entries ts entries →
      closing.isSymbol "\x7d" →
      Expression .primary (opening :: (ts ++ [closing])) (.map span entries)
  | function {word ts parameters us body span} : word.isKeyword "def" →
      Parameters ts parameters → Block us body →
      Expression .primary (word :: (ts ++ us)) (.function span parameters body)
  | lambda {word ts parameters us body span} : word.isKeyword "forge" →
      Parameters ts parameters → Block us body →
      Expression .primary (word :: (ts ++ us)) (.function span parameters body)
  | lambdaBlock {word ts parameters arrow us body span} : word.isKeyword "forge" →
      Parameters ts parameters → arrow.isSymbol "->" → Block us body →
      Expression .primary (word :: (ts ++ arrow :: us)) (.function span parameters body)
  | lambdaValue {word ts parameters arrow us value span bodySpan returnSpan} :
      word.isKeyword "forge" → Parameters ts parameters → arrow.isSymbol "->" →
      Expression .assignment us value →
      Expression .primary (word :: (ts ++ arrow :: us))
        (.function span parameters (.block bodySpan [.returnStatement returnSpan (some value)]))

inductive Items : List Token → List Node → Prop
  | nothing : Items [] []
  | one {ts node} : Expression .assignment ts node → Items ts [node]
  | more {ts node comma us nodes} : Expression .assignment ts node → comma.isSymbol "," →
      Items us nodes → nodes ≠ [] → Items (ts ++ comma :: us) (node :: nodes)

inductive Entries : List Token → List (String × Node) → Prop
  | nothing : Entries [] []
  | one {key colon ts value} : key.isMapKey → colon.isSymbol ":" →
      Expression .assignment ts value → Entries (key :: colon :: ts) [(key.value, value)]
  | more {key colon ts value comma us entries} : key.isMapKey → colon.isSymbol ":" →
      Expression .assignment ts value → comma.isSymbol "," → Entries us entries → entries ≠ [] →
      Entries (key :: colon :: (ts ++ comma :: us)) ((key.value, value) :: entries)

inductive Block : List Token → Node → Prop
  | block {opening ts nodes closing span} : opening.isSymbol "\x7b" → Statements ts nodes →
      closing.isSymbol "\x7d" → Block (opening :: (ts ++ [closing])) (.block span nodes)

inductive Statements : List Token → List Node → Prop
  | nothing : Statements [] []
  | separator {semicolon ts nodes} : semicolon.isSymbol ";" → Statements ts nodes →
      Statements (semicolon :: ts) nodes
  | statement {ts node us nodes} : Statement ts node → Statements us nodes →
      Statements (ts ++ us) (node :: nodes)

inductive Statement : List Token → Node → Prop
  | letDeclaration {word name ts type equals us value span} : word.isKeyword "let" →
      name.isIdentifier → Ascription ts type → equals.isSymbol "=" →
      Expression .assignment us value →
      Statement (word :: name :: (ts ++ equals :: us))
        (.declaration span name.value value false type)
  | finalDeclaration {word name ts type equals us value span} : word.isKeyword "final" →
      name.isIdentifier → Ascription ts type → equals.isSymbol "=" →
      Expression .assignment us value →
      Statement (word :: name :: (ts ++ equals :: us))
        (.declaration span name.value value true type)
  | definition {word name ts parameters us body span} : word.isKeyword "def" →
      name.isIdentifier → Parameters ts parameters → Block us body →
      Statement (word :: name :: (ts ++ us)) (.definition span name.value parameters body)
  | conditional {ts node} : Conditional ts node → Statement ts node
  | whileLoop {word ts condition us body span} : word.isKeyword "while" →
      Expression .assignment ts condition → Block us body →
      Statement (word :: (ts ++ us)) (.whileLoop span condition body)
  | forLoop {word name keyword ts iterable us body span} : word.isKeyword "for" →
      name.isIdentifier → keyword.isKeyword "in" → Expression .assignment ts iterable →
      Block us body →
      Statement (word :: name :: keyword :: (ts ++ us)) (.forLoop span name.value iterable body)
  | forLoopInParentheses {word opening name keyword ts iterable closing us body span} :
      word.isKeyword "for" → opening.isSymbol "(" → name.isIdentifier → keyword.isKeyword "in" →
      Expression .assignment ts iterable → closing.isSymbol ")" → Block us body →
      Statement (word :: opening :: name :: keyword :: (ts ++ closing :: us))
        (.forLoop span name.value iterable body)
  | returnNothing {word span} : word.isKeyword "return" →
      Statement [word] (.returnStatement span none)
  | returnValue {word ts value span} : word.isKeyword "return" → Expression .assignment ts value →
      Statement (word :: ts) (.returnStatement span (some value))
  | block {ts node} : Block ts node → Statement ts node
  | expression {ts expression span} : Expression .assignment ts expression →
      Statement ts (.expressionStatement span expression)

inductive Conditional : List Token → Node → Prop
  | ifOnly {word ts condition us thenBranch span} : word.isKeyword "if" →
      Expression .assignment ts condition → Block us thenBranch →
      Conditional (word :: (ts ++ us)) (.conditional span condition thenBranch none)
  | ifElse {word ts condition us thenBranch keyword vs elseBranch span} : word.isKeyword "if" →
      Expression .assignment ts condition → Block us thenBranch → keyword.isKeyword "else" →
      Block vs elseBranch →
      Conditional (word :: (ts ++ us ++ keyword :: vs))
        (.conditional span condition thenBranch (some elseBranch))
  | ifElseIf {word ts condition us thenBranch keyword vs elseBranch span} : word.isKeyword "if" →
      Expression .assignment ts condition → Block us thenBranch → keyword.isKeyword "else" →
      Conditional vs elseBranch →
      Conditional (word :: (ts ++ us ++ keyword :: vs))
        (.conditional span condition thenBranch (some elseBranch))

end

inductive Program : List Token → Node → Prop
  | program {ts nodes span} : Statements ts nodes → Program ts (.program span nodes)

end Grammar

end Klang

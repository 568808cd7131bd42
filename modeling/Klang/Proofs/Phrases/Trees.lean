import Klang.Proofs.Grammar
import Klang.Proofs.RoundTrip.Precedence

/-! Phrases: the tokens of a text in the groups in which the parser reads them. Other than the rules
of the grammar, those of the phrases look at what follows, so that they hold of what is read only. -/

namespace Klang

inductive Form where
  | assignment
  | binary
  | unary
  | call
  | index
  | group
  | list
  | map
  | items
  | entries
  | function
  | lambdaValue
  | block
  | statements
  | declaration
  | definition
  | conditional
  | otherwise
  | whileLoop
  | forLoop
  | returnStatement
deriving DecidableEq

inductive Phrase where
  | words (tokens : List Token)
  | form (form : Form) (parts : List Phrase)

/-- What a statement can see of the tokens behind it. -/
structure Follow where
  continues : Bool
  closes : Bool
  otherwise : Bool
deriving DecidableEq

namespace Phrase

mutual

def tokens : Phrase → List Token
  | words ts => ts
  | form _ parts => tokensOf parts

def tokensOf : List Phrase → List Token
  | [] => []
  | p :: ps => p.tokens ++ tokensOf ps

end

@[simp] lemma tokens_words (ts : List Token) : (words ts).tokens = ts := by simp [tokens]

@[simp] lemma tokens_form (form : Form) (parts : List Phrase) :
    (Phrase.form form parts).tokens = tokensOf parts := by simp [tokens]

@[simp] lemma tokensOf_nil : tokensOf [] = [] := by simp [tokensOf]

@[simp] lemma tokensOf_cons (p : Phrase) (ps : List Phrase) :
    tokensOf (p :: ps) = p.tokens ++ tokensOf ps := by simp [tokensOf]

@[simp] lemma tokensOf_append (ps qs : List Phrase) :
    tokensOf (ps ++ qs) = tokensOf ps ++ tokensOf qs := by
  induction ps with
  | nil => simp
  | cons p ps ih => simp [ih]

def goesOn (t : Token) : Bool :=
  [Level.assignment, .disjunction, .conjunction, .equality, .relational, .additive, .multiplicative,
    .suffixed].any (Parser.continues · t)

def follow : List Token → Follow
  | [] => ⟨false, true, false⟩
  | t :: _ => ⟨goesOn t, t.isSymbol "\x7d" || t.isSymbol ";", t.isKeyword "else"⟩

inductive FunctionWords : List Token → List Token → Prop
  | function {word : Token} : word.isKeyword "def" → FunctionWords [word] []
  | lambda {word : Token} : word.isKeyword "forge" → FunctionWords [word] []
  | arrow {word arrow : Token} : word.isKeyword "forge" → arrow.isOperator "->" →
      FunctionWords [word] [arrow]

inductive LoopWords : List Token → List Token → String → Prop
  | bare {word name keyword : Token} : word.isKeyword "for" → name.isIdentifier →
      keyword.isKeyword "in" → LoopWords [word, name, keyword] [] name.value
  | parenthesized {word opening name keyword closing : Token} : word.isKeyword "for" →
      opening.isSymbol "(" → name.isIdentifier → keyword.isKeyword "in" → closing.isSymbol ")" →
      LoopWords [word, opening, name, keyword] [closing] name.value

mutual

inductive Expression : Phrase → Node → Prop
  | operand {p node} : Operand true .disjunction p node → Expression p node
  | assignment {p target equals q value span} : Operand false .disjunction p target →
      target.IsTarget → equals.isOperator "=" → Expression q value →
      Expression (.form .assignment [p, .words [equals], q]) (.assignment span target value)

/-- An expression of a level, in front of a token that goes on with an expression, or closed behind.
A lambda takes for its value all that goes on with it. -/
inductive Operand : Bool → Level → Phrase → Node → Prop
  | tighter {closed level p node} : Operand closed level.tighter p node → Operand closed level p node
  | binary {closed level p left token operator q right span} : Operand false level p left →
      Parser.operatorOf level token = some operator → Operand closed level.tighter q right →
      Operand closed level (.form .binary [p, .words [token], q]) (.binary span operator left right)
  | unary {closed sign p operand span} : Parser.isSign sign → Operand closed .unary p operand →
      Operand closed .unary (.form .unary [.words [sign], p])
        (.unary span (.ofSymbol sign.value) operand)
  | call {closed p callee opening q arguments closing span} : Operand false .suffixed p callee →
      opening.isSymbol "(" → Items q arguments → closing.isSymbol ")" →
      Operand closed .suffixed (.form .call [p, .words [opening], q, .words [closing]])
        (.call span callee arguments)
  | index {closed p target opening q key closing span} : Operand false .suffixed p target →
      opening.isSymbol "[" → Expression q key → closing.isSymbol "]" →
      Operand closed .suffixed (.form .index [p, .words [opening], q, .words [closing]])
        (.index span target key)
  | atom {closed token node} : Parser.atom? token = some node →
      Operand closed .primary (.words [token]) node
  | group {closed opening p node closing} : opening.isSymbol "(" → Expression p node →
      closing.isSymbol ")" →
      Operand closed .primary (.form .group [.words [opening], p, .words [closing]]) node
  | list {closed opening p elements closing span} : opening.isSymbol "[" → Items p elements →
      closing.isSymbol "]" →
      Operand closed .primary (.form .list [.words [opening], p, .words [closing]])
        (.list span elements)
  | map {closed opening p entries closing span} : opening.isSymbol "\x7b" → Entries p entries →
      closing.isSymbol "\x7d" → Token.looksLikeMap (opening :: (p.tokens ++ [closing])) →
      Operand closed .primary (.form .map [.words [opening], p, .words [closing]])
        (.map span entries)
  | function {closed words ts parameters behind p body span} : FunctionWords words behind →
      Grammar.Parameters ts parameters → Block p body →
      (behind ≠ [] → Token.looksLikeMap p.tokens = false) →
      Operand closed .primary (.form .function [.words words, .words ts, .words behind, p])
        (.function span parameters body)
  | lambdaValue {word ts parameters arrow p value span bodySpan returnSpan} :
      word.isKeyword "forge" → Grammar.Parameters ts parameters → arrow.isOperator "->" →
      Expression p value →
      Operand true .primary (.form .lambdaValue [.words [word], .words ts, .words [arrow], p])
        (.function span parameters (.block bodySpan [.returnStatement returnSpan (some value)]))

inductive Items : Phrase → List Node → Prop
  | nothing : Items (.words []) []
  | one {p node} : Expression p node → Items (.form .items [p]) [node]
  | more {p node comma q nodes} : Expression p node → comma.isSymbol "," → Items q nodes →
      nodes ≠ [] → Items (.form .items [p, .words [comma], q]) (node :: nodes)

inductive Entries : Phrase → List (String × Node) → Prop
  | nothing : Entries (.words []) []
  | one {key colon p value} : key.isMapKey → colon.isSymbol ":" → Expression p value →
      Entries (.form .entries [.words [key, colon], p]) [(key.value, value)]
  | more {key colon p value comma q entries} : key.isMapKey → colon.isSymbol ":" →
      Expression p value → comma.isSymbol "," → Entries q entries → entries ≠ [] →
      Entries (.form .entries [.words [key, colon], p, .words [comma], q])
        ((key.value, value) :: entries)

inductive Block : Phrase → Node → Prop
  | block {opening p nodes closing span} : opening.isSymbol "\x7b" → Statements p nodes →
      closing.isSymbol "\x7d" →
      Block (.form .block [.words [opening], p, .words [closing]]) (.block span nodes)

inductive Statements : Phrase → List Node → Prop
  | nothing : Statements (.words []) []
  | separator {semicolon p nodes} : semicolon.isSymbol ";" → Statements p nodes →
      Statements (.form .statements [.words [semicolon], p]) nodes
  | statement {p node q nodes} : Statement (follow q.tokens) p node → Statements q nodes →
      Statements (.form .statements [p, q]) (node :: nodes)

inductive Statement : Follow → Phrase → Node → Prop
  | declaration {f word name ts type equals p value span} :
      word.isKeyword "let" ∨ word.isKeyword "final" → name.isIdentifier →
      Grammar.Ascription ts type → equals.isSymbol "=" → Expression p value → f.continues = false →
      Statement f (.form .declaration [.words (word :: name :: (ts ++ [equals])), p])
        (.declaration span name.value value (word.value = "final") type)
  | definition {f word name ts parameters p body span} : word.isKeyword "def" →
      name.isIdentifier → Grammar.Parameters ts parameters → Block p body →
      Statement f (.form .definition [.words (word :: name :: ts), p])
        (.definition span name.value parameters body)
  | conditional {f p node} : Conditional f p node → Statement f p node
  | whileLoop {f word p condition q body span} : word.isKeyword "while" → Expression p condition →
      Block q body →
      Statement f (.form .whileLoop [.words [word], p, q]) (.whileLoop span condition body)
  | forLoop {f words behind name p iterable q body span} : LoopWords words behind name →
      Expression p iterable → Block q body →
      Statement f (.form .forLoop [.words words, p, .words behind, q])
        (.forLoop span name iterable body)
  | returnNothing {f word span} : word.isKeyword "return" → f.closes →
      Statement f (.words [word]) (.returnStatement span none)
  | returnValue {f word p value span} : word.isKeyword "return" → Expression p value →
      f.continues = false →
      Statement f (.form .returnStatement [.words [word], p]) (.returnStatement span (some value))
  | block {f p node} : Block p node → Token.looksLikeMap p.tokens = false → Statement f p node
  | expression {f p e span} : Expression p e → f.continues = false →
      Statement f p (.expressionStatement span e)

inductive Conditional : Follow → Phrase → Node → Prop
  | conditional {f word p condition q thenBranch r elseBranch span} : word.isKeyword "if" →
      Expression p condition → Block q thenBranch → Otherwise f r elseBranch →
      Conditional f (.form .conditional [.words [word], p, q, r])
        (.conditional span condition thenBranch elseBranch)

inductive Otherwise : Follow → Phrase → Option Node → Prop
  | nothing {f} : f.otherwise = false → Otherwise f (.words []) none
  | block {f keyword p node} : keyword.isKeyword "else" → Block p node →
      Otherwise f (.form .otherwise [.words [keyword], p]) (some node)
  | conditional {f keyword p node} : keyword.isKeyword "else" → Conditional f p node →
      Otherwise f (.form .otherwise [.words [keyword], p]) (some node)

end

inductive Program : Phrase → Node → Prop
  | program {p nodes span} : Statements p nodes → Program p (.program span nodes)

lemma Operand.of_primary {closed : Bool} {p : Phrase} {node : Node}
    (h : Operand closed .primary p node) {level : Level} (hl : level ≠ .assignment) :
    Operand closed level p node := by
  have hsuffixed : Operand closed .suffixed p node := .tighter h
  have hunary : Operand closed .unary p node := .tighter hsuffixed
  have hmultiplicative : Operand closed .multiplicative p node := .tighter hunary
  have hadditive : Operand closed .additive p node := .tighter hmultiplicative
  have hrelational : Operand closed .relational p node := .tighter hadditive
  have hequality : Operand closed .equality p node := .tighter hrelational
  have hconjunction : Operand closed .conjunction p node := .tighter hequality
  have hdisjunction : Operand closed .disjunction p node := .tighter hconjunction
  cases level <;> first | assumption | exact absurd rfl hl

end Phrase

end Klang

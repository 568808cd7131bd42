import Klang.Node
import Klang.Node.Complaint
import Klang.Number.Numeral

/-! From tokens to trees by recursive descent.

A parser reads from the tokens before the first end of input. Every construct that is nested in
another one stands behind at least one token of it, so the depth of the descent is bounded by the
number of tokens, and so are the rounds of every loop. -/

namespace Klang

namespace Token

def isSymbol (value : String) (token : Token) : Bool :=
  (token.kind = .operator || token.kind = .delimiter) && token.value = value

def isOperator (value : String) (token : Token) : Bool :=
  token.kind = .operator && token.value = value

def isDelimiter (value : String) (token : Token) : Bool :=
  token.kind = .delimiter && token.value = value

def isKeyword (value : String) (token : Token) : Bool :=
  token.kind = .keyword && token.value = value

def isIdentifier (token : Token) : Bool := token.kind = .identifier

def isMapKey (token : Token) : Bool := token.kind = .string || token.kind = .identifier

def looksLikeMap : List Token → Bool
  | brace :: next :: rest =>
    brace.isSymbol "\x7b" &&
      (next.isDelimiter "\x7d" || (next.isMapKey && (rest.head?.map (isDelimiter ":")).getD false))
  | _ => false

end Token

namespace Parser

/-- Why a parser stopped; a complaint at the end of input has no token. -/
inductive Stop where
  | complaint (complaint : Complaint) (token : Option Token)
  | exhausted
deriving DecidableEq

end Parser

abbrev Parser := StateT (List Token) (Except Parser.Stop)

namespace Parser

def fail {α : Type} (complaint : Complaint) : Parser α :=
  fun tokens => .error (.complaint complaint tokens.head?)

def failAt {α : Type} (complaint : Complaint) (token : Token) : Parser α :=
  fun _ => .error (.complaint complaint (some token))

def exhausted {α : Type} : Parser α := fun _ => .error .exhausted

def next (test : Token → Bool) : Parser Bool :=
  fun tokens => .ok ((tokens.head?.map test).getD false, tokens)

def nextSymbol (value : String) : Parser Bool := next (Token.isSymbol value)

def nextKeyword (value : String) : Parser Bool := next (Token.isKeyword value)

def atEnd : Parser Bool := fun tokens => .ok (tokens.isEmpty, tokens)

def ahead (test : List Token → Bool) : Parser Bool := fun tokens => .ok (test tokens, tokens)

/-- A bound for the rounds of a loop of which each round reads a token. -/
def rounds : Parser Nat := fun tokens => .ok (tokens.length + 1, tokens)

def expect (test : Token → Bool) (complaint : Complaint) : Parser Token
  | token :: rest => if test token then .ok (token, rest) else fail complaint (token :: rest)
  | [] => fail complaint []

def expectSymbol (value : String) : Complaint → Parser Token := expect (Token.isSymbol value)

def expectIdentifier (complaint : Complaint) : Parser String := do
  let token ← expect Token.isIdentifier complaint
  return token.value

def advance : Parser Token := expect (fun _ => true) .expression

def takeWhile (test : Token → Bool) : Parser (List Token) :=
  fun tokens => .ok (tokens.takeWhile test, tokens.dropWhile test)

def skipSeparators : Parser Unit := do
  let _ ← takeWhile (Token.isSymbol ";")

/-- The parsers for what is nested in a construct. -/
structure Inner where
  expression : Parser Node
  statement : Parser Node

def moreItems {α : Type} (item : Parser α) : Nat → Parser (List α)
  | 0 => exhausted
  | bound + 1 => do
    if ← nextSymbol "," then
      let _ ← advance
      let first ← item
      let others ← moreItems item bound
      return first :: others
    else return []

def items {α : Type} (item : Parser α) (close : String) (complaint : Complaint) :
    Parser (List α) := do
  if ← nextSymbol close then
    let _ ← advance
    return []
  else
    let first ← item
    let others ← moreItems item (← rounds)
    let _ ← expectSymbol close complaint
    return first :: others

def ascription : Parser (Option String) := do
  if ← nextSymbol ":" then
    let _ ← advance
    let name ← expectIdentifier .typeName
    return some name
  else return none

def moreParameters : Nat → List Parameter → Parser (List Parameter)
  | 0, _ => exhausted
  | bound + 1, found => do
    let name ← expectIdentifier .parameterName
    let type ← ascription
    if found.any (·.name = name) then fail (.duplicateParameter name)
    else
      let found := found ++ [⟨name, type⟩]
      if ← nextSymbol "," then
        let _ ← advance
        moreParameters bound found
      else return found

def parameters : Parser (List Parameter) := do
  let _ ← expectSymbol "(" .parametersOpen
  if ← nextSymbol ")" then
    let _ ← advance
    return []
  else
    let found ← moreParameters (← rounds) []
    let _ ← expectSymbol ")" .parametersClose
    return found

def blockStatements (statement : Parser Node) (opening : Token) : Nat → Parser (List Node)
  | 0 => exhausted
  | bound + 1 => do
    if ← nextSymbol "\x7d" then
      let _ ← advance
      return []
    else if ← atEnd then fail (.blockClose opening.span)
    else
      let first ← statement
      skipSeparators
      let others ← blockStatements statement opening bound
      return first :: others

def block (inner : Inner) : Parser Node := do
  let opening ← expectSymbol "\x7b" .blockOpen
  skipSeparators
  let statements ← blockStatements inner.statement opening (← rounds)
  return .block opening.span statements

def listLiteral (inner : Inner) : Parser Node := do
  let opening ← advance
  let elements ← items inner.expression "]" .listClose
  return .list opening.span elements

def mapEntry (inner : Inner) : Parser (String × Node) := do
  let key ← expect Token.isMapKey .mapKey
  let _ ← expectSymbol ":" (.mapColon key.value)
  let value ← inner.expression
  return (key.value, value)

def mapLiteral (inner : Inner) : Parser Node := do
  let opening ← advance
  let entries ← items (mapEntry inner) "\x7d" .mapClose
  return .map opening.span entries

def functionExpression (inner : Inner) : Parser Node := do
  let keyword ← advance
  let params ← parameters
  let body ← block inner
  return .function keyword.span params body

def lambdaBody (inner : Inner) : Parser Node := do
  if ← next (Token.isOperator "->") then
    let _ ← advance
    if (← nextSymbol "\x7b") && !(← ahead Token.looksLikeMap) then block inner
    else
      let value ← inner.expression
      return .block value.span [.returnStatement value.span (some value)]
  else if ← nextSymbol "\x7b" then block inner
  else fail .lambdaBody

def lambda (inner : Inner) : Parser Node := do
  let keyword ← advance
  let params ← parameters
  let body ← lambdaBody inner
  return .function keyword.span params body

def group (inner : Inner) : Parser Node := do
  let _ ← advance
  let value ← inner.expression
  let _ ← expectSymbol ")" .groupClose
  return value

def atom? (token : Token) : Option Node :=
  match token.kind with
  | .number => (Number.ofNumeral? token.value.toList).map (.number token.span)
  | .string => some (.string token.span token.value)
  | .identifier => some (.identifier token.span token.value)
  | .keyword =>
    if token.value = "true" then some (.boolean token.span true)
    else if token.value = "false" then some (.boolean token.span false)
    else none
  | _ => none

def nextAtom? : Parser (Option Node) := fun tokens => .ok (tokens.head?.bind atom?, tokens)

def primary (inner : Inner) : Parser Node := do
  match ← nextAtom? with
  | some node =>
    let _ ← advance
    return node
  | none =>
    if ← nextKeyword "def" then functionExpression inner
    else if ← nextKeyword "forge" then lambda inner
    else if ← nextSymbol "(" then group inner
    else if ← nextSymbol "[" then listLiteral inner
    else if ← nextSymbol "\x7b" then
      if ← ahead Token.looksLikeMap then mapLiteral inner
      else fail .mapInExpression
    else fail .expression

def suffixes (inner : Inner) : Nat → Node → Parser Node
  | 0, _ => exhausted
  | bound + 1, operand => do
    if ← nextSymbol "(" then
      let opening ← advance
      let arguments ← items inner.expression ")" .argumentsClose
      suffixes inner bound (.call opening.span operand arguments)
    else if ← nextSymbol "[" then
      let opening ← advance
      let key ← inner.expression
      let _ ← expectSymbol "]" .indexClose
      suffixes inner bound (.index opening.span operand key)
    else return operand

def isSign (token : Token) : Bool := token.isSymbol "!" || token.isSymbol "-"

def withSign (sign : Token) (operand : Node) : Node :=
  .unary sign.span (.ofSymbol sign.value) operand

def unary (inner : Inner) : Parser Node := do
  let signs ← takeWhile isSign
  let operand ← primary inner
  let operand ← suffixes inner (← rounds) operand
  return signs.foldr withSign operand

def symbolOf (level : List BinaryOperator) (token : Token) : Option BinaryOperator :=
  level.find? fun operator => token.isSymbol operator.symbol

def multiplicativeOf : Token → Option BinaryOperator := symbolOf [.multiply, .divide, .remainder]

def additiveOf : Token → Option BinaryOperator := symbolOf [.add, .subtract]

def relationalOf : Token → Option BinaryOperator :=
  symbolOf [.less, .lessEqual, .greater, .greaterEqual]

def equalityOf : Token → Option BinaryOperator := symbolOf [.equal, .unequal]

def conjunctionOf (token : Token) : Option BinaryOperator :=
  if token.isOperator "&&" || token.isKeyword "and" then some .and else none

def disjunctionOf (token : Token) : Option BinaryOperator :=
  if token.isOperator "||" || token.isKeyword "or" then some .or else none

def nextOperator? (operatorOf : Token → Option BinaryOperator) : Parser (Option BinaryOperator) :=
  fun tokens => .ok (tokens.head?.bind operatorOf, tokens)

def chain (operand : Parser Node) (operatorOf : Token → Option BinaryOperator) :
    Nat → Node → Parser Node
  | 0, _ => exhausted
  | bound + 1, left => do
    match ← nextOperator? operatorOf with
    | some operator =>
      let _ ← advance
      let right ← operand
      chain operand operatorOf bound (.binary left.span operator left right)
    | none => return left

def level (operatorOf : Token → Option BinaryOperator) (operand : Parser Node) : Parser Node := do
  let left ← operand
  chain operand operatorOf (← rounds) left

def multiplicative (inner : Inner) : Parser Node := level multiplicativeOf (unary inner)

def additive (inner : Inner) : Parser Node := level additiveOf (multiplicative inner)

def relational (inner : Inner) : Parser Node := level relationalOf (additive inner)

def equality (inner : Inner) : Parser Node := level equalityOf (relational inner)

def conjunction (inner : Inner) : Parser Node := level conjunctionOf (equality inner)

def disjunction (inner : Inner) : Parser Node := level disjunctionOf (conjunction inner)

def isTarget : Node → Bool
  | .identifier .. | .index .. => true
  | _ => false

def assignment (inner : Inner) : Parser Node := do
  let target ← disjunction inner
  if ← next (Token.isOperator "=") then
    let equals ← advance
    if isTarget target then
      let value ← inner.expression
      return .assignment target.span target value
    else failAt .assignmentTarget equals
  else return target

def declaration (inner : Inner) : Parser Node := do
  let keyword ← advance
  let name ← expectIdentifier (.variableName keyword.value)
  let type ← ascription
  let _ ← expectSymbol "=" (.equals name)
  let value ← inner.expression
  return .declaration keyword.span name value (keyword.value = "final") type

def definition (inner : Inner) : Parser Node := do
  let keyword ← advance
  let name ← expectIdentifier .functionName
  let params ← parameters
  let body ← block inner
  return .definition keyword.span name params body

def elseBranch (inner : Inner) : Parser (Option Node) := do
  if ← nextKeyword "else" then
    let _ ← advance
    if ← nextKeyword "if" then
      let branch ← inner.statement
      return some branch
    else
      let branch ← block inner
      return some branch
  else return none

def conditional (inner : Inner) : Parser Node := do
  let keyword ← advance
  let condition ← inner.expression
  let thenBranch ← block inner
  let otherwise ← elseBranch inner
  return .conditional keyword.span condition thenBranch otherwise

def whileLoop (inner : Inner) : Parser Node := do
  let keyword ← advance
  let condition ← inner.expression
  let body ← block inner
  return .whileLoop keyword.span condition body

def parenthesizedHeader : List Token → Bool
  | opening :: name :: word :: _ =>
    opening.isSymbol "(" && name.isIdentifier && word.isKeyword "in"
  | _ => false

def forLoop (inner : Inner) : Parser Node := do
  let keyword ← advance
  let parenthesized ← ahead parenthesizedHeader
  if parenthesized then
    let _ ← advance
  let iterator ← expectIdentifier .loopVariable
  let _ ← expect (Token.isKeyword "in") .loopIn
  let iterable ← inner.expression
  if parenthesized then
    let _ ← expectSymbol ")" .loopHeaderClose
  let body ← block inner
  return .forLoop keyword.span iterator iterable body

def returnStatement (inner : Inner) : Parser Node := do
  let keyword ← advance
  if (← nextSymbol "\x7d") || (← nextSymbol ";") || (← atEnd) then
    return .returnStatement keyword.span none
  else
    let value ← inner.expression
    return .returnStatement keyword.span (some value)

def expressionStatement (inner : Inner) : Parser Node := do
  let first := (← get).head?
  let value ← assignment inner
  return .expressionStatement (first.map (·.span)) value

def startsDefinition : List Token → Bool
  | word :: name :: _ => word.isKeyword "def" && name.isIdentifier
  | _ => false

def statement (inner : Inner) : Parser Node := do
  if (← nextKeyword "let") || (← nextKeyword "final") then declaration inner
  else if ← ahead startsDefinition then definition inner
  else if ← nextKeyword "if" then conditional inner
  else if ← nextKeyword "while" then whileLoop inner
  else if ← nextKeyword "for" then forLoop inner
  else if ← nextKeyword "return" then returnStatement inner
  else if (← nextSymbol "\x7b") && !(← ahead Token.looksLikeMap) then block inner
  else expressionStatement inner

def above (inner : Inner) : Inner := ⟨assignment inner, statement inner⟩

def descend : Nat → Inner
  | 0 => ⟨exhausted, exhausted⟩
  | depth + 1 => above (descend depth)

def programStatements (statement : Parser Node) : Nat → Parser (List Node)
  | 0 => exhausted
  | bound + 1 => do
    if ← atEnd then return []
    else
      let first ← statement
      skipSeparators
      let others ← programStatements statement bound
      return first :: others

def program : Parser (List Node) := do
  let bound ← rounds
  skipSeparators
  programStatements (descend bound).statement bound

def singleExpression : Parser Node := do
  let bound ← rounds
  let value ← (descend bound).expression
  if ← atEnd then return value else fail .endOfExpression

/-- The tokens before the first end of input, and that end; nothing if the last token is no end of
input. -/
def splitInput? (tokens : List Token) : Option (List Token × Token) :=
  if tokens.getLast?.map Token.kind = some .eof then
    (tokens.find? (·.kind = .eof)).map fun last => (tokens.takeWhile (·.kind ≠ .eof), last)
  else none

def run {α : Type} (parser : Parser α) (tokens : List Token) (last : Token) :
    Except ParseError α :=
  match parser tokens with
  | .ok (result, _) => .ok result
  | .error (.complaint complaint token) => .error (.rejected complaint (token.getD last))
  | .error .exhausted => .error .exhausted

end Parser

def parseProgram (tokens : List Token) : Except ParseError Node :=
  match Parser.splitInput? tokens with
  | none => .error .unended
  | some (body, last) =>
    (Parser.run Parser.program body last).map (.program (body.headD last).span)

def parseExpression (tokens : List Token) : Except ParseError Node :=
  match Parser.splitInput? tokens with
  | none => .error .unended
  | some (body, last) => Parser.run Parser.singleExpression body last

end Klang

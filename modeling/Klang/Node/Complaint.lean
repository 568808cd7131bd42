import Klang.Diagnostic
import Klang.Token

/-! Why tokens are no program. -/

namespace Klang

open Source

inductive Complaint where
  | endOfExpression
  | variableName (keyword : String)
  | typeName
  | equals (name : String)
  | parametersOpen
  | parameterName
  | duplicateParameter (name : String)
  | parametersClose
  | functionName
  | loopVariable
  | loopIn
  | loopHeaderClose
  | blockOpen
  | blockClose (opened : Span)
  | assignmentTarget
  | argumentsClose
  | indexClose
  | groupClose
  | expression
  | mapInExpression
  | listClose
  | mapKey
  | mapColon (key : String)
  | mapClose
  | lambdaBody
deriving DecidableEq

namespace Complaint

def text : Complaint → String
  | endOfExpression => "Expected end of expression"
  | variableName keyword => s!"Expected variable name after '{keyword}'"
  | typeName => "Expected type name after ':'"
  | equals name => s!"Expected '=' after '{name}'"
  | parametersOpen => "Expected '(' before parameters"
  | parameterName => "Expected parameter name"
  | duplicateParameter name => s!"Duplicate parameter '{name}'"
  | parametersClose => "Expected ')' after parameters"
  | functionName => "Expected function name"
  | loopVariable => "Expected loop variable after 'for'"
  | loopIn => "Expected 'in' after loop variable"
  | loopHeaderClose => "Expected ')' after loop header"
  | blockOpen => "Expected '\x7b'"
  | blockClose opened => s!"Expected '\x7d' to close block opened at {opened.describe}"
  | assignmentTarget => "Invalid assignment target"
  | argumentsClose => "Expected ')' after arguments"
  | indexClose => "Expected ']' after index"
  | groupClose => "Expected ')' after expression"
  | expression => "Expected expression"
  | mapInExpression =>
    "Expected map literal ('\x7b\x7d' or '\x7bkey: value\x7d') in expression position"
  | listClose => "Expected ',' or ']' in list literal"
  | mapKey => "Expected string or identifier as map key"
  | mapColon key => s!"Expected ':' after map key '{key}'"
  | mapClose => "Expected ',' or '\x7d' in map literal"
  | lambdaBody => "Expected '->' or '\x7b' after lambda parameters"

def expected : Complaint → List String
  | endOfExpression => ["end of input"]
  | variableName _ | typeName | parameterName | functionName | loopVariable => ["identifier"]
  | equals _ => ["'='"]
  | parametersOpen => ["'('"]
  | parametersClose | loopHeaderClose | argumentsClose | groupClose => ["')'"]
  | loopIn => ["'in'"]
  | blockOpen => ["'\x7b'"]
  | blockClose _ | mapClose => ["'\x7d'"]
  | indexClose | listClose => ["']'"]
  | mapKey => ["string", "identifier"]
  | mapColon _ => ["':'"]
  | lambdaBody => ["'->'", "'\x7b'"]
  | duplicateParameter _ | assignmentTarget | expression | mapInExpression => []

end Complaint

def Token.mention (token : Token) : String :=
  match token.kind with
  | .eof => "end of input"
  | .string => s!"string \"{token.value}\""
  | _ => s!"'{token.value}'"

inductive ParseError where
  | unended
  | rejected (complaint : Complaint) (token : Token)
  | exhausted
deriving DecidableEq

/-- The message of a parse error in a source; an empty source gives no context. -/
def ParseError.diagnostic (source : String) : ParseError → Diagnostic
  | unended => { category := .parse, message := "Token stream must end with EOF" }
  | rejected complaint token =>
    { category := .parse
      message := s!"{complaint.text}, got {token.mention}"
      span := some token.span
      context := if source = "" then "" else line source token.span.start.line
      expected := complaint.expected
      got := some token.mention }
  | exhausted => { category := .parse, message := "Parser step bound exceeded" }

end Klang

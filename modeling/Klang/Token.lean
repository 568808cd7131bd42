import Klang.Source.Span

/-! Tokens of the language. -/

namespace Klang

open Source

inductive TokenKind where
  | number
  | string
  | identifier
  | keyword
  | operator
  | delimiter
  | eof
  | other (name : String)
deriving DecidableEq, Inhabited

namespace TokenKind

def name : TokenKind → String
  | number => "NUMBER"
  | string => "STRING"
  | identifier => "IDENTIFIER"
  | keyword => "KEYWORD"
  | operator => "OPERATOR"
  | delimiter => "DELIMITER"
  | eof => "EOF"
  | other name => name

def ofName (name : String) : TokenKind :=
  ([number, string, identifier, keyword, operator, delimiter, eof].find? (·.name = name)).getD
    (other name)

end TokenKind

/-- The value of a string token is its text after escapes; of all others it is the lexeme. -/
structure Token where
  kind : TokenKind
  value : String
  span : Span
deriving DecidableEq, Inhabited

namespace Token

def describe (token : Token) : String := s!"{token.kind.name}({token.value})"

def keywords : List String :=
  ["and", "def", "else", "false", "final", "for", "forge", "if", "in", "let", "or", "return",
    "true", "while"]

def longOperators : List String := ["==", "!=", "<=", ">=", "&&", "||", "->"]

def shortOperators : List String := ["+", "-", "*", "/", "%", "!", "=", "<", ">"]

def delimiters : List String := ["(", ")", "\x7b", "\x7d", "[", "]", ",", ":", ";"]

end Token

end Klang

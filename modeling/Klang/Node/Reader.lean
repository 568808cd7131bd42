import Klang.Node.Parser
import Klang.Text.Utf8
import Klang.Token.Lexer

/-! From source texts and files to trees. -/

namespace Klang

structure Reading (α : Type) where
  trace : List String
  result : Except Diagnostic α

def tokenizeTrace (file : String) (count : Nat) : String := s!"[tokenize] {file}: {count} tokens"

def parseTrace (file : String) (count : Nat) : String :=
  s!"[parse] {file}: {count} top-level statements"

def readTokens (file source : String) : Reading (List Token) :=
  match Token.tokenize file source with
  | .ok tokens => ⟨[tokenizeTrace file tokens.length], .ok tokens⟩
  | .error e => ⟨[], .error e.diagnostic⟩

def readWith (parse : List Token → Except ParseError Node) (file source : String) : Reading Node :=
  match readTokens file source with
  | ⟨trace, .error d⟩ => ⟨trace, .error d⟩
  | ⟨trace, .ok tokens⟩ => ⟨trace, (parse tokens).mapError (·.diagnostic source)⟩

def readExpression (file source : String) : Reading Node := readWith parseExpression file source

def readProgram (file source : String) : Reading Node :=
  match readWith parseProgram file source with
  | ⟨trace, .ok program⟩ =>
    ⟨trace ++ [parseTrace file program.statements.length], .ok program⟩
  | reading => reading

inductive FileEntry where
  | missing
  | directory
  | file (bytes : ByteArray)

def programInFile (path : String) (entry : FileEntry) : Except Diagnostic Node :=
  match entry with
  | .missing => .error { category := .parse, message := s!"File not found: {path}" }
  | .directory => .error { category := .parse, message := s!"Is a directory: {path}" }
  | .file bytes =>
    match Text.ofBytes bytes with
    | .ok source => (readProgram path source).result
    | .error fault =>
      .error { category := .parse, message := s!"Cannot decode file {path}: {fault.message}" }

end Klang

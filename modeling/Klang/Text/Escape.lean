/-! Escapes in string literals. -/

namespace Klang.Text

def escapedChar (c : Char) : Char :=
  match c with
  | 'n' => '\n'
  | 't' => '\t'
  | 'r' => '\r'
  | '0' => '\x00'
  | c => c

/-- Resolves escapes from left to right; a backslash at the very end stands for itself. -/
def unescape : List Char → List Char
  | [] => []
  | '\\' :: c :: rest => escapedChar c :: unescape rest
  | c :: rest => c :: unescape rest

end Klang.Text

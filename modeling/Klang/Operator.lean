/-! Operators. Trees made by hand may hold symbols that the language does not have. -/

namespace Klang

inductive UnaryOperator where
  | negate
  | invert
  | other (symbol : String)
deriving DecidableEq, Inhabited

namespace UnaryOperator

def symbol : UnaryOperator → String
  | negate => "-"
  | invert => "!"
  | other symbol => symbol

def ofSymbol (symbol : String) : UnaryOperator :=
  ([negate, invert].find? (·.symbol = symbol)).getD (other symbol)

end UnaryOperator

inductive BinaryOperator where
  | or
  | and
  | equal
  | unequal
  | less
  | lessEqual
  | greater
  | greaterEqual
  | add
  | subtract
  | multiply
  | divide
  | remainder
  | other (symbol : String)
deriving DecidableEq, Inhabited

namespace BinaryOperator

def symbol : BinaryOperator → String
  | or => "||"
  | and => "&&"
  | equal => "=="
  | unequal => "!="
  | less => "<"
  | lessEqual => "<="
  | greater => ">"
  | greaterEqual => ">="
  | add => "+"
  | subtract => "-"
  | multiply => "*"
  | divide => "/"
  | remainder => "%"
  | other symbol => symbol

def known : List BinaryOperator :=
  [or, and, equal, unequal, less, lessEqual, greater, greaterEqual, add, subtract, multiply, divide,
    remainder]

def ofSymbol (symbol : String) : BinaryOperator :=
  (known.find? (·.symbol = symbol)).getD (other symbol)

end BinaryOperator

end Klang

import Klang.Diagnostic
import Klang.Number.Text
import Klang.Value

/-! Why evaluation fails. -/

namespace Klang

inductive Construct where
  | ifCondition
  | whileCondition
  | leftOperand (operator : BinaryOperator)
deriving DecidableEq

def Construct.name : Construct → String
  | ifCondition => "If"
  | whileCondition => "While"
  | leftOperand operator => s!"Left operand of '{operator.symbol}'"

inductive Fault where
  | unknownNode (tag : String)
  | zeroStep
  | strayReturn
  | undefined (name : String)
  | redeclared (name : String)
  | finalAssigned (name : String)
  | unknownType (ascription : String)
  | ascribed (ascription : String) (got : Tag)
  | condition (construct : Construct) (got : Tag)
  | notIterable (got : Tag)
  | operation (left : Tag) (operator : BinaryOperator) (right : Tag)
  | notIndexable (got : Tag)
  | immutableString
  | invalidTarget (tag : String)
  | notCallable (got : Tag)
  | arity (name : String) (expected got : Nat)
  | argument (function : String) (position : Nat) (accepted : List Tag) (got : Tag)
  | sumElement (got : Tag)
  | rangeArity (got : Nat)
  | functionAndList (name : String) (first second : Tag)
  | predicateResult (got : Tag)
  | concatenation (got : Tag)
  | negation (got : Tag)
  | inversion (got : Tag)
  | unknownUnary (operator : UnaryOperator)
  | mapKey (got : Tag)
  | indexKind (target got : Tag)
  | indexFraction (target : Tag) (index : Float)
  | indexBounds (target : Tag) (index : Float) (length : Nat)

namespace Fault

def category : Fault → Category
  | unknownNode _ | zeroStep | strayReturn => .runtime
  | undefined _ => .undefinedVariable
  | redeclared _ => .redeclaredVariable
  | finalAssigned _ => .constReassignment
  | mapKey _ | indexKind _ _ | indexFraction _ _ | indexBounds _ _ _ => .index
  | _ => .typeMismatch

def message : Fault → String
  | unknownNode tag => s!"Unknown AST node type: {tag}"
  | zeroStep => "range step must not be 0"
  | strayReturn => "'return' outside of a function"
  | undefined name => s!"Variable '{name}' is not defined"
  | redeclared name => s!"Variable '{name}' already declared in this scope"
  | finalAssigned name => s!"Cannot assign to final variable '{name}'"
  | unknownType ascription => s!"Unknown type annotation '{ascription}'"
  | ascribed ascription got => s!"Type mismatch: expected '{ascription}', got {got.name}"
  | condition construct got => s!"{construct.name} condition must be a Boolean, got {got.name}"
  | notIterable got => s!"For-loop expects a List, String or Map, got {got.name}"
  | operation left operator right =>
    s!"Unsupported operation: {left.name} {operator.symbol} {right.name}"
  | notIndexable got => s!"Cannot index into {got.name}"
  | immutableString => "Strings are immutable; cannot assign to a String index"
  | invalidTarget tag => s!"Invalid assignment target: {tag}"
  | notCallable got => s!"Cannot call a value of type {got.name}"
  | arity name expected got =>
    let noun := if expected = 1 then "argument" else "arguments"
    s!"{name} expects {expected} {noun}, got {got}"
  | argument function position accepted got =>
    let types := " or ".intercalate (accepted.map Tag.name)
    s!"{function} requires {types} for argument {position}, got {got.name}"
  | sumElement got => s!"sum requires a List of Numbers, found {got.name}"
  | rangeArity got => s!"range expects 1 to 3 arguments, got {got}"
  | functionAndList name first second =>
    s!"{name} requires a Function and a List, got {first.name} and {second.name}"
  | predicateResult got => s!"filter predicate must return a Boolean, got {got.name}"
  | concatenation got => s!"Cannot concatenate {got.name} to String"
  | negation got => s!"Unary '-' expects a Number, got {got.name}"
  | inversion got => s!"Unary '!' expects a Boolean, got {got.name}"
  | unknownUnary operator => s!"Unsupported unary operator: {operator.symbol}"
  | mapKey got => s!"Map key must be String, Number or Boolean, got {got.name}"
  | indexKind target got => s!"{target.name} index must be a Number, got {got.name}"
  | indexFraction target index =>
    s!"{target.name} index must be an integer, got {Number.display index}"
  | indexBounds target index length =>
    s!"{target.name} index out of bounds: {Number.display index} (length {length})"

def name? : Fault → Option String
  | undefined name | redeclared name | finalAssigned name => some name
  | _ => none

def diagnostic (fault : Fault) (span : Option Source.Span) : Diagnostic where
  category := fault.category
  message := fault.message
  span := span
  name := fault.name?

end Fault

end Klang

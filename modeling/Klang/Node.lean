import Klang.Operator
import Klang.Source.Span

/-! Syntax trees. Every node may carry the span of the token it began with. -/

namespace Klang

open Source

structure Parameter where
  name : String
  ascription : Option String := none
deriving DecidableEq, Inhabited

inductive Node where
  | unknown (span : Option Span)
  | number (span : Option Span) (value : Float)
  | string (span : Option Span) (value : String)
  | boolean (span : Option Span) (value : Bool)
  | list (span : Option Span) (elements : List Node)
  | map (span : Option Span) (entries : List (String × Node))
  | identifier (span : Option Span) (name : String)
  | unary (span : Option Span) (operator : UnaryOperator) (operand : Node)
  | binary (span : Option Span) (operator : BinaryOperator) (left right : Node)
  | index (span : Option Span) (target key : Node)
  | assignment (span : Option Span) (target value : Node)
  | call (span : Option Span) (callee : Node) (arguments : List Node)
  | function (span : Option Span) (parameters : List Parameter) (body : Node)
  | block (span : Option Span) (statements : List Node)
  | expressionStatement (span : Option Span) (expression : Node)
  | declaration (span : Option Span) (name : String) (value : Node) (isFinal : Bool)
      (ascription : Option String)
  | definition (span : Option Span) (name : String) (parameters : List Parameter) (body : Node)
  | conditional (span : Option Span) (condition thenBranch : Node) (elseBranch : Option Node)
  | whileLoop (span : Option Span) (condition body : Node)
  | forLoop (span : Option Span) (iterator : String) (iterable body : Node)
  | returnStatement (span : Option Span) (value : Option Node)
  | program (span : Option Span) (statements : List Node)
deriving Inhabited

namespace Node

def span : Node → Option Span
  | unknown span | number span _ | string span _ | boolean span _ | list span _ | map span _
  | identifier span _ | unary span _ _ | binary span _ _ _ | index span _ _ | assignment span _ _
  | call span _ _ | function span _ _ | block span _ | expressionStatement span _
  | declaration span _ _ _ _
  | definition span _ _ _ | conditional span _ _ _ | whileLoop span _ _ | forLoop span _ _ _
  | returnStatement span _ | program span _ => span

def children : Node → List Node
  | unknown _ | number _ _ | string _ _ | boolean _ _ | identifier _ _ => []
  | list _ elements => elements
  | map _ entries => entries.map Prod.snd
  | unary _ _ operand => [operand]
  | binary _ _ left right => [left, right]
  | index _ target key => [target, key]
  | assignment _ target value => [target, value]
  | call _ callee arguments => callee :: arguments
  | function _ _ body | definition _ _ _ body => [body]
  | block _ statements | program _ statements => statements
  | expressionStatement _ expression => [expression]
  | declaration _ _ value _ _ => [value]
  | conditional _ condition thenBranch elseBranch => condition :: thenBranch :: elseBranch.toList
  | whileLoop _ condition body => [condition, body]
  | forLoop _ _ iterable body => [iterable, body]
  | returnStatement _ value => value.toList

theorem sizeOf_lt_of_mem_children {node child : Node} (h : child ∈ node.children) :
    sizeOf child < sizeOf node := by
  cases node <;> simp [children] at h
  case list elements | block elements | program elements =>
    have := List.sizeOf_lt_of_mem h
    simp; omega
  case map entries =>
    obtain ⟨key, h⟩ := h
    have := List.sizeOf_lt_of_mem h
    simp at this ⊢; omega
  case call callee arguments =>
    rcases h with rfl | h
    · simp; omega
    · have := List.sizeOf_lt_of_mem h
      simp; omega
  case conditional condition thenBranch elseBranch =>
    rcases h with rfl | rfl | h
    · simp; omega
    · simp; omega
    · subst h; simp; omega
  case returnStatement value => subst h; simp; omega
  case unary | function | definition | expressionStatement | declaration =>
    subst h
    simp only [unary.sizeOf_spec, function.sizeOf_spec, definition.sizeOf_spec,
      expressionStatement.sizeOf_spec, declaration.sizeOf_spec]
    omega
  case binary | index | assignment | whileLoop | forLoop =>
    rcases h with rfl | rfl <;>
      simp only [binary.sizeOf_spec, index.sizeOf_spec, assignment.sizeOf_spec,
        whileLoop.sizeOf_spec, forLoop.sizeOf_spec] <;> omega

inductive Label where
  | unknown
  | number (value : Float)
  | string (value : String)
  | boolean (value : Bool)
  | list
  | map (keys : List String)
  | identifier (name : String)
  | unary (operator : UnaryOperator)
  | binary (operator : BinaryOperator)
  | index
  | assignment
  | call
  | function (parameters : List Parameter)
  | block
  | expressionStatement
  | declaration (name : String) (isFinal : Bool) (ascription : Option String)
  | definition (name : String) (parameters : List Parameter)
  | conditional
  | whileLoop
  | forLoop (iterator : String)
  | returnStatement
  | program
deriving BEq, Inhabited

def label : Node → Label
  | unknown _ => .unknown
  | number _ value => .number value
  | string _ value => .string value
  | boolean _ value => .boolean value
  | list _ _ => .list
  | map _ entries => .map (entries.map Prod.fst)
  | identifier _ name => .identifier name
  | unary _ operator _ => .unary operator
  | binary _ operator _ _ => .binary operator
  | index _ _ _ => .index
  | assignment _ _ _ => .assignment
  | call _ _ _ => .call
  | function _ parameters _ => .function parameters
  | block _ _ => .block
  | expressionStatement _ _ => .expressionStatement
  | declaration _ name _ isFinal ascription => .declaration name isFinal ascription
  | definition _ name parameters _ => .definition name parameters
  | conditional _ _ _ _ => .conditional
  | whileLoop _ _ _ => .whileLoop
  | forLoop _ iterator _ _ => .forLoop iterator
  | returnStatement _ _ => .returnStatement
  | program _ _ => .program

def Label.tag : Label → String
  | unknown => "NODE"
  | number _ => "NUMBER"
  | string _ => "STRING"
  | boolean _ => "BOOLEAN"
  | list => "LIST"
  | map _ => "MAP"
  | identifier _ => "IDENTIFIER"
  | unary _ => "UNARY"
  | binary _ => "BINARY"
  | index => "INDEX"
  | assignment => "ASSIGNMENT"
  | call => "CALL"
  | function _ => "FUNCTION_EXPR"
  | block => "BLOCK"
  | expressionStatement => "EXPRESSION_STATEMENT"
  | declaration _ _ _ => "VAR_DECLARATION"
  | definition _ _ => "FUNCTION_DECLARATION"
  | conditional => "IF"
  | whileLoop => "WHILE"
  | forLoop _ => "FOR"
  | returnStatement => "RETURN"
  | program => "PROGRAM"

def tag (node : Node) : String := node.label.tag

def statements : Node → List Node
  | block _ statements | program _ statements => statements
  | _ => []

def sameShape (a b : Node) : Bool :=
  a.label == b.label && a.children.length == b.children.length &&
    (a.children.attach.zip b.children).all fun (⟨child, _⟩, other) => sameShape child other
termination_by a
decreasing_by exact sizeOf_lt_of_mem_children ‹_›

def walk (depth : Int) (node : Node) : List (Int × Node) :=
  (depth, node) :: node.children.attach.flatMap fun ⟨child, _⟩ => walk (depth + 1) child
termination_by node
decreasing_by exact sizeOf_lt_of_mem_children ‹_›

def preorder (node : Node) : List Node := (node.walk 0).map Prod.snd

def findTag (node : Node) (tag : String) : List Node := node.preorder.filter (·.tag = tag)

end Node

end Klang

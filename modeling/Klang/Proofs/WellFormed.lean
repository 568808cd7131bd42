import Klang.Node.Parser
import Mathlib.Tactic.Lemma

/-! The trees of the language. Every part of such a tree is of the kind that its place asks for,
assignments go to variables and indexed places, operators and numbers are those that can be written,
and no parameter occurs twice. -/

namespace Klang

namespace Node

def IsTarget : Node → Prop
  | identifier .. | index .. => True
  | _ => False

end Node

def UnaryOperator.IsKnown (operator : UnaryOperator) : Prop := operator = .negate ∨ operator = .invert

def BinaryOperator.IsKnown (operator : BinaryOperator) : Prop := operator ∈ BinaryOperator.known

def DistinctNames (parameters : List Parameter) : Prop := (parameters.map Parameter.name).Nodup

def Number.IsWritable (x : Float) : Prop := ∃ numeral, Number.ofNumeral? numeral = some x

mutual

inductive Node.IsExpression : Node → Prop
  | number {span value} : Number.IsWritable value → IsExpression (.number span value)
  | string {span value} : IsExpression (.string span value)
  | boolean {span value} : IsExpression (.boolean span value)
  | identifier {span name} : IsExpression (.identifier span name)
  | list {span elements} : (∀ e ∈ elements, IsExpression e) → IsExpression (.list span elements)
  | map {span entries} : (∀ e ∈ entries, IsExpression e.2) → IsExpression (.map span entries)
  | unary {span operator operand} : operator.IsKnown → IsExpression operand →
      IsExpression (.unary span operator operand)
  | binary {span operator left right} : operator.IsKnown → IsExpression left →
      IsExpression right → IsExpression (.binary span operator left right)
  | index {span target key} : IsExpression target → IsExpression key →
      IsExpression (.index span target key)
  | assignment {span target value} : target.IsTarget → IsExpression target → IsExpression value →
      IsExpression (.assignment span target value)
  | call {span callee arguments} : IsExpression callee → (∀ e ∈ arguments, IsExpression e) →
      IsExpression (.call span callee arguments)
  | function {span parameters body} : DistinctNames parameters → IsBlock body →
      IsExpression (.function span parameters body)

inductive Node.IsBlock : Node → Prop
  | block {span statements} : (∀ n ∈ statements, IsStatement n) → IsBlock (.block span statements)

inductive Node.IsStatement : Node → Prop
  | expression {span expression} : IsExpression expression →
      IsStatement (.expressionStatement span expression)
  | declaration {span name value isFinal ascription} : IsExpression value →
      IsStatement (.declaration span name value isFinal ascription)
  | definition {span name parameters body} : DistinctNames parameters → IsBlock body →
      IsStatement (.definition span name parameters body)
  | conditional {node} : IsConditional node → IsStatement node
  | whileLoop {span condition body} : IsExpression condition → IsBlock body →
      IsStatement (.whileLoop span condition body)
  | forLoop {span iterator iterable body} : IsExpression iterable → IsBlock body →
      IsStatement (.forLoop span iterator iterable body)
  | returnNothing {span} : IsStatement (.returnStatement span none)
  | returnValue {span value} : IsExpression value → IsStatement (.returnStatement span (some value))
  | block {node} : IsBlock node → IsStatement node

inductive Node.IsConditional : Node → Prop
  | ifOnly {span condition thenBranch} : IsExpression condition → IsBlock thenBranch →
      IsConditional (.conditional span condition thenBranch none)
  | ifElse {span condition thenBranch elseBranch} : IsExpression condition → IsBlock thenBranch →
      IsBlock elseBranch → IsConditional (.conditional span condition thenBranch (some elseBranch))
  | ifElseIf {span condition thenBranch elseBranch} : IsExpression condition →
      IsBlock thenBranch → IsConditional elseBranch →
      IsConditional (.conditional span condition thenBranch (some elseBranch))

end

inductive Node.IsProgram : Node → Prop
  | program {span statements} : (∀ n ∈ statements, IsStatement n) →
      IsProgram (.program span statements)

end Klang

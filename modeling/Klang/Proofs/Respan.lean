import Klang.Node
import Mathlib.Tactic.Lemma

/-! Trees with all their spans replaced by one. Two trees that become equal this way differ in
nothing but their places. -/

namespace Klang

open Source

namespace Node

mutual

def respan (span : Option Span) : Node → Node
  | unknown _ => unknown span
  | number _ value => number span value
  | string _ value => string span value
  | boolean _ value => boolean span value
  | list _ elements => list span (respanEach span elements)
  | map _ entries => map span (respanEntries span entries)
  | identifier _ name => identifier span name
  | unary _ operator operand => unary span operator (operand.respan span)
  | binary _ operator left right => binary span operator (left.respan span) (right.respan span)
  | index _ target key => index span (target.respan span) (key.respan span)
  | assignment _ target value => assignment span (target.respan span) (value.respan span)
  | call _ callee arguments => call span (callee.respan span) (respanEach span arguments)
  | function _ parameters body => function span parameters (body.respan span)
  | block _ statements => block span (respanEach span statements)
  | expressionStatement _ expression => expressionStatement span (expression.respan span)
  | declaration _ name value isFinal ascription =>
    declaration span name (value.respan span) isFinal ascription
  | definition _ name parameters body => definition span name parameters (body.respan span)
  | conditional _ condition thenBranch elseBranch =>
    conditional span (condition.respan span) (thenBranch.respan span)
      (respanOption span elseBranch)
  | whileLoop _ condition body => whileLoop span (condition.respan span) (body.respan span)
  | forLoop _ iterator iterable body =>
    forLoop span iterator (iterable.respan span) (body.respan span)
  | returnStatement _ value => returnStatement span (respanOption span value)
  | program _ statements => program span (respanEach span statements)

def respanEach (span : Option Span) : List Node → List Node
  | [] => []
  | node :: nodes => node.respan span :: respanEach span nodes

def respanEntry (span : Option Span) : String × Node → String × Node
  | (key, value) => (key, value.respan span)

def respanEntries (span : Option Span) : List (String × Node) → List (String × Node)
  | [] => []
  | entry :: entries => respanEntry span entry :: respanEntries span entries

def respanOption (span : Option Span) : Option Node → Option Node
  | none => none
  | some node => some (node.respan span)

end

variable (span : Option Span)

@[simp] lemma respanEach_eq_map (nodes : List Node) :
    respanEach span nodes = nodes.map (respan span) := by
  induction nodes with
  | nil => rfl
  | cons node nodes ih => simp [respanEach, ih]

@[simp] lemma respanEntries_eq_map (entries : List (String × Node)) :
    respanEntries span entries = entries.map fun e => (e.1, e.2.respan span) := by
  induction entries with
  | nil => rfl
  | cons entry entries ih =>
    obtain ⟨key, value⟩ := entry
    simp [respanEntries, respanEntry, ih]

@[simp] lemma respanOption_eq_map (node : Option Node) :
    respanOption span node = node.map (respan span) := by
  cases node <;> rfl

mutual

lemma respan_respan (span span' : Option Span) :
    ∀ node : Node, (node.respan span).respan span' = node.respan span'
  | unknown _ | number _ _ | string _ _ | boolean _ _ | identifier _ _ => rfl
  | list _ elements => by
    simp only [respan, respanEach_respanEach span span' elements]
  | map _ entries => by
    simp only [respan, respanEntries_respanEntries span span' entries]
  | unary _ _ part | function _ _ part | expressionStatement _ part | declaration _ _ part _ _
  | definition _ _ _ part => by
    simp only [respan, respan_respan span span' part]
  | binary _ _ first second | index _ first second | assignment _ first second
  | whileLoop _ first second | forLoop _ _ first second => by
    simp only [respan, respan_respan span span' first, respan_respan span span' second]
  | call _ callee arguments => by
    simp only [respan, respan_respan span span' callee, respanEach_respanEach span span' arguments]
  | conditional _ condition thenBranch elseBranch => by
    simp only [respan, respan_respan span span' condition, respan_respan span span' thenBranch,
      respanOption_respanOption span span' elseBranch]
  | returnStatement _ value => by
    simp only [respan, respanOption_respanOption span span' value]
  | block _ nodes | program _ nodes => by
    simp only [respan, respanEach_respanEach span span' nodes]

lemma respanEach_respanEach (span span' : Option Span) :
    ∀ nodes : List Node, respanEach span' (respanEach span nodes) = respanEach span' nodes
  | [] => rfl
  | node :: nodes => by
    simp only [respanEach, respan_respan span span' node, respanEach_respanEach span span' nodes]

lemma respanEntry_respanEntry (span span' : Option Span) :
    ∀ entry : String × Node, respanEntry span' (respanEntry span entry) = respanEntry span' entry
  | (key, value) => by
    simp only [respanEntry, respan_respan span span' value]

lemma respanEntries_respanEntries (span span' : Option Span) :
    ∀ entries : List (String × Node),
      respanEntries span' (respanEntries span entries) = respanEntries span' entries
  | [] => rfl
  | entry :: entries => by
    simp only [respanEntries, respanEntry_respanEntry span span' entry,
      respanEntries_respanEntries span span' entries]

lemma respanOption_respanOption (span span' : Option Span) :
    ∀ node : Option Node, respanOption span' (respanOption span node) = respanOption span' node
  | none => rfl
  | some node => by
    simp only [respanOption, respan_respan span span' node]

end

@[simp] lemma span_respan (node : Node) : (node.respan span).span = span := by
  cases node <;> rfl

lemma statements_respan (node : Node) :
    (node.respan span).statements = node.statements.map (respan span) := by
  cases node with
  | block _ statements | program _ statements => exact respanEach_eq_map span statements
  | _ => rfl

/-- The same tree at another place. -/
def Alike (n m : Node) : Prop := n.respan none = m.respan none

abbrev EachAlike (ns ms : List Node) : Prop := ns.map (respan none) = ms.map (respan none)

lemma alike_respan (n : Node) : n.Alike (n.respan none) := (respan_respan none none n).symm

lemma eachAlike_respanEach (ns : List Node) : EachAlike ns (respanEach none ns) := by
  rw [EachAlike, ← respanEach_eq_map, ← respanEach_eq_map, respanEach_respanEach]

lemma Alike.statements {n m : Node} (h : n.Alike m) : EachAlike n.statements m.statements := by
  rw [EachAlike, ← statements_respan, h, statements_respan]

end Node

end Klang

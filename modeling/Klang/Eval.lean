import Klang.Eval.Builtin

/-! The evaluator. One step of it evaluates a node or performs a call, given the evaluator for what
lies inside; the whole is the step repeated as often as a bound allows. -/

namespace Klang

open Source

structure Evaluator where
  node : Context → FrameId → Node → Eval Value
  call : Caller

namespace Evaluator

open Eval

variable (inner : Evaluator) (bound : Nat) (context : Context)

def statements (frame : FrameId) : List Node → Value → Eval Value
  | [], last => return last
  | statement :: rest, _ => do
    let value ← inner.node context frame statement
    statements frame rest value

def expectBoolean (construct : Construct) : Value → Eval Bool
  | .boolean value => return value
  | other => raise (.condition construct other.tag)

def whileRounds (frame : FrameId) (condition body : Node) : Nat → Value → Eval Value
  | 0, _ => throw .exhausted
  | rounds + 1, last => do
    let verdict ← inner.node context frame condition
    if ← expectBoolean .whileCondition verdict then
      let round ← child frame
      let value ← inner.node context round body
      whileRounds frame condition body rounds value
    else return last

def forRounds (frame : FrameId) (iterator : String) (body : Node) :
    List Value → Value → Eval Value
  | [], last => return last
  | item :: rest, _ => do
    let round ← child frame
    let _ ← declare round iterator item false none
    let value ← inner.node context round body
    forRounds frame iterator body rest value

/-- Entries in order; a repeated key keeps its first place and takes its last value. -/
def mapEntries (frame : FrameId) : List (String × Node) → Table Value → Eval (Table Value)
  | [], found => return found
  | (key, node) :: rest, found => do
    let value ← inner.node context frame node
    mapEntries frame rest (found.insert key value)

def shortCircuit (frame : FrameId) (operator : BinaryOperator) (left : Value) (right : Node) :
    Eval Value := do
  let decided ← expectBoolean (.leftOperand operator) left
  if decided = (operator = .or : Bool) then return .boolean decided
  else
    let second ← inner.node context frame right
    match second with
    | .boolean _ => return second
    | _ => raise (.operation .boolean operator second.tag)

def isLogical (operator : BinaryOperator) : Bool := operator = .and || operator = .or

def binary (frame : FrameId) (operator : BinaryOperator) (left right : Node) : Eval Value := do
  let first ← inner.node context frame left
  if context.policies.shortCircuit && isLogical operator then
    shortCircuit inner context frame operator first right
  else
    let second ← inner.node context frame right
    operator.apply first second

def assignment (frame : FrameId) (target value : Node) : Eval Value := do
  match target with
  | .identifier _ name =>
    let value ← inner.node context frame value
    assign frame name value
  | .index _ container key =>
    let container ← inner.node context frame container
    let key ← inner.node context frame key
    let value ← inner.node context frame value
    assignIndex container key value
  | other => raise (.invalidTarget other.tag)

def meaning (frame : FrameId) : Node → Eval Value
  | .unknown _ => raise (.unknownNode "NODE")
  | .number _ value => return .number value
  | .string _ value => return .string value
  | .boolean _ value => return .boolean value
  | .list _ elements => do
    let values ← elements.mapM (inner.node context frame)
    newList values.toArray
  | .map _ entries => do newMap (← mapEntries inner context frame entries .empty)
  | .identifier _ name => lookup frame name
  | .unary _ operator operand => do
    let value ← inner.node context frame operand
    ofExcept (operator.apply value)
  | .binary _ operator left right => binary inner context frame operator left right
  | .index _ target key => do
    let target ← inner.node context frame target
    let key ← inner.node context frame key
    indexValue target key
  | .assignment _ target value => assignment inner context frame target value
  | .call _ callee arguments => do
    let callee ← inner.node context frame callee
    let values ← arguments.mapM (inner.node context frame)
    inner.call context callee values (some frame)
  | .function _ parameters body => return .function ⟨"", parameters, body, frame⟩
  | .block _ nodes => do statements inner context (← child frame) nodes .null
  | .expressionStatement _ expression => inner.node context frame expression
  | .declaration _ name value isFinal ascription => do
    let value ← inner.node context frame value
    declare frame name value isFinal ascription
  | .definition _ name parameters body =>
    declare frame name (.function ⟨name, parameters, body, frame⟩) true none
  | .conditional _ condition thenBranch elseBranch => do
    let verdict ← inner.node context frame condition
    if ← expectBoolean .ifCondition verdict then
      inner.node context (← child frame) thenBranch
    else match elseBranch with
      | some branch => do inner.node context (← child frame) branch
      | none => return .null
  | .whileLoop _ condition body => whileRounds inner context frame condition body bound .null
  | .forLoop _ iterator iterable body => do
    let values ← iterationItems (← inner.node context frame iterable)
    forRounds inner context frame iterator body values .null
  | .returnStatement _ none => throw (.returning .null)
  | .returnStatement _ (some value) => do throw (.returning (← inner.node context frame value))
  | .program _ nodes => statements inner context frame nodes .null

def spanText : Option Span → String
  | some span => span.describe
  | none => "None"

def visit (frame : FrameId) (node : Node) : Eval Value := do
  if context.policies.debug then log s!"[eval] {node.tag} @ {spanText node.span}"
  located node.span (meaning inner bound context frame node)

def bindParameters (frame : FrameId) : List Parameter → List Value → Eval Unit
  | parameter :: parameters, value :: values => do
    let _ ← declare frame parameter.name value false parameter.ascription
    bindParameters frame parameters values
  | _, _ => return ()

/-- The value of a call: what its body returns, or else what the policy makes of its last value. -/
def callResult (policies : Policies) (body : Eval Value) : Eval Value := fun store =>
  match body store with
  | .error (.returning value) store => .ok value store
  | .ok value store => .ok (if policies.implicitReturn then value else .null) store
  | result => result

def callClosure (closure : Closure) (arguments : List Value) : Eval Value := do
  let name := if closure.name = "" then "<anonymous function>" else closure.name
  raiseIf (arityFault? name arguments closure.parameters.length)
  let frame ← child closure.frame
  bindParameters frame closure.parameters arguments
  if context.policies.debug then log s!"[call] {name}({arguments.length} args)"
  match context.callsLeft with
  | 0 => throw .tooDeep
  | callsLeft + 1 =>
    callResult context.policies
      (statements inner { context with callsLeft } frame closure.body.statements .null)

def perform (function : Value) (arguments : List Value) (caller : Option FrameId) : Eval Value :=
  match function with
  | .builtin builtin => builtin.invoke inner.call bound context arguments caller
  | .function closure => callClosure inner context closure arguments
  | _ => raise (.notCallable function.tag)

end Evaluator

mutual

/-- Evaluates a node in at most `bound` steps inside each other. -/
def evaluateWithin : Nat → Context → FrameId → Node → Eval Value
  | 0, _, _, _ => throw .exhausted
  | bound + 1, context, frame, node =>
    Evaluator.visit ⟨evaluateWithin bound, callWithin bound⟩ bound context frame node

def callWithin : Nat → Context → Value → List Value → Option FrameId → Eval Value
  | 0, _, _, _, _ => throw .exhausted
  | bound + 1, context, function, arguments, caller =>
    Evaluator.perform ⟨evaluateWithin bound, callWithin bound⟩ bound context function arguments
      caller

end

/-- More steps than any run takes. -/
def stepBound : Nat := Nat.pow 10 18

def Context.ofPolicies (policies : Policies) : Context := ⟨policies, policies.callLimit⟩

def evaluate (policies : Policies) (frame : FrameId) (node : Node) : Eval Value :=
  evaluateWithin stepBound (.ofPolicies policies) frame node

def callValue (policies : Policies) (function : Value) (arguments : List Value) : Eval Value :=
  callWithin stepBound (.ofPolicies policies) function arguments none

/-- Runs a program in a frame. A `return` outside of all functions ends it, or is an error. -/
def runProgram (policies : Policies) (frame : FrameId) (program : Node) : Eval Value := fun store =>
  match evaluate policies frame program store with
  | .error (.returning value) store =>
    if policies.topLevelReturn then .ok value store else .error (.fault .strayReturn none) store
  | result => result

end Klang

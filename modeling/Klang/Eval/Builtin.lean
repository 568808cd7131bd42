import Klang.Eval.Operation
import Klang.Text.LowerCase

/-! The functions that every program finds in its outermost scope. -/

namespace Klang

/-- What an evaluation runs under: its policies, and how many calls may still be opened inside each
other. -/
structure Context where
  policies : Policies
  callsLeft : Nat

abbrev Caller := Context → Value → List Value → Option FrameId → Eval Value

namespace HostFunction

def standard : List (String × HostFunction × String) := [
  ("print", print, "...any -> null"),
  ("len", length, "list | string | map -> number"),
  ("sum", sum, "list -> number"),
  ("list", list, "list | string | map -> list"),
  ("range", range, "number [, number [, number]] -> list"),
  ("map", map, "function, list -> list"),
  ("filter", filter, "function, list -> list"),
  ("str", text, "any -> string"),
  ("type", type, "any -> string")]

def standardNames : List String := standard.map Prod.fst

end HostFunction

def argumentFault? (name : String) (position : Nat) : List Value → List (List Tag) → Option Fault
  | argument :: arguments, accepted :: others =>
    if argument.tag ∈ accepted then argumentFault? name (position + 1) arguments others
    else some (.argument name position accepted argument.tag)
  | _, _ => none

def argumentsFault? (name : String) (arguments : List Value) (accepted : List (List Tag)) :
    Option Fault :=
  if arguments.length ≠ accepted.length then
    some (.arity name accepted.length arguments.length)
  else argumentFault? name 1 arguments accepted

def arityFault? (name : String) (arguments : List Value) (expected : Nat) : Option Fault :=
  if arguments.length = expected then none else some (.arity name expected arguments.length)

def Tag.lowerName : Tag → String
  | builtin => "builtin"
  | tag => Text.lower tag.name

namespace Builtin

open Eval

def collections : List Tag := [.list, .string, .map]

def printValues (arguments : List Value) : Eval Value := do
  let texts ← arguments.mapM display
  Eval.print (" ".intercalate texts ++ "\n")
  return .null

def textOf (arguments : List Value) : Eval Value := do
  raiseIf (arityFault? "str" arguments 1)
  return .string (← display (arguments.headD .null))

def typeOf (arguments : List Value) : Eval Value := do
  raiseIf (arityFault? "type" arguments 1)
  return .string (arguments.headD .null).tag.lowerName

def lengthOf (arguments : List Value) : Eval Value := do
  raiseIf (argumentsFault? "len" arguments [collections])
  match arguments.headD .null with
  | .list cell => return .number (Float.ofNat (← items cell).size)
  | .map cell => return .number (Float.ofNat (← entries cell).size)
  | .string text => return .number (Float.ofNat text.length)
  | _ => return .null

def addAll : List Value → Float → Except Fault Float
  | [], total => .ok total
  | .number x :: rest, total => addAll rest (total + x)
  | other :: _, _ => .error (.sumElement other.tag)

def sumOf (arguments : List Value) : Eval Value := do
  raiseIf (argumentsFault? "sum" arguments [[.list]])
  match arguments.headD .null with
  | .list cell => return .number (← ofExcept (addAll (← items cell).toList 0.0))
  | _ => return .null

def listOf (arguments : List Value) : Eval Value := do
  raiseIf (argumentsFault? "list" arguments [collections])
  match arguments.headD .null with
  | .list cell => newList (← items cell)
  | .string text => newList (characters text).toArray
  | .map cell => newList ((← entries cell).keys.map Value.string).toArray
  | _ => return .null

def numberOf : Value → Float
  | .number x => x
  | _ => 0.0

def before (stop step current : Float) : Bool :=
  if 0.0 < step then current < stop else stop < current

/-- The numbers from `current` on, a step apart, before `stop`; nothing if the bound on their number
is too small. -/
def progression (stop step : Float) : Nat → Float → Array Value → Option (Array Value)
  | 0, _, _ => none
  | bound + 1, current, found =>
    if before stop step current then
      progression stop step bound (current + step) (found.push (.number current))
    else some found

def rangeBounds : List Float → Float × Float × Float
  | [stop] => (0.0, stop, 1.0)
  | [start, stop] => (start, stop, 1.0)
  | [start, stop, step] => (start, stop, step)
  | _ => (0.0, 0.0, 1.0)

def rangeOf (bound : Nat) (arguments : List Value) : Eval Value := do
  if arguments.length < 1 ∨ 3 < arguments.length then raise (.rangeArity arguments.length)
  else
    raiseIf (argumentsFault? "range" arguments (arguments.map fun _ => [.number]))
    let (start, stop, step) := rangeBounds (arguments.map numberOf)
    if step == 0.0 then raise .zeroStep
    else match progression stop step bound start #[] with
      | some numbers => newList numbers
      | none => throw .exhausted

def functionAndList (name : String) (arguments : List Value) : Except Fault (Value × CellId) :=
  match arguments with
  | [first, second] =>
    match first, second with
    | .function _, .list cell | .builtin _, .list cell => .ok (first, cell)
    | .list cell, .function _ | .list cell, .builtin _ => .ok (second, cell)
    | _, _ =>
      if first.isCallable || second.isCallable then
        .error (.functionAndList name first.tag second.tag)
      else .error (.argument name 1 [.function] first.tag)
  | _ => .error (.arity name 2 arguments.length)

/-- Calls a function on the items of a list from a position on. The list is looked at again before each
call, and the rounds end where it does. -/
def mapItems (call : Value → Eval Value) (cell : CellId) :
    Nat → Nat → Array Value → Eval (Array Value)
  | 0, _, _ => throw .exhausted
  | rounds + 1, position, results => do
    match (← items cell)[position]? with
    | none => return results
    | some item => do
      let result ← call item
      mapItems call cell rounds (position + 1) (results.push result)

def filterItems (call : Value → Eval Value) (cell : CellId) :
    Nat → Nat → Array Value → Eval (Array Value)
  | 0, _, _ => throw .exhausted
  | rounds + 1, position, kept => do
    match (← items cell)[position]? with
    | none => return kept
    | some item => do
      match ← call item with
      | .boolean verdict =>
        filterItems call cell rounds (position + 1) (if verdict then kept.push item else kept)
      | other => raise (.predicateResult other.tag)

-- The bound on the rounds is never met: no call changes the length of a list (`Walk.loop_ends`).

def mapOver (call : Value → Value → Eval Value) (arguments : List Value) : Eval Value := do
  let (function, cell) ← ofExcept (functionAndList "map" arguments)
  newList (← mapItems (call function) cell ((← items cell).size + 1) 0 #[])

def filterOver (call : Value → Value → Eval Value) (arguments : List Value) : Eval Value := do
  let (function, cell) ← ofExcept (functionAndList "filter" arguments)
  newList (← filterItems (call function) cell ((← items cell).size + 1) 0 #[])

def scopeOf (caller : Option FrameId) : Eval Value := do
  match caller with
  | some frame => return .string ((← get).describeFrame frame)
  | none => return .null

/-- Runs a builtin. It calls back under its own policies and without a frame. -/
def invoke (call : Caller) (bound : Nat) (context : Context) (builtin : Builtin)
    (arguments : List Value) (caller : Option FrameId) : Eval Value :=
  let callBack (function argument : Value) : Eval Value :=
    call { context with policies := builtin.policies } function [argument] none
  match builtin.host with
  | .print => printValues arguments
  | .length => lengthOf arguments
  | .sum => sumOf arguments
  | .list => listOf arguments
  | .range => rangeOf bound arguments
  | .map => mapOver callBack arguments
  | .filter => filterOver callBack arguments
  | .text => textOf arguments
  | .type => typeOf arguments
  | .argumentCount => return .number (Float.ofNat arguments.length)
  | .callerScope => scopeOf caller
  | .firstArgument => return arguments.headD .null

end Builtin

end Klang

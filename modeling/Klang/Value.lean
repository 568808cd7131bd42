import Klang.Node

/-! Runtime values. Lists and maps live in a store and are held by reference. -/

namespace Klang

structure Policies where
  debug : Bool := false
  shortCircuit : Bool := false
  implicitReturn : Bool := true
  topLevelReturn : Bool := true
  callLimit : Nat := 500
deriving DecidableEq, Inhabited

/-- What a builtin computes. The last three are offered to hosts that install their own builtins. -/
inductive HostFunction where
  | print
  | length
  | sum
  | list
  | range
  | map
  | filter
  | text
  | type
  | argumentCount
  | callerScope
  | firstArgument
deriving DecidableEq, Inhabited

/-- A builtin calls back under the policies it was made with. -/
structure Builtin where
  name : String
  host : HostFunction
  policies : Policies
deriving DecidableEq, Inhabited

abbrev FrameId := Nat

abbrev CellId := Nat

/-- A function and the frame it was made in; an anonymous function has the empty name. -/
structure Closure where
  name : String
  parameters : List Parameter
  body : Node
  frame : FrameId
deriving Inhabited

inductive Value where
  | null
  | boolean (value : Bool)
  | number (value : Float)
  | string (value : String)
  | list (cell : CellId)
  | map (cell : CellId)
  | function (closure : Closure)
  | builtin (builtin : Builtin)
  | foreign (type : String)
deriving Inhabited

inductive Tag where
  | number
  | string
  | boolean
  | null
  | list
  | map
  | function
  | builtin
  | foreign (name : String)
deriving DecidableEq, Inhabited

namespace Tag

def name : Tag → String
  | number => "Number"
  | string => "String"
  | boolean => "Boolean"
  | null => "Null"
  | list => "List"
  | map => "Map"
  | function => "Function"
  | builtin => "BuiltinFunction"
  | foreign name => name

def ofName (name : String) : Tag :=
  ([number, string, boolean, null, list, map, function, builtin].find? (·.name = name)).getD
    (foreign name)

end Tag

namespace Value

def tag : Value → Tag
  | null => .null
  | boolean _ => .boolean
  | number _ => .number
  | string _ => .string
  | list _ => .list
  | map _ => .map
  | function _ => .function
  | builtin _ => .builtin
  | foreign type => .foreign type

def isCallable : Value → Bool
  | function _ | builtin _ => true
  | _ => false

end Value

end Klang

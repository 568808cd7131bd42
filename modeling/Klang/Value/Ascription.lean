import Klang.Fault
import Klang.Text.LowerCase

/-! Type names written behind variables and parameters. -/

namespace Klang

def typeAliases : List (String × Tag) := [
  ("int", .number), ("float", .number), ("number", .number), ("num", .number),
  ("string", .string), ("str", .string), ("bool", .boolean), ("boolean", .boolean),
  ("list", .list), ("array", .list), ("map", .map), ("dict", .map), ("object", .map)]

def resolveAscription (ascription : String) : Except Fault Tag :=
  match typeAliases.lookup (Text.lower ascription) with
  | some tag => .ok tag
  | none => .error (.unknownType ascription)

def ascriptionFault? (value : Value) (ascription : String) : Option Fault :=
  match resolveAscription ascription with
  | .error fault => some fault
  | .ok tag => if value.tag = tag then none else some (.ascribed ascription value.tag)

/-- An empty ascription asks for nothing. -/
def bindingFault? (value : Value) : Option String → Option Fault
  | none | some "" => none
  | some ascription => ascriptionFault? value ascription

end Klang

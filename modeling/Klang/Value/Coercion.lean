import Klang.Fault

/-! Values taken as text, as keys of maps and as indexes. -/

namespace Klang.Value

def concatText : Value → Except Fault String
  | string value => .ok value
  | number value => .ok (Number.display value)
  | boolean value => .ok (if value then "true" else "false")
  | value => .error (.concatenation value.tag)

def isTextual : Value → Bool
  | string _ | number _ | boolean _ => true
  | _ => false

def mapKey (index : Value) : Except Fault String :=
  if index.isTextual then index.concatText else .error (.mapKey index.tag)

def sequenceIndex (index : Value) (length : Nat) (target : Tag) : Except Fault Nat :=
  match index with
  | number x =>
    match Number.toInt? x with
    | none => .error (.indexFraction target x)
    | some n =>
      if n < 0 ∨ (length : Int) ≤ n then .error (.indexBounds target x length) else .ok n.toNat
  | _ => .error (.indexKind target index.tag)

end Klang.Value

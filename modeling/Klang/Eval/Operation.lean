import Klang.Eval.Basic
import Klang.Number.Remainder
import Klang.Value.Coercion

/-! What operators and indexing do to evaluated operands. -/

namespace Klang

namespace UnaryOperator

def apply (operator : UnaryOperator) (operand : Value) : Except Fault Value :=
  match operator, operand with
  | negate, .number x => .ok (.number (-x))
  | negate, _ => .error (.negation operand.tag)
  | invert, .boolean b => .ok (.boolean !b)
  | invert, _ => .error (.inversion operand.tag)
  | other symbol, _ => .error (.unknownUnary (other symbol))

end UnaryOperator

namespace BinaryOperator

def onNumbers? (operator : BinaryOperator) (x y : Float) : Option Value :=
  match operator with
  | add => some (.number (x + y))
  | subtract => some (.number (x - y))
  | multiply => some (.number (x * y))
  | divide => some (.number (x / y))
  | remainder => some (.number (Number.remainder x y))
  | equal => some (.boolean (x == y))
  | unequal => some (.boolean (x != y))
  | less => some (.boolean (x < y))
  | lessEqual => some (.boolean (x ≤ y))
  | greater => some (.boolean (y < x))
  | greaterEqual => some (.boolean (y ≤ x))
  | _ => none

def onStrings? (operator : BinaryOperator) (s t : String) : Option Value :=
  match operator with
  | equal => some (.boolean (s == t))
  | unequal => some (.boolean (s != t))
  | less => some (.boolean (s < t))
  | lessEqual => some (.boolean (¬ t < s))
  | greater => some (.boolean (t < s))
  | greaterEqual => some (.boolean (¬ s < t))
  | _ => none

def onBooleans? (operator : BinaryOperator) (a b : Bool) : Option Value :=
  match operator with
  | and => some (.boolean (a && b))
  | or => some (.boolean (a || b))
  | equal => some (.boolean (a == b))
  | unequal => some (.boolean (a != b))
  | _ => none

def onScalars? (operator : BinaryOperator) : Value → Value → Option Value
  | .number x, .number y => operator.onNumbers? x y
  | .string s, .string t => operator.onStrings? s t
  | .boolean a, .boolean b => operator.onBooleans? a b
  | _, _ => none

def isString : Value → Bool
  | .string _ => true
  | _ => false

def joinsText (left right : Value) : Bool :=
  (isString left || isString right) && left.isTextual && right.isTextual

def apply (operator : BinaryOperator) (left right : Value) : Eval Value := do
  match operator.onScalars? left right with
  | some result => return result
  | none =>
    match operator, left, right with
    | add, .list x, .list y => Eval.newList ((← Eval.items x) ++ (← Eval.items y))
    | add, .map x, .map y => Eval.newMap ((← Eval.entries x).merge (← Eval.entries y))
    | _, _, _ =>
      if operator = add ∧ joinsText left right then
        let first ← Eval.ofExcept left.concatText
        let second ← Eval.ofExcept right.concatText
        return .string (first ++ second)
      else Eval.raise (.operation left.tag operator right.tag)

end BinaryOperator

namespace Eval

def indexValue (target index : Value) : Eval Value := do
  match target with
  | .list cell =>
    let items ← items cell
    let place ← ofExcept (index.sequenceIndex items.size .list)
    return items[place]?.getD .null
  | .string text =>
    let chars := text.toList
    let place ← ofExcept (index.sequenceIndex chars.length .string)
    return .string (String.ofList (chars[place]?.toList))
  | .map cell =>
    let key ← ofExcept index.mapKey
    return ((← entries cell).find? key).getD .null
  | _ => raise (.notIndexable target.tag)

def assignIndex (target index value : Value) : Eval Value := do
  match target with
  | .list cell =>
    let place ← ofExcept (index.sequenceIndex (← items cell).size .list)
    modify (·.setItem cell place value)
    return value
  | .map cell =>
    let key ← ofExcept index.mapKey
    modify (·.setEntry cell key value)
    return value
  | .string _ => raise .immutableString
  | _ => raise (.notIndexable target.tag)

def characters (text : String) : List Value := text.toList.map fun c => .string (String.singleton c)

/-- The values that a loop visits, taken before its first round. -/
def iterationItems (iterable : Value) : Eval (List Value) := do
  match iterable with
  | .list cell => return (← items cell).toList
  | .string text => return characters text
  | .map cell => return (← entries cell).keys.map .string
  | _ => raise (.notIterable iterable.tag)

end Eval

end Klang

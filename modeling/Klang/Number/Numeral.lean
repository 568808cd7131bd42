import Klang.Text.Digit

/-! Numerals: digits of any script, with or without a fraction. -/

namespace Klang.Number

open Text

def digitsValue? (digits : List Char) : Option Nat :=
  digits.foldlM (fun n c => (digitValue? c).map (n * 10 + ·)) 0

/-- The double nearest to a numeral. Other spellings of numbers, such as `1e5`, ` 1`, `1_0` or `inf`,
are refused: the tokens of a source never hold them, only tokens made by hand can. -/
def ofNumeral? (text : List Char) : Option Float :=
  let whole := text.takeWhile isDigit
  match text.dropWhile isDigit with
  | [] => if whole.isEmpty then none else (digitsValue? whole).map fun n => Float.ofScientific n true 0
  | '.' :: fraction =>
    if whole.isEmpty ∨ fraction.isEmpty then none
    else (digitsValue? (whole ++ fraction)).map fun n => Float.ofScientific n true fraction.length
  | _ => none

end Klang.Number

import Klang.Number.Decimal
import Klang.Number.Parts

/-! The two ways in which numbers are written: for display, and in outlines of a program. -/

namespace Klang.Number

def zeros (count : Nat) : List Char := List.replicate count '0'

def exponentText (exponent : Int) : List Char :=
  let digits := exponent.natAbs.repr.toList
  'e' :: (if exponent < 0 then '-' else '+') :: (zeros (2 - digits.length) ++ digits)

/-- Writes a decimal with a point if its leading digit stands for a power of ten from -4 to 15, and
with an exponent otherwise. -/
def Decimal.text (d : Decimal) : List Char :=
  let digits := d.digits.repr.toList
  let point : Int := digits.length + d.power
  if -4 < point ∧ point ≤ 16 then
    if point ≤ 0 then '0' :: '.' :: (zeros (-point).toNat ++ digits)
    else if d.power ≥ 0 then digits ++ zeros d.power.toNat ++ ['.', '0']
    else digits.take point.toNat ++ '.' :: digits.drop point.toNat
  else
    let fraction := digits.drop 1
    digits.take 1 ++ (if fraction.isEmpty then [] else '.' :: fraction) ++ exponentText (point - 1)

def signed (negative : Bool) (text : List Char) : String :=
  String.ofList (if negative then '-' :: text else text)

def shortestText (negative : Bool) (mantissa : Nat) (exponent : Int) : String :=
  signed negative (if mantissa = 0 then ['0', '.', '0'] else (shortest mantissa exponent).text)

def literalText (x : Float) : String :=
  match parts x with
  | .nan => "nan"
  | .infinite negative => if negative then "-inf" else "inf"
  | .finite negative mantissa exponent => shortestText negative mantissa exponent

def plainLimit : Nat := Nat.pow 10 21

def display (x : Float) : String :=
  match parts x with
  | .nan => "NaN"
  | .infinite negative => if negative then "-Infinity" else "Infinity"
  | .finite negative mantissa exponent =>
    match toInt? x with
    | some n => if n.natAbs < plainLimit then toString n else shortestText negative mantissa exponent
    | none => shortestText negative mantissa exponent

end Klang.Number

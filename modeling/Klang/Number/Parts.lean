/-! Doubles taken apart: sign, integer mantissa and power of two. -/

namespace Klang.Number

inductive Parts where
  | nan
  | infinite (negative : Bool)
  | finite (negative : Bool) (mantissa : Nat) (exponent : Int)
deriving DecidableEq, Inhabited

def Parts.ofBits (bits : Nat) : Parts :=
  let negative := decide (Nat.pow 2 63 ≤ bits)
  let biased : Nat := bits / Nat.pow 2 52 % Nat.pow 2 11
  let fraction : Nat := bits % Nat.pow 2 52
  if biased = 2047 then if fraction = 0 then .infinite negative else .nan
  else if biased = 0 then .finite negative fraction (-1074)
  else .finite negative (Nat.pow 2 52 + fraction) ((biased : Int) - 1075)

def parts (x : Float) : Parts := Parts.ofBits x.toBits.toNat

def toInt? (x : Float) : Option Int :=
  match parts x with
  | .finite negative mantissa exponent =>
    let magnitude : Option Nat :=
      if 0 ≤ exponent then some (mantissa * Nat.pow 2 exponent.toNat)
      else
        let unit := Nat.pow 2 (-exponent).toNat
        if mantissa % unit = 0 then some (mantissa / unit) else none
    magnitude.map fun n => if negative then -(n : Int) else n
  | _ => none

def isIntegral (x : Float) : Bool := (toInt? x).isSome

/-- The double `mantissa · 2 ^ exponent`, for a mantissa below `2 ^ 53` and a value that a double
holds exactly. -/
def ofParts (negative : Bool) (mantissa : Nat) (exponent : Int) : Float :=
  let sign := if negative then Nat.pow 2 63 else 0
  let shift := min (52 - (mantissa.log2 : Int)) (exponent + 1074)
  let scaled :=
    if 0 ≤ shift then mantissa * Nat.pow 2 shift.toNat else mantissa / Nat.pow 2 (-shift).toNat
  let bits :=
    if mantissa = 0 then 0
    else if scaled < Nat.pow 2 52 then scaled
    else scaled - Nat.pow 2 52 + (exponent - shift + 1075).toNat * Nat.pow 2 52
  Float.ofBits (UInt64.ofNat (sign + bits))

end Klang.Number

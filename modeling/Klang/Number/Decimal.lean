/-! The shortest decimal that reads back as a given double. -/

namespace Klang.Number

structure Decimal where
  digits : Nat
  power : Int
deriving DecidableEq, Inhabited

def scaled (n base : Nat) (power : Int) : Nat × Nat :=
  if 0 ≤ power then (n * base.pow power.toNat, 1) else (n, base.pow (-power).toNat)

/-- Whether a decimal rounds to the double `mantissa · 2 ^ exponent`. The rounding interval reaches
half a unit to either side, a quarter below a power of two, and includes its ends when the mantissa
is even. Units are taken four to one, so that the ends are integers. -/
def Decimal.roundsTo (mantissa : Nat) (exponent : Int) (d : Decimal) : Bool :=
  let below := if mantissa = Nat.pow 2 52 ∧ -1074 < exponent then 1 else 2
  let (tenUp, tenDown) := scaled d.digits 10 d.power
  let (twoUp, twoDown) := scaled 1 2 (exponent - 2)
  let value := tenUp * twoDown
  let unit := tenDown * twoUp
  if mantissa % 2 = 0 then (4 * mantissa - below) * unit ≤ value ∧ value ≤ (4 * mantissa + 2) * unit
  else (4 * mantissa - below) * unit < value ∧ value < (4 * mantissa + 2) * unit

/-- The multiple of `10 ^ power` just below or at a double, and twice the remainder beside the unit
it is compared with. -/
def floorOn (mantissa : Nat) (exponent power : Int) : Nat × Nat × Nat :=
  let (twoUp, twoDown) := scaled mantissa 2 exponent
  let (tenUp, tenDown) := scaled 1 10 power
  let value := twoUp * tenDown
  let unit := twoDown * tenUp
  (value / unit, 2 * (value % unit), unit)

/-- Of the two neighbours of a double on the grid of `10 ^ power`, the one that rounds to it; the
nearer if both do, and of two equally near the even one. -/
def nearestOn? (mantissa : Nat) (exponent power : Int) : Option Decimal :=
  let (floor, twice, unit) := floorOn mantissa exponent power
  let low : Decimal := ⟨floor, power⟩
  let high : Decimal := ⟨floor + 1, power⟩
  match low.roundsTo mantissa exponent, high.roundsTo mantissa exponent with
  | true, true =>
    if twice < unit ∨ (twice = unit ∧ floor % 2 = 0) then some low else some high
  | true, false => some low
  | false, true => some high
  | false, false => none

def exactDecimal (mantissa : Nat) (exponent : Int) : Decimal :=
  if 0 ≤ exponent then ⟨mantissa * Nat.pow 2 exponent.toNat, 0⟩
  else ⟨mantissa * Nat.pow 5 (-exponent).toNat, exponent⟩

def shortestFrom (mantissa : Nat) (exponent : Int) : Nat → Int → Decimal
  | 0, _ => exactDecimal mantissa exponent
  | steps + 1, power =>
    match nearestOn? mantissa exponent power with
    | some d => d
    | none => shortestFrom mantissa exponent steps (power - 1)

/-- The decimal with the fewest digits that reads back as `mantissa · 2 ^ exponent`, and of those the
nearest. The search starts at a power of ten above the double, and seventeen digits always do. -/
def shortest (mantissa : Nat) (exponent : Int) : Decimal :=
  let width := (mantissa.log2 : Int) + 1 + exponent
  shortestFrom mantissa exponent 20 (width * 30103 / 100000 + 1)

end Klang.Number

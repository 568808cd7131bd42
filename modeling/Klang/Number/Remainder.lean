import Klang.Number.Parts

/-! The remainder of a truncated division, computed exactly. -/

namespace Klang.Number

def notANumber : Float := 0.0 / 0.0

/-- Takes the sign of the dividend; not a number unless the dividend is finite and the divisor is
neither zero nor undefined. -/
def remainder (x y : Float) : Float :=
  match parts x, parts y with
  | .finite negative m p, .finite _ n q =>
    if n = 0 then notANumber
    else
      let least := min p q
      let rest := (m * Nat.pow 2 (p - least).toNat) % (n * Nat.pow 2 (q - least).toNat)
      ofParts negative rest least
  | .finite .., .infinite _ => x
  | _, _ => notANumber

end Klang.Number

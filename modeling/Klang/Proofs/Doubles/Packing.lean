import Klang.Number.Parts
import Klang.Proofs.Doubles.Rounding
import Mathlib

/-! Doubles as bits. A double that is packed and taken apart again is the same, unless its exponent is
too large. -/

namespace Klang.Number

open Float.Model Float.Model.UnpackedFloat

def isNegative : Sign → Bool
  | .negative => true
  | .positive => false

def Parts.ofUnpacked : UnpackedFloat → Parts
  | .notANumber => .nan
  | .infinity sign => .infinite (isNegative sign)
  | .zero sign => .finite (isNegative sign) 0 (-1074)
  | .finite sign m e _ => .finite (isNegative sign) m e

variable {b : BitVec Format.binary64.numBits} {m : Nat} {e : Int}

lemma toNat_unpackMantissa : (unpackMantissa b).toNat = b.toNat % 2 ^ 52 := by
  simp [unpackMantissa]

lemma toNat_unpackExponent : (unpackExponent b).toNat = b.toNat / 2 ^ 52 % 2 ^ 11 := by
  simp [unpackExponent, Nat.shiftRight_eq_div_pow]

lemma isNegative_unpackSign :
    isNegative (Sign.ofBitVec (unpackSign b)) = decide (2 ^ 63 ≤ b.toNat) := by
  have hlt : b.toNat < 2 ^ 64 := b.isLt
  have hsign : (unpackSign b).toNat = b.toNat / 2 ^ 63 % 2 := by
    simp [unpackSign, Nat.shiftRight_eq_div_pow]
  have hzero : unpackSign b = 0#1 ↔ ¬ 2 ^ 63 ≤ b.toNat := by
    rw [← BitVec.toNat_inj, hsign]
    simp only [BitVec.toNat_ofNat]
    omega
  by_cases h : 2 ^ 63 ≤ b.toNat
  · rw [Sign.ofBitVec, if_neg (not_not_intro h ∘ hzero.1), decide_eq_true h, isNegative]
  · rw [Sign.ofBitVec, if_pos (hzero.2 h), decide_eq_false h, isNegative]

lemma toNat_append_unpackMantissa :
    (1#1 ++ unpackMantissa b).toNat = 2 ^ 52 + b.toNat % 2 ^ 52 := by
  rw [BitVec.toNat_append, ← Nat.shiftLeft_add_eq_or_of_lt (unpackMantissa b).isLt,
    toNat_unpackMantissa]
  rfl

lemma ofUnpacked_unpack :
    Parts.ofUnpacked (UnpackedFloat.unpack Format.binary64 b) = Parts.ofBits b.toNat := by
  have hexponent (k : Nat) (hk : k < 2 ^ 11) :
      unpackExponent b = BitVec.ofNat 11 k ↔ b.toNat / 2 ^ 52 % 2 ^ 11 = k := by
    rw [← BitVec.toNat_inj, toNat_unpackExponent, BitVec.toNat_ofNat, Nat.mod_eq_of_lt hk]
  have hmantissa : unpackMantissa b = 0#52 ↔ b.toNat % 2 ^ 52 = 0 := by
    rw [← BitVec.toNat_inj, toNat_unpackMantissa]
    rfl
  have hones : unpackExponent b = -1#11 ↔ b.toNat / 2 ^ 52 % 2 ^ 11 = 2047 :=
    hexponent 2047 (by decide)
  have hzeros : unpackExponent b = 0#11 ↔ b.toNat / 2 ^ 52 % 2 ^ 11 = 0 := hexponent 0 (by decide)
  have hbias : (Format.binary64.exponentBias + Format.binary64.mantissaBitsWithoutImplicit : Int) =
    1075 := rfl
  simp only [UnpackedFloat.unpack, Parts.ofBits, hbias, Nat.pow_eq]
  by_cases hlast : b.toNat / 2 ^ 52 % 2 ^ 11 = 2047
  · rw [if_pos (hones.2 hlast), if_pos hlast]
    by_cases hm : b.toNat % 2 ^ 52 = 0
    · rw [if_pos (hmantissa.2 hm), if_pos hm, Parts.ofUnpacked, isNegative_unpackSign]
    · rw [if_neg (hm ∘ hmantissa.1), if_neg hm, Parts.ofUnpacked]
  · rw [if_neg (hlast ∘ hones.1), if_neg hlast]
    by_cases hfirst : b.toNat / 2 ^ 52 % 2 ^ 11 = 0
    · rw [if_pos (hzeros.2 hfirst), if_pos hfirst]
      by_cases hm : b.toNat % 2 ^ 52 = 0
      · rw [dif_pos (hmantissa.2 hm), hm, Parts.ofUnpacked, isNegative_unpackSign]
      · rw [dif_neg (hm ∘ hmantissa.1), Parts.ofUnpacked, isNegative_unpackSign,
          toNat_unpackMantissa, toNat_unpackExponent, hfirst]
        rfl
    · rw [if_neg (hfirst ∘ hzeros.1), if_neg hfirst, Parts.ofUnpacked, isNegative_unpackSign,
        toNat_append_unpackMantissa, toNat_unpackExponent]

lemma toNat_packComponents (sign : Sign) (exponent : BitVec 11) (mantissa : BitVec 52) :
    (packComponents Format.binary64 sign exponent mantissa).toNat =
      ((isNegative sign).toNat * 2 ^ 11 + exponent.toNat) * 2 ^ 52 + mantissa.toNat := by
  have hsign : sign.toBitVec.toNat = (isNegative sign).toNat := by cases sign <;> rfl
  rw [packComponents, BitVec.toNat_append, BitVec.toNat_append,
    ← Nat.shiftLeft_add_eq_or_of_lt exponent.isLt, ← Nat.shiftLeft_add_eq_or_of_lt mantissa.isLt,
    Nat.shiftLeft_eq, Nat.shiftLeft_eq, hsign]

lemma ofBits_fields (sign : Bool) {exponent mantissa : Nat} (he : exponent < 2 ^ 11)
    (hm : mantissa < 2 ^ 52) :
    Parts.ofBits ((sign.toNat * 2 ^ 11 + exponent) * 2 ^ 52 + mantissa) =
      if exponent = 2047 then if mantissa = 0 then .infinite sign else .nan
      else if exponent = 0 then .finite sign mantissa (-1074)
      else .finite sign (2 ^ 52 + mantissa) ((exponent : Int) - 1075) := by
  have hsign : decide (2 ^ 63 ≤ (sign.toNat * 2 ^ 11 + exponent) * 2 ^ 52 + mantissa) = sign := by
    cases sign <;> simp <;> omega
  have hexponent : ((sign.toNat * 2 ^ 11 + exponent) * 2 ^ 52 + mantissa) / 2 ^ 52 % 2 ^ 11 =
      exponent := by omega
  have hmantissa : ((sign.toNat * 2 ^ 11 + exponent) * 2 ^ 52 + mantissa) % 2 ^ 52 = mantissa := by
    omega
  simp only [Parts.ofBits, Nat.pow_eq, hsign, hexponent, hmantissa]

lemma parts_pack (u : UnpackedFloat) : parts (.ofModel (Float.Model.pack u)) =
    Parts.ofBits (UnpackedFloat.pack Format.binary64 u).toNat := rfl

lemma parts_packComponents (sign : Sign) (exponent : BitVec 11) (mantissa : BitVec 52) :
    Parts.ofBits (packComponents Format.binary64 sign exponent mantissa).toNat =
      if exponent.toNat = 2047 then if mantissa.toNat = 0 then .infinite (isNegative sign) else .nan
      else if exponent.toNat = 0 then .finite (isNegative sign) mantissa.toNat (-1074)
      else .finite (isNegative sign) (2 ^ 52 + mantissa.toNat) ((exponent.toNat : Int) - 1075) := by
  rw [toNat_packComponents, ofBits_fields _ exponent.isLt mantissa.isLt]

lemma parts_pack_finite (sign : Sign) (hm : 0 < m) (h : IsCanonical m e) (he : e ≤ 971) :
    parts (.ofModel (Float.Model.pack (.finite sign m e hm))) = .finite (isNegative sign) m e := by
  have hleast := h.least
  have hlt := h.lt
  have hbias : (Format.binary64.exponentBias : Int) = 1023 := rfl
  rw [parts_pack, UnpackedFloat.pack, hbias]
  dsimp only
  rw [if_neg (by omega)]
  rcases Nat.lt_or_ge m (2 ^ 52) with hsmall | hfull
  · have hlog : ¬ m.log2 + 1 = Format.binary64.mantissaBits := by
      have := (Nat.log2_lt hm.ne').2 hsmall
      change ¬ m.log2 + 1 = 53
      omega
    obtain rfl : e = -1074 := h.full.resolve_left (by omega)
    have hmantissa : (BitVec.ofNat 52 m).toNat = m := by
      rw [BitVec.toNat_ofNat, Nat.mod_eq_of_lt hsmall]
    rw [if_neg hlog, parts_packComponents, hmantissa]
    rfl
  · have hlog : m.log2 + 1 = Format.binary64.mantissaBits := by
      have hge := (Nat.le_log2 hm.ne').2 hfull
      have := (Nat.log2_lt hm.ne').2 hlt
      change m.log2 + 1 = 53
      omega
    have hexponent : (e + 1023 + (52 : Nat)).toNat < 2 ^ 11 := by omega
    have hback : ((e + 1023 + (52 : Nat)).toNat : Int) - 1075 = e := by omega
    have hmantissa : 2 ^ 52 + m % 2 ^ 52 = m := by omega
    rw [if_pos hlog, parts_packComponents, BitVec.toNat_ofNat, BitVec.toNat_ofNat,
      Nat.mod_eq_of_lt hexponent, if_neg (by omega), if_neg (by omega), hmantissa, hback]

lemma parts_pack_overflow (sign : Sign) (hm : 0 < m) (he : 972 ≤ e) :
    parts (.ofModel (Float.Model.pack (.finite sign m e hm))) = .infinite (isNegative sign) := by
  have hbias : (Format.binary64.exponentBias : Int) = 1023 := rfl
  rw [parts_pack, UnpackedFloat.pack, hbias]
  dsimp only
  rw [if_pos (by omega), packedInfinity, parts_packComponents]
  rfl

variable {x y : Float} {negative : Bool}

lemma ofUnpacked_toModel (x : Float) : Parts.ofUnpacked x.toModel.unpack = parts x :=
  ofUnpacked_unpack

lemma toBits_of_parts (h : parts x = .finite negative m e) :
    m < 2 ^ 52 ∧ e = -1074 ∧ x.toBits.toNat = negative.toNat * 2 ^ 63 + m ∨
      2 ^ 52 ≤ m ∧ m < 2 ^ 53 ∧ -1074 ≤ e ∧ e ≤ 971 ∧
        x.toBits.toNat = negative.toNat * 2 ^ 63 + (e + 1075).toNat * 2 ^ 52 + (m - 2 ^ 52) := by
  have hlt : x.toBits.toNat < 2 ^ 64 := x.toBits.toNat_lt
  have hsign : (decide (2 ^ 63 ≤ x.toBits.toNat)).toNat = x.toBits.toNat / 2 ^ 63 := by
    by_cases hb : 2 ^ 63 ≤ x.toBits.toNat
    · rw [decide_eq_true hb, Bool.toNat_true]
      omega
    · rw [decide_eq_false hb, Bool.toNat_false]
      omega
  simp only [parts, Parts.ofBits, Nat.pow_eq] at h
  split at h
  · split at h <;> cases h
  · split at h
    · cases h
      rw [hsign]
      omega
    · cases h
      rw [hsign]
      omega

lemma canonical_of_parts (h : parts x = .finite negative m e) : IsCanonical m e ∧ e ≤ 971 := by
  rcases toBits_of_parts h with ⟨hm, rfl, -⟩ | ⟨hfull, hm, hleast, hmost, -⟩
  · exact ⟨⟨by omega, Int.le_refl _, .inr rfl⟩, by decide⟩
  · exact ⟨⟨hm, hleast, .inl hfull⟩, hmost⟩

lemma eq_of_parts (h : parts x = .finite negative m e) (h' : parts y = .finite negative m e) :
    x = y := by
  have hx := toBits_of_parts h
  have hy := toBits_of_parts h'
  have hbits : x.toBits.toNat = y.toBits.toNat := by omega
  exact Float.toBits_inj.1 (UInt64.toNat_inj.1 hbits)

end Klang.Number

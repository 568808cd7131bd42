import Klang.Proofs.Doubles.Packing

/-! The values of doubles, counted in units of the least positive double. Finite doubles are ordered
as their values are, and a value other than zero belongs to one double only. -/

namespace Klang.Number

open Float.Model Float.Model.UnpackedFloat

def withSign (negative : Bool) (n : Nat) : Int := if negative then -n else n

/-- How often the least positive double, `2 ^ -1074`, goes into a finite double. -/
def Parts.units? : Parts → Option Int
  | .finite negative m e => some (withSign negative (m * 2 ^ (e + 1074).toNat))
  | _ => none

def units? (x : Float) : Option Int := (parts x).units?

variable {x y : Float} {a b n : Int} {m m' : Nat} {e e' : Int} {negative : Bool}

lemma units?_of_parts (h : parts x = .finite negative m e) :
    units? x = some (withSign negative (m * 2 ^ (e + 1074).toNat)) := by
  rw [units?, h, Parts.units?]

lemma parts_of_units? (h : units? x = some a) : ∃ negative m e,
    parts x = .finite negative m e ∧ a = withSign negative (m * 2 ^ (e + 1074).toNat) := by
  unfold units? at h
  cases hx : parts x with
  | finite negative m e =>
    rw [hx] at h
    exact ⟨negative, m, e, rfl, (Option.some.inj h).symm⟩
  | _ =>
    rw [hx] at h
    cases h

lemma withSign_inj {negative' : Bool} {u u' : Nat} (h : withSign negative u = withSign negative' u')
    (hne : withSign negative u ≠ 0) : negative = negative' ∧ u = u' := by
  cases negative <;> cases negative' <;> simp [withSign] at * <;> omega

lemma IsCanonical.units_lt (h : IsCanonical m e) (h' : IsCanonical m' e') (he : e < e') :
    m * 2 ^ (e + 1074).toNat < m' * 2 ^ (e' + 1074).toNat := by
  have hleast := h.least
  have hfull : 2 ^ 52 ≤ m' := h'.full.resolve_right (by omega)
  exact mul_two_pow_lt h.lt hfull (by omega)

lemma IsCanonical.compare_eq (h : IsCanonical m e) (h' : IsCanonical m' e') :
    (compare e e').then (compare m m') =
      compare (m * 2 ^ (e + 1074).toNat) (m' * 2 ^ (e' + 1074).toNat) := by
  rcases Int.lt_trichotomy e e' with he | rfl | he
  · rw [compare_lt_iff_lt.2 he, compare_lt_iff_lt.2 (h.units_lt h' he)]
    rfl
  · have hpos : 0 < 2 ^ (e + 1074).toNat := Nat.two_pow_pos _
    rw [compare_eq_iff_eq.2 rfl, Ordering.eq_then]
    rcases Nat.lt_trichotomy m m' with hm | rfl | hm
    · rw [compare_lt_iff_lt.2 hm, compare_lt_iff_lt.2 (Nat.mul_lt_mul_of_pos_right hm hpos)]
    · rw [compare_eq_iff_eq.2 rfl, compare_eq_iff_eq.2 rfl]
    · rw [compare_gt_iff_gt.2 hm, compare_gt_iff_gt.2 (Nat.mul_lt_mul_of_pos_right hm hpos)]
  · rw [compare_gt_iff_gt.2 he, compare_gt_iff_gt.2 (h'.units_lt h he)]
    rfl

lemma IsCanonical.eq_of_units (h : IsCanonical m e) (h' : IsCanonical m' e')
    (hunits : m * 2 ^ (e + 1074).toNat = m' * 2 ^ (e' + 1074).toNat) : m = m' ∧ e = e' := by
  have hcompare := h.compare_eq h'
  rw [compare_eq_iff_eq.2 hunits, Ordering.then_eq_eq] at hcompare
  exact ⟨compare_eq_iff_eq.1 hcompare.2, compare_eq_iff_eq.1 hcompare.1⟩

lemma eq_of_units? (hx : units? x = some a) (hy : units? y = some a) (ha : a ≠ 0) : x = y := by
  obtain ⟨negative, m, e, hparts, ha'⟩ := parts_of_units? hx
  obtain ⟨negative', m', e', hparts', hunits⟩ := parts_of_units? hy
  have hcanonical := (canonical_of_parts hparts).1
  have hcanonical' := (canonical_of_parts hparts').1
  obtain ⟨rfl, hsame⟩ := withSign_inj (ha'.symm.trans hunits) (ha' ▸ ha)
  obtain ⟨rfl, rfl⟩ := hcanonical.eq_of_units hcanonical' hsame
  exact eq_of_parts hparts hparts'

lemma withSign_isNegative (sign : Sign) (u : Nat) : withSign (isNegative sign) u = sign.apply u := by
  cases sign <;> rfl

inductive HasUnits : UnpackedFloat → Int → Prop
  | zero (sign : Sign) : HasUnits (.zero sign) 0
  | finite (sign : Sign) {m : Nat} {e : Int} (hm : 0 < m) : IsCanonical m e →
      HasUnits (.finite sign m e hm) (sign.apply (m * 2 ^ (e + 1074).toNat : Nat))

lemma hasUnits_unpack (h : units? x = some a) : HasUnits x.toModel.unpack a := by
  obtain ⟨negative, m, e, hparts, rfl⟩ := parts_of_units? h
  have hcanonical := (canonical_of_parts hparts).1
  have hunpack := ofUnpacked_toModel x
  rw [hparts] at hunpack
  generalize x.toModel.unpack = u at hunpack
  cases u with
  | infinity => cases hunpack
  | notANumber => cases hunpack
  | zero sign =>
    cases hunpack
    have hzero : withSign (isNegative sign) (0 * 2 ^ (-1074 + 1074 : Int).toNat) = 0 := by
      cases sign <;> rfl
    rw [hzero]
    exact .zero sign
  | finite sign m e hm =>
    cases hunpack
    rw [withSign_isNegative]
    exact .finite sign hm hcanonical

lemma compare_neg_natCast (p q : Nat) : compare (-p : Int) (-q : Int) = (compare p q).swap := by
  rcases Nat.lt_trichotomy p q with h | rfl | h
  · rw [compare_lt_iff_lt.2 h, compare_gt_iff_gt.2 (by omega), Ordering.swap]
  · rw [compare_eq_iff_eq.2 rfl, compare_eq_iff_eq.2 rfl, Ordering.swap]
  · rw [compare_gt_iff_gt.2 h, compare_lt_iff_lt.2 (by omega), Ordering.swap]

lemma compare_natCast (p q : Nat) : compare (p : Int) (q : Int) = compare p q := by
  rw [← cmp_eq_compare, ← cmp_eq_compare, Nat.strictMono_cast.cmp_map_eq]

lemma apply_negative_lt {u : Nat} (hu : 0 < u) : Sign.negative.apply u < 0 := by
  rw [Sign.apply]
  omega

lemma lt_apply_positive {u : Nat} (hu : 0 < u) : 0 < Sign.positive.apply u := by
  rw [Sign.apply]
  omega

lemma HasUnits.compare_eq {u v : UnpackedFloat} (hu : HasUnits u a) (hv : HasUnits v b) :
    u.compare v = some (compare a b) := by
  cases hu with
  | zero sign =>
    cases hv with
    | zero => rfl
    | @finite sign' m e hm h =>
      have hpos : 0 < m * 2 ^ (e + 1074).toNat := Nat.mul_pos hm (Nat.two_pow_pos _)
      cases sign' with
      | negative => rw [compare_gt_iff_gt.2 (apply_negative_lt hpos), UnpackedFloat.compare]
      | positive => rw [compare_lt_iff_lt.2 (lt_apply_positive hpos), UnpackedFloat.compare]
  | @finite sign m e hm h =>
    have hpos : 0 < m * 2 ^ (e + 1074).toNat := Nat.mul_pos hm (Nat.two_pow_pos _)
    cases hv with
    | zero =>
      cases sign with
      | negative => rw [compare_lt_iff_lt.2 (apply_negative_lt hpos), UnpackedFloat.compare]
      | positive => rw [compare_gt_iff_gt.2 (lt_apply_positive hpos), UnpackedFloat.compare]
    | @finite sign' m' e' hm' h' =>
      have hpos' : 0 < m' * 2 ^ (e' + 1074).toNat := Nat.mul_pos hm' (Nat.two_pow_pos _)
      cases sign with
      | negative =>
        cases sign' with
        | negative => rw [UnpackedFloat.compare, h.compare_eq h', Sign.apply, Sign.apply,
            compare_neg_natCast]
        | positive =>
          have hlt := (apply_negative_lt hpos).trans (lt_apply_positive hpos')
          rw [compare_lt_iff_lt.2 hlt, UnpackedFloat.compare]
      | positive =>
        cases sign' with
        | negative =>
          have hlt := (apply_negative_lt hpos').trans (lt_apply_positive hpos)
          rw [compare_gt_iff_gt.2 hlt, UnpackedFloat.compare]
        | positive => rw [UnpackedFloat.compare, h.compare_eq h', Sign.apply, Sign.apply,
            compare_natCast]

lemma units?_zero : units? 0.0 = some 0 := by decide +kernel

lemma lt_iff_compare : x < y ↔ x.toModel.unpack.compare y.toModel.unpack = some .lt := by
  have hmodel : x < y ↔ x.toModel < y.toModel := decide_eq_true_iff
  rw [hmodel]
  exact beq_iff_eq

lemma lt_iff (hx : units? x = some a) (hy : units? y = some b) : x < y ↔ a < b := by
  rw [lt_iff_compare, (hasUnits_unpack hx).compare_eq (hasUnits_unpack hy), Option.some_inj,
    compare_lt_iff_lt]

lemma beq_iff (hx : units? x = some a) (hy : units? y = some b) : (x == y) = true ↔ a = b := by
  have hcompare := (hasUnits_unpack hx).compare_eq (hasUnits_unpack hy)
  change (x.toModel.unpack.compare y.toModel.unpack == some .eq) = true ↔ a = b
  rw [hcompare, beq_iff_eq, Option.some_inj, compare_eq_iff_eq]

lemma unpack_of_infinite (h : parts x = .infinite negative) :
    ∃ sign, x.toModel.unpack = .infinity sign ∧ isNegative sign = negative := by
  have hunpack := ofUnpacked_toModel x
  rw [h] at hunpack
  generalize x.toModel.unpack = u at hunpack
  cases u with
  | infinity sign =>
    cases hunpack
    exact ⟨sign, rfl, rfl⟩
  | _ => cases hunpack

lemma not_lt_of_infinite (h : parts x = .infinite false) (y : Float) : ¬ x < y := by
  obtain ⟨sign, hx, hsign⟩ := unpack_of_infinite h
  cases sign with
  | negative => cases hsign
  | positive =>
    rw [lt_iff_compare, hx]
    cases y.toModel.unpack with
    | infinity sign => cases sign <;> decide
    | _ => simp [UnpackedFloat.compare]

lemma not_lt_infinite (h : parts y = .infinite true) (x : Float) : ¬ x < y := by
  obtain ⟨sign, hy, hsign⟩ := unpack_of_infinite h
  cases sign with
  | positive => cases hsign
  | negative =>
    rw [lt_iff_compare, hy]
    cases x.toModel.unpack with
    | infinity sign => cases sign <;> decide
    | finite sign => cases sign <;> simp [UnpackedFloat.compare]
    | _ => simp [UnpackedFloat.compare]

lemma withSign_mul (negative : Bool) (u k : Nat) :
    withSign negative (u * k) = withSign negative u * k := by
  cases negative <;> simp [withSign]

lemma natAbs_withSign (negative : Bool) (u : Nat) : (withSign negative u).natAbs = u := by
  cases negative <;> simp [withSign]

lemma natAbs_mul_two_pow (n : Int) (k : Nat) : (n * 2 ^ k).natAbs = n.natAbs * 2 ^ k := by
  rw [Int.natAbs_mul, Int.natAbs_pow]
  rfl

lemma two_pow_units (he : -1074 ≤ e) (h : e < 0) :
    2 ^ (-e).toNat * 2 ^ (e + 1074).toNat = 2 ^ 1074 := by
  rw [← Nat.pow_add]
  congr 1
  omega

lemma toInt?_of_parts (h : parts x = .finite negative m e) : toInt? x =
    if 0 ≤ e then some (withSign negative (m * 2 ^ e.toNat))
    else if m % 2 ^ (-e).toNat = 0 then some (withSign negative (m / 2 ^ (-e).toNat)) else none := by
  simp only [toInt?, h, Nat.pow_eq]
  by_cases he : 0 ≤ e
  · cases negative <;> simp [he, withSign]
  · by_cases hm : m % 2 ^ (-e).toNat = 0 <;> cases negative <;> simp [he, hm, withSign]

lemma toInt?_eq_some : toInt? x = some n ↔ units? x = some (n * 2 ^ 1074) := by
  cases hx : parts x with
  | nan | infinite => simp only [toInt?, units?, hx, Parts.units?, reduceCtorEq]
  | finite negative m e =>
    have hleast := (canonical_of_parts hx).1.least
    have hpos : (2 ^ 1074 : Int) ≠ 0 := pow_ne_zero 1074 two_ne_zero
    have hscaled (u : Nat) : withSign negative u = n ↔
        withSign negative (u * 2 ^ 1074) = n * 2 ^ 1074 := by
      rw [withSign_mul, Nat.cast_pow, Nat.cast_ofNat, mul_left_inj' hpos]
    rw [units?_of_parts hx, toInt?_of_parts hx, Option.some_inj]
    split
    · rename_i he
      have hunits : m * 2 ^ (e + 1074).toNat = m * 2 ^ e.toNat * 2 ^ 1074 := by
        rw [Nat.mul_assoc, ← Nat.pow_add, Int.toNat_add he (by decide)]
        rfl
      rw [hunits, ← hscaled, Option.some_inj]
    · rename_i he
      have hunit := two_pow_units hleast (Int.not_le.1 he)
      split
      · rename_i hmod
        obtain ⟨q, rfl⟩ := Nat.dvd_of_mod_eq_zero hmod
        have hunits : 2 ^ (-e).toNat * q * 2 ^ (e + 1074).toNat = q * 2 ^ 1074 := by
          rw [Nat.mul_right_comm, hunit, Nat.mul_comm]
        rw [hunits, ← hscaled, Nat.mul_div_cancel_left _ (Nat.two_pow_pos _), Option.some_inj]
      · rename_i hmod
        refine ⟨nofun, fun h => absurd ?_ hmod⟩
        have habs : m * 2 ^ (e + 1074).toNat = n.natAbs * 2 ^ 1074 := by
          have hboth := congrArg Int.natAbs h
          rwa [natAbs_withSign, natAbs_mul_two_pow] at hboth
        rw [← hunit, ← Nat.mul_assoc] at habs
        rw [Nat.eq_of_mul_eq_mul_right (Nat.two_pow_pos _) habs]
        exact Nat.mul_mod_left _ _

end Klang.Number

import Klang.Number.Decimal
import Klang.Proofs.Doubles.Values

/-! Decimals that round to doubles. The rounding intervals of two doubles do not meet, so a double
is known by the value of its shortest decimal. -/

namespace Klang.Number

variable {m m' : Nat} {e e' power : Int} {d : Decimal} {v v' : ℚ}

def Decimal.value (d : Decimal) : ℚ := d.digits * 10 ^ d.power

lemma scaled_snd_pos {base : Nat} (hbase : 0 < base) (n : Nat) (power : Int) :
    (0 : ℚ) < (scaled n base power).2 := by
  unfold scaled
  split
  · exact one_pos
  · exact Nat.cast_pos.2 (Nat.pow_pos hbase)

lemma scaled_fst {base : Nat} (hbase : 0 < base) (n : Nat) (power : Int) :
    ((scaled n base power).1 : ℚ) = n * base ^ power * (scaled n base power).2 := by
  have hne : (base : ℚ) ≠ 0 := Nat.cast_ne_zero.2 hbase.ne'
  unfold scaled
  split
  · rename_i hpower
    rw [Nat.pow_eq, Nat.cast_mul, Nat.cast_pow, ← zpow_natCast, Int.toNat_of_nonneg hpower,
      Nat.cast_one, mul_one]
  · rename_i hpower
    have hinverse : (base : ℚ) ^ power * base ^ (-power) = 1 := by
      rw [← zpow_add₀ hne, add_neg_cancel, zpow_zero]
    rw [Nat.pow_eq, Nat.cast_pow, ← zpow_natCast, Int.toNat_of_nonneg (by omega), mul_assoc,
      hinverse, mul_one]

def lowerEnd (m : Nat) (e : Int) : Nat := 4 * m - if m = 2 ^ 52 ∧ -1074 < e then 1 else 2

def Rounds (m : Nat) (e : Int) (v : ℚ) : Prop :=
  if m % 2 = 0 then lowerEnd m e * 2 ^ (e - 2) ≤ v ∧ v ≤ (4 * m + 2 : Nat) * 2 ^ (e - 2)
  else lowerEnd m e * 2 ^ (e - 2) < v ∧ v < (4 * m + 2 : Nat) * 2 ^ (e - 2)

lemma roundsTo_iff : d.roundsTo m e = true ↔ Rounds m e d.value := by
  have hten := scaled_fst (show 0 < 10 by decide) d.digits d.power
  have htwo := scaled_fst (show 0 < 2 by decide) 1 (e - 2)
  have hten' := scaled_snd_pos (show 0 < 10 by decide) d.digits d.power
  have htwo' := scaled_snd_pos (show 0 < 2 by decide) 1 (e - 2)
  simp only [Decimal.roundsTo, Rounds, lowerEnd, Nat.pow_eq]
  generalize scaled d.digits 10 d.power = ten at *
  generalize scaled 1 2 (e - 2) = two at *
  obtain ⟨tenUp, tenDown⟩ := ten
  obtain ⟨twoUp, twoDown⟩ := two
  rw [Nat.cast_one, one_mul, Nat.cast_ofNat] at htwo
  rw [Nat.cast_ofNat, ← Decimal.value] at hten
  -- both sides of a comparison of integers are those of one of rational numbers, times `unit`
  have hunit : (0 : ℚ) < tenDown * twoDown := mul_pos hten' htwo'
  have hvalue : ((tenUp * twoDown : Nat) : ℚ) = d.value * (tenDown * twoDown) := by
    rw [Nat.cast_mul, hten, mul_assoc]
  have hend (k : Nat) :
      ((k * (tenDown * twoUp) : Nat) : ℚ) = k * 2 ^ (e - 2) * (tenDown * twoDown) := by
    rw [Nat.cast_mul, Nat.cast_mul, htwo]
    ring
  have hle (k : Nat) : k * (tenDown * twoUp) ≤ tenUp * twoDown ↔ k * 2 ^ (e - 2) ≤ d.value := by
    rw [← @Nat.cast_le ℚ, hvalue, hend, mul_le_mul_iff_of_pos_right hunit]
  have hge (k : Nat) : tenUp * twoDown ≤ k * (tenDown * twoUp) ↔ d.value ≤ k * 2 ^ (e - 2) := by
    rw [← @Nat.cast_le ℚ, hvalue, hend, mul_le_mul_iff_of_pos_right hunit]
  simp only [← not_le, hle, hge]
  split <;> rw [decide_eq_true_iff]

lemma le_of_rounds (h : Rounds m e v) :
    lowerEnd m e * 2 ^ (e - 2) ≤ v ∧ v ≤ (4 * m + 2 : Nat) * 2 ^ (e - 2) := by
  unfold Rounds at h
  split at h
  · exact h
  · exact ⟨h.1.le, h.2.le⟩

lemma lt_of_rounds (h : Rounds m e v) (hodd : m % 2 = 1) :
    lowerEnd m e * 2 ^ (e - 2) < v ∧ v < (4 * m + 2 : Nat) * 2 ^ (e - 2) := by
  unfold Rounds at h
  rwa [if_neg (by omega)] at h

lemma upperEnd_le (h : IsCanonical m e) (h' : IsCanonical m' e')
    (hlt : e < e' ∨ e = e' ∧ m < m') :
    4 * m + 2 ≤ lowerEnd m' e' * 2 ^ (e' - e).toNat ∧
      (m % 2 = 0 → m' % 2 = 0 → 4 * m + 2 < lowerEnd m' e' * 2 ^ (e' - e).toNat) := by
  have hm := h.lt
  rcases hlt with he | ⟨rfl, hm'⟩
  · have hfull : 2 ^ 52 ≤ m' := h'.full.resolve_right (by have := h.least; omega)
    have hlower : 2 ^ 54 - 1 ≤ lowerEnd m' e' := by
      have hleast := h.least
      unfold lowerEnd
      split <;> omega
    have htwice : lowerEnd m' e' * 2 ≤ lowerEnd m' e' * 2 ^ (e' - e).toNat :=
      Nat.mul_le_mul_left _ (Nat.le_self_pow (by omega) 2)
    omega
  · rw [Int.sub_self, Int.toNat_zero, Nat.pow_zero, Nat.mul_one]
    unfold lowerEnd
    split <;> omega

lemma Rounds.lt (h : IsCanonical m e) (h' : IsCanonical m' e') (hlt : e < e' ∨ e = e' ∧ m < m')
    (hv : Rounds m e v) (hv' : Rounds m' e' v') : v < v' := by
  obtain ⟨hle, hstrict⟩ := upperEnd_le h h' hlt
  have hunit : (0 : ℚ) < 2 ^ (e - 2) := by positivity
  have hlower : (lowerEnd m' e' * 2 ^ (e' - 2) : ℚ) =
      (lowerEnd m' e' * 2 ^ (e' - e).toNat : Nat) * 2 ^ (e - 2) := by
    rw [Nat.cast_mul, Nat.cast_pow, Nat.cast_ofNat, ← zpow_natCast, Int.toNat_of_nonneg (by omega),
      mul_assoc, ← zpow_add₀ two_ne_zero]
    congr 2
    ring
  have hv₁ := (le_of_rounds hv).2
  have hv₂ := (le_of_rounds hv').1
  rw [hlower] at hv₂
  have hends : ((4 * m + 2 : Nat) : ℚ) * 2 ^ (e - 2) ≤
      (lowerEnd m' e' * 2 ^ (e' - e).toNat : Nat) * 2 ^ (e - 2) :=
    mul_le_mul_of_nonneg_right (Nat.cast_le.2 hle) hunit.le
  rcases Nat.mod_two_eq_zero_or_one m with hm | hm
  · rcases Nat.mod_two_eq_zero_or_one m' with hm' | hm'
    · have hends' : ((4 * m + 2 : Nat) : ℚ) * 2 ^ (e - 2) <
          (lowerEnd m' e' * 2 ^ (e' - e).toNat : Nat) * 2 ^ (e - 2) :=
        mul_lt_mul_of_pos_right (Nat.cast_lt.2 (hstrict hm hm')) hunit
      exact hv₁.trans_lt (hends'.trans_le hv₂)
    · have hv₂' := (lt_of_rounds hv' hm').1
      rw [hlower] at hv₂'
      exact hv₁.trans_lt (hends.trans_lt hv₂')
  · exact (lt_of_rounds hv hm).2.trans_le (hends.trans hv₂)

lemma Rounds.eq (h : IsCanonical m e) (h' : IsCanonical m' e') (hv : Rounds m e v)
    (hv' : Rounds m' e' v) : m = m' ∧ e = e' := by
  have hlt : ¬ (e < e' ∨ e = e' ∧ m < m') := fun hlt => (hv.lt h h' hlt hv').false
  have hgt : ¬ (e' < e ∨ e' = e ∧ m' < m) := fun hgt => (hv'.lt h' h hgt hv).false
  omega

lemma rounds_self (hm : 0 < m) (e : Int) : Rounds m e (m * 2 ^ e) := by
  have hunit : (0 : ℚ) < 2 ^ (e - 2) := by positivity
  have hfour : (m : ℚ) * 2 ^ e = (4 * m : Nat) * 2 ^ (e - 2) := by
    have hsplit : (2 : ℚ) ^ e = 2 ^ (e - 2) * 4 := by
      rw [zpow_sub₀ two_ne_zero]
      norm_num
    rw [hsplit, Nat.cast_mul]
    push_cast
    ring
  have hlower : lowerEnd m e < 4 * m := by
    unfold lowerEnd
    split <;> omega
  have hbelow : (lowerEnd m e * 2 ^ (e - 2) : ℚ) < m * 2 ^ e := by
    rw [hfour]
    exact mul_lt_mul_of_pos_right (Nat.cast_lt.2 hlower) hunit
  have habove : (m * 2 ^ e : ℚ) < (4 * m + 2 : Nat) * 2 ^ (e - 2) := by
    rw [hfour]
    exact mul_lt_mul_of_pos_right (Nat.cast_lt.2 (by omega)) hunit
  unfold Rounds
  split
  · exact ⟨hbelow.le, habove.le⟩
  · exact ⟨hbelow, habove⟩

lemma roundsTo_of_nearestOn? (h : nearestOn? m e power = some d) : d.roundsTo m e = true := by
  unfold nearestOn? at h
  dsimp only at h
  split at h
  · split at h <;> cases h <;> assumption
  · cases h
    assumption
  · cases h
    assumption
  · cases h

lemma value_exactDecimal (m : Nat) (e : Int) : (exactDecimal m e).value = m * 2 ^ e := by
  unfold exactDecimal Decimal.value
  split
  · rename_i he
    rw [Nat.pow_eq, Nat.cast_mul, Nat.cast_pow, ← zpow_natCast, Int.toNat_of_nonneg he, zpow_zero,
      mul_one, Nat.cast_ofNat]
  · have hten : (10 : ℚ) ^ e = 2 ^ e * 5 ^ e := by
      rw [← mul_zpow]
      norm_num
    have hfive : (5 : ℚ) ^ (-e) * 5 ^ e = 1 := by
      rw [← zpow_add₀ (by norm_num), neg_add_cancel, zpow_zero]
    rw [Nat.pow_eq, Nat.cast_mul, Nat.cast_pow, ← zpow_natCast, Int.toNat_of_nonneg (by omega),
      Nat.cast_ofNat, hten, mul_assoc, mul_left_comm _ (2 ^ e), hfive, mul_one]

lemma rounds_shortestFrom (hm : 0 < m) (e : Int) (steps : Nat) (power : Int) :
    Rounds m e (shortestFrom m e steps power).value := by
  induction steps generalizing power with
  | zero =>
    rw [shortestFrom, value_exactDecimal]
    exact rounds_self hm e
  | succ steps ih =>
    rw [shortestFrom]
    cases hnearest : nearestOn? m e power with
    | some d => exact roundsTo_iff.1 (roundsTo_of_nearestOn? hnearest)
    | none => exact ih (power - 1)

lemma rounds_shortest (hm : 0 < m) (e : Int) : Rounds m e (shortest m e).value :=
  rounds_shortestFrom hm e _ _

lemma eq_of_value_shortest (h : IsCanonical m e) (h' : IsCanonical m' e') (hm : 0 < m)
    (hm' : 0 < m') (hvalue : (shortest m e).value = (shortest m' e').value) : m = m' ∧ e = e' :=
  (rounds_shortest hm e).eq h h' (hvalue ▸ rounds_shortest hm' e')

end Klang.Number

import Klang.Proofs.Doubles.Values

/-! Sums of doubles. The sum of two finite doubles is the double next to the sum of their values, or
infinite if that is too large. -/

namespace Klang.Number

open Float.Model Float.Model.UnpackedFloat

variable {x y : Float} {a b n z : Int} {m : Nat} {e : Int}

def nearest (n : Int) : Int := n.sign * rounded n.natAbs

lemma nearest_neg (n : Int) : nearest (-n) = -nearest n := by
  rw [nearest, nearest, Int.sign_neg, Int.natAbs_neg, Int.neg_mul]

lemma nearest_of_nonneg (h : 0 ≤ n) : nearest n = rounded n.natAbs := by
  rcases Int.lt_or_eq_of_le h with hpos | rfl
  · rw [nearest, Int.sign_eq_one_of_pos hpos, Int.one_mul]
  · decide

lemma nearest_of_nonpos (h : n ≤ 0) : nearest n = -rounded n.natAbs := by
  have hneg := nearest_of_nonneg (Int.neg_nonneg_of_nonpos h)
  rwa [nearest_neg, Int.natAbs_neg, Int.neg_eq_comm, eq_comm] at hneg

lemma le_nearest (hz : Fits z.natAbs) (h : z ≤ n) : z ≤ nearest n := by
  rcases Int.le_total 0 n with hn | hn
  · rw [nearest_of_nonneg hn]
    rcases Int.le_total 0 z with hz0 | hz0
    · have := le_rounded hz (by omega : z.natAbs ≤ n.natAbs)
      omega
    · omega
  · rw [nearest_of_nonpos hn]
    have := rounded_le hz (by omega : n.natAbs ≤ z.natAbs)
    omega

lemma nearest_le (hz : Fits z.natAbs) (h : n ≤ z) : nearest n ≤ z := by
  have hneg : Fits (-z).natAbs := by rwa [Int.natAbs_neg]
  have := le_nearest hneg (Int.neg_le_neg h)
  rw [nearest_neg] at this
  omega

lemma nearest_of_fits (h : Fits n.natAbs) : nearest n = n :=
  Int.le_antisymm (nearest_le h (Int.le_refl n)) (le_nearest h (Int.le_refl n))

lemma nearest_dist (n : Int) : 2 ^ 53 * (nearest n - n).natAbs ≤ (nearest n).natAbs := by
  have hdist := rounded_dist n.natAbs
  rcases Int.le_total 0 n with h | h
  · rw [nearest_of_nonneg h]
    omega
  · rw [nearest_of_nonpos h]
    omega

lemma fits_of_units? (h : units? x = some a) : Fits a.natAbs := by
  obtain ⟨negative, m, e, hparts, rfl⟩ := parts_of_units? h
  exact ⟨m, _, (canonical_of_parts hparts).1.lt, natAbs_withSign _ _⟩

lemma hasUnits_round (sign : Sign) (hm : 0 < m) (k : Nat) :
    HasUnits (UnpackedFloat.round Format.binary64 sign m (k - 1074))
      (sign.apply (rounded (m * 2 ^ k) : Nat)) := by
  obtain ⟨M, E, hM, hround, hcanonical, hunits⟩ := round_eq sign hm k
  rw [hround, ← hunits]
  exact .finite sign hM hcanonical

lemma hasUnits_normalize (n : Int) (k : Nat) (zeroSign : Sign) :
    HasUnits (UnpackedFloat.normalize Format.binary64 n (k - 1074) zeroSign)
      (nearest (n * 2 ^ k)) := by
  have hpow : (0 : Int) < 2 ^ k := pow_pos two_pos k
  rcases Int.lt_trichotomy n 0 with hn | rfl | hn
  · have hm : 0 < (-n).toNat := by omega
    have habs : (-n).toNat = n.natAbs := by omega
    have hround := hasUnits_round .negative hm k
    have hsign : (n * 2 ^ k).sign = -1 := Int.sign_eq_neg_one_of_neg (mul_neg_of_neg_of_pos hn hpow)
    rw [UnpackedFloat.normalize, compare_lt_iff_lt.2 hn, nearest, hsign, natAbs_mul_two_pow,
      Int.neg_one_mul, ← habs]
    exact hround
  · rw [UnpackedFloat.normalize, compare_eq_iff_eq.2 rfl, Int.zero_mul]
    exact .zero zeroSign
  · have hm : 0 < n.toNat := by omega
    have habs : n.toNat = n.natAbs := by omega
    have hround := hasUnits_round .positive hm k
    have hsign : (n * 2 ^ k).sign = 1 := Int.sign_eq_one_of_pos (mul_pos hn hpow)
    rw [UnpackedFloat.normalize, compare_gt_iff_gt.2 hn, nearest, hsign, natAbs_mul_two_pow,
      Int.one_mul, ← habs]
    exact hround

lemma sign_apply_mul (sign : Sign) (u k : Nat) :
    sign.apply (u * k : Nat) = sign.apply u * k := by
  cases sign <;> simp [Sign.apply]

lemma hasUnits_align (s s' : Sign) (m m' k k' : Nat) :
    HasUnits (UnpackedFloat.normalize Format.binary64
      (s.apply (decreaseExponent m (k - 1074) (min (k - 1074 : Int) (k' - 1074))).1 +
        s'.apply (decreaseExponent m' (k' - 1074) (min (k - 1074 : Int) (k' - 1074))).1)
      (min (k - 1074 : Int) (k' - 1074)) .positive)
      (nearest (s.apply (m * 2 ^ k : Nat) + s'.apply (m' * 2 ^ k' : Nat))) := by
  have hmin : min (k - 1074 : Int) (k' - 1074) = (min k k' : Nat) - 1074 := by omega
  have hsum : s.apply (m * 2 ^ k : Nat) + s'.apply (m' * 2 ^ k' : Nat) =
      (s.apply (m * 2 ^ (k - min k k') : Nat) + s'.apply (m' * 2 ^ (k' - min k k') : Nat)) *
        2 ^ min k k' := by
    rw [mul_two_pow_split (Nat.min_le_left k k'), mul_two_pow_split (Nat.min_le_right k k'),
      sign_apply_mul s _ (2 ^ min k k'), sign_apply_mul s' _ (2 ^ min k k'), ← Int.add_mul,
      Nat.cast_pow, Nat.cast_ofNat]
  rw [hmin, decreaseExponent_eq, decreaseExponent_eq, hsum]
  exact hasUnits_normalize _ _ .positive

lemma hasUnits_add {u v : UnpackedFloat} (hu : HasUnits u a) (hv : HasUnits v b)
    (ha : Fits a.natAbs) (hb : Fits b.natAbs) :
    HasUnits (UnpackedFloat.add Format.binary64 u v) (nearest (a + b)) := by
  cases hu with
  | zero sign =>
    rw [Int.zero_add, nearest_of_fits hb]
    cases hv with
    | zero sign' =>
      cases sign <;> cases sign' <;> exact .zero _
    | finite sign' hm h => exact .finite sign' hm h
  | @finite sign m e hm h =>
    cases hv with
    | zero sign' =>
      rw [Int.add_zero, nearest_of_fits ha]
      exact .finite sign hm h
    | @finite sign' m' e' hm' h' =>
      obtain ⟨k, rfl⟩ : ∃ k : Nat, e = k - 1074 := ⟨(e + 1074).toNat, by have := h.least; omega⟩
      obtain ⟨k', rfl⟩ : ∃ k : Nat, e' = k - 1074 := ⟨(e' + 1074).toNat, by have := h'.least; omega⟩
      rw [Int.sub_add_cancel, Int.toNat_natCast, Int.sub_add_cancel, Int.toNat_natCast]
      exact hasUnits_align sign sign' m m' k k'

def TooLarge (a : Int) : Prop := ∀ z c, units? z = some c → c.natAbs < a.natAbs

lemma decide_withSign_lt {negative : Bool} {u : Nat} (hu : 0 < u) :
    decide (withSign negative u < 0) = negative := by
  cases negative <;> simp [withSign, hu]

lemma pack_cases {u : UnpackedFloat} (h : HasUnits u a) :
    units? (.ofModel (Float.Model.pack u)) = some a ∨
      parts (.ofModel (Float.Model.pack u)) = .infinite (decide (a < 0)) ∧ TooLarge a := by
  cases h with
  | zero sign =>
    refine .inl ?_
    cases sign <;> rfl
  | @finite sign m e hm h =>
    have hpos : 0 < m * 2 ^ (e + 1074).toNat := Nat.mul_pos hm (Nat.two_pow_pos _)
    rw [← withSign_isNegative, decide_withSign_lt hpos]
    by_cases he : e ≤ 971
    · exact .inl (units?_of_parts (parts_pack_finite sign hm h he))
    · refine .inr ⟨parts_pack_overflow sign hm (by omega), fun z c hz => ?_⟩
      obtain ⟨negative, m', e', hparts, rfl⟩ := parts_of_units? hz
      obtain ⟨hcanonical, hmost⟩ := canonical_of_parts hparts
      rw [natAbs_withSign, natAbs_withSign]
      exact hcanonical.units_lt h (by omega)

lemma add_cases (hx : units? x = some a) (hy : units? y = some b) :
    units? (x + y) = some (nearest (a + b)) ∨
      parts (x + y) = .infinite (decide (nearest (a + b) < 0)) ∧ TooLarge (nearest (a + b)) :=
  pack_cases (hasUnits_add (hasUnits_unpack hx) (hasUnits_unpack hy) (fits_of_units? hx)
    (fits_of_units? hy))

lemma fits_of_le (h : n.natAbs ≤ 2 ^ 53) : Fits (n * 2 ^ 1074).natAbs := by
  rw [natAbs_mul_two_pow]
  rcases Nat.lt_or_eq_of_le h with hlt | heq
  · exact ⟨n.natAbs, 1074, hlt, rfl⟩
  · refine ⟨1, 53 + 1074, by decide, ?_⟩
    rw [heq, Nat.one_mul, Nat.pow_add]

lemma toInt?_pack {u : UnpackedFloat} (hu : HasUnits u (nearest (n * 2 ^ 1074)))
    (h : n.natAbs ≤ 2 ^ 53) : toInt? (.ofModel (Float.Model.pack u)) = some n := by
  rw [nearest_of_fits (fits_of_le h)] at hu
  rw [toInt?_eq_some]
  rcases pack_cases hu with hunits | ⟨-, hlarge⟩
  · exact hunits
  · -- The largest integer of 53 bits is a double itself.
    have hmost : toInt? 9007199254740992 = some (2 ^ 53) := by decide +kernel
    have hlt := hlarge _ _ (toInt?_eq_some.1 hmost)
    rw [natAbs_mul_two_pow, natAbs_mul_two_pow] at hlt
    exact absurd (Nat.lt_of_mul_lt_mul_right hlt) (Nat.not_lt.2 h)

lemma toInt?_add (hx : toInt? x = some a) (hy : toInt? y = some b) (h : (a + b).natAbs ≤ 2 ^ 53) :
    toInt? (x + y) = some (a + b) := by
  rw [toInt?_eq_some] at hx hy
  have hsum := hasUnits_add (hasUnits_unpack hx) (hasUnits_unpack hy) (fits_of_units? hx)
    (fits_of_units? hy)
  rw [← Int.add_mul] at hsum
  exact toInt?_pack hsum h

lemma exists_toInt? (h : n.natAbs ≤ 2 ^ 53) : ∃ x, toInt? x = some n :=
  ⟨_, toInt?_pack (hasUnits_normalize n 1074 .positive) h⟩

end Klang.Number

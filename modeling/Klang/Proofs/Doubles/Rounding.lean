import Mathlib.Algebra.Order.Group.Nat
import Mathlib.Data.Nat.Log
import Mathlib.Tactic.Lemma

/-! Rounding of natural numbers to 53 significant bits, to nearest and half to even, and the bits that
stand for what is cut off while a mantissa is shifted. -/

namespace Klang.Number

open Float.Model Float.Model.UnpackedFloat

variable {n m z k t : Nat}

/-- The number of times that `2 ^ t` goes into a number, to nearest and half to even. -/
def roundHalfEven (n t : Nat) : Nat :=
  if 2 * (n % 2 ^ t) < 2 ^ t then n / 2 ^ t
  else if 2 * (n % 2 ^ t) = 2 ^ t then n / 2 ^ t + n / 2 ^ t % 2
  else n / 2 ^ t + 1

def excess (n : Nat) : Nat := n.log2 + 1 - 53

def rounded (n : Nat) : Nat := roundHalfEven n (excess n) * 2 ^ excess n

def Fits (z : Nat) : Prop := ∃ m k, m < 2 ^ 53 ∧ z = m * 2 ^ k

lemma roundHalfEven_zero (n : Nat) : roundHalfEven n 0 = n := by
  simp [roundHalfEven, Nat.mod_one]

lemma roundHalfEven_mul (hkt : k ≤ t) : roundHalfEven (n * 2 ^ k) t = roundHalfEven n (t - k) := by
  obtain ⟨d, rfl⟩ := Nat.exists_eq_add_of_le hkt
  have hpow : 2 ^ (k + d) = 2 ^ d * 2 ^ k := by rw [Nat.pow_add, Nat.mul_comm]
  have hpos : 0 < 2 ^ k := Nat.two_pow_pos k
  have hdouble (a : Nat) : 2 * (a * 2 ^ k) = 2 * a * 2 ^ k := (Nat.mul_assoc 2 a _).symm
  rw [Nat.add_sub_cancel_left, roundHalfEven, roundHalfEven, hpow, Nat.mul_mod_mul_right,
    Nat.mul_div_mul_right _ _ hpos, hdouble]
  simp only [Nat.mul_lt_mul_right hpos, Nat.mul_left_inj hpos.ne']

lemma le_roundHalfEven (h : z ≤ n / 2 ^ t) : z ≤ roundHalfEven n t := by
  unfold roundHalfEven
  split
  · exact h
  · split <;> omega

lemma roundHalfEven_le (h : n ≤ z * 2 ^ t) : roundHalfEven n t ≤ z := by
  have hpos : 0 < 2 ^ t := Nat.two_pow_pos t
  have hdiv : n / 2 ^ t ≤ z := Nat.div_le_of_le_mul (Nat.mul_comm z _ ▸ h)
  have hmod := Nat.div_add_mod n (2 ^ t)
  rcases Nat.lt_or_eq_of_le hdiv with hlt | heq
  · unfold roundHalfEven
    split
    · exact hdiv
    · split <;> omega
  · -- The quotient is as large as it may be, so that nothing is cut off.
    have hrest : n % 2 ^ t = 0 := by
      rw [heq, Nat.mul_comm] at hmod
      omega
    rw [roundHalfEven, hrest, if_pos (by omega)]
    exact hdiv

lemma mul_two_pow_lt {m m' k k' : Nat} (hm : m < 2 ^ 53) (hm' : 2 ^ 52 ≤ m') (hk : k < k') :
    m * 2 ^ k < m' * 2 ^ k' := by
  calc
    m * 2 ^ k < 2 ^ 53 * 2 ^ k := Nat.mul_lt_mul_of_pos_right hm (Nat.two_pow_pos k)
    _ = 2 ^ (53 + k) := (Nat.pow_add 2 53 k).symm
    _ ≤ 2 ^ (52 + k') := Nat.pow_le_pow_right (by decide) (by omega)
    _ = 2 ^ 52 * 2 ^ k' := Nat.pow_add 2 52 k'
    _ ≤ m' * 2 ^ k' := Nat.mul_le_mul_right _ hm'

lemma le_div_of_excess_pos (h : 0 < excess n) : 2 ^ 52 ≤ n / 2 ^ excess n := by
  have hn : n ≠ 0 := by
    rintro rfl
    simp [excess] at h
  have hlog : 52 + excess n = n.log2 := by
    unfold excess at h ⊢
    omega
  rw [Nat.le_div_iff_mul_le (Nat.two_pow_pos _), ← Nat.pow_add, hlog]
  exact Nat.log2_self_le hn

lemma div_excess_lt (n : Nat) : n / 2 ^ excess n < 2 ^ 53 := by
  rw [Nat.div_lt_iff_lt_mul (Nat.two_pow_pos _), ← Nat.pow_add]
  calc
    n < 2 ^ (n.log2 + 1) := Nat.lt_log2_self
    _ ≤ 2 ^ (53 + excess n) := Nat.pow_le_pow_right (by decide) (by unfold excess; omega)

lemma fits_lt_of_excess {m k : Nat} (hm : m < 2 ^ 53) (hk : k < excess n) : m * 2 ^ k < n := by
  calc
    m * 2 ^ k < n / 2 ^ excess n * 2 ^ excess n :=
      mul_two_pow_lt hm (le_div_of_excess_pos (by omega)) hk
    _ ≤ n := Nat.div_mul_le_self n _

lemma mul_two_pow_split {m k t : Nat} (h : t ≤ k) : m * 2 ^ k = m * 2 ^ (k - t) * 2 ^ t := by
  rw [Nat.mul_assoc, ← Nat.pow_add, Nat.sub_add_cancel h]

lemma le_rounded (hz : Fits z) (h : z ≤ n) : z ≤ rounded n := by
  obtain ⟨m, k, hm, rfl⟩ := hz
  rcases Nat.lt_or_ge k (excess n) with hk | hk
  · -- The number is so large that its rounding is at least the power of two below it.
    have hdiv : 2 ^ 52 ≤ n / 2 ^ excess n := le_div_of_excess_pos (by omega)
    exact (mul_two_pow_lt hm (le_roundHalfEven hdiv) hk).le
  · rw [mul_two_pow_split hk] at h ⊢
    apply Nat.mul_le_mul_right
    exact le_roundHalfEven ((Nat.le_div_iff_mul_le (Nat.two_pow_pos _)).2 h)

lemma rounded_le (hz : Fits z) (h : n ≤ z) : rounded n ≤ z := by
  obtain ⟨m, k, hm, rfl⟩ := hz
  rcases Nat.lt_or_ge k (excess n) with hk | hk
  · exact absurd h (Nat.not_le.2 (fits_lt_of_excess hm hk))
  · rw [mul_two_pow_split hk] at h ⊢
    exact Nat.mul_le_mul_right _ (roundHalfEven_le h)

lemma roundHalfEven_dist (n t : Nat) : 2 * n ≤ 2 * (roundHalfEven n t * 2 ^ t) + 2 ^ t ∧
    2 * (roundHalfEven n t * 2 ^ t) ≤ 2 * n + 2 ^ t := by
  have hdiv := Nat.div_add_mod n (2 ^ t)
  have hmod := Nat.mod_lt n (Nat.two_pow_pos t)
  have hnext : (n / 2 ^ t + 1) * 2 ^ t = n / 2 ^ t * 2 ^ t + 2 ^ t := Nat.succ_mul _ _
  rw [Nat.mul_comm] at hdiv
  unfold roundHalfEven
  split
  · omega
  · split
    · rcases Nat.mod_two_eq_zero_or_one (n / 2 ^ t) with heven | hodd
      · rw [heven, Nat.add_zero]
        omega
      · rw [hodd]
        omega
    · omega

lemma rounded_dist (n : Nat) :
    2 ^ 53 * (n - rounded n) ≤ rounded n ∧ 2 ^ 53 * (rounded n - n) ≤ rounded n := by
  rcases Nat.eq_zero_or_pos (excess n) with hzero | hpos
  · have hsame : rounded n = n := by
      rw [rounded, hzero, roundHalfEven_zero, Nat.pow_zero, Nat.mul_one]
    rw [hsame]
    omega
  · have hdist := roundHalfEven_dist n (excess n)
    have hlarge : 2 ^ 52 * 2 ^ excess n ≤ rounded n := by
      apply Nat.mul_le_mul_right
      exact le_roundHalfEven (le_div_of_excess_pos hpos)
    change 2 * n ≤ 2 * rounded n + _ ∧ 2 * rounded n ≤ _ at hdist
    omega

/-- A mantissa shifted to the right, with a bit for the last place that was cut off and one for all
the places below. -/
structure IsShift (n t : Nat) (em : ExtendedMantissa) : Prop where
  mantissa : em.mantissa = n / 2 ^ t
  round : em.roundBit = true ↔ 2 ^ t ≤ 2 * (n % 2 ^ t)
  sticky : em.stickyBit = true ↔ n % 2 ^ t ≠ 0 ∧ 2 * (n % 2 ^ t) ≠ 2 ^ t

lemma IsShift.shiftRightOne {em : ExtendedMantissa} (h : IsShift n t em) :
    IsShift n (t + 1) em.shiftRightOne := by
  have hpow : 2 ^ (t + 1) = 2 * 2 ^ t := by rw [Nat.pow_succ, Nat.mul_comm]
  have hlt : n % 2 ^ t < 2 ^ t := Nat.mod_lt _ (Nat.two_pow_pos t)
  have hmod : n / 2 ^ t % 2 = 0 ∧ n % 2 ^ (t + 1) = n % 2 ^ t ∨
      n / 2 ^ t % 2 = 1 ∧ n % 2 ^ (t + 1) = n % 2 ^ t + 2 ^ t := by
    rw [Nat.mod_pow_succ]
    rcases Nat.mod_two_eq_zero_or_one (n / 2 ^ t) with hb | hb <;> simp [hb]
  constructor
  · rw [ExtendedMantissa.shiftRightOne, h.mantissa, Nat.div_div_eq_div_mul, Nat.pow_succ]
  · simp only [ExtendedMantissa.shiftRightOne, h.mantissa, bne_iff_ne]
    rcases hmod with ⟨hb, hm⟩ | ⟨hb, hm⟩ <;> rw [hb, hm, hpow] <;> omega
  · simp only [ExtendedMantissa.shiftRightOne, Bool.or_eq_true, h.round, h.sticky]
    rcases hmod with ⟨-, hm⟩ | ⟨-, hm⟩ <;> rw [hm, hpow] <;> omega

lemma isShift_shiftRight (n t : Nat) :
    IsShift n t (ExtendedMantissa.ofMantissaAndAccuracy n .exact >>> t) := by
  change IsShift n t (Nat.repeat ExtendedMantissa.shiftRightOne t _)
  induction t with
  | zero => constructor <;> simp [Nat.repeat, ExtendedMantissa.ofMantissaAndAccuracy, Nat.mod_one]
  | succ t ih => exact ih.shiftRightOne

lemma IsShift.roundedMantissa {em : ExtendedMantissa} (h : IsShift n t em) :
    em.roundedMantissa = roundHalfEven n t := by
  obtain ⟨m, r, s⟩ := em
  obtain ⟨rfl, hround, hsticky⟩ := h
  dsimp only at hround hsticky
  have hpos : 0 < 2 ^ t := Nat.two_pow_pos t
  cases r with
  | false =>
    have hlt : 2 * (n % 2 ^ t) < 2 ^ t := by simpa using hround
    rw [roundHalfEven, if_pos hlt]
    cases s <;> rfl
  | true =>
    have hle : 2 ^ t ≤ 2 * (n % 2 ^ t) := hround.1 rfl
    rw [roundHalfEven, if_neg (Nat.not_lt.2 hle)]
    cases s with
    | false =>
      have htie : 2 * (n % 2 ^ t) = 2 ^ t := by
        by_contra hne
        exact Bool.false_ne_true (hsticky.2 ⟨by omega, hne⟩)
      rw [if_pos htie]
      rfl
    | true =>
      rw [if_neg (hsticky.1 rfl).2]
      rfl

/-- The form of a finite double other than zero. The exponent is the least one for which the mantissa
has 53 bits. -/
structure IsCanonical (m : Nat) (e : Int) : Prop where
  lt : m < 2 ^ 53
  least : -1074 ≤ e
  full : 2 ^ 52 ≤ m ∨ e = -1074

lemma log2_mul_two_pow (hm : 0 < m) (k : Nat) : (m * 2 ^ k).log2 = m.log2 + k := by
  have hm0 : m ≠ 0 := hm.ne'
  rw [Nat.log2_eq_iff (Nat.mul_pos hm (Nat.two_pow_pos k)).ne']
  constructor
  · rw [Nat.pow_add]
    exact Nat.mul_le_mul_right _ (Nat.log2_self_le hm0)
  · rw [Nat.add_right_comm, Nat.pow_add]
    exact Nat.mul_lt_mul_of_pos_right Nat.lt_log2_self (Nat.two_pow_pos k)

lemma targetExponent_eq (hm : 0 < m) (k : Nat) :
    Format.binary64.targetExponent (totalExponent m (k - 1074)) = excess (m * 2 ^ k) - 1074 := by
  have hbits : Format.binary64.mantissaBits = 53 := rfl
  have hleast : Format.binary64.minExponent = -1074 := rfl
  rw [Format.targetExponent, totalExponent, hbits, hleast, excess, log2_mul_two_pow hm]
  omega

lemma decreaseExponent_eq (m k t : Nat) :
    decreaseExponent m (k - 1074) (t - 1074) =
      (m * 2 ^ (k - t), ((min k t : Nat) : Int) - 1074) := by
  have hshift : ((k - 1074 : Int) - (t - 1074)).toNat = k - t := by omega
  rw [decreaseExponent, hshift, Nat.shiftLeft_eq]
  congr 1
  omega

lemma shiftToTargetExponent_eq (hm : 0 < m) (k : Nat) :
    ∃ em, shiftToTargetExponent Format.binary64 m (k - 1074) .exact =
        (em, ((max k (excess (m * 2 ^ k)) : Nat) : Int) - 1074) ∧
      IsShift m (excess (m * 2 ^ k) - k) em := by
  have hshift : ((excess (m * 2 ^ k) - 1074 : Int) - (k - 1074)).toNat =
      excess (m * 2 ^ k) - k := by omega
  rw [shiftToTargetExponent, targetExponent_eq hm, shiftToExponent, hshift]
  refine ⟨_, ?_, isShift_shiftRight m _⟩
  congr 1
  omega

lemma shift_rounded {r t : Nat} (hr : 0 < r) (hle : r ≤ 2 ^ 53) (hfull : 2 ^ 52 ≤ r ∨ t = 0) :
    ∃ em e, shiftToTargetExponent Format.binary64 r (t - 1074) .exact = (em, e) ∧
      IsCanonical em.mantissa e ∧ em.mantissa * 2 ^ (e + 1074).toNat = r * 2 ^ t := by
  obtain ⟨em, hshift, hem⟩ := shiftToTargetExponent_eq hr t
  refine ⟨em, _, hshift, ?_⟩
  rw [hem.mantissa]
  rcases Nat.lt_or_eq_of_le hle with hlt | rfl
  · have hlog : r.log2 < 53 := (Nat.log2_lt hr.ne').2 hlt
    have hexcess : excess (r * 2 ^ t) ≤ t := by
      rw [excess, log2_mul_two_pow hr]
      omega
    rw [Nat.sub_eq_zero_of_le hexcess, Nat.max_eq_left hexcess, Nat.pow_zero, Nat.div_one]
    refine ⟨⟨hlt, by omega, hfull.imp id (by omega)⟩, ?_⟩
    rw [Int.sub_add_cancel, Int.toNat_natCast]
  · have hexcess : excess (2 ^ 53 * 2 ^ t) = t + 1 := by
      rw [excess, log2_mul_two_pow hr, Nat.log2_two_pow]
      omega
    rw [hexcess, Nat.add_sub_cancel_left, Nat.max_eq_right (Nat.le_succ t)]
    refine ⟨⟨by decide, by omega, .inl (by decide)⟩, ?_⟩
    rw [Int.sub_add_cancel, Int.toNat_natCast, Nat.pow_succ, Nat.pow_succ]
    omega

lemma roundHalfEven_excess_le (n : Nat) : roundHalfEven n (excess n) ≤ 2 ^ 53 := by
  apply roundHalfEven_le
  have hlt := div_excess_lt n
  rw [Nat.div_lt_iff_lt_mul (Nat.two_pow_pos _)] at hlt
  exact hlt.le

lemma roundHalfEven_excess_full (n : Nat) :
    2 ^ 52 ≤ roundHalfEven n (excess n) ∨ excess n = 0 := by
  rcases Nat.eq_zero_or_pos (excess n) with hzero | hpos
  · exact .inr hzero
  · exact .inl (le_roundHalfEven (le_div_of_excess_pos hpos))

lemma roundHalfEven_excess_pos (hn : 0 < n) : 0 < roundHalfEven n (excess n) := by
  rcases roundHalfEven_excess_full n with hfull | hzero
  · omega
  · rwa [hzero, roundHalfEven_zero]

lemma round_eq (sign : Sign) (hm : 0 < m) (k : Nat) :
    ∃ M E, ∃ hM : 0 < M,
      UnpackedFloat.round Format.binary64 sign m (k - 1074) = .finite sign M E hM ∧
      IsCanonical M E ∧ M * 2 ^ (E + 1074).toNat = rounded (m * 2 ^ k) := by
  let n := m * 2 ^ k
  let t := excess n
  have hn : 0 < n := Nat.mul_pos hm (Nat.two_pow_pos k)
  have hm' : 0 < m * 2 ^ (k - t) := Nat.mul_pos hm (Nat.two_pow_pos _)
  have hsame : m * 2 ^ (k - t) * 2 ^ min k t = n := by
    rw [Nat.mul_assoc, ← Nat.pow_add]
    congr 2
    omega
  obtain ⟨em, hshift, hem⟩ := shiftToTargetExponent_eq hm' (min k t)
  rw [hsame] at hshift hem
  have hmax : max (min k t) (excess n) = t := by omega
  have hround : em.roundedMantissa = roundHalfEven n t := by
    rw [hem.roundedMantissa, ← hsame, roundHalfEven_mul (Nat.min_le_right k t), hsame]
  obtain ⟨final, e, hfinal, hcanonical, hunits⟩ := shift_rounded (roundHalfEven_excess_pos hn)
    (roundHalfEven_excess_le n) (roundHalfEven_excess_full n)
  have hpos : final.mantissa ≠ 0 := by
    intro hzero
    rw [hzero, Nat.zero_mul] at hunits
    have := Nat.mul_pos (roundHalfEven_excess_pos hn) (Nat.two_pow_pos (excess n))
    omega
  refine ⟨final.mantissa, e, Nat.pos_of_ne_zero hpos, ?_, hcanonical, hunits⟩
  rw [UnpackedFloat.round, targetExponent_eq hm, decreaseExponent_eq]
  dsimp only
  rw [roundWithAccuracy, hshift]
  dsimp only
  rw [hround, hmax, hfinal, dif_neg hpos]

end Klang.Number

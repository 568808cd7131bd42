import Klang.Eval
import Klang.Proofs.Doubles.Sums
import Klang.Proofs.EvalSteps

/-! Ranges. A range holds the doubles that are reached from its start by adding its step again and
again, as long as they are before its end. On integers of at most 53 bits this is an arithmetic
progression. In general it comes to an end unless a sum is rounded back to what the step was added
to. -/

namespace Klang

open Eval Number

namespace Builtin

variable {x y d : Float} {a b c start stop step : Int}

/-- The doubles that counting meets. -/
def reach (d x : Float) (k : Nat) : Float := (· + d)^[k] x

lemma reach_succ (d x : Float) (k : Nat) : reach d x (k + 1) = reach d x k + d :=
  Function.iterate_succ_apply' _ k x

lemma reach_zero (d x : Float) : reach d x 0 = x := rfl

lemma numbers_succ (d x : Float) (n : Nat) (found : Array Value) :
    found.push (.number x) ++ ((List.range n).map fun k => Value.number (reach d (x + d) k)).toArray =
      found ++ ((List.range (n + 1)).map fun k => Value.number (reach d x k)).toArray := by
  rw [List.range_succ_eq_map]
  simp [reach, Function.comp_def]

lemma progression_eq_some {stop step x : Float} {bound : Nat} {found numbers : Array Value} :
    progression stop step bound x found = some numbers ↔
      ∃ n < bound, (∀ k < n, before stop step (reach step x k) = true) ∧
        before stop step (reach step x n) = false ∧
          numbers = found ++ ((List.range n).map fun k => Value.number (reach step x k)).toArray := by
  induction bound generalizing x found with
  | zero => simp [progression]
  | succ bound ih =>
    rw [progression]
    cases hx : before stop step x with
    | false =>
      simp only [Bool.false_eq_true, if_false, Option.some_inj]
      constructor
      · rintro rfl
        exact ⟨0, Nat.succ_pos _, by simp, hx, by simp⟩
      · rintro ⟨n, -, hall, -, rfl⟩
        cases n with
        | zero => simp
        | succ n =>
          have hfirst := hall 0 (Nat.succ_pos n)
          rw [reach_zero, hx] at hfirst
          cases hfirst
    | true =>
      simp only [if_true]
      rw [ih]
      constructor
      · rintro ⟨n, hn, hall, hlast, rfl⟩
        refine ⟨n + 1, Nat.succ_lt_succ hn, fun k hk => ?_, hlast, numbers_succ step x n found⟩
        cases k with
        | zero => exact hx
        | succ k => exact hall k (Nat.lt_of_succ_lt_succ hk)
      · rintro ⟨n, hn, hall, hlast, rfl⟩
        cases n with
        | zero =>
          rw [reach_zero, hx] at hlast
          cases hlast
        | succ n =>
          exact ⟨n, Nat.lt_of_succ_lt_succ hn, fun k hk => hall (k + 1) (Nat.succ_lt_succ hk),
            hlast, (numbers_succ step x n found).symm⟩

lemma before_of_pos (hd : units? d = some c) (hc : 0 < c) : before y d x = decide (x < y) := by
  rw [before, if_pos ((lt_iff units?_zero hd).2 hc)]

lemma before_of_neg (hd : units? d = some c) (hc : c < 0) : before y d x = decide (y < x) := by
  have hdown : ¬ 0.0 < d := by
    rw [lt_iff units?_zero hd]
    exact Int.not_lt.2 hc.le
  rw [before, if_neg hdown]

lemma before_iff (hx : units? x = some a) (hy : units? y = some b) (hd : units? d = some c)
    (hc : c ≠ 0) : before y d x = true ↔ 0 < (b - a) * c.sign := by
  rcases Int.lt_or_gt_of_ne hc with hneg | hpos
  · rw [before_of_neg hd hneg, decide_eq_true_iff, lt_iff hy hx, Int.sign_eq_neg_one_of_neg hneg]
    omega
  · rw [before_of_pos hd hpos, decide_eq_true_iff, lt_iff hx hy, Int.sign_eq_one_of_pos hpos]
    omega

lemma rangeOf_apply (hd : units? d = some c) (hc : c ≠ 0) (bound : Nat) (s : Store) :
    rangeOf bound [.number x, .number y, .number d] s =
      match progression y d bound x #[] with
      | some numbers => .ok (.list s.cells.size) (s.pushCell (.list numbers))
      | none => .error .exhausted s := by
  have hstep : ¬ (d == 0.0) = true := by rwa [beq_iff hd units?_zero]
  have hrange : rangeOf bound [.number x, .number y, .number d] =
      if d == 0.0 then raise .zeroStep
      else match progression y d bound x #[] with
        | some numbers => newList numbers
        | none => throw .exhausted := rfl
  rw [hrange, if_neg hstep]
  cases progression y d bound x #[] <;> rfl

lemma before_iff_of_integers (hx : toInt? x = some a) (hy : toInt? y = some stop)
    (hd : toInt? d = some step) (hstep : step ≠ 0) :
    before y d x = true ↔ 0 < (stop - a) * step.sign := by
  have hpos : (0 : Int) < 2 ^ 1074 := pow_pos two_pos 1074
  rw [toInt?_eq_some] at hx hy hd
  rw [before_iff hx hy hd (mul_ne_zero hstep hpos.ne'), ← Int.sub_mul, Int.sign_mul,
    Int.sign_eq_one_of_pos hpos, Int.mul_one, Int.mul_right_comm]
  exact mul_pos_iff_of_pos_right hpos

def steps (start stop step : Int) : Nat := ⌈((stop - start : Int) : ℚ) / step⌉₊

lemma lt_steps (hstep : step ≠ 0) (k : Nat) :
    k < steps start stop step ↔ 0 < (stop - (start + k * step)) * step.sign := by
  rw [steps, Nat.lt_ceil]
  rcases Int.lt_or_gt_of_ne hstep with hneg | hpos
  · have hcast : (step : ℚ) < 0 := by exact_mod_cast hneg
    rw [lt_div_iff_of_neg hcast, Int.sign_eq_neg_one_of_neg hneg]
    norm_cast
    omega
  · have hcast : (0 : ℚ) < step := by exact_mod_cast hpos
    rw [lt_div_iff₀ hcast, Int.sign_eq_one_of_pos hpos]
    norm_cast
    omega

lemma toInt?_reach (hx : toInt? x = some start) (hd : toInt? d = some step) {n : Nat}
    (h : ∀ k ≤ n, (start + k * step).natAbs ≤ 2 ^ 53) {k : Nat} (hk : k ≤ n) :
    toInt? (reach d x k) = some (start + k * step) := by
  induction k with
  | zero => simpa [reach] using hx
  | succ k ih =>
    have hnext : start + k * step + step = start + (k + 1 : Nat) * step := by
      rw [Nat.cast_succ, Int.add_mul, Int.one_mul, Int.add_assoc]
    rw [reach_succ, ← hnext]
    apply toInt?_add (ih (Nat.le_of_succ_le hk)) hd
    rw [hnext]
    exact h (k + 1) hk

end Builtin

open Builtin

/-- A range of integers is an arithmetic progression, for either sign of the step, as long as all of
its terms and the first one that is no longer before the end have 53 bits at most. -/
theorem range_of_integers {x y d : Float} {start stop step : Int} (hx : toInt? x = some start)
    (hy : toInt? y = some stop) (hd : toInt? d = some step) (hstep : step ≠ 0)
    (hexact : ∀ k ≤ steps start stop step, (start + k * step).natAbs ≤ 2 ^ 53) {bound : Nat}
    (hbound : steps start stop step < bound) (s : Store) :
    (∃ numbers : List Float,
      rangeOf bound [.number x, .number y, .number d] s =
        .ok (.list s.cells.size) (s.pushCell (.list (numbers.map Value.number).toArray)) ∧
      numbers.map toInt? =
        (List.range (steps start stop step)).map fun k : Nat => some (start + k * step)) ∧
    (∀ y, rangeOf bound [.number y] = rangeOf bound [.number 0.0, .number y, .number 1.0]) ∧
    (∀ x y, rangeOf bound [.number x, .number y] =
      rangeOf bound [.number x, .number y, .number 1.0]) ∧
    (toInt? 0.0 = some 0 ∧ toInt? 1.0 = some 1) ∧
    ∀ n : Int, n.natAbs ≤ 2 ^ 53 → ∃ z, toInt? z = some n := by
  let n := steps start stop step
  have hunits : units? d = some (step * 2 ^ 1074) := toInt?_eq_some.1 hd
  have hc : step * 2 ^ 1074 ≠ 0 := mul_ne_zero hstep (pow_ne_zero 1074 two_ne_zero)
  have hreach {k : Nat} (hk : k ≤ n) : toInt? (reach d x k) = some (start + k * step) :=
    toInt?_reach hx hd hexact hk
  have hbefore {k : Nat} (hk : k ≤ n) : before y d (reach d x k) = true ↔ k < n := by
    rw [before_iff_of_integers (hreach hk) hy hd hstep, lt_steps hstep]
  refine ⟨⟨(List.range n).map (reach d x), ?_, ?_⟩, fun _ => rfl, fun _ _ => rfl,
    by decide +kernel, fun _ => exists_toInt?⟩
  · have hprogression : progression y d bound x #[] =
        some ((List.range n).map fun k => Value.number (reach d x k)).toArray := by
      refine progression_eq_some.2 ⟨n, hbound, fun k hk => (hbefore hk.le).2 hk, ?_, by simp⟩
      rw [← Bool.not_eq_true, hbefore (Nat.le_refl n)]
      exact Nat.lt_irrefl n
    rw [rangeOf_apply hunits hc, hprogression, List.map_map]
    rfl
  · rw [List.map_map]
    apply List.map_congr_left
    intro k hk
    exact hreach (List.mem_range.1 hk).le

theorem range_of_integers_down :
    toInt? 10.0 = some 10 ∧ toInt? 1.0 = some 1 ∧ toInt? (-3.0) = some (-3) ∧
      (∀ k ≤ steps 10 1 (-3), (10 + k * (-3) : Int).natAbs ≤ 2 ^ 53) ∧ steps 10 1 (-3) < 4 ∧
        ∃ numbers : List Float,
          rangeOf 4 [.number 10.0, .number 1.0, .number (-3.0)] {} =
            .ok (.list 0) (({} : Store).pushCell (.list (numbers.map Value.number).toArray)) ∧
          numbers.map toInt? = [some 10, some 7, some 4] := by
  have hsteps : steps 10 1 (-3) = 3 := by
    rw [steps]
    norm_num
  have hx : toInt? 10.0 = some 10 := by decide +kernel
  have hy : toInt? 1.0 = some 1 := by decide +kernel
  have hd : toInt? (-3.0) = some (-3) := by decide +kernel
  have hexact : ∀ k ≤ steps 10 1 (-3), (10 + k * (-3) : Int).natAbs ≤ 2 ^ 53 := by
    rw [hsteps]
    intro k hk
    omega
  have hbound : steps 10 1 (-3) < 4 := by omega
  obtain ⟨⟨numbers, hrange, hnumbers⟩, -⟩ :=
    range_of_integers hx hy hd (by decide) hexact hbound {}
  rw [hsteps] at hnumbers
  exact ⟨hx, hy, hd, hexact, hbound, numbers, hrange, hnumbers⟩

namespace Builtin

variable {x y d : Float} {a b c : Int}

lemma nearest_side (ha : Fits a.natAbs) : 0 ≤ (nearest (a + c) - a) * c.sign := by
  rcases Int.lt_trichotomy c 0 with hneg | rfl | hpos
  · have := nearest_le ha (by omega : a + c ≤ a)
    rw [Int.sign_eq_neg_one_of_neg hneg]
    omega
  · rw [Int.sign_zero, Int.mul_zero]
  · have := le_nearest ha (by omega : a ≤ a + c)
    rw [Int.sign_eq_one_of_pos hpos]
    omega

lemma not_before_of_tooLarge (hx : units? x = some a) (hd : units? d = some c) (hc : c ≠ 0)
    (hinfinite : parts (x + d) = .infinite (decide (nearest (a + c) < 0)))
    (hlarge : TooLarge (nearest (a + c))) : before y d (x + d) = false := by
  have hside : 0 ≤ (nearest (a + c) - a) * c.sign := nearest_side (fits_of_units? hx)
  have hbeyond : a.natAbs < (nearest (a + c)).natAbs := hlarge x a hx
  rcases Int.lt_or_gt_of_ne hc with hneg | hpos
  · rw [Int.sign_eq_neg_one_of_neg hneg] at hside
    rw [decide_eq_true (by omega)] at hinfinite
    rw [before_of_neg hd hneg, decide_eq_false (not_lt_infinite hinfinite y)]
  · rw [Int.sign_eq_one_of_pos hpos] at hside
    rw [decide_eq_false (by omega)] at hinfinite
    rw [before_of_pos hd hpos, decide_eq_false (not_lt_of_infinite hinfinite y)]

lemma add_moves (hx : units? x = some a) (hd : units? d = some c) (hc : c ≠ 0) (hmove : x + d ≠ x)
    (hbefore : before y d (x + d) = true) :
    ∃ a', units? (x + d) = some a' ∧ 0 < (a' - a) * c.sign := by
  rcases add_cases hx hd with hsum | ⟨hinfinite, hlarge⟩
  · refine ⟨_, hsum, lt_of_le_of_ne (nearest_side (fits_of_units? hx)) fun hstill => ?_⟩
    have hsign : c.sign ≠ 0 := Int.sign_eq_zero_iff_zero.not.2 hc
    have hsame : nearest (a + c) = a := by
      rcases mul_eq_zero.1 hstill.symm with h | h
      · omega
      · exact absurd h hsign
    rw [hsame] at hsum
    by_cases ha : a = 0
    · subst ha
      rw [Int.zero_add, nearest_of_fits (fits_of_units? hd)] at hsame
      exact hc hsame
    · exact hmove (eq_of_units? hsum hx ha)
  · rw [not_before_of_tooLarge hx hd hc hinfinite hlarge] at hbefore
    cases hbefore

/-- Counting that has met a new double each time has come as far as the number of its additions. -/
lemma far_reach (hx : units? x = some a) (hd : units? d = some c) (hc : c ≠ 0) {k : Nat}
    (hmoves : ∀ j < k, reach d x (j + 1) ≠ reach d x j)
    (hall : ∀ j ≤ k, before y d (reach d x j) = true) :
    ∃ a', units? (reach d x k) = some a' ∧ k ≤ (a' - a) * c.sign := by
  induction k with
  | zero => exact ⟨a, hx, by simp⟩
  | succ k ih =>
    obtain ⟨a', hk, hle⟩ := ih (fun j hj => hmoves j (Nat.lt_succ_of_lt hj))
      fun j hj => hall j (Nat.le_succ_of_le hj)
    have hmove := hmoves k (Nat.lt_succ_self k)
    have hbefore := hall (k + 1) (Nat.le_refl _)
    rw [reach_succ] at hmove hbefore ⊢
    obtain ⟨a'', hsum, hlt⟩ := add_moves hk hd hc hmove hbefore
    refine ⟨a'', hsum, ?_⟩
    rw [Int.sub_mul] at hlt hle ⊢
    omega

lemma small_of_stays (hx : units? x = some a) (hd : units? d = some c) (h : x + d = x) :
    2 ^ 53 * c.natAbs ≤ a.natAbs := by
  have hdist := nearest_dist (a + c)
  rcases add_cases hx hd with hsum | ⟨hinfinite, -⟩
  · rw [h, hx, Option.some_inj] at hsum
    rw [← hsum] at hdist
    omega
  · rw [h] at hinfinite
    rw [units?, hinfinite] at hx
    cases hx

lemma reach_stays {k : Nat} (h : reach d x (k + 1) = reach d x k) (j : Nat) :
    reach d x (k + j) = reach d x k := by
  induction j with
  | zero => rfl
  | succ j ih =>
    rw [reach_succ] at h
    rw [← Nat.add_assoc, reach_succ, ih, h]

lemma rangeOf_ends_iff (hd : units? d = some c) (hc : c ≠ 0) (s : Store) :
    (∃ bound v t, rangeOf bound [.number x, .number y, .number d] s = .ok v t) ↔
      ∃ n, before y d (reach d x n) = false := by
  constructor
  · rintro ⟨bound, v, t, h⟩
    rw [rangeOf_apply hd hc] at h
    cases hnumbers : progression y d bound x #[] with
    | none =>
      rw [hnumbers] at h
      cases h
    | some numbers =>
      obtain ⟨n, -, -, hn, -⟩ := progression_eq_some.1 hnumbers
      exact ⟨n, hn⟩
  · intro h
    -- The range ends at the first double that is not before its end.
    have hfirst : ∀ k < Nat.find h, before y d (reach d x k) = true := by
      intro k hk
      exact Bool.eq_true_of_not_eq_false (Nat.find_min h hk)
    have hnumbers : progression y d (Nat.find h + 1) x #[] = some _ :=
      progression_eq_some.2 ⟨Nat.find h, Nat.lt_succ_self _, hfirst, Nat.find_spec h, rfl⟩
    have hrange : rangeOf (Nat.find h + 1) [.number x, .number y, .number d] s = _ :=
      rangeOf_apply hd hc _ s
    rw [hnumbers] at hrange
    exact ⟨_, _, _, hrange⟩

lemma ends_iff_moves (hx : units? x = some a) (hy : units? y = some b) (hd : units? d = some c)
    (hc : c ≠ 0) : (∃ n, before y d (reach d x n) = false) ↔
      ∀ k, (∀ j ≤ k, before y d (reach d x j) = true) → reach d x (k + 1) ≠ reach d x k := by
  constructor
  · rintro ⟨n, hn⟩ k hall hstays
    rcases Nat.le_total n k with hle | hle
    · rw [hall n hle] at hn
      cases hn
    · obtain ⟨j, rfl⟩ := Nat.exists_eq_add_of_le hle
      rw [reach_stays hstays j, hall k (Nat.le_refl k)] at hn
      cases hn
  · intro hmoves
    by_contra hnone
    have hall (j : Nat) : before y d (reach d x j) = true :=
      Bool.eq_true_of_not_eq_false fun hj => hnone ⟨j, hj⟩
    -- After as many additions as there are units to the end the end is passed.
    let far := ((b - a) * c.sign).toNat
    obtain ⟨a', hfar, hle⟩ := far_reach hx hd hc (fun j _ => hmoves j fun i _ => hall i)
      fun j (_ : j ≤ far) => hall j
    have hlt := (before_iff hfar hy hd hc).1 (hall far)
    rw [Int.sub_mul] at hlt hle
    have htotal := Int.sub_mul b a c.sign
    omega

/-- Between a start and an end that are small beside the step no addition is lost. -/
lemma moves_of_small (hx : units? x = some a) (hy : units? y = some b) (hd : units? d = some c)
    (hc : c ≠ 0) (ha : a.natAbs < 2 ^ 53 * c.natAbs) (hb : b.natAbs < 2 ^ 53 * c.natAbs) (k : Nat)
    (hall : ∀ j ≤ k, before y d (reach d x j) = true) : reach d x (k + 1) ≠ reach d x k := by
  induction k using Nat.strongRecOn with
  | ind k ih =>
    intro hstays
    obtain ⟨a', hk, hle⟩ := far_reach hx hd hc
      (fun j hj => ih j hj fun i hi => hall i (hi.trans hj.le)) hall
    rw [reach_succ] at hstays
    have hsmall := small_of_stays hk hd hstays
    have hlt := (before_iff hk hy hd hc).1 (hall k (Nat.le_refl k))
    rcases Int.lt_or_gt_of_ne hc with hneg | hpos
    · rw [Int.sign_eq_neg_one_of_neg hneg] at hlt hle
      omega
    · rw [Int.sign_eq_one_of_pos hpos] at hlt hle
      omega

end Builtin

/-- A range comes to an end exactly if each addition before the end makes a different double. This is
so if start and end are less than `2 ^ 53` times the step. -/
theorem range_ends_iff {x y d : Float} {a b c : Int} (hx : units? x = some a) (hy : units? y = some b)
    (hd : units? d = some c) (hc : c ≠ 0) (s : Store) :
    ((∃ bound v t, rangeOf bound [.number x, .number y, .number d] s = .ok v t) ↔
      ∀ k, (∀ j ≤ k, before y d (reach d x j) = true) → reach d x (k + 1) ≠ reach d x k) ∧
    (a.natAbs < 2 ^ 53 * c.natAbs → b.natAbs < 2 ^ 53 * c.natAbs →
      ∃ bound v t, rangeOf bound [.number x, .number y, .number d] s = .ok v t) := by
  have hends := (rangeOf_ends_iff (y := y) hd hc s).trans (ends_iff_moves hx hy hd hc)
  exact ⟨hends, fun ha hb => hends.2 (moves_of_small hx hy hd hc ha hb)⟩

/-- From `2 ^ 53` up to the next double by 1: the sum is rounded back to the start. -/
theorem range_ends_iff_stays :
    let x : Float := 9007199254740992
    let y : Float := 9007199254740994
    units? x = some (2 ^ 53 * 2 ^ 1074) ∧ units? y = some ((2 ^ 53 + 2) * 2 ^ 1074) ∧
      units? 1.0 = some (1 * 2 ^ 1074) ∧ x + 1.0 = x ∧
        ¬ ∃ bound v t, rangeOf bound [.number x, .number y, .number 1.0] {} = .ok v t := by
  intro x y
  have hx : units? x = some (2 ^ 53 * 2 ^ 1074) := toInt?_eq_some.1 (by decide +kernel)
  have hy : units? y = some ((2 ^ 53 + 2) * 2 ^ 1074) := toInt?_eq_some.1 (by decide +kernel)
  have hd : units? 1.0 = some (1 * 2 ^ 1074) := toInt?_eq_some.1 (by decide +kernel)
  have hc : (1 * 2 ^ 1074 : Int) ≠ 0 := mul_ne_zero one_ne_zero (pow_ne_zero 1074 two_ne_zero)
  have hstays : x + 1.0 = x := by decide +kernel
  refine ⟨hx, hy, hd, hstays, fun hends => ?_⟩
  refine (range_ends_iff hx hy hd hc {}).1.1 hends 0 (fun j hj => ?_) hstays
  obtain rfl := Nat.le_zero.1 hj
  decide +kernel

end Klang

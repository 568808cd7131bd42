import Klang.Proofs.Doubles.DecimalTexts
import Klang.Value.Coercion

/-! Numbers as keys of maps. Two numbers have the same text exactly if they are equal or both are
not numbers. -/

namespace Klang

namespace Number

open Float.Model Float.Model.UnpackedFloat

variable {x y : Float} {n : Int} {negative : Bool} {m : Nat} {e : Int}

lemma isNaN_iff : x.isNaN = true ↔ parts x = .nan := by
  rw [← ofUnpacked_toModel x]
  change x.toModel.unpack.isNaN = true ↔ _
  cases x.toModel.unpack <;> simp [UnpackedFloat.isNaN, Parts.ofUnpacked]

lemma beq_iff_of_not_finite (h : units? x = none ∨ units? y = none) :
    (x == y) = true ↔ ∃ negative, parts x = .infinite negative ∧ parts y = .infinite negative := by
  change (x.toModel.unpack.compare y.toModel.unpack == some .eq) = true ↔ _
  simp only [units?] at h
  rw [← ofUnpacked_toModel x, ← ofUnpacked_toModel y] at h ⊢
  generalize x.toModel.unpack = u at *
  generalize y.toModel.unpack = v at *
  cases u with
  | notANumber => simp [UnpackedFloat.compare, Parts.ofUnpacked]
  | infinity s =>
    cases v with
    | infinity s' =>
      have hself (s : Sign) : compare s s = .eq := by cases s <;> decide
      cases s <;> cases s' <;> simp [UnpackedFloat.compare, Parts.ofUnpacked, isNegative, hself]
    | _ => cases s <;> simp [UnpackedFloat.compare, Parts.ofUnpacked]
  | _ =>
    cases v with
    | infinity s' => cases s' <;> simp [UnpackedFloat.compare, Parts.ofUnpacked]
    | notANumber => simp [UnpackedFloat.compare, Parts.ofUnpacked]
    | _ => simp [Parts.ofUnpacked, Parts.units?] at h

def specialTexts : List String := ["NaN", "Infinity", "-Infinity"]

lemma toString_eq (n : Int) : (toString n).toList =
    (if 0 ≤ n then [] else ['-']) ++ Nat.toDigits 10 n.natAbs := by
  rw [Int.toString_eq_repr, Int.repr_eq_if]
  split
  · rw [Nat.toList_repr, List.nil_append]
    congr 1
    omega
  · rw [String.toList_append, Nat.toList_repr]
    congr 2
    omega

lemma isDigit_of_mem_toString {c : Char} (h : c ∈ (toString n).toList) :
    c.isDigit = true ∨ c = '-' := by
  rw [toString_eq] at h
  rcases List.mem_append.1 h with h | h
  · split at h
    · cases h
    · exact .inr (List.mem_singleton.1 h)
  · exact .inl (allDigits_toDigits _ c h)

lemma toString_ne_shortestText : toString n ≠ shortestText negative m e := by
  intro h
  have hmark := mark_mem_shortestText negative m e
  rw [← h] at hmark
  rcases hmark with hmark | hmark
  · exact absurd (isDigit_of_mem_toString hmark) (by decide)
  · exact absurd (isDigit_of_mem_toString hmark) (by decide)

lemma toString_not_mem_specialTexts : toString n ∉ specialTexts := by
  intro h
  have hall : ∀ text ∈ specialTexts, 'N' ∈ text.toList ∨ 'I' ∈ text.toList := by decide
  rcases hall _ h with hletter | hletter
  · exact absurd (isDigit_of_mem_toString hletter) (by decide)
  · exact absurd (isDigit_of_mem_toString hletter) (by decide)

lemma shortestText_not_mem_specialTexts : shortestText negative m e ∉ specialTexts := by
  intro h
  have hall : ∀ text ∈ specialTexts, '.' ∉ text.toList ∧ 'e' ∉ text.toList := by decide
  obtain ⟨hpoint, hexponent⟩ := hall _ h
  exact (mark_mem_shortestText negative m e).elim hpoint hexponent

/-- Which texts are shown for which doubles. -/
inductive Shows (x : Float) : String → Prop
  | nan : parts x = .nan → Shows x "NaN"
  | infinite {negative : Bool} : parts x = .infinite negative →
      Shows x (if negative then "-Infinity" else "Infinity")
  | integer {n : Int} : toInt? x = some n → n.natAbs < plainLimit → Shows x (toString n)
  | shortest {negative : Bool} {m : Nat} {e : Int} : parts x = .finite negative m e → 0 < m →
      Shows x (shortestText negative m e)

lemma toInt?_of_parts_zero (h : parts x = .finite negative 0 e) : toInt? x = some 0 := by
  rw [toInt?_of_parts h]
  split
  · cases negative <;> simp [withSign]
  · cases negative <;> simp [withSign]

lemma shows_display (x : Float) : Shows x (display x) := by
  unfold display
  cases hx : parts x with
  | nan => exact .nan hx
  | infinite negative => exact .infinite hx
  | finite negative m e =>
    have hzero : m = 0 → toInt? x = some 0 := by
      rintro rfl
      exact toInt?_of_parts_zero hx
    dsimp only
    cases hn : toInt? x with
    | none =>
      refine .shortest hx (Nat.pos_of_ne_zero fun hm => ?_)
      rw [hzero hm] at hn
      cases hn
    | some n =>
      dsimp only
      split
      · rename_i hlimit
        exact .integer hn hlimit
      · rename_i hlimit
        refine .shortest hx (Nat.pos_of_ne_zero fun hm => hlimit ?_)
        rw [hzero hm] at hn
        cases hn
        decide

lemma Shows.parts_of_special {text : String} (h : Shows x text) (ht : text ∈ specialTexts) :
    parts x = if text = "NaN" then .nan else .infinite (text = "-Infinity") := by
  cases h with
  | nan hx => exact hx
  | @infinite negative hx => cases negative <;> exact hx
  | integer => exact absurd ht toString_not_mem_specialTexts
  | shortest => exact absurd ht shortestText_not_mem_specialTexts

lemma Shows.exists_units? {text : String} (hx : Shows x text) (hy : Shows y text)
    (ht : text ∉ specialTexts) : ∃ a, units? x = some a ∧ units? y = some a := by
  generalize htext : text = text' at hy
  cases hx with
  | nan => exact absurd (by decide) ht
  | @infinite negative => exact absurd (by cases negative <;> decide) ht
  | @integer n hn =>
    cases hy with
    | nan => exact absurd (by rw [htext]; decide) ht
    | @infinite negative => exact absurd (by rw [htext]; cases negative <;> decide) ht
    | @integer n' hn' =>
      obtain rfl : n = n' := Int.repr_inj.1 htext
      exact ⟨_, toInt?_eq_some.1 hn, toInt?_eq_some.1 hn'⟩
    | shortest => exact absurd htext toString_ne_shortestText
  | shortest hx hm =>
    cases hy with
    | nan => exact absurd (by rw [htext]; decide) ht
    | @infinite negative => exact absurd (by rw [htext]; cases negative <;> decide) ht
    | integer => exact absurd htext.symm toString_ne_shortestText
    | shortest hy hm' =>
      obtain ⟨rfl, rfl, rfl⟩ := eq_of_shortestText (canonical_of_parts hx).1
        (canonical_of_parts hy).1 hm hm' htext
      exact ⟨_, units?_of_parts hx, units?_of_parts hy⟩

/-- Equal texts are shown only for doubles of equal value, or for such that are not numbers. -/
lemma Shows.eq_or {text : String} (hx : Shows x text) (hy : Shows y text) :
    (x == y) = true ∨ x.isNaN = true ∧ y.isNaN = true := by
  by_cases ht : text ∈ specialTexts
  · have hparts := hx.parts_of_special ht
    have hparts' := hy.parts_of_special ht
    split at hparts
    · rename_i hnan
      rw [if_pos hnan] at hparts'
      exact .inr ⟨isNaN_iff.2 hparts, isNaN_iff.2 hparts'⟩
    · rename_i hnan
      rw [if_neg hnan] at hparts'
      have hnone : units? x = none := by
        rw [units?, hparts]
        rfl
      exact .inl ((beq_iff_of_not_finite (.inl hnone)).2 ⟨_, hparts, hparts'⟩)
  · obtain ⟨a, hx, hy⟩ := hx.exists_units? hy ht
    exact .inl ((beq_iff hx hy).2 rfl)

lemma display_congr (h : (x == y) = true) : display x = display y := by
  cases hx : units? x with
  | none =>
    obtain ⟨negative, hparts, hparts'⟩ := (beq_iff_of_not_finite (.inl hx)).1 h
    simp only [display, hparts, hparts']
  | some a =>
    cases hy : units? y with
    | none =>
      obtain ⟨negative, hparts, hparts'⟩ := (beq_iff_of_not_finite (.inr hy)).1 h
      simp only [display, hparts, hparts']
    | some b =>
      obtain rfl := (beq_iff hx hy).1 h
      rcases eq_or_ne a 0 with rfl | ha
      · have hx' : toInt? x = some 0 := toInt?_eq_some.2 (by rw [hx, Int.zero_mul])
        have hy' : toInt? y = some 0 := toInt?_eq_some.2 (by rw [hy, Int.zero_mul])
        obtain ⟨_, _, _, hparts, _⟩ := parts_of_units? hx
        obtain ⟨_, _, _, hparts', _⟩ := parts_of_units? hy
        simp only [display, hparts, hparts', hx', hy']
        rfl
      · rw [eq_of_units? hx hy ha]

lemma display_eq_iff :
    display x = display y ↔ (x == y) = true ∨ x.isNaN = true ∧ y.isNaN = true := by
  constructor
  · intro h
    exact (shows_display x).eq_or (h ▸ shows_display y)
  · rintro (h | ⟨hx, hy⟩)
    · exact display_congr h
    · simp only [display, isNaN_iff.1 hx, isNaN_iff.1 hy]

end Number

/-- Two numbers are the same key exactly if they are equal or both are not numbers; the texts of
integers, those with a point or an exponent, and the special ones have none in common. -/
theorem mapKey_number_eq_iff (x y : Float) :
    (Value.mapKey (.number x) = Value.mapKey (.number y) ↔
      (x == y) = true ∨ x.isNaN = true ∧ y.isNaN = true) ∧
    ∀ (n : Int) (negative : Bool) (mantissa : Nat) (exponent : Int),
      toString n ≠ Number.shortestText negative mantissa exponent ∧
      ∀ special ∈ ["NaN", "Infinity", "-Infinity"],
        special ≠ toString n ∧ special ≠ Number.shortestText negative mantissa exponent := by
  constructor
  · have hkey (z : Float) : Value.mapKey (.number z) = .ok (Number.display z) := rfl
    rw [hkey, hkey, Except.ok.injEq, Number.display_eq_iff]
  · refine fun n negative mantissa exponent => ⟨Number.toString_ne_shortestText, ?_⟩
    rintro special hspecial
    constructor
    · rintro rfl
      exact Number.toString_not_mem_specialTexts hspecial
    · rintro rfl
      exact Number.shortestText_not_mem_specialTexts hspecial

example : Number.display (-0.0) = Number.display 0.0 := by decide +kernel

end Klang

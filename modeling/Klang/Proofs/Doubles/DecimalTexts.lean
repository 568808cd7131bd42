import Klang.Number.Text
import Klang.Proofs.Doubles.Decimals

/-! Texts of decimals. Reading the text of a decimal gives its value, so the text of a double gives
the double. -/

namespace Klang.Number

variable {m m' : Nat} {e e' : Int} {d : Decimal} {negative negative' : Bool}
  {whole fraction point tail digits : List Char}

def readExponent : List Char → Int
  | '-' :: digits => -Nat.ofDigitChars 10 digits 0
  | '+' :: digits => Nat.ofDigitChars 10 digits 0
  | _ => 0

def Decimal.ofText (text : List Char) : Decimal :=
  let mantissa := text.takeWhile (· ≠ 'e')
  let whole := mantissa.takeWhile (· ≠ '.')
  let fraction := mantissa.drop (whole.length + 1)
  ⟨Nat.ofDigitChars 10 (whole ++ fraction) 0,
    readExponent (text.drop (mantissa.length + 1)) - fraction.length⟩

def AllDigits (text : List Char) : Prop := ∀ c ∈ text, c.isDigit = true

lemma AllDigits.append (hw : AllDigits whole) (hf : AllDigits fraction) :
    AllDigits (whole ++ fraction) :=
  List.forall_mem_append.2 ⟨hw, hf⟩

lemma allDigits_zeros (count : Nat) : AllDigits (zeros count) := by
  intro c hc
  obtain rfl := List.eq_of_mem_replicate hc
  rfl

lemma allDigits_toDigits (n : Nat) : AllDigits (Nat.toDigits 10 n) :=
  fun _ hc => Nat.isDigit_of_mem_toDigits (by decide) (by decide) hc

lemma AllDigits.ne (h : AllDigits digits) {c : Char} (hc : c.isDigit = false) :
    ∀ d ∈ digits, decide (d ≠ c) = true := by
  intro d hd
  rw [decide_eq_true_iff]
  rintro rfl
  rw [h d hd] at hc
  cases hc

lemma takeWhile_ne_append (h : AllDigits digits) {c : Char} (hc : c.isDigit = false)
    {rest : List Char} (hrest : ∀ d ∈ rest.head?, d = c) :
    (digits ++ rest).takeWhile (· ≠ c) = digits := by
  rw [List.takeWhile_append_of_pos (h.ne hc)]
  cases rest with
  | nil => rw [List.takeWhile_nil, List.append_nil]
  | cons d rest => rw [List.takeWhile_cons_of_neg (by simp [hrest d rfl]), List.append_nil]

lemma ofText_append (hw : AllDigits whole) (hf : AllDigits fraction)
    (hpoint : point = '.' :: fraction ∨ point = [] ∧ fraction = [])
    (htail : ∀ c ∈ tail.head?, c = 'e') :
    Decimal.ofText (whole ++ point ++ tail) =
      ⟨Nat.ofDigitChars 10 (whole ++ fraction) 0,
        readExponent (tail.drop 1) - fraction.length⟩ := by
  have he : 'e'.isDigit = false := by decide
  have hdot : '.'.isDigit = false := by decide
  have hmantissa : (whole ++ point ++ tail).takeWhile (· ≠ 'e') = whole ++ point := by
    rcases hpoint with rfl | ⟨rfl, rfl⟩
    · rw [List.append_assoc, List.takeWhile_append_of_pos (hw.ne he), List.cons_append,
        List.takeWhile_cons_of_pos (by decide), takeWhile_ne_append hf he htail]
    · rw [List.append_nil, takeWhile_ne_append hw he htail]
  have hpart : (whole ++ point).takeWhile (· ≠ '.') = whole := by
    refine takeWhile_ne_append hw hdot ?_
    rcases hpoint with rfl | ⟨rfl, rfl⟩ <;> simp
  have hfraction : (whole ++ point).drop (whole.length + 1) = fraction := by
    rw [List.drop_length_add_append]
    rcases hpoint with rfl | ⟨rfl, rfl⟩ <;> rfl
  have hexponent : (whole ++ point ++ tail).drop ((whole ++ point).length + 1) = tail.drop 1 :=
    List.drop_length_add_append _
  rw [Decimal.ofText, hmantissa, hpart, hfraction, hexponent]

lemma ofText_point (hw : AllDigits whole) (hf : AllDigits fraction) :
    Decimal.ofText (whole ++ '.' :: fraction) =
      ⟨Nat.ofDigitChars 10 (whole ++ fraction) 0, -fraction.length⟩ := by
  have htail : ∀ c ∈ ([] : List Char).head?, c = 'e' := by simp
  have hread := ofText_append hw hf (.inl rfl) htail
  have hnone : readExponent ([].drop 1) = 0 := rfl
  rwa [List.append_nil, hnone, Int.zero_sub] at hread

lemma ofDigitChars_zeros_append (count : Nat) (digits : List Char) :
    Nat.ofDigitChars 10 (zeros count ++ digits) 0 = Nat.ofDigitChars 10 digits 0 := by
  rw [zeros, Nat.ofDigitChars_append, Nat.ofDigitChars_replicate_zero, Nat.mul_zero]

lemma readExponent_exponentText (exponent : Int) :
    readExponent ((exponentText exponent).drop 1) = exponent := by
  have hdigits : Nat.ofDigitChars 10 (zeros (2 - exponent.natAbs.repr.toList.length) ++
      exponent.natAbs.repr.toList) 0 = exponent.natAbs := by
    rw [ofDigitChars_zeros_append, Nat.toList_repr, Nat.ofDigitChars_ten_toDigits]
  simp only [exponentText, List.drop_succ_cons, List.drop_zero]
  split
  · rw [readExponent, hdigits]
    omega
  · rw [readExponent, hdigits]
    omega

lemma allDigits_split (h : AllDigits digits) (k : Nat) :
    AllDigits (digits.take k) ∧ AllDigits (digits.drop k) :=
  ⟨fun c hc => h c (List.take_subset _ _ hc), fun c hc => h c (List.drop_subset _ _ hc)⟩

lemma ofText_below (h : AllDigits digits) (count : Nat) :
    Decimal.ofText ('0' :: '.' :: (zeros count ++ digits)) =
      ⟨Nat.ofDigitChars 10 digits 0, -(count + digits.length)⟩ := by
  refine (ofText_point (allDigits_zeros 1) ((allDigits_zeros count).append h)).trans ?_
  rw [ofDigitChars_zeros_append, ofDigitChars_zeros_append, List.length_append, zeros,
    List.length_replicate, Nat.cast_add]

lemma ofText_above (h : AllDigits digits) (count : Nat) :
    Decimal.ofText (digits ++ zeros count ++ ['.', '0']) =
      ⟨Nat.ofDigitChars 10 digits 0 * 10 ^ (count + 1), -1⟩ := by
  refine (ofText_point (h.append (allDigits_zeros count)) (allDigits_zeros 1)).trans
    (congrArg₂ Decimal.mk ?_ rfl)
  rw [List.append_assoc, zeros, zeros, List.replicate_append_replicate, Nat.ofDigitChars_append,
    Nat.ofDigitChars_replicate_zero, Nat.mul_comm]

lemma ofText_across (h : AllDigits digits) {k : Nat} (hk : k ≤ digits.length) :
    Decimal.ofText (digits.take k ++ '.' :: digits.drop k) =
      ⟨Nat.ofDigitChars 10 digits 0, k - digits.length⟩ := by
  rw [ofText_point (allDigits_split h k).1 (allDigits_split h k).2, List.take_append_drop,
    List.length_drop]
  congr 1
  omega

lemma ofText_scientific (h : AllDigits digits) (hne : digits ≠ []) (exponent : Int) :
    Decimal.ofText (digits.take 1 ++
        (if (digits.drop 1).isEmpty then [] else '.' :: digits.drop 1) ++ exponentText exponent) =
      ⟨Nat.ofDigitChars 10 digits 0, exponent - (digits.length - 1)⟩ := by
  have hpoint :
      (if (digits.drop 1).isEmpty then [] else '.' :: digits.drop 1) = '.' :: digits.drop 1 ∨
      (if (digits.drop 1).isEmpty then [] else '.' :: digits.drop 1) = [] ∧ digits.drop 1 = [] := by
    split
    · rename_i hempty
      exact .inr ⟨rfl, List.isEmpty_iff.1 hempty⟩
    · exact .inl rfl
  have htail : ∀ c ∈ (exponentText exponent).head?, c = 'e' := by simp [exponentText]
  have hlength := List.length_pos_iff.2 hne
  rw [ofText_append (allDigits_split h 1).1 (allDigits_split h 1).2 hpoint htail,
    List.take_append_drop, readExponent_exponentText, List.length_drop]
  congr 1
  omega

lemma value_mul_pow (n k : Nat) (power : Int) :
    Decimal.value ⟨n * 10 ^ k, power - k⟩ = Decimal.value ⟨n, power⟩ := by
  rw [Decimal.value, Decimal.value, Nat.cast_mul, Nat.cast_pow, ← zpow_natCast, mul_assoc,
    Nat.cast_ofNat, ← zpow_add₀ (by norm_num)]
  congr 2
  ring

lemma value_ofText_text (d : Decimal) : (Decimal.ofText d.text).value = d.value := by
  obtain ⟨n, power⟩ := d
  have hdigits := allDigits_toDigits n
  have hn : Nat.ofDigitChars 10 (Nat.toDigits 10 n) 0 = n := Nat.ofDigitChars_ten_toDigits
  have hne : Nat.toDigits 10 n ≠ [] := Nat.toDigits_ne_nil
  simp only [Decimal.text, Nat.toList_repr]
  generalize Nat.toDigits 10 n = digits at *
  split
  · split
    · rw [ofText_below hdigits, hn]
      congr 2
      omega
    · split
      · rename_i hpower
        rw [ofText_above hdigits, hn, ← value_mul_pow n (power.toNat + 1)]
        congr 2
        omega
      · rw [ofText_across hdigits (by omega), hn]
        congr 2
        omega
  · rw [ofText_scientific hdigits hne, hn]
    congr 2
    omega

lemma exists_text_eq_cons (d : Decimal) : ∃ c rest, d.text = c :: rest ∧ c.isDigit = true := by
  obtain ⟨c, digits, hcons⟩ : ∃ c digits, Nat.toDigits 10 d.digits = c :: digits :=
    List.exists_cons_of_ne_nil Nat.toDigits_ne_nil
  have hc : c.isDigit = true := allDigits_toDigits d.digits c (by simp [hcons])
  simp only [Decimal.text, Nat.toList_repr, hcons]
  split
  · split
    · exact ⟨_, _, rfl, by decide⟩
    · split
      · exact ⟨c, _, rfl, hc⟩
      · obtain ⟨k, hk⟩ : ∃ k, (((c :: digits).length : Int) + d.power).toNat = k + 1 :=
          ⟨_, (Nat.succ_pred (by omega)).symm⟩
        rw [hk]
        exact ⟨c, _, rfl, hc⟩
  · exact ⟨c, _, rfl, hc⟩

lemma mark_mem_text (d : Decimal) : '.' ∈ d.text ∨ 'e' ∈ d.text := by
  unfold Decimal.text
  dsimp only
  split
  · refine .inl ?_
    split
    · simp
    · split <;> simp
  · exact .inr (by simp [exponentText])

lemma mark_mem_shortestText (negative : Bool) (m : Nat) (e : Int) :
    '.' ∈ (shortestText negative m e).toList ∨ 'e' ∈ (shortestText negative m e).toList := by
  have hsigned {text : List Char} (h : '.' ∈ text ∨ 'e' ∈ text) :
      '.' ∈ (signed negative text).toList ∨ 'e' ∈ (signed negative text).toList := by
    unfold signed
    cases negative <;> simpa using h
  unfold shortestText
  split
  · exact hsigned (.inl (by simp))
  · exact hsigned (mark_mem_text _)

lemma signed_inj {d d' : Decimal} (h : signed negative d.text = signed negative' d'.text) :
    negative = negative' ∧ d.text = d'.text := by
  obtain ⟨c, rest, htext, hc⟩ := exists_text_eq_cons d
  obtain ⟨c', rest', htext', hc'⟩ := exists_text_eq_cons d'
  have hlist := String.ofList_inj.1 h
  have hminus : '-'.isDigit = false := by decide
  rw [htext, htext'] at hlist ⊢
  cases negative <;> cases negative' <;> simp only [if_true, if_false, Bool.false_eq_true] at hlist
  · exact ⟨rfl, hlist⟩
  · rw [(List.cons.inj hlist).1, hminus] at hc
    cases hc
  · rw [← (List.cons.inj hlist).1, hminus] at hc'
    cases hc'
  · exact ⟨rfl, (List.cons.inj hlist).2⟩

lemma eq_of_shortestText (h : IsCanonical m e) (h' : IsCanonical m' e') (hm : 0 < m) (hm' : 0 < m')
    (htext : shortestText negative m e = shortestText negative' m' e') :
    negative = negative' ∧ m = m' ∧ e = e' := by
  rw [shortestText, if_neg hm.ne', shortestText, if_neg hm'.ne'] at htext
  obtain ⟨hsign, hdecimal⟩ := signed_inj htext
  refine ⟨hsign, eq_of_value_shortest h h' hm hm' ?_⟩
  rw [← value_ofText_text, hdecimal, value_ofText_text]

end Klang.Number

import Klang.Node.Parser
import Mathlib.Tactic.Lemma

/-! How expressions begin, and what the parsers conclude from it: a statement that begins so is an
expression, and a brace in front of it opens a block. -/

namespace Klang

namespace Parser

open Token

def startsOperand (t : Token) : Bool :=
  (atom? t).isSome || isSign t || t.isSymbol "(" || t.isSymbol "["

inductive Opening : List Token → Prop
  | operand {t} : startsOperand t → Opening [t]
  | operands {t u ts} : startsOperand t → (t.isMapKey → u.isDelimiter ":" = false) →
      Opening (t :: u :: ts)
  | function {t u ts} : t.isKeyword "def" → u.isSymbol "(" → Opening (t :: u :: ts)
  | lambda {t ts} : t.isKeyword "forge" → Opening (t :: ts)
  | map {ts} : looksLikeMap ts → Opening ts

lemma looksLikeMap_append {ts : List Token} (h : looksLikeMap ts = true) (us : List Token) :
    looksLikeMap (ts ++ us) = true := by
  match ts with
  | [] | [_] => cases h
  | [brace, next] =>
    simp only [looksLikeMap, List.head?_nil, Option.map_none, Option.getD_none, Bool.and_false,
      Bool.or_false] at h
    simp only [List.cons_append, List.nil_append, looksLikeMap, Bool.and_eq_true, Bool.or_eq_true] at h ⊢
    exact ⟨h.1, .inl h.2⟩
  | brace :: next :: third :: ts => exact h

lemma Opening.append {ts : List Token} (h : Opening ts) {u : Token}
    (hu : u.isDelimiter ":" = false) (us : List Token) : Opening (ts ++ u :: us) := by
  cases h with
  | operand ht => exact .operands ht fun _ => hu
  | operands ht hcolon => exact .operands ht hcolon
  | function ht hu => exact .function ht hu
  | lambda ht => exact .lambda ht
  | map hm => exact .map (looksLikeMap_append hm _)

lemma isSymbol_of_startsOperand {t : Token} {value : String} (h : startsOperand t = true)
    (hs : t.isSymbol value = true) : value ∈ ["!", "-", "(", "["] := by
  simp only [isSymbol, Bool.and_eq_true, Bool.or_eq_true, decide_eq_true_eq] at hs
  obtain ⟨hkind, rfl⟩ := hs
  have hatom : atom? t = none := by
    rcases hkind with hkind | hkind <;> simp [atom?, hkind]
  simp only [startsOperand, hatom, isSign, isSymbol] at h
  rcases hkind with hkind | hkind <;> simpa [hkind, or_assoc] using h

lemma isKeyword_of_startsOperand {t : Token} {value : String} (h : startsOperand t = true)
    (hk : t.isKeyword value = true) : value = "true" ∨ value = "false" := by
  simp only [isKeyword, Bool.and_eq_true, decide_eq_true_eq] at hk
  obtain ⟨hkind, rfl⟩ := hk
  simp only [startsOperand, isSign, isSymbol, hkind, atom?] at h
  by_cases htrue : t.value = "true"
  · exact .inl htrue
  · by_cases hfalse : t.value = "false"
    · exact .inr hfalse
    · simp [htrue, hfalse] at h

lemma looksLikeMap_eq_true {ts : List Token} (h : looksLikeMap ts = true) :
    ∃ brace us, ts = brace :: us ∧ brace.isSymbol "\x7b" = true := by
  match ts with
  | [] | [_] => cases h
  | brace :: next :: ts =>
    simp only [looksLikeMap, Bool.and_eq_true] at h
    exact ⟨brace, next :: ts, rfl, h.1⟩

lemma value_of_isSymbol {t : Token} {value : String} (h : t.isSymbol value = true) :
    t.value = value := by
  simp only [isSymbol, Bool.and_eq_true, decide_eq_true_eq] at h
  exact h.2

lemma not_isKeyword_of_isSymbol {t : Token} {symbol : String} (h : t.isSymbol symbol = true)
    (word : String) : t.isKeyword word = false := by
  simp only [isSymbol, Bool.and_eq_true, Bool.or_eq_true, decide_eq_true_eq] at h
  rcases h.1 with hkind | hkind <;> simp [isKeyword, hkind]

lemma not_isSymbol_of_isKeyword {t : Token} {word : String} (h : t.isKeyword word = true)
    (symbol : String) : t.isSymbol symbol = false := by
  simp only [isKeyword, Bool.and_eq_true, decide_eq_true_eq] at h
  simp [isSymbol, h.1]

lemma isDelimiter_of_isMapKey {t : Token} (h : t.isMapKey = true) (value : String) :
    t.isDelimiter value = false := by
  simp only [isMapKey, Bool.or_eq_true, decide_eq_true_eq] at h
  rcases h with hkind | hkind <;> simp [isDelimiter, hkind]

lemma looksLikeMap_cons_of_not_isMapKey {t : Token} (hclose : t.isSymbol "\x7d" = false)
    (hkey : t.isMapKey = false) (brace : Token) (us : List Token) :
    looksLikeMap (brace :: t :: us) = false := by
  have hdelimiter : t.isDelimiter "\x7d" = false := by
    simp only [isSymbol, isDelimiter, Bool.and_eq_false_iff, Bool.or_eq_false_iff] at hclose ⊢
    exact hclose.imp And.right id
  simp [looksLikeMap, hdelimiter, hkey]

namespace Opening

variable {ts : List Token}

lemma first (h : Opening ts) : ∃ t us, ts = t :: us ∧
    (∀ value, t.isSymbol value = true → value ∈ ["!", "-", "(", "[", "\x7b"]) ∧
    (∀ word, t.isKeyword word = true → word ∈ ["true", "false", "def", "forge"]) := by
  cases h with
  | operand ht | operands ht _ =>
    refine ⟨_, _, rfl, fun value hv => ?_, fun word hw => ?_⟩
    · exact List.mem_append_left ["\x7b"] (isSymbol_of_startsOperand ht hv)
    · rcases isKeyword_of_startsOperand ht hw with rfl | rfl <;> simp
  | function ht | lambda ht =>
    refine ⟨_, _, rfl, fun value hv => ?_, fun word hw => ?_⟩
    · rw [not_isSymbol_of_isKeyword ht] at hv
      cases hv
    · simp only [isKeyword, Bool.and_eq_true, decide_eq_true_eq] at ht hw
      rw [← hw.2, ht.2]
      simp
  | map hm =>
    obtain ⟨brace, us, rfl, hb⟩ := looksLikeMap_eq_true hm
    refine ⟨brace, us, rfl, fun value hv => ?_, fun word hw => ?_⟩
    · rw [← value_of_isSymbol hv, value_of_isSymbol hb]
      simp
    · rw [not_isKeyword_of_isSymbol hb] at hw
      cases hw

lemma head?_append (h : Opening ts) (us : List Token) : (ts ++ us).head? = ts.head? := by
  obtain ⟨t, vs, rfl, _⟩ := h.first
  rfl

lemma nextSymbol_false (h : Opening ts) {value : String}
    (hv : value ∉ ["!", "-", "(", "[", "\x7b"]) :
    (ts.head?.map (isSymbol value)).getD false = false := by
  obtain ⟨t, us, rfl, hsymbol, _⟩ := h.first
  exact Bool.eq_false_iff.2 fun ht => hv (hsymbol value ht)

lemma nextKeyword_false (h : Opening ts) {word : String} (hw : word ∉ ["true", "false", "def", "forge"]) :
    (ts.head?.map (isKeyword word)).getD false = false := by
  obtain ⟨t, us, rfl, _, hkeyword⟩ := h.first
  exact Bool.eq_false_iff.2 fun ht => hw (hkeyword word ht)

lemma startsDefinition_false (h : Opening ts) : startsDefinition ts = false := by
  cases h with
  | operand ht => rfl
  | @operands t u ts ht _ =>
    have : t.isKeyword "def" = false := Bool.eq_false_iff.2 fun hw => by
      have := isKeyword_of_startsOperand ht hw
      simp at this
    simp [startsDefinition, this]
  | @function t u ts ht hu =>
    have : u.isIdentifier = false := by
      simp only [isSymbol, Bool.and_eq_true, Bool.or_eq_true, decide_eq_true_eq] at hu
      rcases hu.1 with hkind | hkind <;> simp [isIdentifier, hkind]
    simp [startsDefinition, this]
  | @lambda t ts ht =>
    have : t.isKeyword "def" = false := by
      simp only [isKeyword, Bool.and_eq_true, decide_eq_true_eq] at ht
      simp [isKeyword, ht.2]
    cases ts <;> simp [startsDefinition, this]
  | map hm =>
    obtain ⟨brace, us, rfl, hb⟩ := looksLikeMap_eq_true hm
    cases us with
    | nil => rfl
    | cons u us => simp [startsDefinition, not_isKeyword_of_isSymbol hb]

lemma looksLikeMap_of_brace (h : Opening ts)
    (hb : (ts.head?.map (isSymbol "\x7b")).getD false = true) : looksLikeMap ts = true := by
  cases h with
  | operand ht | operands ht _ =>
    have := isSymbol_of_startsOperand ht hb
    simp at this
  | function ht | lambda ht =>
    cases (not_isSymbol_of_isKeyword ht "\x7b").symm.trans hb
  | map hm => exact hm

lemma looksLikeMap_cons_false (h : Opening ts) (brace : Token) :
    looksLikeMap (brace :: ts) = false := by
  have hclose := h.nextSymbol_false (show "\x7d" ∉ _ by decide)
  cases h with
  | @operand t ht =>
    cases hkey : t.isMapKey with
    | false => exact looksLikeMap_cons_of_not_isMapKey hclose hkey brace []
    | true =>
      have hkind : t.isDelimiter "\x7d" = false := isDelimiter_of_isMapKey hkey _
      simp [looksLikeMap, hkind]
  | @operands t u ts ht hcolon =>
    cases hkey : t.isMapKey with
    | false => exact looksLikeMap_cons_of_not_isMapKey hclose hkey brace (u :: ts)
    | true =>
      have hkind : t.isDelimiter "\x7d" = false := isDelimiter_of_isMapKey hkey _
      simp [looksLikeMap, hkind, hcolon hkey]
  | @function t _ _ ht | @lambda t _ ht =>
    have hkey : t.isMapKey = false := by
      simp only [isKeyword, Bool.and_eq_true, decide_eq_true_eq] at ht
      simp [isMapKey, ht.1]
    exact looksLikeMap_cons_of_not_isMapKey hclose hkey brace _
  | map hm =>
    obtain ⟨t, us, rfl, hb⟩ := looksLikeMap_eq_true hm
    have hkey : t.isMapKey = false := by
      simp only [isSymbol, Bool.and_eq_true, Bool.or_eq_true, decide_eq_true_eq] at hb
      rcases hb.1 with hkind | hkind <;> simp [isMapKey, hkind]
    exact looksLikeMap_cons_of_not_isMapKey hclose hkey brace us

end Opening

end Parser

end Klang

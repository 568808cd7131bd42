import Klang.Proofs.Grammar
import Klang.Proofs.ParserSteps

/-! The parsers of the levels, and how far each of them reads. A parser of a level stops in front of
the first token that continues neither this level nor a tighter one. -/

namespace Klang

namespace Level

lemma rank_injective {a b : Level} (h : a.rank = b.rank) : a = b := by
  cases a <;> cases b <;> first | rfl | cases h

lemma rank_tighter {level : Level} (h : level ≠ .primary) :
    level.tighter.rank = level.rank + 1 := by
  cases level <;> first | rfl | exact absurd rfl h

lemma rank_le_primary (level : Level) : level.rank ≤ Level.primary.rank := by
  cases level <;> decide

end Level

namespace Parser

def suffixed (inner : Inner) : Parser Node := do
  let operand ← primary inner
  suffixes inner (← rounds) operand

def atLevel (inner : Inner) : Level → Parser Node
  | .assignment => assignment inner
  | .disjunction => disjunction inner
  | .conjunction => conjunction inner
  | .equality => equality inner
  | .relational => relational inner
  | .additive => additive inner
  | .multiplicative => multiplicative inner
  | .unary => unary inner
  | .suffixed => suffixed inner
  | .primary => primary inner

def operatorOf : Level → Token → Option BinaryOperator
  | .disjunction => disjunctionOf
  | .conjunction => conjunctionOf
  | .equality => equalityOf
  | .relational => relationalOf
  | .additive => additiveOf
  | .multiplicative => multiplicativeOf
  | _ => fun _ => none

def readOn (inner : Inner) : Level → Nat → Node → Parser Node
  | .suffixed => suffixes inner
  | level => chain (atLevel inner level.tighter) (operatorOf level)

def continues : Level → Token → Bool
  | .assignment, token => token.isOperator "="
  | .suffixed, token => token.isSymbol "(" || token.isSymbol "["
  | level, token => (operatorOf level token).isSome

def Stops (level : Level) (ts : List Token) : Prop :=
  ∀ tight : Level, level.rank ≤ tight.rank → ∀ t ∈ ts.head?, continues tight t = false

lemma Stops.tighter {level : Level} {ts : List Token} (h : Stops level ts) :
    Stops level.tighter ts := by
  intro tight hle
  apply h tight
  by_cases hl : level = .primary
  · subst hl
    exact hle
  · rw [Level.rank_tighter hl] at hle
    omega

lemma chain_stops {operand : Parser Node} {operatorOf : Token → Option BinaryOperator} {k : Nat}
    (hk : 0 < k) (node : Node) {ts : List Token}
    (h : ∀ t ∈ ts.head?, (operatorOf t).isSome = false) :
    chain operand operatorOf k node ts = .ok (node, ts) := by
  obtain ⟨k, rfl⟩ : ∃ k', k = k' + 1 := ⟨k - 1, by omega⟩
  have hnone : ts.head?.bind operatorOf = none := by
    cases hh : ts.head? with
    | none => rfl
    | some t => simpa [hh] using h t (by simp [hh])
  simp only [chain, nextOperator?_bind, hnone, pure_apply]

lemma next_false {test : Token → Bool} {ts : List Token} (h : ∀ t ∈ ts.head?, test t = false) :
    (ts.head?.map test).getD false = false := by
  cases hh : ts.head? with
  | none => rfl
  | some t => simpa using h t (by simp [hh])

lemma suffixes_stops {inner : Inner} {k : Nat} (hk : 0 < k) (node : Node) {ts : List Token}
    (h : ∀ t ∈ ts.head?, continues .suffixed t = false) :
    suffixes inner k node ts = .ok (node, ts) := by
  obtain ⟨k, rfl⟩ : ∃ k', k = k' + 1 := ⟨k - 1, by omega⟩
  have hcall := next_false fun t ht => (Bool.or_eq_false_iff.1 (h t ht)).1
  have hindex := next_false fun t ht => (Bool.or_eq_false_iff.1 (h t ht)).2
  simp only [suffixes, nextSymbol_bind, hcall, hindex, Bool.false_eq_true, if_false, pure_apply]

lemma readOn_stops {inner : Inner} {level : Level} {k : Nat} (hk : 0 < k) (node : Node)
    {ts : List Token} (h : Stops level ts) : readOn inner level k node ts = .ok (node, ts) := by
  have hl := h level (Nat.le_refl _)
  cases level with
  | suffixed => exact suffixes_stops hk node hl
  | assignment => exact chain_stops hk node fun _ _ => rfl
  | _ => exact chain_stops hk node hl

/-- At this level the tokens are read as the node, whatever follows that does not continue its last
operand. -/
def ReadAt (inner : Inner) (level : Level) (ts : List Token) (node : Node) : Prop :=
  ∀ rest result, Stops level.tighter rest → (level = .assignment → Stops .assignment rest) →
    (∀ k, rest.length < k → readOn inner level k node rest = result) →
    atLevel inner level (ts ++ rest) = result

lemma ReadAt.stops {inner : Inner} {level : Level} {ts : List Token} {node : Node}
    (h : ReadAt inner level ts node) {rest : List Token} (hrest : Stops level rest) :
    atLevel inner level (ts ++ rest) = .ok (node, rest) :=
  h rest _ hrest.tighter (fun hl => hl ▸ hrest) fun _ hk => readOn_stops (by omega) node hrest

lemma unary_unsigned {inner : Inner} {ts : List Token} (h : ∀ t ∈ ts.head?, isSign t = false) :
    unary inner ts = suffixed inner ts := by
  have htake : ts.takeWhile isSign = [] ∧ ts.dropWhile isSign = ts := by
    cases ts with
    | nil => exact ⟨rfl, rfl⟩
    | cons t ts => simp [h t rfl]
  simp only [unary, takeWhile_bind, htake.1, htake.2, List.foldr_nil, bind_pure, suffixed]

lemma atLevel_of_tighter {inner : Inner} {level : Level} {ts rest : List Token} {node : Node}
    (hl : level ≠ .primary) (hs : level = .unary → ∀ t ∈ ts.head?, isSign t = false)
    (ha : level = .assignment → Stops .assignment rest)
    (h : atLevel inner level.tighter ts = .ok (node, rest)) :
    atLevel inner level ts = readOn inner level (rest.length + 1) node rest := by
  cases level with
  | primary => exact absurd rfl hl
  | suffixed => exact bind_of_ok h
  | unary =>
    have hend : readOn inner .unary (rest.length + 1) node rest = .ok (node, rest) :=
      chain_stops (by omega) node fun _ _ => rfl
    rw [hend, ← h]
    exact unary_unsigned (hs rfl)
  | assignment =>
    have hend : readOn inner .assignment (rest.length + 1) node rest = .ok (node, rest) :=
      chain_stops (by omega) node fun _ _ => rfl
    have hnext : (rest.head?.map (Token.isOperator "=")).getD false = false :=
      next_false (ha rfl .assignment (Nat.le_refl _))
    rw [hend]
    refine (bind_of_ok h).trans ?_
    simp only [next_bind, hnext, Bool.false_eq_true, if_false, pure_apply]
  | _ => exact bind_of_ok h

lemma ReadAt.of_tighter {inner : Inner} {level : Level} {ts : List Token} {node : Node}
    (h : ReadAt inner level.tighter ts node) (hl : level ≠ .primary)
    (hs : level = .unary → ∃ t us, ts = t :: us ∧ isSign t = false) : ReadAt inner level ts node := by
  intro rest result hrest ha hresult
  have hread := h.stops hrest
  rw [atLevel_of_tighter hl _ ha hread]
  · exact hresult _ (Nat.lt_succ_self _)
  · intro hu t ht
    obtain ⟨t', us, rfl, ht'⟩ := hs hu
    cases ht
    exact ht'

lemma ReadAt.looser {inner : Inner} {top level : Level} {ts : List Token} {node : Node}
    (h : ReadAt inner top ts node)
    (hs : Level.unary.rank < top.rank → ∃ t us, ts = t :: us ∧ isSign t = false)
    (hle : level.rank ≤ top.rank) : ReadAt inner level ts node := by
  -- induction on the distance of the levels
  obtain ⟨n, hn⟩ : ∃ n, level.rank + n = top.rank := ⟨top.rank - level.rank, by omega⟩
  induction n generalizing level with
  | zero =>
    obtain rfl := Level.rank_injective hn
    exact h
  | succ n ih =>
    have hl : level ≠ .primary := by
      rintro rfl
      have := top.rank_le_primary
      omega
    have hrank := Level.rank_tighter hl
    have htighter : ReadAt inner level.tighter ts node := ih (by omega) (by omega)
    refine htighter.of_tighter hl ?_
    rintro rfl
    exact hs (by omega)

end Parser

end Klang

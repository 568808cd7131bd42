import Klang.Proofs.RoundTrip.Openings
import Klang.Proofs.RoundTrip.Phrases
import Klang.Proofs.RoundTrip.Precedence

/-! Reading back expressions. The tokens of an expression are read at its own level; at a looser
level nothing changes, and parentheses lift it to the tightest one. -/

namespace Klang

namespace Writer

open Klang.Parser

variable (w : Writer)

@[simp] lemma each_eq_map (nodes : List Node) : w.each nodes = nodes.map w.tokens := by
  induction nodes with
  | nil => rfl
  | cons node nodes ih => simp [each, ih]

lemma entry_eq (e : String × Node) :
    w.entry e = w.token .string e.1 :: w.delimiter ":" :: w.tokens e.2 := by
  cases e
  rfl

@[simp] lemma entries_eq_map (entries : List (String × Node)) :
    w.entries entries = entries.map w.entry := by
  induction entries with
  | nil => rfl
  | cons e entries ih => simp [Writer.entries, ih]

lemma stops_primary (ts : List Token) : Stops .primary ts := by
  intro tight hle t _
  obtain rfl : tight = .primary := by
    apply Level.rank_injective
    have := tight.rank_le_primary
    omega
  rfl

lemma stops_delimiter {value : String} (hv : value ∈ [")", "]", "\x7b", "\x7d", ",", ";"])
    (level : Level) (ts : List Token) : Stops level (w.delimiter value :: ts) := by
  intro tight _ t ht
  cases ht
  simp only [List.mem_cons, List.not_mem_nil, or_false] at hv
  rcases hv with rfl | rfl | rfl | rfl | rfl | rfl <;> cases tight <;> rfl

lemma operatorOf_operator {operator : BinaryOperator} (hk : operator.IsKnown) (level : Level) :
    operatorOf level (w.operator operator.symbol) =
      if level = operator.level then some operator else none := by
  cases operator with
  | other symbol => simp [BinaryOperator.IsKnown, BinaryOperator.known] at hk
  | _ => cases level <;> rfl

lemma continues_operator {operator : BinaryOperator} (hk : operator.IsKnown) {level : Level}
    (hl : level ≠ operator.level) : continues level (w.operator operator.symbol) = false := by
  have hnone := w.operatorOf_operator hk level
  rw [if_neg hl] at hnone
  cases level with
  | assignment | suffixed =>
    cases operator with
    | other symbol => simp [BinaryOperator.IsKnown, BinaryOperator.known] at hk
    | _ => rfl
  | _ => simp only [continues, hnone, Option.isSome_none]

lemma level_ne {operator : BinaryOperator} (hk : operator.IsKnown) :
    operator.level ≠ .assignment ∧ operator.level ≠ .suffixed ∧ operator.level ≠ .primary := by
  cases operator with
  | other symbol => simp [BinaryOperator.IsKnown, BinaryOperator.known] at hk
  | _ => decide

lemma stops_operator {operator : BinaryOperator} (hk : operator.IsKnown) (ts : List Token) :
    Stops operator.level.tighter (w.operator operator.symbol :: ts) := by
  intro tight hle t ht
  cases ht
  refine w.continues_operator hk ?_
  rintro rfl
  rw [Level.rank_tighter (level_ne hk).2.2] at hle
  omega

lemma stops_equals (ts : List Token) : Stops .disjunction (w.operator "=" :: ts) := by
  intro tight hle t ht
  cases ht
  cases tight with
  | assignment => simp [Level.rank] at hle
  | _ => rfl

section

variable {inner : Inner} {ts us : List Token} {node : Node}

lemma readAt_primary (h : ∀ rest, primary inner (ts ++ rest) = .ok (node, rest)) :
    ReadAt inner .primary ts node := by
  intro rest result _ _ hresult
  rw [← hresult _ (Nat.lt_succ_self _)]
  exact (h rest).trans (readOn_stops (by omega) node (stops_primary rest)).symm

lemma readAt_atom {t : Token} (h : atom? t = some node) : ReadAt inner .primary [t] node := by
  apply readAt_primary
  intro rest
  simp only [List.cons_append, List.nil_append, primary, nextAtom?_bind, List.head?_cons,
    Option.bind_some, h, advance_bind_cons, pure_apply]

lemma readAt_group (h : ∀ rest, Stops .assignment rest →
    inner.expression (ts ++ rest) = .ok (node, rest)) :
    ReadAt inner .primary (w.parenthesized ts) node := by
  apply readAt_primary
  intro rest
  have hread := h (w.delimiter ")" :: rest) (w.stops_delimiter (by decide) _ _)
  have hgroup : primary inner (w.parenthesized ts ++ rest) =
      group inner (w.parenthesized ts ++ rest) := rfl
  rw [hgroup]
  simp only [parenthesized, enclosed, List.cons_append, List.append_assoc, List.nil_append, group,
    advance_bind_cons]
  rw [bind_of_ok hread, bind_of_ok (w.read_delimiter _ _ _)]
  rfl

lemma readAt_call {arguments : List Node} (h : ReadAt inner .suffixed ts node)
    (ha : ∀ rest, items inner.expression ")" .argumentsClose (us ++ w.delimiter ")" :: rest) =
      .ok (arguments, rest)) :
    ReadAt inner .suffixed (ts ++ w.parenthesized us) (.call w.span node arguments) := by
  intro rest result _ _ hresult
  rw [List.append_assoc]
  refine h _ result (stops_primary _) (fun he => absurd he (by decide)) ?_
  intro k hk
  obtain ⟨k, rfl⟩ : ∃ k', k = k' + 1 := ⟨k - 1, by omega⟩
  simp only [parenthesized, enclosed, List.cons_append, List.append_assoc, List.nil_append, readOn,
    suffixes, nextSymbol_bind, List.head?_cons, Option.map_some, Option.getD_some,
    isSymbol_delimiter, decide_true, if_true, advance_bind_cons]
  rw [bind_of_ok (ha rest)]
  apply hresult
  simp only [parenthesized, enclosed, List.length_append, List.length_cons] at hk
  omega

lemma readAt_index {key : Node} (h : ReadAt inner .suffixed ts node)
    (hkey : ∀ rest, Stops .assignment rest → inner.expression (us ++ rest) = .ok (key, rest)) :
    ReadAt inner .suffixed (ts ++ w.bracketed us) (.index w.span node key) := by
  intro rest result _ _ hresult
  rw [List.append_assoc]
  refine h _ result (stops_primary _) (fun he => absurd he (by decide)) ?_
  intro k hk
  obtain ⟨k, rfl⟩ : ∃ k', k = k' + 1 := ⟨k - 1, by omega⟩
  have hread := hkey (w.delimiter "]" :: rest) (w.stops_delimiter (by decide) _ _)
  have hcall : (w.delimiter "[").isSymbol "(" = false := rfl
  simp only [bracketed, enclosed, List.cons_append, List.append_assoc, List.nil_append, readOn,
    suffixes, nextSymbol_bind, List.head?_cons, Option.map_some, Option.getD_some, hcall,
    Bool.false_eq_true, if_false, isSymbol_delimiter, decide_true, if_true, advance_bind_cons]
  rw [bind_of_ok hread, bind_of_ok (w.read_delimiter _ _ _)]
  apply hresult
  simp only [bracketed, enclosed, List.length_append, List.length_cons] at hk
  omega

lemma unary_sign {sign : Token} (h : isSign sign = true) (ts : List Token) :
    unary inner (sign :: ts) = (unary inner ts).map fun r => (withSign sign r.1, r.2) := by
  simp only [unary, takeWhile_bind, List.takeWhile_cons, List.dropWhile_cons, h, if_true,
    List.foldr_cons]
  simp only [bind_apply, pure_apply, rounds]
  cases primary inner (ts.dropWhile isSign) with
  | error stop => rfl
  | ok r =>
    obtain ⟨operand, rest⟩ := r
    dsimp only
    cases suffixes inner (rest.length + 1) operand rest <;> rfl

lemma readAt_unary {operator : UnaryOperator} (hk : operator.IsKnown)
    (h : ReadAt inner .unary ts node) :
    ReadAt inner .unary (w.operator operator.symbol :: ts) (.unary w.span operator node) := by
  intro rest result hrest _ hresult
  have hstops : Stops .unary rest := by
    intro tight hle
    by_cases htight : tight = .unary
    · subst htight
      exact fun _ _ => rfl
    · apply hrest
      have hne : tight.rank ≠ Level.unary.rank := fun he => htight (Level.rank_injective he)
      simp only [Level.tighter, Level.rank] at hle hne ⊢
      omega
  have hsign : isSign (w.operator operator.symbol) = true ∧
      UnaryOperator.ofSymbol operator.symbol = operator := by
    rcases hk with rfl | rfl <;> exact ⟨rfl, rfl⟩
  have hread : unary inner (ts ++ rest) = .ok (node, rest) := h.stops hstops
  rw [← hresult _ (Nat.lt_succ_self _), readOn_stops (by omega) _ hstops]
  refine (unary_sign hsign.1 (ts ++ rest)).trans ?_
  rw [hread]
  simp only [Except.map, withSign]
  rw [show (w.operator operator.symbol).value = operator.symbol from rfl, hsign.2]
  rfl

lemma readOn_binary {operator : BinaryOperator} (hk : operator.IsKnown) :
    readOn inner operator.level =
      chain (atLevel inner operator.level.tighter) (operatorOf operator.level) := by
  have hne := (level_ne hk).2.1
  cases hl : operator.level with
  | suffixed => exact absurd hl hne
  | _ => rfl

lemma readAt_binary {operator : BinaryOperator} (hk : operator.IsKnown) {right : Node}
    (hl : ReadAt inner operator.level ts node)
    (hr : ReadAt inner operator.level.tighter us right) (hspan : node.span = some w.span) :
    ReadAt inner operator.level (ts ++ w.operator operator.symbol :: us)
      (.binary w.span operator node right) := by
  intro rest result hrest _ hresult
  rw [List.append_assoc]
  refine hl _ result (w.stops_operator hk _) (fun he => absurd he (level_ne hk).1) ?_
  intro k hlength
  obtain ⟨k, rfl⟩ : ∃ k', k = k' + 1 := ⟨k - 1, by omega⟩
  have hright := hr.stops hrest
  rw [readOn_binary hk] at hresult ⊢
  simp only [List.cons_append, chain, nextOperator?_bind, List.head?_cons, Option.bind_some,
    operatorOf_operator w hk, if_true, advance_bind_cons]
  rw [bind_of_ok hright, hspan]
  apply hresult
  simp only [List.cons_append, List.length_cons, List.length_append] at hlength
  omega

lemma readAt_assignment {value : Node} (ht : node.IsTarget) (h : ReadAt inner .disjunction ts node)
    (hv : ∀ rest, Stops .assignment rest → inner.expression (us ++ rest) = .ok (value, rest))
    (hspan : node.span = some w.span) :
    ReadAt inner .assignment (ts ++ w.operator "=" :: us) (.assignment w.span node value) := by
  intro rest result _ ha hresult
  have hrest := ha rfl
  have htarget : isTarget node = true := by
    cases node with
    | identifier | index => rfl
    | _ => exact ht.elim
  have hread : disjunction inner (ts ++ w.operator "=" :: us ++ rest) =
      .ok (node, w.operator "=" :: (us ++ rest)) := by
    rw [List.append_assoc]
    exact h.stops (w.stops_equals (us ++ rest))
  rw [← hresult _ (Nat.lt_succ_self _), readOn_stops (by omega) _ hrest]
  refine (bind_of_ok hread).trans ?_
  have hequals : (w.operator "=").isOperator "=" = true := rfl
  simp only [next_bind, List.head?_cons, Option.map_some, Option.getD_some, hequals, if_true,
    advance_bind_cons, htarget]
  rw [bind_of_ok (hv rest hrest), hspan]
  rfl

end

structure Written (node : Node) : Prop where
  opening : Opening (w.tokens node)
  unsigned : Level.unary.rank < node.level.rank → ∀ t ∈ (w.tokens node).head?, isSign t = false
  reads : ∀ depth, (w.tokens node).length ≤ depth →
    ReadAt (descend depth) node.level (w.tokens node) (node.respan w.span)

variable {w} {node : Node} {depth : Nat}

namespace Written

lemma first_unsigned (h : w.Written node) (hl : Level.unary.rank < node.level.rank) :
    ∃ t us, w.tokens node = t :: us ∧ isSign t = false := by
  obtain ⟨t, us, ht, _⟩ := h.opening.first
  exact ⟨t, us, ht, h.unsigned hl t (by simp [ht])⟩

lemma expression (h : w.Written node) (hd : (w.tokens node).length < depth) (rest : List Token)
    (hrest : Stops .assignment rest) :
    (descend depth).expression (w.tokens node ++ rest) = .ok (node.respan w.span, rest) := by
  obtain ⟨depth, rfl⟩ : ∃ d, depth = d + 1 := ⟨depth - 1, by omega⟩
  have hread : ReadAt (descend depth) .assignment (w.tokens node) (node.respan w.span) :=
    (h.reads depth (by omega)).looser h.first_unsigned (Nat.zero_le _)
  exact hread.stops hrest

lemma readAt_placed (h : w.Written node) (level : Level)
    (hd : (w.placed level node (w.tokens node)).length ≤ depth) :
    ReadAt (descend depth) level (w.placed level node (w.tokens node)) (node.respan w.span) := by
  simp only [placed] at hd ⊢
  split at hd
  · rename_i hlow
    rw [if_pos hlow]
    simp only [parenthesized, enclosed, List.length_cons, List.length_append] at hd
    have hgroup : ReadAt (descend depth) .primary (w.parenthesized (w.tokens node))
        (node.respan w.span) := w.readAt_group (h.expression (by omega))
    exact hgroup.looser (fun _ => ⟨_, _, rfl, rfl⟩) level.rank_le_primary
  · rename_i hlow
    rw [if_neg hlow]
    exact (h.reads depth hd).looser h.first_unsigned (by omega)

lemma opening_placed (h : w.Written node) (level : Level) :
    Opening (w.placed level node (w.tokens node)) := by
  simp only [placed]
  split
  · obtain ⟨t, us, ht, _⟩ := h.opening.first
    simp only [parenthesized, enclosed, ht, List.cons_append]
    exact .operands rfl fun hk => absurd hk Bool.false_ne_true
  · exact h.opening

lemma unsigned_placed (h : w.Written node) {level : Level} (hl : Level.unary.rank < level.rank) :
    ∀ t ∈ (w.placed level node (w.tokens node)).head?, isSign t = false := by
  simp only [placed]
  split
  · intro t ht
    cases ht
    rfl
  · exact h.unsigned (by omega)

end Written

end Writer

end Klang

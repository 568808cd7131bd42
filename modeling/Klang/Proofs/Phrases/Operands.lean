import Klang.Proofs.Phrases.Recognition

/-! Reading back operands. A phrase is read whole in front of all that can follow it. -/

namespace Klang

open Phrase Klang.Parser

variable {t : Token} {ts : List Token}

lemma Grammar.Parameters.first {parameters : List Parameter}
    (h : Grammar.Parameters ts parameters) : ∃ opening us, ts = opening :: us ∧
      opening.isSymbol "(" = true := by
  cases h with
  | nothing ho | some ho => exact ⟨_, _, rfl, ho⟩

lemma Parser.Opening.of_symbol {value : String} (h : t.isSymbol value = true)
    (hs : startsOperand t = true) (ts : List Token) : Opening (t :: ts) := by
  have hkey : t.isMapKey = false := by
    simp only [Token.isSymbol, Bool.and_eq_true, Bool.or_eq_true, decide_eq_true_eq] at h
    rcases h.1 with hkind | hkind <;> simp [Token.isMapKey, hkind]
  cases ts with
  | nil => exact .operand hs
  | cons u us => exact .operands hs fun hk => absurd hk (by simp [hkey])

lemma Parser.isSymbol_of_isSign (h : isSign t = true) :
    t.isSymbol "!" = true ∨ t.isSymbol "-" = true := by
  simpa [isSign] using h

namespace Phrase

lemma follow_of_isSymbol {value : String} (h : t.isSymbol value = true)
    (hv : value ∈ [")", "]", "\x7b", "\x7d", ",", ";"]) (ts : List Token) :
    (follow (t :: ts)).continues = false := by
  refine follow_of_value (fun level => ?_) ts
  have hnone : ∀ value ∈ [")", "]", "\x7b", "\x7d", ",", ";"], value ∉ goingOn level := by
    cases level <;> decide
  exact value_of_isSymbol h ▸ hnone value hv

lemma isDelimiter_of_continues (level : Level) (h : continues level t = true) :
    t.isDelimiter ":" = false := by
  have hnone : ":" ∉ goingOn level := by cases level <;> decide
  have hne : t.value ≠ ":" := fun he => hnone (he ▸ value_of_continues h)
  simp [Token.isDelimiter, hne]

lemma continues_of_operatorOf {level : Level} {operator : BinaryOperator}
    (h : operatorOf level t = some operator) : continues level t = true := by
  cases level with
  | assignment | unary | suffixed | primary => cases h
  | _ => exact Option.isSome_iff_exists.2 ⟨operator, h⟩

lemma opening_of_isSign {sign : Token} (h : isSign sign = true) (ts : List Token) :
    Opening (sign :: ts) := by
  rcases isSymbol_of_isSign h with hsymbol | hsymbol <;>
    exact .of_symbol hsymbol (by simp [startsOperand, h]) _

lemma opening_of_bracket {opening : Token}
    (h : opening.isSymbol "(" = true ∨ opening.isSymbol "[" = true) (ts : List Token) :
    Opening (opening :: ts) := by
  rcases h with h | h <;> exact .of_symbol h (by simp [startsOperand, h]) _

lemma opening_of_atom {t : Token} {node : Node} (h : atom? t = some node) : Opening [t] :=
  .operand (by simp [startsOperand, h])

lemma opening_form {form : Form} {p : Phrase} {level : Level} {ps : List Phrase}
    (hp : Opening p.tokens) (ht : continues level t = true) :
    Opening (Phrase.form form (p :: .words [t] :: ps)).tokens := by
  simpa using hp.append (isDelimiter_of_continues level ht) (tokensOf ps)

lemma continues_of_bracket (h : t.isSymbol "(" = true ∨ t.isSymbol "[" = true) :
    continues .suffixed t = true := by
  rwa [continues, Bool.or_eq_true]

lemma Operand.opening {closed : Bool} {level : Level} {p : Phrase} {node : Node}
    (h : Operand closed level p node) : Opening p.tokens := by
  match h with
  | .tighter h => exact h.opening
  | .binary hl ho _ => exact opening_form hl.opening (continues_of_operatorOf ho)
  | .unary hs _ => exact opening_of_isSign hs _
  | .call hp ho _ _ => exact opening_form hp.opening (continues_of_bracket (.inl ho))
  | .index hp ho _ _ => exact opening_form hp.opening (continues_of_bracket (.inr ho))
  | .atom ha => exact opening_of_atom ha
  | .group ho _ _ => exact opening_of_bracket (.inl ho) _
  | .list ho _ _ => exact opening_of_bracket (.inr ho) _
  | .map _ _ _ hm => exact .map (by simpa using hm)
  | .function hw hp _ _ =>
    obtain ⟨opening, us, rfl, ho⟩ := hp.first
    cases hw with
    | function hw => exact .function hw ho
    | lambda hw | arrow hw => exact .lambda hw
  | .lambdaValue hw _ _ _ => exact .lambda hw

lemma Expression.opening {p : Phrase} {node : Node} (h : Expression p node) :
    Opening p.tokens := by
  cases h with
  | operand h => exact h.opening
  | assignment ht _ he _ =>
    exact opening_form ht.opening (show continues .assignment _ = true from he)

lemma rank_of_operatorOf {level : Level} {operator : BinaryOperator}
    (h : operatorOf level t = some operator) : level.rank < Level.unary.rank := by
  cases level with
  | unary | suffixed | primary => cases h
  | _ => decide

lemma not_isSign_of_atom? {node : Node} (h : atom? t = some node) : isSign t = false := by
  unfold atom? at h
  split at h <;> simp_all [isSign, Token.isSymbol]

lemma not_isSign_of_isSymbol {value : String} (h : t.isSymbol value = true)
    (hv : value ∉ ["!", "-"]) : isSign t = false := by
  have hvalue := value_of_isSymbol h
  simp_all [isSign, Token.isSymbol]

lemma not_isSign_of_isKeyword {word : String} (h : t.isKeyword word = true) : isSign t = false := by
  simp [isSign, not_isSymbol_of_isKeyword h]

lemma Operand.unsigned {closed : Bool} {level : Level} {p : Phrase} {node : Node}
    (h : Operand closed level p node) (hl : Level.unary.rank < level.rank) :
    ∀ t ∈ p.tokens.head?, isSign t = false := by
  match h with
  | .tighter h =>
    refine h.unsigned ?_
    cases level <;> first | decide | exact absurd hl (by decide)
  | .binary _ ho _ =>
    have := rank_of_operatorOf ho
    omega
  | .unary _ _ => exact absurd hl (Nat.lt_irrefl _)
  | .call hp _ _ _ | .index hp _ _ _ =>
    intro t ht
    rw [tokens_form, tokensOf_cons, hp.opening.head?_append] at ht
    exact hp.unsigned (by decide) t ht
  | .atom ha =>
    rintro t ⟨⟩
    exact not_isSign_of_atom? ha
  | .group ho _ _ | .list ho _ _ | .map ho _ _ _ =>
    rintro t ⟨⟩
    exact not_isSign_of_isSymbol ho (by decide)
  | .function hw _ _ _ =>
    cases hw with
    | function hw | lambda hw | arrow hw =>
      rintro t ⟨⟩
      exact not_isSign_of_isKeyword hw
  | .lambdaValue hw _ _ _ =>
    rintro t ⟨⟩
    exact not_isSign_of_isKeyword hw

end Phrase

namespace Parser

variable {inner : Inner} {closed : Bool} {level : Level} {us rest : List Token} {node : Node}

/-- The tokens are read as an item whatever ends it, and no bracket that closes comes first. -/
structure IsItem {α : Type} (item : Parser α) (ts : List Token) (a : α) : Prop where
  first : ∀ close ∈ [")", "]", "\x7d"], ∀ rest,
    ((ts ++ rest).head?.map (Token.isSymbol close)).getD false = false
  reads : ∀ rest, (follow rest).continues = false → item (ts ++ rest) = .ok (a, rest)

variable {α : Type} {item : Parser α} {as : List α} {close : String}

lemma first_of_separated (h : Grammar.Separated (IsItem item) ts as) (hc : close ∈ [")", "]", "\x7d"])
    (rest : List Token) : ((ts ++ rest).head?.map (Token.isSymbol close)).getD false = false := by
  cases h with
  | one hp => exact hp.first close hc rest
  | more hp _ _ =>
    rw [List.append_assoc]
    exact hp.first close hc _

lemma moreItems_of_separated (rest : List Token) (h : Grammar.Separated (IsItem item) ts as)
    (hc : close ∈ [")", "]", "\x7d"]) (ht : t.isSymbol close = true) :
    ∃ a others mid, as = a :: others ∧ item (ts ++ t :: rest) = .ok (a, mid) ∧
      others.length < mid.length ∧
      ∀ k, others.length < k → moreItems item k mid = .ok (others, t :: rest) := by
  induction h with
  | @one us a hp =>
    have hnone : t.isSymbol "," = false := not_isSymbol_of_isSymbol ht (by rintro rfl; simp at hc)
    have hfollow : (follow (t :: rest)).continues = false := by
      refine follow_of_isSymbol ht ?_ rest
      simp only [List.mem_cons, List.not_mem_nil, or_false] at hc ⊢
      rcases hc with rfl | rfl | rfl <;> simp
    refine ⟨a, [], t :: rest, rfl, hp.reads _ hfollow, by simp, fun k hk => ?_⟩
    obtain ⟨k, rfl⟩ : ∃ k', k = k' + 1 := ⟨k - 1, by simp at hk; omega⟩
    simp [moreItems, hnone]
  | @more us a comma vs as hp hcomma hs ih =>
    obtain ⟨b, others, mid, rfl, hitem, -, hmore⟩ := ih
    have hlength := length_of_separated hs
    have hfollow := follow_of_isSymbol hcomma (by simp) (vs ++ t :: rest)
    refine ⟨a, b :: others, comma :: (vs ++ t :: rest), rfl, ?_, by simp; simp at hlength; omega,
      fun k hk => ?_⟩
    · rw [List.append_assoc]
      exact hp.reads _ hfollow
    · obtain ⟨k, rfl⟩ : ∃ k', k = k' + 1 := ⟨k - 1, by simp at hk; omega⟩
      simp only [moreItems, nextSymbol_bind, List.head?_cons, Option.map_some, Option.getD_some,
        hcomma, if_true, advance_bind_cons]
      rw [bind_of_ok hitem, bind_of_ok (hmore k (by simpa using hk))]
      rfl

lemma items_of_nothing (complaint : Complaint) (ht : t.isSymbol close = true) (rest : List Token) :
    items item close complaint (t :: rest) = .ok ([], rest) := by
  simp only [items, nextSymbol_bind, List.head?_cons, Option.map_some, Option.getD_some, ht, if_true,
    advance_bind_cons, pure_apply]

lemma items_of_isItem (complaint : Complaint) (h : Grammar.Separated (IsItem item) ts as)
    (hc : close ∈ [")", "]", "\x7d"]) (ht : t.isSymbol close = true) (rest : List Token) :
    items item close complaint (ts ++ t :: rest) = .ok (as, rest) := by
  have hfirst := first_of_separated h hc (t :: rest)
  obtain ⟨a, others, mid, rfl, hitem, hlength, hmore⟩ := moreItems_of_separated rest h hc ht
  simp only [items, nextSymbol_bind, hfirst, Bool.false_eq_true, if_false]
  rw [bind_of_ok hitem, rounds_bind, bind_of_ok (hmore _ (by omega)),
    bind_of_ok (expectSymbol_eq_ok.2 ⟨rfl, ht⟩)]
  rfl

/-- The tokens are read as the node in front of all that can follow: what goes on with the level is
read behind the node, and behind a closed operand nothing goes on. -/
def ReadsBack (inner : Inner) (closed : Bool) (level : Level) (ts : List Token) (node : Node) : Prop :=
  ∀ rest result, Stops level.tighter rest → (closed = true → Stops .assignment rest) →
    (∀ k, rest.length < k → readOn inner level k node rest = result) →
    atLevel inner level (ts ++ rest) = result

namespace ReadsBack

lemma stops (h : ReadsBack inner closed level ts node) (hl : Stops level rest)
    (hc : closed = true → Stops .assignment rest) :
    atLevel inner level (ts ++ rest) = .ok (node, rest) :=
  h rest _ hl.tighter hc fun _ hk => readOn_stops (by omega) node hl

lemma of_primary (h : ∀ rest, (closed = true → Stops .assignment rest) →
    primary inner (ts ++ rest) = .ok (node, rest)) : ReadsBack inner closed .primary ts node := by
  intro rest result _ hc hresult
  rw [← hresult _ (Nat.lt_succ_self _)]
  exact (h rest hc).trans (readOn_stops (by omega) node (Writer.stops_primary rest)).symm

lemma of_tighter (h : ReadsBack inner closed level.tighter ts node) (ha : level ≠ .assignment)
    (hs : level = .unary → ∀ t ∈ ts.head?, isSign t = false) (ho : Opening ts) :
    ReadsBack inner closed level ts node := by
  by_cases hl : level = .primary
  · subst hl
    exact h
  · intro rest result hrest hc hresult
    rw [atLevel_of_tighter hl (by rwa [ho.head?_append]) (fun he => absurd he ha) (h.stops hrest hc)]
    exact hresult _ (Nat.lt_succ_self _)

lemma stops_of_continues {other : Level} (h : continues level t = true)
    (hl : level.rank < other.rank) (ts : List Token) : Stops other (t :: ts) := by
  intro tight hle u hu
  cases hu
  refine Bool.eq_false_iff.2 fun hc => ?_
  rw [level_unique h hc] at hl
  omega

lemma binary {token : Token} {operator : BinaryOperator} {right : Node}
    (ho : operatorOf level token = some operator) (hl : ReadsBack inner false level ts node)
    (hr : ReadsBack inner closed level.tighter us right) :
    ReadsBack inner closed level (ts ++ token :: us) (.binary node.span operator node right) := by
  intro rest result hrest hc hresult
  have hrank := rank_of_operatorOf ho
  have htight : level.rank < level.tighter.rank := by
    rw [Level.rank_tighter (by rintro rfl; cases ho)]
    omega
  have hchain : readOn inner level = chain (atLevel inner level.tighter) (operatorOf level) := by
    cases level with
    | suffixed => cases ho
    | _ => rfl
  rw [List.append_assoc]
  refine hl _ result (stops_of_continues (continues_of_operatorOf ho) htight _)
    (fun he => absurd he Bool.false_ne_true) fun k hk => ?_
  obtain ⟨k, rfl⟩ : ∃ k', k = k' + 1 := ⟨k - 1, by omega⟩
  rw [hchain] at hresult ⊢
  simp only [List.cons_append, chain, nextOperator?_bind, List.head?_cons, Option.bind_some, ho,
    advance_bind_cons]
  rw [bind_of_ok (hr.stops hrest hc)]
  apply hresult
  simp only [List.cons_append, List.length_cons, List.length_append] at hk
  omega

lemma call {opening closing : Token} {arguments : List Node}
    (hp : ReadsBack inner false .suffixed ts node) (ho : opening.isSymbol "(" = true)
    (ha : ∀ rest, items inner.expression ")" .argumentsClose (us ++ closing :: rest) =
      .ok (arguments, rest)) :
    ReadsBack inner closed .suffixed (ts ++ opening :: (us ++ [closing]))
      (.call opening.span node arguments) := by
  intro rest result _ _ hresult
  rw [List.append_assoc]
  refine hp _ result (Writer.stops_primary _) (fun he => absurd he Bool.false_ne_true) fun k hk => ?_
  obtain ⟨k, rfl⟩ : ∃ k', k = k' + 1 := ⟨k - 1, by omega⟩
  simp only [List.cons_append, List.append_assoc, List.nil_append, readOn, suffixes,
    nextSymbol_bind, List.head?_cons, Option.map_some, Option.getD_some, ho, if_true,
    advance_bind_cons]
  rw [bind_of_ok (ha rest)]
  apply hresult
  simp only [List.cons_append, List.length_append, List.length_cons] at hk
  omega

lemma index {opening closing : Token} {key : Node} (hp : ReadsBack inner false .suffixed ts node)
    (ho : opening.isSymbol "[" = true)
    (hk : ∀ rest, inner.expression (us ++ closing :: rest) = .ok (key, closing :: rest))
    (hc : closing.isSymbol "]" = true) :
    ReadsBack inner closed .suffixed (ts ++ opening :: (us ++ [closing]))
      (.index opening.span node key) := by
  intro rest result _ _ hresult
  rw [List.append_assoc]
  refine hp _ result (Writer.stops_primary _) (fun he => absurd he Bool.false_ne_true) fun k hk' => ?_
  obtain ⟨k, rfl⟩ : ∃ k', k = k' + 1 := ⟨k - 1, by omega⟩
  have hcall := not_isSymbol_of_isSymbol ho (show "[" ≠ "(" by decide)
  simp only [List.cons_append, List.append_assoc, List.nil_append, readOn, suffixes,
    nextSymbol_bind, List.head?_cons, Option.map_some, Option.getD_some, hcall, Bool.false_eq_true,
    if_false, ho, if_true, advance_bind_cons]
  rw [bind_of_ok (hk rest), bind_of_ok (expectSymbol_eq_ok.2 ⟨rfl, hc⟩)]
  apply hresult
  simp only [List.cons_append, List.length_append, List.length_cons] at hk'
  omega

lemma unary {sign : Token} (hs : isSign sign = true) (h : ReadsBack inner closed .unary ts node) :
    ReadsBack inner closed .unary (sign :: ts) (withSign sign node) := by
  intro rest result hrest hc hresult
  have hstops : Stops .unary rest := .of_tighter .unary hrest (by decide) fun _ _ => rfl
  have hread : Parser.unary inner (ts ++ rest) = .ok (node, rest) := h.stops hstops hc
  rw [← hresult _ (Nat.lt_succ_self _), readOn_stops (by omega) _ hstops]
  refine (Writer.unary_sign hs (ts ++ rest)).trans ?_
  rw [hread]
  rfl

end ReadsBack

end Parser

end Klang

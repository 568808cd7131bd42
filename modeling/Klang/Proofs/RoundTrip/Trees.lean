import Klang.Proofs.RoundTrip.Expressions

/-! Reading back one node of each kind, given that its parts are read back. -/

namespace Klang

namespace Writer

open Klang.Parser

variable {α : Type} {w : Writer}

lemma stops_of_afterItem {close : String} (hc : close ∈ [")", "]", "\x7d"]) {us : List Token}
    (h : w.AfterItem close us) : Stops .assignment us := by
  obtain ⟨value, us, rfl, hv⟩ := h
  apply w.stops_delimiter
  simp only [List.mem_cons, List.not_mem_nil, or_false] at hc ⊢
  rcases hv with rfl | rfl
  · simp
  · rcases hc with rfl | rfl | rfl <;> simp

lemma length_le_flatMap (spell : α → List Token) (t : Token) {a : α} {as : List α} (h : a ∈ as) :
    (spell a).length ≤ (as.flatMap (fun a => t :: spell a)).length := by
  induction as with
  | nil => cases h
  | cons b as ih =>
    rw [List.flatMap_cons, List.length_append, List.length_cons]
    rcases List.mem_cons.1 h with rfl | h
    · omega
    · have := ih h
      omega

lemma length_le_separated (w : Writer) (spell : α → List Token) {a : α} {as : List α} (h : a ∈ as) :
    (spell a).length ≤ (w.separated (as.map spell)).length := by
  cases as with
  | nil => cases h
  | cons b as =>
    rw [separated_map_cons, List.length_append]
    rcases List.mem_cons.1 h with rfl | h
    · omega
    · have := length_le_flatMap spell (w.delimiter ",") h
      omega

lemma read_expressions {close : String} (hc : close ∈ [")", "]", "\x7d"]) (complaint : Complaint)
    (depth : Nat) {nodes : List Node} (h : ∀ n ∈ nodes, w.Written n)
    (hd : (w.separated (nodes.map w.tokens)).length < depth) (rest : List Token) :
    items (descend depth).expression close complaint
      (w.separated (nodes.map w.tokens) ++ w.delimiter close :: rest) =
      .ok (nodes.map (Node.respan w.span), rest) := by
  have hne : close ≠ "," := by
    rintro rfl
    simp at hc
  have hclosing : close ∉ ["!", "-", "(", "[", "\x7b"] := by
    simp only [List.mem_cons, List.not_mem_nil, or_false] at hc
    rcases hc with rfl | rfl | rfl <;> decide
  refine w.read_items hne complaint nodes ?_ ?_ rest
  · intro n hn us
    rw [(h n hn).opening.head?_append]
    exact (h n hn).opening.nextSymbol_false hclosing
  · intro n hn us hus
    have := w.length_le_separated w.tokens hn
    exact (h n hn).expression (by omega) us (stops_of_afterItem hc hus)

lemma looksLikeMap_map (w : Writer) (span : Option Source.Span) (entries : List (String × Node)) :
    Token.looksLikeMap (w.tokens (.map span entries)) = true := by
  simp only [Writer.tokens, braced, enclosed, entries_eq_map]
  cases entries with
  | nil => rfl
  | cons e es =>
    obtain ⟨key, value⟩ := e
    rfl

lemma read_entry {depth : Nat} {e : String × Node} (h : w.Written e.2)
    (hd : (w.entry e).length < depth) (us : List Token) (hus : Stops .assignment us) :
    mapEntry (descend depth) (w.entry e ++ us) = .ok ((e.1, e.2.respan w.span), us) := by
  rw [entry_eq] at hd ⊢
  simp only [List.length_cons] at hd
  have hkey : (w.token .string e.1).isMapKey = true := rfl
  simp only [List.cons_append, mapEntry]
  rw [expect_bind_cons hkey, bind_of_ok (w.read_delimiter _ _ _),
    bind_of_ok (h.expression (by omega) us hus)]
  rfl

structure BlockWritten (w : Writer) (node : Node) : Prop where
  opening : ∃ us, w.tokens node = w.delimiter "\x7b" :: us
  reads : ∀ depth rest, (w.tokens node).length ≤ depth →
    block (descend depth) (w.tokens node ++ rest) = .ok (node.respan w.span, rest)

lemma BlockWritten.stops {node : Node} (h : w.BlockWritten node) (level : Level) (rest : List Token) :
    Stops level (w.tokens node ++ rest) := by
  obtain ⟨us, hus⟩ := h.opening
  rw [hus]
  exact w.stops_delimiter (by simp) _ _

namespace Written

variable {node : Node}

lemma of_atom {t : Token} (hl : node.level = .primary) (htokens : w.tokens node = [t])
    (hatom : atom? t = some (node.respan w.span)) (hsign : isSign t = false) : w.Written node := by
  refine ⟨?_, ?_, ?_⟩
  · rw [htokens]
    exact .operand (by simp [startsOperand, hatom])
  · intro _ t' ht'
    rw [htokens] at ht'
    cases ht'
    exact hsign
  · intro depth _
    rw [hl, htokens]
    exact readAt_atom hatom

lemma number {span : Option Source.Span} {value : Float} (h : Number.IsWritable value) :
    w.Written (.number span value) := by
  refine of_atom rfl rfl ?_ rfl
  have hatom : atom? (w.token .number (w.numeral value)) =
      (Number.ofNumeral? (w.numeral value).toList).map (.number w.span) := rfl
  rw [hatom, w.reads value h]
  rfl

lemma string (span : Option Source.Span) (value : String) : w.Written (.string span value) :=
  of_atom rfl rfl rfl rfl

lemma boolean (span : Option Source.Span) (value : Bool) : w.Written (.boolean span value) := by
  cases value <;> exact of_atom rfl rfl rfl rfl

lemma identifier (span : Option Source.Span) (name : String) :
    w.Written (.identifier span name) :=
  of_atom rfl rfl rfl rfl

lemma list {span : Option Source.Span} {elements : List Node} (h : ∀ e ∈ elements, w.Written e) :
    w.Written (.list span elements) := by
  refine ⟨?_, ?_, ?_⟩
  · simp only [Writer.tokens, bracketed, enclosed]
    generalize w.separated (w.each elements) = ts
    cases ts <;> exact .operands rfl fun hk => absurd hk Bool.false_ne_true
  · intro _ t ht
    cases ht
    rfl
  · intro depth hd
    apply readAt_primary
    intro rest
    have hlist : primary (descend depth) (w.tokens (.list span elements) ++ rest) =
        listLiteral (descend depth) (w.tokens (.list span elements) ++ rest) := rfl
    simp only [Writer.tokens, bracketed, enclosed, each_eq_map, List.length_cons,
      List.length_append] at hd
    have hread := read_expressions (show "]" ∈ _ by simp) .listClose depth h (by omega) rest
    rw [hlist]
    simp only [Writer.tokens, bracketed, enclosed, each_eq_map, List.cons_append, List.append_assoc,
      List.nil_append, listLiteral, advance_bind_cons]
    rw [bind_of_ok hread]
    simp [Node.respan, delimiter, token]

lemma map {span : Option Source.Span} {entries : List (String × Node)}
    (h : ∀ e ∈ entries, w.Written e.2) : w.Written (.map span entries) := by
  refine ⟨.map (w.looksLikeMap_map span entries), ?_, ?_⟩
  · intro _ t ht
    cases ht
    rfl
  · intro depth hd
    apply readAt_primary
    intro rest
    have hmap : primary (descend depth) (w.tokens (.map span entries) ++ rest) =
        mapLiteral (descend depth) (w.tokens (.map span entries) ++ rest) := by
      have hlooks := looksLikeMap_append (w.looksLikeMap_map span entries) rest
      change (if Token.looksLikeMap (w.tokens (.map span entries) ++ rest) then
        mapLiteral (descend depth) else fail .mapInExpression) _ = _
      rw [if_pos hlooks]
    simp only [Writer.tokens, braced, enclosed, entries_eq_map, List.length_cons,
      List.length_append] at hd
    have hfirst (e : String × Node) (us : List Token) :
        ((w.entry e ++ us).head?.map (Token.isSymbol "\x7d")).getD false = false := by
      rw [entry_eq]
      rfl
    have hentry : ∀ e ∈ entries, ∀ us, w.AfterItem "\x7d" us →
        mapEntry (descend depth) (w.entry e ++ us) = .ok ((e.1, e.2.respan w.span), us) := by
      intro e he us hus
      have := w.length_le_separated w.entry he
      exact read_entry (h e he) (by omega) us (stops_of_afterItem (by simp) hus)
    have hread := w.read_items (by decide) .mapClose entries (fun e _ => hfirst e) hentry rest
    rw [hmap]
    simp only [Writer.tokens, braced, enclosed, entries_eq_map, List.cons_append, List.append_assoc,
      List.nil_append, mapLiteral, advance_bind_cons]
    rw [bind_of_ok hread]
    simp [Node.respan, delimiter, token]

lemma function {span : Option Source.Span} {parameters : List Parameter} {body : Node}
    (hp : DistinctNames parameters) (hb : w.BlockWritten body) :
    w.Written (.function span parameters body) := by
  refine ⟨.function rfl rfl, ?_, ?_⟩
  · intro _ t ht
    cases ht
    rfl
  · intro depth hd
    apply readAt_primary
    intro rest
    have hfunction : primary (descend depth) (w.tokens (.function span parameters body) ++ rest) =
        functionExpression (descend depth) (w.tokens (.function span parameters body) ++ rest) := rfl
    simp only [Writer.tokens, List.length_cons, List.length_append] at hd
    rw [hfunction]
    simp only [Writer.tokens, List.cons_append, List.append_assoc, functionExpression,
      advance_bind_cons]
    rw [bind_of_ok (w.read_parameters hp _), bind_of_ok (hb.reads depth rest (by omega))]
    rfl

lemma unary {span : Option Source.Span} {operator : UnaryOperator} {operand : Node}
    (hk : operator.IsKnown) (h : w.Written operand) : w.Written (.unary span operator operand) := by
  refine ⟨?_, ?_, ?_⟩
  · obtain ⟨t, us, ht, _⟩ := (h.opening_placed .unary).first
    simp only [Writer.tokens, ht]
    rcases hk with rfl | rfl <;> exact .operands rfl fun hk => absurd hk Bool.false_ne_true
  · intro hl
    exact absurd hl (Nat.lt_irrefl _)
  · intro depth hd
    simp only [Writer.tokens, List.length_cons] at hd
    exact w.readAt_unary hk (h.readAt_placed .unary (by omega))

lemma binary {span : Option Source.Span} {operator : BinaryOperator} {left right : Node}
    (hk : operator.IsKnown) (hl : w.Written left) (hr : w.Written right) :
    w.Written (.binary span operator left right) := by
  refine ⟨?_, ?_, ?_⟩
  · exact (hl.opening_placed operator.level).append rfl _
  · intro hlevel t ht
    simp only [Writer.tokens] at ht
    rw [(hl.opening_placed operator.level).head?_append] at ht
    exact hl.unsigned_placed hlevel t ht
  · intro depth hd
    simp only [Writer.tokens, List.length_append, List.length_cons] at hd
    exact w.readAt_binary hk (hl.readAt_placed operator.level (by omega))
      (hr.readAt_placed operator.level.tighter (by omega)) (Node.span_respan _ left)

lemma index {span : Option Source.Span} {target key : Node} (ht : w.Written target)
    (hk : w.Written key) : w.Written (.index span target key) := by
  refine ⟨?_, ?_, ?_⟩
  · exact (ht.opening_placed .suffixed).append rfl _
  · intro hl t h
    simp only [Writer.tokens] at h
    rw [(ht.opening_placed .suffixed).head?_append] at h
    exact ht.unsigned_placed hl t h
  · intro depth hd
    simp only [Writer.tokens, bracketed, enclosed, List.length_append, List.length_cons] at hd
    exact w.readAt_index (ht.readAt_placed .suffixed (by omega)) (hk.expression (by omega))

lemma call {span : Option Source.Span} {callee : Node} {arguments : List Node}
    (hc : w.Written callee) (ha : ∀ e ∈ arguments, w.Written e) :
    w.Written (.call span callee arguments) := by
  refine ⟨?_, ?_, ?_⟩
  · exact (hc.opening_placed .suffixed).append rfl _
  · intro hl t h
    simp only [Writer.tokens] at h
    rw [(hc.opening_placed .suffixed).head?_append] at h
    exact hc.unsigned_placed hl t h
  · intro depth hd
    simp only [Writer.tokens, each_eq_map, parenthesized, enclosed, List.length_append,
      List.length_cons] at hd
    have hread := w.readAt_call (hc.readAt_placed .suffixed (by omega))
      (read_expressions (show ")" ∈ _ by simp) .argumentsClose depth ha (by omega))
    simpa only [Writer.tokens, each_eq_map, Node.respan, Node.respanEach_eq_map, Node.level] using hread

lemma assignment {span : Option Source.Span} {target value : Node} (htarget : target.IsTarget)
    (ht : w.Written target) (hv : w.Written value) :
    w.Written (.assignment span target value) := by
  refine ⟨?_, ?_, ?_⟩
  · exact (ht.opening_placed .disjunction).append rfl _
  · intro hlevel
    exact absurd hlevel (Nat.not_lt_zero _)
  · intro depth hd
    simp only [Writer.tokens, List.length_append, List.length_cons] at hd
    have htarget' : (target.respan w.span).IsTarget := by
      cases target with
      | identifier | index => trivial
      | _ => exact htarget.elim
    exact w.readAt_assignment htarget' (ht.readAt_placed .disjunction (by omega))
      (hv.expression (by omega)) (Node.span_respan _ target)

end Written

end Writer

end Klang

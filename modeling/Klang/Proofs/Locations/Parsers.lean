import Klang.Proofs.NodeParts
import Klang.Proofs.ParserSteps

/-! Parsers account for places. Whatever a parser builds stands at tokens that it was given, and so
does whatever it complains about; and since it reads a token before it descends, it never runs out
of depth. -/

namespace Klang

def Node.PlacedBy (known : Token → Prop) (n : Node) : Prop :=
  n.Everywhere fun m => ∃ t, known t ∧ m.span = some t.span

lemma Node.PlacedBy.intro {known : Token → Prop} {n : Node} {t : Token} (ht : known t)
    (hs : n.span = some t.span) (hc : ∀ m ∈ n.children, m.PlacedBy known) : n.PlacedBy known :=
  Everywhere.intro ⟨t, ht, hs⟩ hc

namespace Parser

open Node

variable {α β : Type} {known : Token → Prop} {limit limit' : Nat} {q : α → Prop} {q' : β → Prop}
  {p : Parser α} {ts : List Token}

/-- What may be said about a token: an expression is missed only where there is no operand. -/
def Deserves (c : Complaint) (t : Token) : Prop := c = .expression → atom? t = none

/-- A result that leaves less than a number of tokens, all known, or a complaint about a known
one that deserves it. -/
inductive Settles (known : Token → Prop) (limit : Nat) (q : α → Prop) :
    Except Stop (α × List Token) → Prop
  | ok {a : α} {rest : List Token} : (∀ t ∈ rest, known t) → rest.length < limit → q a →
      Settles known limit q (.ok (a, rest))
  | complaint {c : Complaint} {token : Option Token} : (∀ t ∈ token, known t ∧ Deserves c t) →
      Settles known limit q (.error (.complaint c token))

def Accounts (known : Token → Prop) (limit : Nat) (q : α → Prop) (p : Parser α) (ts : List Token) :
    Prop :=
  (∀ t ∈ ts, known t) → Settles known limit q (p ts)

lemma accounts_pure {a : α} (hl : ts.length < limit) (ha : q a) :
    Accounts known limit q (pure a) ts := fun hk => .ok hk hl ha

lemma accounts_fail {c : Complaint} (h : ∀ t ∈ ts.head?, Deserves c t) :
    Accounts known limit q (fail c) ts :=
  fun hk => .complaint fun t ht => ⟨hk t (List.mem_of_mem_head? ht), h t ht⟩

lemma accounts_fail_of_ne {c : Complaint} (hc : c ≠ .expression) :
    Accounts known limit q (fail c) ts :=
  accounts_fail fun _ _ he => absurd he hc

lemma accounts_failAt {c : Complaint} (hc : c ≠ .expression) {t : Token} (ht : known t) :
    Accounts known limit q (failAt c t) ts := by
  intro _
  refine .complaint fun u hu => ?_
  obtain rfl := Option.some.inj hu
  exact ⟨ht, fun he => absurd he hc⟩

lemma Accounts.mono (h : Accounts known limit q p ts) (hl : limit ≤ limit') :
    Accounts known limit' q p ts := by
  intro hk
  have hs := h hk
  generalize p ts = r at hs
  cases hs with
  | ok hr hlen ha => exact .ok hr (Nat.lt_of_lt_of_le hlen hl) ha
  | complaint ht => exact .complaint ht

lemma Accounts.bind {k : α → Parser β} (h : Accounts known limit q p ts)
    (hk : ∀ a rest, rest.length < limit → q a → Accounts known limit' q' (k a) rest) :
    Accounts known limit' q' (p >>= k) ts := by
  intro hknown
  have hs := h hknown
  rw [bind_apply]
  generalize p ts = r at hs
  cases hs with
  | ok hr hlen ha => exact hk _ _ hlen ha hr
  | complaint ht => exact .complaint ht

lemma accounts_ask {f : List Token → α} {k : α → Parser β}
    (h : Accounts known limit' q' (k (f ts)) ts) :
    Accounts known limit' q' ((fun ts => .ok (f ts, ts) : Parser α) >>= k) ts := h

lemma accounts_expect (test : Token → Bool) {c : Complaint} (hc : c ≠ .expression) :
    Accounts known ts.length known (expect test c) ts := by
  cases ts with
  | nil => exact accounts_fail_of_ne hc
  | cons t rest =>
    intro hk
    simp only [expect]
    split
    · exact .ok (fun u hu => hk u (List.mem_cons_of_mem _ hu)) (by simp) (hk t List.mem_cons_self)
    · exact accounts_fail_of_ne hc hk

lemma accounts_advance : Accounts known ts.length known advance ts := by
  cases ts with
  | nil => exact accounts_fail (by simp)
  | cons t rest =>
    exact fun hk =>
      .ok (fun u hu => hk u (List.mem_cons_of_mem _ hu)) (by simp) (hk t List.mem_cons_self)

lemma accounts_expectIdentifier {c : Complaint} (hc : c ≠ .expression) :
    Accounts known ts.length (fun _ => True) (expectIdentifier c) ts :=
  (accounts_expect _ hc).bind fun _ _ hl _ => accounts_pure hl trivial

lemma accounts_takeWhile (test : Token → Bool) :
    Accounts known (ts.length + 1) (fun taken => ∀ t ∈ taken, known t) (takeWhile test) ts := by
  intro hk
  refine .ok (fun t ht => hk t (List.dropWhile_subset test ht)) ?_
    fun t ht => hk t (List.takeWhile_subset test ht)
  have := (List.dropWhile_sublist test (l := ts)).length_le
  omega

lemma accounts_skipSeparators :
    Accounts known (ts.length + 1) (fun _ => True) skipSeparators ts :=
  (accounts_takeWhile _).bind fun _ _ hl _ => accounts_pure hl trivial

section

variable {size : Nat} {item : Parser α}
  (hitem : ∀ {ts : List Token}, ts.length < size → Accounts known ts.length q item ts)

include hitem

lemma accounts_moreItems {bound : Nat} (hb : ts.length < bound) (hs : ts.length < size) :
    Accounts known (ts.length + 1) (fun as => ∀ a ∈ as, q a) (moreItems item bound) ts := by
  induction bound generalizing ts with
  | zero => omega
  | succ bound ih =>
    refine accounts_ask ?_
    split
    · refine accounts_advance.bind fun _ rest hl _ => ?_
      refine (hitem (by omega)).bind fun a rest' hl' ha => ?_
      refine (ih (by omega) (by omega)).bind fun as rest'' hl'' has => ?_
      exact accounts_pure (by omega) (List.forall_mem_cons.2 ⟨ha, has⟩)
    · exact accounts_pure (by omega) (by simp)

lemma accounts_items (close : String) {c : Complaint} (hc : c ≠ .expression)
    (hs : ts.length < size) :
    Accounts known ts.length (fun as => ∀ a ∈ as, q a) (items item close c) ts := by
  refine accounts_ask ?_
  split
  · exact accounts_advance.bind fun _ rest hl _ => accounts_pure hl (by simp)
  · refine (hitem hs).bind fun a rest hl ha => accounts_ask ?_
    refine (accounts_moreItems hitem (by omega) (by omega)).bind fun as rest' hl' has => ?_
    refine (accounts_expect _ hc).bind fun _ rest'' hl'' _ => ?_
    exact accounts_pure (by omega) (List.forall_mem_cons.2 ⟨ha, has⟩)

end

lemma accounts_ascription : Accounts known (ts.length + 1) (fun _ => True) ascription ts := by
  refine accounts_ask ?_
  split
  · refine accounts_advance.bind fun _ rest hl _ => ?_
    exact (accounts_expectIdentifier (by simp)).bind fun _ rest' hl' _ =>
      accounts_pure (by omega) trivial
  · exact accounts_pure (by omega) trivial

lemma accounts_moreParameters {bound : Nat} (hb : ts.length < bound) (found : List Parameter) :
    Accounts known ts.length (fun _ => True) (moreParameters bound found) ts := by
  induction bound generalizing ts found with
  | zero => omega
  | succ bound ih =>
    refine (accounts_expectIdentifier (by simp)).bind fun name rest hl _ => ?_
    refine accounts_ascription.bind fun type rest' hl' _ => ?_
    split
    · exact accounts_fail_of_ne (by simp)
    · refine accounts_ask ?_
      split
      · refine accounts_advance.bind fun _ rest'' hl'' _ => ?_
        exact (ih (by omega) _).mono (by omega)
      · exact accounts_pure (by omega) trivial

lemma accounts_parameters : Accounts known ts.length (fun _ => True) parameters ts := by
  refine (accounts_expect _ (by simp)).bind fun _ rest hl _ => accounts_ask ?_
  split
  · exact accounts_advance.bind fun _ rest' hl' _ => accounts_pure (by omega) trivial
  · refine accounts_ask ?_
    refine (accounts_moreParameters (by omega) _).bind fun _ rest' hl' _ => ?_
    exact (accounts_expect _ (by simp)).bind fun _ rest'' hl'' _ => accounts_pure (by omega) trivial

structure Inner.Accounts (known : Token → Prop) (size : Nat) (inner : Inner) : Prop where
  expression : ∀ {ts : List Token}, ts.length < size →
    Parser.Accounts known ts.length (PlacedBy known) inner.expression ts
  statement : ∀ {ts : List Token}, ts.length < size →
    Parser.Accounts known ts.length (PlacedBy known) inner.statement ts

variable {size : Nat} {inner : Inner} (h : inner.Accounts known size)

include h

lemma accounts_blockStatements {opening : Token} {bound : Nat} (hb : ts.length < bound)
    (hs : ts.length < size) :
    Accounts known ts.length (fun nodes => ∀ n ∈ nodes, n.PlacedBy known)
      (blockStatements inner.statement opening bound) ts := by
  induction bound generalizing ts with
  | zero => omega
  | succ bound ih =>
    refine accounts_ask ?_
    split
    · exact accounts_advance.bind fun _ rest hl _ => accounts_pure hl (by simp)
    · refine accounts_ask ?_
      split
      · exact accounts_fail_of_ne (by simp)
      · refine (h.statement hs).bind fun first rest hl hf => ?_
        refine accounts_skipSeparators.bind fun _ rest' hl' _ => ?_
        refine (ih (by omega) (by omega)).bind fun others rest'' hl'' ho => ?_
        exact accounts_pure (by omega) (List.forall_mem_cons.2 ⟨hf, ho⟩)

lemma accounts_block (hs : ts.length ≤ size) :
    Accounts known ts.length (PlacedBy known) (block inner) ts := by
  refine (accounts_expect _ (by simp)).bind fun opening rest hl ho => ?_
  refine accounts_skipSeparators.bind fun _ rest' hl' _ => accounts_ask ?_
  refine (accounts_blockStatements h (by omega) (by omega)).bind fun nodes rest'' hl'' hn => ?_
  exact accounts_pure (by omega) (.intro ho rfl hn)

lemma accounts_listLiteral (hs : ts.length ≤ size) :
    Accounts known ts.length (PlacedBy known) (listLiteral inner) ts := by
  refine accounts_advance.bind fun opening rest hl ho => ?_
  refine (accounts_items h.expression _ (by simp) (by omega)).bind fun nodes rest' hl' hn => ?_
  exact accounts_pure (by omega) (.intro ho rfl hn)

lemma accounts_mapEntry (hs : ts.length < size) :
    Accounts known ts.length (fun e => e.2.PlacedBy known) (mapEntry inner) ts := by
  refine (accounts_expect _ (by simp)).bind fun key rest hl _ => ?_
  refine (accounts_expect _ (by simp)).bind fun _ rest' hl' _ => ?_
  refine (h.expression (by omega)).bind fun value rest'' hl'' hv => ?_
  exact accounts_pure (by omega) hv

lemma accounts_mapLiteral (hs : ts.length ≤ size) :
    Accounts known ts.length (PlacedBy known) (mapLiteral inner) ts := by
  refine accounts_advance.bind fun opening rest hl ho => ?_
  refine (accounts_items (accounts_mapEntry h) _ (by simp) (by omega)).bind
    fun entries rest' hl' he => ?_
  refine accounts_pure (by omega) (.intro ho rfl fun m hm => ?_)
  obtain ⟨entry, hentry, rfl⟩ := List.mem_map.1 hm
  exact he entry hentry

lemma accounts_functionExpression (hs : ts.length ≤ size) :
    Accounts known ts.length (PlacedBy known) (functionExpression inner) ts := by
  refine accounts_advance.bind fun word rest hl hw => ?_
  refine accounts_parameters.bind fun _ rest' hl' _ => ?_
  refine (accounts_block h (by omega)).bind fun body rest'' hl'' hb => ?_
  exact accounts_pure (by omega) (.intro hw rfl (List.forall_mem_singleton.2 hb))

lemma accounts_lambdaBody (hs : ts.length ≤ size) :
    Accounts known ts.length (PlacedBy known) (lambdaBody inner) ts := by
  refine accounts_ask ?_
  split
  · refine accounts_advance.bind fun _ rest hl _ => accounts_ask (accounts_ask ?_)
    split
    · exact (accounts_block h (by omega)).mono (by omega)
    · refine (h.expression (by omega)).bind fun value rest' hl' hv => ?_
      -- The block and the `return` around an expression are not written; they stand where it does.
      obtain ⟨t, ht, hspan⟩ := hv.self
      have hreturn : (Node.returnStatement value.span (some value)).PlacedBy known :=
        .intro ht hspan (List.forall_mem_singleton.2 hv)
      exact accounts_pure (by omega) (.intro ht hspan (List.forall_mem_singleton.2 hreturn))
  · refine accounts_ask ?_
    split
    · exact accounts_block h hs
    · exact accounts_fail_of_ne (by simp)

lemma accounts_lambda (hs : ts.length ≤ size) :
    Accounts known ts.length (PlacedBy known) (lambda inner) ts := by
  refine accounts_advance.bind fun word rest hl hw => ?_
  refine accounts_parameters.bind fun _ rest' hl' _ => ?_
  refine (accounts_lambdaBody h (by omega)).bind fun body rest'' hl'' hb => ?_
  exact accounts_pure (by omega) (.intro hw rfl (List.forall_mem_singleton.2 hb))

lemma accounts_group (hs : ts.length ≤ size) :
    Accounts known ts.length (PlacedBy known) (group inner) ts := by
  refine accounts_advance.bind fun _ rest hl _ => ?_
  refine (h.expression (by omega)).bind fun value rest' hl' hv => ?_
  exact (accounts_expect _ (by simp)).bind fun _ rest'' hl'' _ => accounts_pure (by omega) hv

omit h in
lemma placedBy_of_atom? {t : Token} (ht : known t) {n : Node} (hn : atom? t = some n) :
    n.PlacedBy known := by
  have hleaf {n : Node} (hspan : n.span = some t.span) (hc : n.children = []) : n.PlacedBy known :=
    .intro ht hspan (by simp [hc])
  unfold atom? at hn
  split at hn
  · obtain ⟨x, _, rfl⟩ := Option.map_eq_some_iff.1 hn
    exact hleaf rfl rfl
  · cases hn
    exact hleaf rfl rfl
  · cases hn
    exact hleaf rfl rfl
  · split at hn
    · cases hn
      exact hleaf rfl rfl
    · split at hn
      · cases hn
        exact hleaf rfl rfl
      · cases hn
  · cases hn

lemma accounts_primary (hs : ts.length ≤ size) :
    Accounts known ts.length (PlacedBy known) (primary inner) ts := by
  refine accounts_ask ?_
  cases hatom : ts.head?.bind atom? with
  | some node =>
    obtain ⟨t, ht, ha⟩ := Option.bind_eq_some_iff.1 hatom
    intro hk
    have hn : node.PlacedBy known := placedBy_of_atom? (hk t (List.mem_of_mem_head? ht)) ha
    exact accounts_advance.bind (fun _ rest hl _ => accounts_pure hl hn) hk
  | none =>
    refine accounts_ask ?_
    split
    · exact accounts_functionExpression h hs
    refine accounts_ask ?_
    split
    · exact accounts_lambda h hs
    refine accounts_ask ?_
    split
    · exact accounts_group h hs
    refine accounts_ask ?_
    split
    · exact accounts_listLiteral h hs
    refine accounts_ask ?_
    split
    · refine accounts_ask ?_
      split
      · exact accounts_mapLiteral h hs
      · exact accounts_fail_of_ne (by simp)
    · exact accounts_fail fun t ht _ => by simpa [Option.mem_def.1 ht] using hatom

lemma accounts_suffixes {bound : Nat} (hb : ts.length < bound) (hs : ts.length ≤ size)
    {operand : Node} (ho : operand.PlacedBy known) :
    Accounts known (ts.length + 1) (PlacedBy known) (suffixes inner bound operand) ts := by
  induction bound generalizing ts operand with
  | zero => omega
  | succ bound ih =>
    refine accounts_ask ?_
    split
    · refine accounts_advance.bind fun opening rest hl hop => ?_
      refine (accounts_items h.expression _ (by simp) (by omega)).bind
        fun arguments rest' hl' ha => ?_
      have hcall : (call opening.span operand arguments).PlacedBy known :=
        .intro hop rfl (List.forall_mem_cons.2 ⟨ho, ha⟩)
      exact (ih (by omega) (by omega) hcall).mono (by omega)
    refine accounts_ask ?_
    split
    · refine accounts_advance.bind fun opening rest hl hop => ?_
      refine (h.expression (by omega)).bind fun key rest' hl' hkey => ?_
      refine (accounts_expect _ (by simp)).bind fun _ rest'' hl'' _ => ?_
      have hindex : (index opening.span operand key).PlacedBy known :=
        .intro hop rfl (List.forall_mem_cons.2 ⟨ho, List.forall_mem_singleton.2 hkey⟩)
      exact (ih (by omega) (by omega) hindex).mono (by omega)
    · exact accounts_pure (by omega) ho

lemma accounts_unary (hs : ts.length ≤ size) :
    Accounts known ts.length (PlacedBy known) (unary inner) ts := by
  refine (accounts_takeWhile _).bind fun signs rest hl hsigns => ?_
  refine (accounts_primary h (by omega)).bind fun operand rest' hl' ho => accounts_ask ?_
  refine (accounts_suffixes h (by omega) (by omega) ho).bind fun operand rest'' hl'' ho => ?_
  refine accounts_pure (by omega) ?_
  induction signs with
  | nil => exact ho
  | cons sign signs ih =>
    obtain ⟨hsign, hsigns⟩ := List.forall_mem_cons.1 hsigns
    exact .intro hsign rfl (List.forall_mem_singleton.2 (ih hsigns))

section

variable {operand : Parser Node}
  (hoperand : ∀ {ts : List Token}, ts.length ≤ size →
    Accounts known ts.length (PlacedBy known) operand ts)
  (operatorOf : Token → Option BinaryOperator)

include hoperand

omit h

lemma accounts_chain {bound : Nat} (hb : ts.length < bound) (hs : ts.length ≤ size) {left : Node}
    (hleft : left.PlacedBy known) :
    Accounts known (ts.length + 1) (PlacedBy known) (chain operand operatorOf bound left) ts := by
  induction bound generalizing ts left with
  | zero => omega
  | succ bound ih =>
    refine accounts_ask ?_
    cases ts.head?.bind operatorOf with
    | none => exact accounts_pure (by omega) hleft
    | some operator =>
      refine accounts_advance.bind fun _ rest hl _ => ?_
      refine (hoperand (by omega)).bind fun right rest' hl' hright => ?_
      obtain ⟨t, ht, hspan⟩ := hleft.self
      have hbinary : (binary left.span operator left right).PlacedBy known :=
        .intro ht hspan (List.forall_mem_cons.2 ⟨hleft, List.forall_mem_singleton.2 hright⟩)
      exact (ih (by omega) (by omega) hbinary).mono (by omega)

lemma accounts_level (hs : ts.length ≤ size) :
    Accounts known ts.length (PlacedBy known) (level operatorOf operand) ts := by
  refine (hoperand hs).bind fun left rest hl hleft => accounts_ask ?_
  exact (accounts_chain hoperand operatorOf (by omega) (by omega) hleft).mono (by omega)

end

lemma accounts_disjunction (hs : ts.length ≤ size) :
    Accounts known ts.length (PlacedBy known) (disjunction inner) ts := by
  have hmultiplicative {ts : List Token} (hs : ts.length ≤ size) :
      Accounts known ts.length (PlacedBy known) (multiplicative inner) ts :=
    accounts_level (accounts_unary h) multiplicativeOf hs
  have hadditive {ts : List Token} (hs : ts.length ≤ size) :
      Accounts known ts.length (PlacedBy known) (additive inner) ts :=
    accounts_level hmultiplicative additiveOf hs
  have hrelational {ts : List Token} (hs : ts.length ≤ size) :
      Accounts known ts.length (PlacedBy known) (relational inner) ts :=
    accounts_level hadditive relationalOf hs
  have hequality {ts : List Token} (hs : ts.length ≤ size) :
      Accounts known ts.length (PlacedBy known) (equality inner) ts :=
    accounts_level hrelational equalityOf hs
  have hconjunction {ts : List Token} (hs : ts.length ≤ size) :
      Accounts known ts.length (PlacedBy known) (conjunction inner) ts :=
    accounts_level hequality conjunctionOf hs
  exact accounts_level hconjunction disjunctionOf hs

lemma accounts_assignment (hs : ts.length ≤ size) :
    Accounts known ts.length (PlacedBy known) (assignment inner) ts := by
  refine (accounts_disjunction h hs).bind fun target rest hl ht => accounts_ask ?_
  split
  · refine accounts_advance.bind fun equals rest' hl' he => ?_
    split
    · refine (h.expression (by omega)).bind fun value rest'' hl'' hv => ?_
      obtain ⟨t, hknown, hspan⟩ := ht.self
      exact accounts_pure (by omega)
        (.intro hknown hspan (List.forall_mem_cons.2 ⟨ht, List.forall_mem_singleton.2 hv⟩))
    · exact accounts_failAt (by simp) he
  · exact accounts_pure hl ht

lemma accounts_declaration (hs : ts.length ≤ size) :
    Accounts known ts.length (PlacedBy known) (declaration inner) ts := by
  refine accounts_advance.bind fun word rest hl hw => ?_
  refine (accounts_expectIdentifier (by simp)).bind fun name rest' hl' _ => ?_
  refine accounts_ascription.bind fun type rest'' hl'' _ => ?_
  refine (accounts_expect _ (by simp)).bind fun _ rest₃ hl₃ _ => ?_
  refine (h.expression (by omega)).bind fun value rest₄ hl₄ hv => ?_
  exact accounts_pure (by omega) (.intro hw rfl (List.forall_mem_singleton.2 hv))

lemma accounts_definition (hs : ts.length ≤ size) :
    Accounts known ts.length (PlacedBy known) (definition inner) ts := by
  refine accounts_advance.bind fun word rest hl hw => ?_
  refine (accounts_expectIdentifier (by simp)).bind fun name rest' hl' _ => ?_
  refine accounts_parameters.bind fun _ rest'' hl'' _ => ?_
  refine (accounts_block h (by omega)).bind fun body rest₃ hl₃ hb => ?_
  exact accounts_pure (by omega) (.intro hw rfl (List.forall_mem_singleton.2 hb))

lemma accounts_elseBranch (hs : ts.length ≤ size) :
    Accounts known (ts.length + 1) (fun branch => ∀ n ∈ branch, n.PlacedBy known)
      (elseBranch inner) ts := by
  have hsome {n : Node} (hn : n.PlacedBy known) : ∀ m ∈ some n, m.PlacedBy known := by
    intro m hm
    obtain rfl := Option.some.inj hm
    exact hn
  refine accounts_ask ?_
  split
  · refine accounts_advance.bind fun _ rest hl _ => accounts_ask ?_
    split
    · refine (h.statement (by omega)).bind fun branch rest' hl' hb => ?_
      exact accounts_pure (by omega) (hsome hb)
    · refine (accounts_block h (by omega)).bind fun branch rest' hl' hb => ?_
      exact accounts_pure (by omega) (hsome hb)
  · exact accounts_pure (by omega) nofun

lemma accounts_conditional (hs : ts.length ≤ size) :
    Accounts known ts.length (PlacedBy known) (conditional inner) ts := by
  refine accounts_advance.bind fun word rest hl hw => ?_
  refine (h.expression (by omega)).bind fun condition rest' hl' hc => ?_
  refine (accounts_block h (by omega)).bind fun thenBranch rest'' hl'' ht => ?_
  refine (accounts_elseBranch h (by omega)).bind fun otherwise rest₃ hl₃ ho => ?_
  refine accounts_pure (by omega) (.intro hw rfl ?_)
  have hrest : ∀ n ∈ otherwise.toList, n.PlacedBy known := fun n hn => ho n (by simpa using hn)
  exact List.forall_mem_cons.2 ⟨hc, List.forall_mem_cons.2 ⟨ht, hrest⟩⟩

lemma accounts_whileLoop (hs : ts.length ≤ size) :
    Accounts known ts.length (PlacedBy known) (whileLoop inner) ts := by
  refine accounts_advance.bind fun word rest hl hw => ?_
  refine (h.expression (by omega)).bind fun condition rest' hl' hc => ?_
  refine (accounts_block h (by omega)).bind fun body rest'' hl'' hb => ?_
  exact accounts_pure (by omega)
    (.intro hw rfl (List.forall_mem_cons.2 ⟨hc, List.forall_mem_singleton.2 hb⟩))

lemma accounts_returnStatement (hs : ts.length ≤ size) :
    Accounts known ts.length (PlacedBy known) (returnStatement inner) ts := by
  refine accounts_advance.bind fun word rest hl hw => ?_
  refine accounts_ask (accounts_ask (accounts_ask ?_))
  split
  · exact accounts_pure hl (.intro hw rfl (by simp [children]))
  · refine (h.expression (by omega)).bind fun value rest' hl' hv => ?_
    exact accounts_pure (by omega) (.intro hw rfl (List.forall_mem_singleton.2 hv))

lemma accounts_forLoop (hs : ts.length ≤ size) :
    Accounts known ts.length (PlacedBy known) (forLoop inner) ts := by
  refine accounts_advance.bind fun word rest hl hw => accounts_ask ?_
  have hbody {rest₄ : List Token} (hl₄ : rest₄.length < ts.length) (iterator : String)
      {iterable : Node} (hi : iterable.PlacedBy known) :
      Accounts known ts.length (PlacedBy known)
        (do
          let body ← block inner
          return Node.forLoop word.span iterator iterable body) rest₄ := by
    refine (accounts_block h (by omega)).bind fun body rest₅ hl₅ hb => ?_
    exact accounts_pure (by omega)
      (.intro hw rfl (List.forall_mem_cons.2 ⟨hi, List.forall_mem_singleton.2 hb⟩))
  split
  · refine accounts_advance.bind fun _ rest₁ hl₁ _ => ?_
    refine (accounts_expectIdentifier (by simp)).bind fun iterator rest₂ hl₂ _ => ?_
    refine (accounts_expect _ (by simp)).bind fun _ rest₃ hl₃ _ => ?_
    refine (h.expression (by omega)).bind fun iterable rest₄ hl₄ hi => ?_
    refine (accounts_expect _ (by simp)).bind fun _ rest₅ hl₅ _ => ?_
    exact hbody (by omega) iterator hi
  · refine (accounts_expectIdentifier (by simp)).bind fun iterator rest₂ hl₂ _ => ?_
    refine (accounts_expect _ (by simp)).bind fun _ rest₃ hl₃ _ => ?_
    refine (h.expression (by omega)).bind fun iterable rest₄ hl₄ hi => ?_
    exact hbody (by omega) iterator hi

lemma accounts_expressionStatement (hs : ts.length ≤ size) :
    Accounts known ts.length (PlacedBy known) (expressionStatement inner) ts := by
  intro hk
  refine accounts_ask ((accounts_assignment h hs).bind fun value rest hl hv => ?_) hk
  cases ts with
  | nil => exact absurd hl (Nat.not_lt_zero _)
  | cons t ts =>
    exact accounts_pure hl (.intro (hk t List.mem_cons_self) rfl (List.forall_mem_singleton.2 hv))

lemma accounts_statement (hs : ts.length ≤ size) :
    Accounts known ts.length (PlacedBy known) (statement inner) ts := by
  refine accounts_ask (accounts_ask ?_)
  split
  · exact accounts_declaration h hs
  refine accounts_ask ?_
  split
  · exact accounts_definition h hs
  refine accounts_ask ?_
  split
  · exact accounts_conditional h hs
  refine accounts_ask ?_
  split
  · exact accounts_whileLoop h hs
  refine accounts_ask ?_
  split
  · exact accounts_forLoop h hs
  refine accounts_ask ?_
  split
  · exact accounts_returnStatement h hs
  refine accounts_ask (accounts_ask ?_)
  split
  · exact accounts_block h hs
  · exact accounts_expressionStatement h hs

omit h

lemma accounts_descend (depth : Nat) : (descend depth).Accounts known depth := by
  -- A construct reads a token before anything nested in it, so one level less is left for less.
  induction depth with
  | zero => exact ⟨fun hs => absurd hs (Nat.not_lt_zero _), fun hs => absurd hs (Nat.not_lt_zero _)⟩
  | succ depth ih =>
    exact ⟨fun hs => accounts_assignment ih (Nat.le_of_lt_succ hs),
      fun hs => accounts_statement ih (Nat.le_of_lt_succ hs)⟩

lemma accounts_programStatements (h : inner.Accounts known size) {bound : Nat}
    (hb : ts.length < bound) (hs : ts.length < size) :
    Accounts known (ts.length + 1) (fun nodes => ∀ n ∈ nodes, n.PlacedBy known)
      (programStatements inner.statement bound) ts := by
  induction bound generalizing ts with
  | zero => omega
  | succ bound ih =>
    refine accounts_ask ?_
    split
    · exact accounts_pure (by omega) (by simp)
    · refine (h.statement hs).bind fun first rest hl hf => ?_
      refine accounts_skipSeparators.bind fun _ rest' hl' _ => ?_
      refine (ih (by omega) (by omega)).bind fun others rest'' hl'' ho => ?_
      exact accounts_pure (by omega) (List.forall_mem_cons.2 ⟨hf, ho⟩)

lemma accounts_program :
    Accounts known (ts.length + 1) (fun nodes => ∀ n ∈ nodes, n.PlacedBy known) program ts := by
  refine accounts_ask (accounts_skipSeparators.bind fun _ rest hl _ => ?_)
  exact (accounts_programStatements (accounts_descend _) (by omega) (by omega)).mono (by omega)

end Parser

theorem parseProgram_located {tokens : List Token}
    (hend : tokens.getLast?.map Token.kind = some .eof) :
    (∃ program, parseProgram tokens = .ok program ∧ program.PlacedBy (· ∈ tokens)) ∨
      ∃ c, ∃ t ∈ tokens, parseProgram tokens = .error (.rejected c t) := by
  obtain ⟨last, hsplit⟩ := Parser.splitInput?_of_getLast? hend
  have hmem : last ∈ tokens := by
    obtain ⟨more, htokens, _⟩ := Parser.splitInput?_eq_some_iff.1 hsplit
    rw [htokens]
    exact List.mem_append_right _ List.mem_cons_self
  have hbody : ∀ t ∈ tokens.takeWhile (·.kind ≠ .eof), t ∈ tokens :=
    fun t ht => List.takeWhile_subset _ ht
  have hs := Parser.accounts_program hbody
  simp only [parseProgram, hsplit, Parser.run]
  generalize Parser.program (tokens.takeWhile (·.kind ≠ .eof)) = r at hs ⊢
  cases hs with
  | ok _ _ hn =>
    refine .inl ⟨_, rfl, .intro (t := (tokens.takeWhile (·.kind ≠ .eof)).headD last) ?_ rfl hn⟩
    cases hb : tokens.takeWhile (·.kind ≠ .eof) with
    | nil => exact hmem
    | cons t rest => exact hbody t (hb ▸ List.mem_cons_self)
  | @complaint c token ht =>
    refine .inr ⟨c, token.getD last, ?_, rfl⟩
    cases token with
    | none => exact hmem
    | some t => exact (ht t rfl).1

end Klang

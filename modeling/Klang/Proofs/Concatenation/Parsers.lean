import Klang.Proofs.Concatenation.Extension

/-! Every parser of the language reads on in front of more input as it did before. -/

namespace Klang.Parser

open Token

variable {α γ : Type} {ext : List Token}

structure Inner.Extends (ext : List Token) (inner inner' : Inner) : Prop where
  expression : Parser.Extends ext Node.Alike inner.expression inner'.expression
  statement : Parser.Extends ext Node.Alike inner.statement inner'.statement

variable {inner inner' : Inner} (hext : Separates ext) (hi : inner.Extends ext inner')

include hext

lemma extends_moreItems {e : α → γ} {item item' : Parser α} {k k' : Nat}
    (h : Extends ext (fun a b => e a = e b) item item') (hk : k ≤ k') :
    Extends ext (fun as bs => as.map e = bs.map e) (moreItems item k) (moreItems item' k') := by
  induction k generalizing k' with
  | zero => exact extends_exhausted _
  | succ k ih =>
    obtain ⟨k', rfl⟩ : ∃ j, k' = j + 1 := ⟨k' - 1, by omega⟩
    refine (extends_nextSymbol hext (by decide)).bind ?_
    rintro more _ rfl
    refine .ite ?_ (extends_pure rfl)
    refine extends_advance.bind fun _ _ _ => h.bind fun first first' hfirst => ?_
    refine (ih (by omega)).bind fun others others' hothers => extends_pure ?_
    rw [List.map_cons, List.map_cons, hfirst, hothers]

lemma extends_items {e : α → γ} {item item' : Parser α} {close : String} (hclose : close ≠ ";")
    (c : Complaint) (h : Extends ext (fun a b => e a = e b) item item') :
    Extends ext (fun as bs => as.map e = bs.map e) (items item close c) (items item' close c) := by
  refine (extends_nextSymbol hext hclose).bind ?_
  rintro closed _ rfl
  refine .ite (extends_advance.bind fun _ _ _ => extends_pure rfl) ?_
  refine h.bind fun first first' hfirst => extends_rounds.bind fun k k' hk => ?_
  refine (extends_moreItems hext h hk).bind fun others others' hothers => ?_
  refine (extends_expectSymbol close c c).bind fun _ _ _ => extends_pure ?_
  rw [List.map_cons, List.map_cons, hfirst, hothers]

lemma extends_ascription : Extends ext Eq ascription ascription := by
  refine (extends_nextSymbol hext (by decide)).bind ?_
  rintro typed _ rfl
  refine .ite ?_ (extends_pure rfl)
  refine extends_advance.bind fun _ _ _ => (extends_expectIdentifier _ _).bind ?_
  rintro name _ rfl
  exact extends_pure rfl

lemma extends_moreParameters (found : List Parameter) {k k' : Nat} (hk : k ≤ k') :
    Extends ext Eq (moreParameters k found) (moreParameters k' found) := by
  induction k generalizing k' found with
  | zero => exact extends_exhausted _
  | succ k ih =>
    obtain ⟨k', rfl⟩ : ∃ j, k' = j + 1 := ⟨k' - 1, by omega⟩
    refine (extends_expectIdentifier _ _).bind ?_
    rintro name _ rfl
    refine (extends_ascription hext).bind ?_
    rintro type _ rfl
    refine .ite (extends_fail _ _) ?_
    refine (extends_nextSymbol hext (by decide)).bind ?_
    rintro more _ rfl
    exact .ite (extends_advance.bind fun _ _ _ => ih _ (by omega)) (extends_pure rfl)

lemma extends_parameters : Extends ext Eq parameters parameters := by
  refine (extends_expectSymbol _ _ _).bind fun _ _ _ => (extends_nextSymbol hext (by decide)).bind ?_
  rintro closed _ rfl
  refine .ite (extends_advance.bind fun _ _ _ => extends_pure rfl) ?_
  refine extends_rounds.bind fun k k' hk => (extends_moreParameters hext [] hk).bind ?_
  rintro found _ rfl
  exact (extends_expectSymbol _ _ _).bind fun _ _ _ => extends_pure rfl

omit hext in
lemma blockStatements_nil (statement : Parser Node) (opening : Token) (k : Nat) (a : List Node)
    (rest : List Token) : blockStatements statement opening k [] ≠ .ok (a, rest) := by
  intro h
  cases k <;> cases h

lemma extends_blockStatements {statement statement' : Parser Node}
    (h : Extends ext Node.Alike statement statement') (opening opening' : Token) {k k' : Nat}
    (hk : k ≤ k') : Extends ext Node.EachAlike (blockStatements statement opening k)
      (blockStatements statement' opening' k') := by
  induction k generalizing k' with
  | zero => exact extends_exhausted _
  | succ k ih =>
    obtain ⟨k', rfl⟩ : ∃ j, k' = j + 1 := ⟨k' - 1, by omega⟩
    refine (extends_nextSymbol hext (by decide)).bind ?_
    rintro closed _ rfl
    refine .ite (extends_advance.bind fun _ _ _ => extends_pure rfl) (extends_unlessEnd ?_)
    refine h.bind fun first first' hfirst => extends_skipSeparators ?_ ?_
    · refine (ih (by omega)).bind fun others others' hothers => extends_pure ?_
      rw [Node.EachAlike, List.map_cons, List.map_cons, hfirst, hothers]
    · intro a rest hrun
      obtain ⟨others, mid, hothers, _⟩ := bind_eq_ok.1 hrun
      exact blockStatements_nil _ _ _ _ _ hothers

include hi

lemma extends_block : Extends ext Node.Alike (block inner) (block inner') := by
  refine (extends_expectSymbol _ _ _).bind fun opening opening' _ => extends_skipSeparators ?_ ?_
  · refine extends_rounds.bind fun k k' hk => ?_
    refine (extends_blockStatements hext hi.statement opening opening' hk).bind ?_
    intro nodes nodes' hnodes
    refine extends_pure ?_
    simpa [Node.Alike, Node.respan] using hnodes
  · intro a rest hrun
    rw [rounds_bind] at hrun
    obtain ⟨nodes, mid, hnodes, _⟩ := bind_eq_ok.1 hrun
    exact blockStatements_nil _ _ _ _ _ hnodes

lemma extends_listLiteral : Extends ext Node.Alike (listLiteral inner) (listLiteral inner') := by
  refine extends_advance.bind fun opening opening' _ => ?_
  refine (extends_items hext (by decide) _ hi.expression).bind fun elements elements' h => ?_
  refine extends_pure ?_
  simpa [Node.Alike, Node.respan] using h

omit hext in
lemma extends_mapEntry :
    Extends ext (fun a b => (a.1, a.2.respan none) = (b.1, b.2.respan none)) (mapEntry inner)
      (mapEntry inner') := by
  refine (extends_expect isSpelled_isMapKey _ _).bind fun key key' hkey => ?_
  refine (extends_expectSymbol _ _ _).bind fun _ _ _ => hi.expression.bind fun value value' hvalue => ?_
  exact extends_pure (Prod.ext (congrArg Prod.snd hkey) hvalue)

lemma extends_mapLiteral : Extends ext Node.Alike (mapLiteral inner) (mapLiteral inner') := by
  refine extends_advance.bind fun opening opening' _ => ?_
  refine (extends_items hext (by decide) _ (extends_mapEntry hi)).bind ?_
  intro entries entries' h
  refine extends_pure ?_
  simpa [Node.Alike, Node.respan] using h

lemma extends_functionExpression :
    Extends ext Node.Alike (functionExpression inner) (functionExpression inner') := by
  refine extends_advance.bind fun keyword keyword' _ => (extends_parameters hext).bind ?_
  rintro params _ rfl
  refine (extends_block hext hi).bind fun body body' hbody => extends_pure ?_
  simpa [Node.Alike, Node.respan] using hbody

omit hi in
lemma looksLikeMap_append_separator {ts us : List Token} (h : Alike ts us) :
    looksLikeMap ts = looksLikeMap (us ++ ext) := by
  match ts with
  | [] =>
    obtain rfl := h.nil_left
    match ext with
    | [] | [_] => rfl
    | brace :: next :: ext =>
      have hbrace := isInner_isSymbol (show "\x7b" ≠ ";" by decide) brace (hext brace rfl)
      simp [looksLikeMap, hbrace]
  | [brace] =>
    obtain ⟨brace', us, rfl, hb, hus⟩ := h.cons_left
    obtain rfl := hus.nil_left
    match ext with
    | [] => rfl
    | next :: ext =>
      have hclose := isInner_isDelimiter (show "\x7d" ≠ ";" by decide) next (hext next rfl)
      have hkey := isInner_isMapKey next (hext next rfl)
      simp [looksLikeMap, hclose, hkey]
  | brace :: next :: ts =>
    obtain ⟨brace', us, rfl, hb, hus⟩ := h.cons_left
    obtain ⟨next', us, rfl, hn, hus⟩ := hus.cons_left
    have hcolon := head_test hext (isSpelled_isDelimiter ":") (isInner_isDelimiter (by decide)) hus
    simp only [looksLikeMap, List.cons_append, hcolon, isSpelled_isSymbol _ _ _ hb,
      isSpelled_isDelimiter _ _ _ hn, isSpelled_isMapKey _ _ hn]

omit hi in
lemma extends_looksLikeMap : Extends ext Eq (ahead looksLikeMap) (ahead looksLikeMap) :=
  extends_ask fun _ _ h => looksLikeMap_append_separator hext h

lemma extends_lambdaBody : Extends ext Node.Alike (lambdaBody inner) (lambdaBody inner') := by
  refine (extends_next hext (isSpelled_isOperator _) (isInner_isOperator (by decide))).bind ?_
  rintro arrow _ rfl
  refine .ite ?_ ?_
  · refine extends_advance.bind fun _ _ _ => (extends_nextSymbol hext (by decide)).bind ?_
    rintro brace _ rfl
    refine (extends_looksLikeMap hext).bind ?_
    rintro map _ rfl
    refine .ite (extends_block hext hi) ?_
    refine hi.expression.bind fun value value' hvalue => extends_pure ?_
    simpa [Node.Alike, Node.respan] using hvalue
  · refine (extends_nextSymbol hext (by decide)).bind ?_
    rintro brace _ rfl
    exact .ite (extends_block hext hi) (extends_fail _ _)

lemma extends_lambda : Extends ext Node.Alike (lambda inner) (lambda inner') := by
  refine extends_advance.bind fun keyword keyword' _ => (extends_parameters hext).bind ?_
  rintro params _ rfl
  refine (extends_lambdaBody hext hi).bind fun body body' hbody => extends_pure ?_
  simpa [Node.Alike, Node.respan] using hbody

omit hext in
lemma extends_group : Extends ext Node.Alike (group inner) (group inner') := by
  refine extends_advance.bind fun _ _ _ => hi.expression.bind fun value value' hvalue => ?_
  exact (extends_expectSymbol _ _ _).bind fun _ _ _ => extends_pure hvalue

omit hext hi in
lemma atom?_alike {t u : Token} (h : t.spelling = u.spelling) :
    (atom? t).map (Node.respan none) = (atom? u).map (Node.respan none) := by
  simp only [spelling, Prod.mk.injEq] at h
  simp only [atom?, h.1, h.2]
  split
  · cases Number.ofNumeral? u.value.toList <;> rfl
  · rfl
  · rfl
  · split
    · rfl
    · split <;> rfl
  · rfl

omit hi in
lemma extends_nextAtom? :
    Extends ext (fun a b => a.map (Node.respan none) = b.map (Node.respan none)) nextAtom? nextAtom? := by
  refine extends_ask fun ts us h => ?_
  cases ts with
  | nil =>
    obtain rfl := h.nil_left
    cases ext with
    | nil => rfl
    | cons t ext =>
      have hnone : atom? t = none := by
        rcases (separator_eq (hext t rfl)).1 with hkind | hkind <;> simp [atom?, hkind]
      simp [hnone]
  | cons t ts =>
    obtain ⟨u, us, rfl, hu, _⟩ := h.cons_left
    simpa using atom?_alike hu

lemma extends_primary : Extends ext Node.Alike (primary inner) (primary inner') := by
  refine (extends_nextAtom? hext).bind ?_
  intro atom atom' hatom
  cases atom with
  | some node =>
    cases atom' with
    | none => cases hatom
    | some node' => exact extends_advance.bind fun _ _ _ => extends_pure (Option.some.inj hatom)
  | none =>
    cases atom' with
    | some node' => cases hatom
    | none =>
      refine (extends_nextKeyword hext _).bind ?_
      rintro isDef _ rfl
      refine .ite (extends_functionExpression hext hi) ((extends_nextKeyword hext _).bind ?_)
      rintro isForge _ rfl
      refine .ite (extends_lambda hext hi) ((extends_nextSymbol hext (by decide)).bind ?_)
      rintro isGroup _ rfl
      refine .ite (extends_group hi) ((extends_nextSymbol hext (by decide)).bind ?_)
      rintro isList _ rfl
      refine .ite (extends_listLiteral hext hi) ((extends_nextSymbol hext (by decide)).bind ?_)
      rintro isBrace _ rfl
      refine .ite ((extends_looksLikeMap hext).bind ?_) (extends_fail _ _)
      rintro isMap _ rfl
      exact .ite (extends_mapLiteral hext hi) (extends_fail _ _)

lemma extends_suffixes {k k' : Nat} (hk : k ≤ k') {operand operand' : Node}
    (ho : operand.Alike operand') :
    Extends ext Node.Alike (suffixes inner k operand) (suffixes inner' k' operand') := by
  induction k generalizing k' operand operand' with
  | zero => exact extends_exhausted _
  | succ k ih =>
    obtain ⟨k', rfl⟩ : ∃ j, k' = j + 1 := ⟨k' - 1, by omega⟩
    refine (extends_nextSymbol hext (by decide)).bind ?_
    rintro isCall _ rfl
    refine .ite ?_ ((extends_nextSymbol hext (by decide)).bind ?_)
    · refine extends_advance.bind fun opening opening' _ => ?_
      refine (extends_items hext (by decide) _ hi.expression).bind fun arguments arguments' ha => ?_
      refine ih (by omega) ?_
      simpa [Node.Alike, Node.respan] using ⟨ho, ha⟩
    · rintro isIndex _ rfl
      refine .ite ?_ (extends_pure ho)
      refine extends_advance.bind fun opening opening' _ => ?_
      refine hi.expression.bind fun key key' hkey => ?_
      refine (extends_expectSymbol _ _ _).bind fun _ _ _ => ih (by omega) ?_
      simpa [Node.Alike, Node.respan] using ⟨ho, hkey⟩

omit hext hi in
lemma foldr_withSign_alike {signs signs' : List Token} (hs : Alike signs signs')
    {operand operand' : Node} (ho : operand.Alike operand') :
    (signs.foldr withSign operand).Alike (signs'.foldr withSign operand') := by
  induction signs generalizing signs' with
  | nil =>
    obtain rfl := hs.nil_left
    exact ho
  | cons sign signs ih =>
    obtain ⟨sign', signs', rfl, hsign, hs⟩ := hs.cons_left
    have hvalue : sign.value = sign'.value := congrArg Prod.snd hsign
    simpa [Node.Alike, Node.respan, withSign, hvalue] using ih hs

lemma extends_unary : Extends ext Node.Alike (unary inner) (unary inner') := by
  have hspelled : IsSpelled isSign := by
    intro t u h
    simp only [isSign, isSpelled_isSymbol _ _ _ h]
  have hinner : IsInner isSign := by
    intro t ht
    simp [isSign, isInner_isSymbol (show "!" ≠ ";" by decide) t ht,
      isInner_isSymbol (show "-" ≠ ";" by decide) t ht]
  refine (extends_takeWhile hext hspelled hinner).bind fun signs signs' hsigns => ?_
  refine (extends_primary hext hi).bind fun operand operand' ho => extends_rounds.bind fun k k' hk => ?_
  refine (extends_suffixes hext hi hk ho).bind fun operand operand' ho => extends_pure ?_
  exact foldr_withSign_alike hsigns ho

omit hi in
lemma extends_nextOperator? {operatorOf : Token → Option BinaryOperator}
    (hs : ∀ t u, t.spelling = u.spelling → operatorOf t = operatorOf u)
    (hinner : ∀ t, t.isSymbol ";" = true → operatorOf t = none) :
    Extends ext Eq (nextOperator? operatorOf) (nextOperator? operatorOf) := by
  refine extends_ask fun ts us h => ?_
  cases ts with
  | nil =>
    obtain rfl := h.nil_left
    cases ext with
    | nil => rfl
    | cons t ext => exact (hinner t (hext t rfl)).symm
  | cons t ts =>
    obtain ⟨u, us, rfl, hu, _⟩ := h.cons_left
    exact hs t u hu

omit hext hi in
lemma extends_chain {operand operand' : Parser Node}
    (ho : Extends ext Node.Alike operand operand') {operatorOf : Token → Option BinaryOperator}
    (hop : Extends ext Eq (nextOperator? operatorOf) (nextOperator? operatorOf)) {k k' : Nat}
    (hk : k ≤ k') {left left' : Node} (hl : left.Alike left') :
    Extends ext Node.Alike (chain operand operatorOf k left)
      (chain operand' operatorOf k' left') := by
  induction k generalizing k' left left' with
  | zero => exact extends_exhausted _
  | succ k ih =>
    obtain ⟨k', rfl⟩ : ∃ j, k' = j + 1 := ⟨k' - 1, by omega⟩
    refine hop.bind ?_
    rintro found _ rfl
    cases found with
    | none => exact extends_pure hl
    | some operator =>
      refine extends_advance.bind fun _ _ _ => ho.bind fun right right' hr => ih (by omega) ?_
      simpa [Node.Alike, Node.respan] using ⟨hl, hr⟩

omit hi in
lemma extends_level {operand operand' : Parser Node}
    (ho : Extends ext Node.Alike operand operand') {operatorOf : Token → Option BinaryOperator}
    (hs : ∀ t u, t.spelling = u.spelling → operatorOf t = operatorOf u)
    (hinner : ∀ t, t.isSymbol ";" = true → operatorOf t = none) :
    Extends ext Node.Alike (level operatorOf operand) (level operatorOf operand') := by
  refine ho.bind fun left left' hl => extends_rounds.bind fun k k' hk => ?_
  exact extends_chain ho (extends_nextOperator? hext hs hinner) hk hl

omit hi in
lemma extends_symbolLevel {operand operand' : Parser Node}
    (ho : Extends ext Node.Alike operand operand') {operators : List BinaryOperator}
    (hne : ∀ operator ∈ operators, operator.symbol ≠ ";") :
    Extends ext Node.Alike (level (symbolOf operators) operand)
      (level (symbolOf operators) operand') := by
  refine extends_level hext ho ?_ ?_
  · intro t u h
    simp only [symbolOf, isSpelled_isSymbol _ _ _ h]
  · intro t ht
    refine List.find?_eq_none.2 fun operator hmem => ?_
    simp [isInner_isSymbol (hne operator hmem) t ht]

omit hi in
lemma extends_wordLevel {operand operand' : Parser Node}
    (ho : Extends ext Node.Alike operand operand') {symbol word : String} (hne : symbol ≠ ";")
    (operator : BinaryOperator) :
    Extends ext Node.Alike
      (level (fun t => if t.isOperator symbol || t.isKeyword word then some operator else none)
        operand)
      (level (fun t => if t.isOperator symbol || t.isKeyword word then some operator else none)
        operand') := by
  refine extends_level hext ho ?_ ?_
  · intro t u h
    simp only [isSpelled_isOperator _ _ _ h, isSpelled_isKeyword _ _ _ h]
  · intro t ht
    simp [isInner_isOperator hne t ht, isInner_isKeyword word t ht]

lemma extends_disjunction : Extends ext Node.Alike (disjunction inner) (disjunction inner') := by
  have hmul := extends_symbolLevel hext (extends_unary hext hi)
    (show ∀ o ∈ [BinaryOperator.multiply, .divide, .remainder], o.symbol ≠ ";" by decide)
  have hadd := extends_symbolLevel hext hmul
    (show ∀ o ∈ [BinaryOperator.add, .subtract], o.symbol ≠ ";" by decide)
  have hrel := extends_symbolLevel hext hadd
    (show ∀ o ∈ [BinaryOperator.less, .lessEqual, .greater, .greaterEqual], o.symbol ≠ ";" by
      decide)
  have heq := extends_symbolLevel hext hrel
    (show ∀ o ∈ [BinaryOperator.equal, .unequal], o.symbol ≠ ";" by decide)
  have hand : Extends ext Node.Alike (conjunction inner) (conjunction inner') :=
    extends_wordLevel hext heq (by decide) .and
  exact extends_wordLevel hext hand (by decide) .or

omit hext hi in
lemma isTarget_eq_of_alike {n m : Node} (h : n.Alike m) : isTarget n = isTarget m := by
  have hrespan (n : Node) : isTarget (n.respan none) = isTarget n := by
    cases n <;> rfl
  rw [← hrespan n, ← hrespan m, h]

lemma extends_assignment : Extends ext Node.Alike (assignment inner) (assignment inner') := by
  refine (extends_disjunction hext hi).bind fun target target' ht => ?_
  refine (extends_next hext (isSpelled_isOperator _) (isInner_isOperator (by decide))).bind ?_
  rintro equals _ rfl
  refine .ite ?_ (extends_pure ht)
  refine extends_advance.bind fun _ _ _ => ?_
  rw [isTarget_eq_of_alike ht]
  refine .ite (hi.expression.bind fun value value' hv => extends_pure ?_) (extends_failAt _ _ _)
  simpa [Node.Alike, Node.respan] using ⟨ht, hv⟩

end Klang.Parser

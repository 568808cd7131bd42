import Klang.Proofs.Concatenation.Parsers

/-! Statements in front of more input, and programs one behind the other. A statement that was ended
by the end of input is ended by a semicolon too. -/

namespace Klang.Parser

open Token

variable {ext : List Token} {inner inner' : Inner} (hext : Separates ext)
  (hi : inner.Extends ext inner')

include hext

lemma startsDefinition_append_separator {ts us : List Token} (h : Alike ts us) :
    startsDefinition ts = startsDefinition (us ++ ext) := by
  match ts with
  | [] =>
    obtain rfl := h.nil_left
    match ext with
    | [] | [_] => rfl
    | word :: name :: ext =>
      simp [startsDefinition, isInner_isKeyword "def" word (hext word rfl)]
  | [word] =>
    obtain ⟨word', us, rfl, hw, hus⟩ := h.cons_left
    obtain rfl := hus.nil_left
    match ext with
    | [] => rfl
    | name :: ext => simp [startsDefinition, isInner_isIdentifier name (hext name rfl)]
  | word :: name :: ts =>
    obtain ⟨word', us, rfl, hw, hus⟩ := h.cons_left
    obtain ⟨name', us, rfl, hn, hus⟩ := hus.cons_left
    simp only [startsDefinition, List.cons_append, isSpelled_isKeyword _ _ _ hw,
      isSpelled_isIdentifier _ _ hn]

lemma parenthesizedHeader_append_separator {ts us : List Token} (h : Alike ts us) :
    parenthesizedHeader ts = parenthesizedHeader (us ++ ext) := by
  match ts with
  | [] =>
    obtain rfl := h.nil_left
    match ext with
    | [] | [_] | [_, _] => rfl
    | opening :: name :: word :: ext =>
      have hopening := isInner_isSymbol (show "(" ≠ ";" by decide) opening (hext opening rfl)
      simp [parenthesizedHeader, hopening]
  | [opening] =>
    obtain ⟨opening', us, rfl, ho, hus⟩ := h.cons_left
    obtain rfl := hus.nil_left
    match ext with
    | [] | [_] => rfl
    | name :: word :: ext =>
      simp [parenthesizedHeader, isInner_isIdentifier name (hext name rfl)]
  | [opening, name] =>
    obtain ⟨opening', us, rfl, ho, hus⟩ := h.cons_left
    obtain ⟨name', us, rfl, hn, hus⟩ := hus.cons_left
    obtain rfl := hus.nil_left
    match ext with
    | [] => rfl
    | word :: ext => simp [parenthesizedHeader, isInner_isKeyword "in" word (hext word rfl)]
  | opening :: name :: word :: ts =>
    obtain ⟨opening', us, rfl, ho, hus⟩ := h.cons_left
    obtain ⟨name', us, rfl, hn, hus⟩ := hus.cons_left
    obtain ⟨word', us, rfl, hw, hus⟩ := hus.cons_left
    simp only [parenthesizedHeader, List.cons_append, isSpelled_isSymbol _ _ _ ho,
      isSpelled_isIdentifier _ _ hn, isSpelled_isKeyword _ _ _ hw]

omit hext in
def endsReturn (ts : List Token) : Bool :=
  (ts.head?.map (isSymbol "\x7d")).getD false || (ts.head?.map (isSymbol ";")).getD false ||
    ts.isEmpty

lemma endsReturn_append_separator {ts us : List Token} (h : Alike ts us) :
    endsReturn ts = endsReturn (us ++ ext) := by
  cases ts with
  | nil =>
    obtain rfl := h.nil_left
    cases ext with
    | nil => rfl
    | cons t ext => simp [endsReturn, hext t rfl]
  | cons t ts =>
    obtain ⟨u, us, rfl, hu, _⟩ := h.cons_left
    simp [endsReturn, isSpelled_isSymbol _ _ _ hu]

include hi

lemma extends_declaration : Extends ext Node.Alike (declaration inner) (declaration inner') := by
  refine extends_advance.bind fun keyword keyword' hkeyword => ?_
  have hvalue : keyword.value = keyword'.value := congrArg Prod.snd hkeyword
  refine (extends_expectIdentifier _ _).bind ?_
  rintro name _ rfl
  refine (extends_ascription hext).bind ?_
  rintro type _ rfl
  refine (extends_expectSymbol _ _ _).bind fun _ _ _ => ?_
  refine hi.expression.bind fun value value' hv => extends_pure ?_
  simpa [Node.Alike, Node.respan, hvalue] using hv

lemma extends_definition : Extends ext Node.Alike (definition inner) (definition inner') := by
  refine extends_advance.bind fun keyword keyword' _ => (extends_expectIdentifier _ _).bind ?_
  rintro name _ rfl
  refine (extends_parameters hext).bind ?_
  rintro params _ rfl
  refine (extends_block hext hi).bind fun body body' hbody => extends_pure ?_
  simpa [Node.Alike, Node.respan] using hbody

lemma extends_elseBranch :
    Extends ext (fun a b => a.map (Node.respan none) = b.map (Node.respan none))
      (elseBranch inner) (elseBranch inner') := by
  refine (extends_nextKeyword hext _).bind ?_
  rintro isElse _ rfl
  refine .ite ?_ (extends_pure rfl)
  refine extends_advance.bind fun _ _ _ => (extends_nextKeyword hext _).bind ?_
  rintro isIf _ rfl
  refine .ite ?_ ?_
  · exact hi.statement.bind fun branch branch' h => extends_pure (congrArg some h)
  · exact (extends_block hext hi).bind fun branch branch' h => extends_pure (congrArg some h)

lemma extends_conditional : Extends ext Node.Alike (conditional inner) (conditional inner') := by
  refine extends_advance.bind fun keyword keyword' _ => ?_
  refine hi.expression.bind fun condition condition' hc => ?_
  refine (extends_block hext hi).bind fun thenBranch thenBranch' ht => ?_
  refine (extends_elseBranch hext hi).bind fun otherwise otherwise' ho => extends_pure ?_
  simpa [Node.Alike, Node.respan] using ⟨hc, ht, ho⟩

lemma extends_whileLoop : Extends ext Node.Alike (whileLoop inner) (whileLoop inner') := by
  refine extends_advance.bind fun keyword keyword' _ => ?_
  refine hi.expression.bind fun condition condition' hc => ?_
  refine (extends_block hext hi).bind fun body body' hbody => extends_pure ?_
  simpa [Node.Alike, Node.respan] using ⟨hc, hbody⟩

lemma extends_forLoop : Extends ext Node.Alike (forLoop inner) (forLoop inner') := by
  have hahead : Extends ext Eq (ahead parenthesizedHeader) (ahead parenthesizedHeader) :=
    extends_ask fun _ _ h => parenthesizedHeader_append_separator hext h
  refine extends_advance.bind fun keyword keyword' _ => hahead.bind ?_
  rintro parenthesized _ rfl
  -- The loop behind its opening parenthesis, and what follows its header.
  have hbody (iterator : String) {iterable iterable' : Node} (h : iterable.Alike iterable') :
      Extends ext Node.Alike
        (block inner >>= fun body => pure (.forLoop keyword.span iterator iterable body))
        (block inner' >>= fun body => pure (.forLoop keyword'.span iterator iterable' body)) := by
    refine (extends_block hext hi).bind fun body body' hbody => extends_pure ?_
    simpa [Node.Alike, Node.respan] using ⟨h, hbody⟩
  cases parenthesized with
  | true =>
    refine extends_advance.bind fun _ _ _ => (extends_expectIdentifier _ _).bind ?_
    rintro iterator _ rfl
    refine (extends_expect (isSpelled_isKeyword _) _ _).bind fun _ _ _ => ?_
    refine hi.expression.bind fun iterable iterable' h => ?_
    exact (extends_expectSymbol _ _ _).bind fun _ _ _ => hbody iterator h
  | false =>
    refine (extends_expectIdentifier _ _).bind ?_
    rintro iterator _ rfl
    refine (extends_expect (isSpelled_isKeyword _) _ _).bind fun _ _ _ => ?_
    exact hi.expression.bind fun iterable iterable' h => hbody iterator h

lemma extends_returnStatement :
    Extends ext Node.Alike (returnStatement inner) (returnStatement inner') := by
  have hahead : Extends ext Eq (ahead endsReturn) (ahead endsReturn) :=
    extends_ask fun _ _ h => endsReturn_append_separator hext h
  -- The three questions about the next token are one.
  have hone (inner : Inner) : returnStatement inner = advance >>= fun keyword =>
      ahead endsReturn >>= fun ends =>
        if ends then pure (.returnStatement keyword.span none)
        else inner.expression >>= fun value =>
          pure (.returnStatement keyword.span (some value)) := rfl
  rw [hone, hone]
  refine extends_advance.bind fun keyword keyword' _ => hahead.bind ?_
  rintro ends _ rfl
  refine .ite (extends_pure rfl) (hi.expression.bind fun value value' hv => extends_pure ?_)
  simpa [Node.Alike, Node.respan] using hv

lemma extends_expressionStatement :
    Extends ext Node.Alike (expressionStatement inner) (expressionStatement inner') := by
  have hget : Extends ext (fun _ _ => True) (get : Parser (List Token)) get :=
    extends_ask fun _ _ _ => trivial
  refine hget.bind fun _ _ _ => (extends_assignment hext hi).bind fun value value' hv => ?_
  refine extends_pure ?_
  simpa [Node.Alike, Node.respan] using hv

lemma extends_statement : Extends ext Node.Alike (statement inner) (statement inner') := by
  have hdefinition : Extends ext Eq (ahead startsDefinition) (ahead startsDefinition) :=
    extends_ask fun _ _ h => startsDefinition_append_separator hext h
  refine (extends_nextKeyword hext _).bind ?_
  rintro isLet _ rfl
  refine (extends_nextKeyword hext _).bind ?_
  rintro isFinal _ rfl
  refine .ite (extends_declaration hext hi) (hdefinition.bind ?_)
  rintro isDefinition _ rfl
  refine .ite (extends_definition hext hi) ((extends_nextKeyword hext _).bind ?_)
  rintro isIf _ rfl
  refine .ite (extends_conditional hext hi) ((extends_nextKeyword hext _).bind ?_)
  rintro isWhile _ rfl
  refine .ite (extends_whileLoop hext hi) ((extends_nextKeyword hext _).bind ?_)
  rintro isFor _ rfl
  refine .ite (extends_forLoop hext hi) ((extends_nextKeyword hext _).bind ?_)
  rintro isReturn _ rfl
  refine .ite (extends_returnStatement hext hi) ((extends_nextSymbol hext (by decide)).bind ?_)
  rintro isBrace _ rfl
  refine (extends_looksLikeMap hext).bind ?_
  rintro isMap _ rfl
  exact .ite (extends_block hext hi) (extends_expressionStatement hext hi)

omit hi in
lemma descend_extends {d d' : Nat} (hd : d ≤ d') : (descend d).Extends ext (descend d') := by
  induction d generalizing d' with
  | zero => exact ⟨extends_exhausted _, extends_exhausted _⟩
  | succ d ih =>
    obtain ⟨d', rfl⟩ : ∃ j, d' = j + 1 := ⟨d' - 1, by omega⟩
    have hinner := ih (show d ≤ d' by omega)
    exact ⟨extends_assignment hext hinner, extends_statement hext hinner⟩

omit hext hi in
lemma programStatements_nil (s : Parser Node) {k : Nat} (hk : 1 ≤ k) :
    programStatements s k [] = .ok ([], []) := by
  obtain ⟨k, rfl⟩ : ∃ j, k = j + 1 := ⟨k - 1, by omega⟩
  rfl

omit hext hi in
lemma programStatements_cons_eq_ok {s : Parser Node} {k : Nat} {t : Token} {ts rest : List Token}
    {nodes : List Node} :
    programStatements s (k + 1) (t :: ts) = .ok (nodes, rest) ↔
      ∃ first mid others, s (t :: ts) = .ok (first, mid) ∧
        programStatements s k (mid.dropWhile (isSymbol ";")) = .ok (others, rest) ∧
          nodes = first :: others := by
  simp only [programStatements, atEnd_bind, List.isEmpty_cons, Bool.false_eq_true, if_false,
    bind_eq_ok, skipSeparators_bind, pure_apply]
  constructor
  · rintro ⟨first, mid, hfirst, others, rest', hothers, he⟩
    cases he
    exact ⟨first, mid, others, hfirst, hothers, rfl⟩
  · rintro ⟨first, mid, others, hfirst, hothers, rfl⟩
    exact ⟨first, mid, hfirst, others, rest, hothers, rfl⟩

omit hext hi in
lemma dropWhile_append_of_eq_nil {test : Token → Bool} {ts : List Token} (us : List Token)
    (h : ts.dropWhile test = []) : (ts ++ us).dropWhile test = us.dropWhile test := by
  rw [List.dropWhile_append, h]
  rfl

omit hext hi in
lemma programStatements_append {s s' : Parser Node} (hs : Extends ext Node.Alike s s')
    {tail : List Node} {least : Nat} (hleast : 1 ≤ least)
    (htail : ∀ k, least ≤ k → ∃ tail',
      programStatements s' k (ext.dropWhile (isSymbol ";")) = .ok (tail', []) ∧
        Node.EachAlike tail tail')
    {k k' : Nat} (hk : k + least ≤ k' + 1) {ts us rest : List Token} {nodes : List Node}
    (h : Alike ts us)
    (hrun : programStatements s k (ts.dropWhile (isSymbol ";")) = .ok (nodes, rest)) :
    ∃ joined, programStatements s' k' ((us ++ ext).dropWhile (isSymbol ";")) = .ok (joined, []) ∧
      Node.EachAlike (nodes ++ tail) joined := by
  induction k generalizing k' ts us nodes rest with
  | zero => cases hrun
  | succ k ih =>
    have hdrop := h.dropWhile (isSpelled_isSymbol ";")
    cases hts : ts.dropWhile (isSymbol ";") with
    | nil =>
      rw [hts] at hrun hdrop
      rw [dropWhile_append_of_eq_nil ext hdrop.nil_left]
      obtain ⟨rfl, -⟩ : [] = nodes ∧ [] = rest := by simpa [programStatements] using hrun
      exact htail k' (by omega)
    | cons t ts' =>
      rw [hts] at hrun hdrop
      obtain ⟨first, mid, others, hfirst, hothers, rfl⟩ := programStatements_cons_eq_ok.1 hrun
      obtain ⟨u, us', hus, hu, hus'⟩ := hdrop.cons_left
      obtain ⟨first', mid', hfirst', halike, hmid⟩ := hs _ _ first mid (hus'.cons hu) hfirst
      obtain ⟨k', rfl⟩ : ∃ j, k' = j + 1 := ⟨k' - 1, by omega⟩
      obtain ⟨joined, hjoined, hall⟩ := ih (show k + least ≤ k' + 1 by omega) hmid hothers
      have hne : us.dropWhile (isSymbol ";") ≠ [] := by
        rw [hus]
        exact List.cons_ne_nil u us'
      rw [dropWhile_append_of_ne_nil ext hne, hus]
      refine ⟨first' :: joined, ?_, ?_⟩
      · exact programStatements_cons_eq_ok.2 ⟨first', mid' ++ ext, joined, hfirst', hjoined, rfl⟩
      · rw [Node.EachAlike, List.cons_append, List.map_cons, List.map_cons, halike, hall]

omit hext hi in
lemma program_append {ts us xs ys rest rest' : List Token} {nodes nodes' : List Node}
    {separator : Token} (hseparator : separator.isSymbol ";" = true) (h : Alike ts us)
    (h' : Alike xs ys) (hrun : program ts = .ok (nodes, rest))
    (hrun' : program xs = .ok (nodes', rest')) :
    ∃ joined, program (us ++ separator :: ys) = .ok (joined, []) ∧
      Node.EachAlike (nodes ++ nodes') joined := by
  have hlength : (us ++ separator :: ys).length = ts.length + xs.length + 1 := by
    rw [List.length_append, List.length_cons, h.length_eq, h'.length_eq]
    omega
  have hsemicolon : Separates (separator :: ys) := by
    rintro t ⟨⟩
    exact hseparator
  have hempty : Separates [] := by
    rintro t ⟨⟩
  -- What follows the semicolon is read as it was read alone, if only further down.
  have htail (k : Nat) (hk : xs.length + 1 ≤ k) : ∃ tail,
      programStatements (descend (ts.length + xs.length + 2)).statement k
        ((separator :: ys).dropWhile (isSymbol ";")) = .ok (tail, []) ∧
          Node.EachAlike nodes' tail := by
    have hdeep := descend_extends hempty (show xs.length + 1 ≤ ts.length + xs.length + 2 by omega)
    obtain ⟨tail, htail, hall⟩ := programStatements_append hdeep.statement (Nat.le_refl 1)
      (fun j hj => ⟨[], programStatements_nil _ hj, rfl⟩)
      (show xs.length + 1 + 1 ≤ k + 1 by omega) h' hrun'
    rw [List.append_nil] at htail hall
    rw [List.dropWhile_cons_of_pos hseparator]
    exact ⟨tail, htail, hall⟩
  have hdeep := descend_extends hsemicolon
    (show ts.length + 1 ≤ ts.length + xs.length + 2 by omega)
  obtain ⟨joined, hjoined, hall⟩ := programStatements_append hdeep.statement
    (show 1 ≤ xs.length + 1 by omega) htail
    (show ts.length + 1 + (xs.length + 1) ≤ ts.length + xs.length + 2 + 1 by omega) h hrun
  refine ⟨joined, ?_, hall⟩
  rw [program, rounds_bind, skipSeparators_bind, hlength]
  exact hjoined

end Klang.Parser

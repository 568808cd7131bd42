import Klang.Node.Parser
import Mathlib.Tactic.Lemma

/-! What the elementary parsers do with given tokens, as equations. -/

namespace Klang.Parser

variable {α β : Type}

lemma bind_apply (p : Parser α) (k : α → Parser β) (ts : List Token) :
    (p >>= k) ts = match p ts with
      | .ok (a, rest) => k a rest
      | .error stop => .error stop := by
  change (StateT.bind p k) ts = _
  simp only [StateT.bind, bind, Except.bind]
  cases p ts <;> rfl

lemma bind_of_ok {p : Parser α} {k : α → Parser β} {ts mid : List Token} {a : α}
    (h : p ts = .ok (a, mid)) : (p >>= k) ts = k a mid := by
  rw [bind_apply, h]

lemma bind_eq_ok {p : Parser α} {k : α → Parser β} {ts rest : List Token} {b : β} :
    (p >>= k) ts = .ok (b, rest) ↔ ∃ a mid, p ts = .ok (a, mid) ∧ k a mid = .ok (b, rest) := by
  rw [bind_apply]
  cases h : p ts with
  | error stop => simp
  | ok r =>
    obtain ⟨a, mid⟩ := r
    constructor
    · intro hk
      exact ⟨a, mid, rfl, hk⟩
    · rintro ⟨a', mid', he, hk⟩
      cases he
      exact hk

@[simp] lemma pure_apply (a : α) (ts : List Token) : (pure a : Parser α) ts = .ok (a, ts) := rfl

@[simp] lemma fail_apply (c : Complaint) (ts : List Token) :
    (fail c : Parser α) ts = .error (.complaint c ts.head?) := rfl

@[simp] lemma exhausted_apply (ts : List Token) :
    (exhausted : Parser α) ts = .error .exhausted := rfl

@[simp] lemma if_apply (c : Prop) [Decidable c] (p q : Parser α) (ts : List Token) :
    (if c then p else q) ts = if c then p ts else q ts := by
  split <;> rfl

@[simp] lemma next_bind (test : Token → Bool) (k : Bool → Parser β) (ts : List Token) :
    (next test >>= k) ts = k ((ts.head?.map test).getD false) ts := rfl

@[simp] lemma nextSymbol_bind (value : String) (k : Bool → Parser β) (ts : List Token) :
    (nextSymbol value >>= k) ts = k ((ts.head?.map (Token.isSymbol value)).getD false) ts := rfl

@[simp] lemma nextKeyword_bind (value : String) (k : Bool → Parser β) (ts : List Token) :
    (nextKeyword value >>= k) ts = k ((ts.head?.map (Token.isKeyword value)).getD false) ts := rfl

@[simp] lemma atEnd_bind (k : Bool → Parser β) (ts : List Token) :
    (atEnd >>= k) ts = k ts.isEmpty ts := rfl

@[simp] lemma ahead_bind (test : List Token → Bool) (k : Bool → Parser β) (ts : List Token) :
    (ahead test >>= k) ts = k (test ts) ts := rfl

@[simp] lemma rounds_bind (k : Nat → Parser β) (ts : List Token) :
    (rounds >>= k) ts = k (ts.length + 1) ts := rfl

@[simp] lemma nextAtom?_bind (k : Option Node → Parser β) (ts : List Token) :
    (nextAtom? >>= k) ts = k (ts.head?.bind atom?) ts := rfl

@[simp] lemma nextOperator?_bind (operatorOf : Token → Option BinaryOperator)
    (k : Option BinaryOperator → Parser β) (ts : List Token) :
    (nextOperator? operatorOf >>= k) ts = k (ts.head?.bind operatorOf) ts := rfl

@[simp] lemma takeWhile_bind (test : Token → Bool) (k : List Token → Parser β) (ts : List Token) :
    (takeWhile test >>= k) ts = k (ts.takeWhile test) (ts.dropWhile test) := rfl

@[simp] lemma skipSeparators_bind (k : Unit → Parser β) (ts : List Token) :
    (skipSeparators >>= k) ts = k () (ts.dropWhile (Token.isSymbol ";")) := rfl

@[simp] lemma get_bind (k : List Token → Parser β) (ts : List Token) : (get >>= k) ts = k ts ts := rfl

@[simp] lemma advance_bind_cons (k : Token → Parser β) (t : Token) (ts : List Token) :
    (advance >>= k) (t :: ts) = k t ts := rfl

lemma expect_cons {test : Token → Bool} {t : Token} (h : test t = true) (c : Complaint)
    (ts : List Token) : expect test c (t :: ts) = .ok (t, ts) := by
  simp [expect, h]

lemma expect_bind_cons {test : Token → Bool} {t : Token} (h : test t = true) (c : Complaint)
    (k : Token → Parser β) (ts : List Token) : (expect test c >>= k) (t :: ts) = k t ts :=
  bind_of_ok (expect_cons h c ts)

lemma expect_eq_ok {test : Token → Bool} {c : Complaint} {ts rest : List Token} {t : Token} :
    expect test c ts = .ok (t, rest) ↔ ts = t :: rest ∧ test t = true := by
  cases ts with
  | nil => simp [expect]
  | cons u us =>
    cases h : test u with
    | true =>
      rw [expect_cons h]
      constructor
      · rintro ⟨⟩
        exact ⟨rfl, h⟩
      · rintro ⟨he, _⟩
        cases he
        rfl
    | false =>
      simp only [expect, h, fail_apply]
      constructor
      · intro he
        cases he
      · rintro ⟨he, ht⟩
        cases he
        rw [h] at ht
        cases ht

lemma expectSymbol_eq_ok {value : String} {c : Complaint} {ts rest : List Token} {t : Token} :
    expectSymbol value c ts = .ok (t, rest) ↔ ts = t :: rest ∧ t.isSymbol value = true :=
  expect_eq_ok

lemma expectIdentifier_eq_ok {c : Complaint} {ts rest : List Token} {name : String} :
    expectIdentifier c ts = .ok (name, rest) ↔
      ∃ t : Token, ts = t :: rest ∧ t.isIdentifier = true ∧ t.value = name := by
  simp only [expectIdentifier, bind_eq_ok, expect_eq_ok, pure_apply]
  constructor
  · rintro ⟨t, mid, ⟨rfl, ht⟩, he⟩
    cases he
    exact ⟨t, rfl, ht, rfl⟩
  · rintro ⟨t, rfl, ht, rfl⟩
    exact ⟨t, rest, ⟨rfl, ht⟩, rfl⟩

lemma statement_apply (inner : Inner) (ts : List Token) :
    statement inner ts =
      if (ts.head?.map (Token.isKeyword "let")).getD false ||
        (ts.head?.map (Token.isKeyword "final")).getD false then declaration inner ts
      else if startsDefinition ts then definition inner ts
      else if (ts.head?.map (Token.isKeyword "if")).getD false then conditional inner ts
      else if (ts.head?.map (Token.isKeyword "while")).getD false then whileLoop inner ts
      else if (ts.head?.map (Token.isKeyword "for")).getD false then forLoop inner ts
      else if (ts.head?.map (Token.isKeyword "return")).getD false then returnStatement inner ts
      else if (ts.head?.map (Token.isSymbol "\x7b")).getD false && !Token.looksLikeMap ts then
        block inner ts
      else expressionStatement inner ts := by
  simp only [statement, nextKeyword_bind, nextSymbol_bind, ahead_bind, if_apply]

lemma splitInput?_eq_some {tokens body : List Token} {last : Token}
    (h : splitInput? tokens = some (body, last)) : body = tokens.takeWhile (·.kind ≠ .eof) := by
  unfold splitInput? at h
  split at h
  · obtain ⟨t, _, he⟩ := Option.map_eq_some_iff.1 h
    cases he
    rfl
  · cases h

private lemma getLast?_append_cons (ts : List Token) (t : Token) (us : List Token) :
    (ts ++ t :: us).getLast? = (t :: us).getLast? := by
  simp [List.getLast?_append, List.getLast?_cons]

lemma splitInput?_eq_some_iff {tokens body : List Token} {last : Token} :
    splitInput? tokens = some (body, last) ↔ ∃ more, tokens = body ++ last :: more ∧
      (∀ t ∈ body, t.kind ≠ .eof) ∧ last.kind = .eof ∧
      (last :: more).getLast?.map Token.kind = some .eof := by
  constructor
  · intro h
    obtain rfl := splitInput?_eq_some h
    unfold splitInput? at h
    split at h
    · rename_i hend
      obtain ⟨t, hfind, he⟩ := Option.map_eq_some_iff.1 h
      obtain rfl : t = last := congrArg Prod.snd he
      obtain ⟨hkind, before, more, rfl, hbefore⟩ := List.find?_eq_some_iff_append.1 hfind
      have htake : (before ++ t :: more).takeWhile (fun t => decide (t.kind ≠ .eof)) = before := by
        rw [List.takeWhile_append_of_pos (by simpa using hbefore),
          List.takeWhile_cons_of_neg (by simpa using hkind), List.append_nil]
      rw [getLast?_append_cons] at hend
      rw [htake]
      exact ⟨more, rfl, by simpa using hbefore, by simpa using hkind, hend⟩
    · cases h
  · rintro ⟨more, rfl, hbody, hlast, hend⟩
    have hfind : (body ++ last :: more).find? (fun t => decide (t.kind = .eof)) = some last := by
      rw [List.find?_append, List.find?_eq_none.2 fun t ht => by simpa using hbody t ht]
      simp [hlast]
    have htake : (body ++ last :: more).takeWhile (fun t => decide (t.kind ≠ .eof)) = body := by
      rw [List.takeWhile_append_of_pos (by simpa using hbody)]
      simp [hlast]
    rw [splitInput?, if_pos, hfind, htake]
    · rfl
    · rw [getLast?_append_cons, hend]

lemma splitInput?_append {body : List Token} {last : Token} (hlast : last.kind = .eof)
    (hbody : ∀ t ∈ body, t.kind ≠ .eof) : splitInput? (body ++ [last]) = some (body, last) :=
  splitInput?_eq_some_iff.2 ⟨[], rfl, hbody, hlast, by simp [hlast]⟩

lemma splitInput?_of_ne_none {tokens : List Token} (h : splitInput? tokens ≠ none) :
    ∃ last, splitInput? tokens = some (tokens.takeWhile (·.kind ≠ .eof), last) := by
  obtain ⟨⟨body, last⟩, hsplit⟩ := Option.ne_none_iff_exists'.1 h
  exact ⟨last, splitInput?_eq_some hsplit ▸ hsplit⟩

lemma splitInput?_of_getLast? {tokens : List Token}
    (hend : tokens.getLast?.map Token.kind = some .eof) :
    ∃ last, splitInput? tokens = some (tokens.takeWhile (·.kind ≠ .eof), last) := by
  refine splitInput?_of_ne_none fun hnone => ?_
  obtain ⟨final, hfinal, hkind⟩ := Option.map_eq_some_iff.1 hend
  simp only [splitInput?, hend, if_true, Option.map_eq_none_iff, List.find?_eq_none,
    decide_eq_true_eq] at hnone
  exact hnone final (List.mem_of_getLast? hfinal) hkind

lemma parseProgram_eq_ok {tokens body : List Token} {last : Token} {program : Node}
    (hsplit : splitInput? tokens = some (body, last)) :
    parseProgram tokens = .ok program ↔
      ∃ nodes rest, Parser.program body = .ok (nodes, rest) ∧
        program = .program (body.headD last).span nodes := by
  simp only [parseProgram, hsplit, run]
  cases hrun : Parser.program body with
  | ok r =>
    obtain ⟨nodes, rest⟩ := r
    constructor
    · rintro ⟨⟩
      exact ⟨nodes, rest, rfl, rfl⟩
    · rintro ⟨nodes', rest', he, rfl⟩
      cases he
      rfl
  | error stop =>
    constructor
    · intro h
      cases stop <;> cases h
    · rintro ⟨nodes, rest, he, _⟩
      cases he

lemma parseExpression_eq_ok {tokens body : List Token} {last : Token} {expression : Node}
    (hsplit : splitInput? tokens = some (body, last)) :
    parseExpression tokens = .ok expression ↔
      ∃ rest, Parser.singleExpression body = .ok (expression, rest) := by
  simp only [parseExpression, hsplit, run]
  cases hrun : Parser.singleExpression body with
  | ok r =>
    obtain ⟨e, rest⟩ := r
    simp
  | error stop => cases stop <;> simp

lemma splitInput?_of_parseProgram {tokens : List Token} {program : Node}
    (h : parseProgram tokens = .ok program) :
    ∃ last, splitInput? tokens = some (tokens.takeWhile (·.kind ≠ .eof), last) := by
  refine splitInput?_of_ne_none fun hnone => ?_
  rw [parseProgram, hnone] at h
  cases h

lemma splitInput?_of_parseExpression {tokens : List Token} {expression : Node}
    (h : parseExpression tokens = .ok expression) :
    ∃ last, splitInput? tokens = some (tokens.takeWhile (·.kind ≠ .eof), last) := by
  refine splitInput?_of_ne_none fun hnone => ?_
  rw [parseExpression, hnone] at h
  cases h

end Klang.Parser

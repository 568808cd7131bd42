import Klang.Proofs.Lexing.Classes
import Klang.Proofs.Locations.Parsers
import Klang.Proofs.ProgramSoundness

/-! Parsing always comes to an end, with a tree or with a complaint about a token that is not behind
the first end of input; and nothing behind this end has any influence. -/

namespace Klang

namespace Number

open Text

lemma isSome_digitsValue? {digits : List Char} (h : ∀ c ∈ digits, isDigit c = true) :
    (digitsValue? digits).isSome := by
  unfold digitsValue?
  generalize 0 = value
  induction digits generalizing value with
  | nil => rfl
  | cons c digits ih =>
    obtain ⟨hc, hdigits⟩ := List.forall_mem_cons.1 h
    obtain ⟨d, hd⟩ := Option.isSome_iff_exists.1 hc
    simp only [List.foldlM_cons, hd, Option.map_some, Option.bind_eq_bind, Option.bind_some]
    exact ih hdigits _

lemma isSome_ofNumeral? {text : List Char} (h : Token.IsLexeme .number text) :
    (ofNumeral? text).isSome := by
  generalize hkind : TokenKind.number = kind at h
  cases h with
  | whole hw =>
    have htake : text.takeWhile isDigit = text := List.takeWhile_eq_self_iff.2 hw.digit
    have hdrop : text.dropWhile isDigit = [] := List.dropWhile_eq_nil_iff.2 hw.digit
    simp [ofNumeral?, htake, hdrop, hw.ne_nil, isSome_digitsValue? hw.digit]
  | @decimal whole fraction hw hf =>
    have hpoint : isDigit '.' = false := by decide
    have htake : (whole ++ '.' :: fraction).takeWhile isDigit = whole := by
      rw [List.takeWhile_append_of_pos hw.digit, List.takeWhile_cons_of_neg (by simp [hpoint]),
        List.append_nil]
    have hdrop : (whole ++ '.' :: fraction).dropWhile isDigit = '.' :: fraction := by
      rw [List.dropWhile_append_of_pos hw.digit, List.dropWhile_cons_of_neg (by simp [hpoint])]
    have hdigits : ∀ c ∈ whole ++ fraction, isDigit c = true :=
      List.forall_mem_append.2 ⟨hw.digit, hf.digit⟩
    simp [ofNumeral?, htake, hdrop, hw.ne_nil, hf.ne_nil, isSome_digitsValue? hdigits]
  | @word c tail =>
    simp only [Token.wordKind] at hkind
    split at hkind <;> cases hkind
  | _ => cases hkind

end Number

namespace Parser

open Node

variable {α : Type} {known : Token → Prop} {limit start : Nat} {q : α → Prop} {p : Parser α}
  {ts tokens body more : List Token} {last t : Token}

lemma kind_ne_number_of_atom? (hnum : t.kind = .number → Token.IsLexeme .number t.value.toList)
    (h : atom? t = none) : t.kind ≠ .number := by
  intro hkind
  have hvalue := Number.isSome_ofNumeral? (hnum hkind)
  simp only [atom?, hkind, Option.map_eq_none_iff] at h
  rw [h] at hvalue
  cases hvalue

lemma accounts_singleExpression :
    Accounts known ts.length (PlacedBy known) singleExpression ts := by
  refine accounts_ask (((accounts_descend _).expression (by omega)).bind
    fun value rest hl hv => accounts_ask ?_)
  split
  · exact accounts_pure hl hv
  · exact accounts_fail_of_ne (by simp)

def readable (tokens : List Token) : List Token := tokens.takeWhile (·.kind ≠ .eof)

/-- A token to complain about: it does not stand before a given place, nor behind the first end of
input, and no number is taken for a missing operand. -/
def Blames (tokens : List Token) (start : Nat) (c : Complaint) (t : Token) : Prop :=
  ∃ place, start ≤ place ∧ place ≤ (readable tokens).length ∧ tokens[place]? = some t ∧
    (c = .expression → t.kind ≠ .number)

/-- What a parser does at a place: it reads a token or more and stops before the first end of input
or at it, or it complains. -/
def Progresses (tokens : List Token) (start : Nat) (p : Parser α) : Prop :=
  (∃ a next, start < next ∧ next ≤ (readable tokens).length ∧
    p ((readable tokens).drop start) = .ok (a, (readable tokens).drop next)) ∨
  ∃ c token last, tokens[(readable tokens).length]? = some last ∧
    Blames tokens start c (token.getD last) ∧
    p ((readable tokens).drop start) = .error (.complaint c token)

lemma getElem?_length_readable (hsplit : splitInput? tokens = some (readable tokens, last)) :
    tokens[(readable tokens).length]? = some last := by
  obtain ⟨more, htokens, _⟩ := splitInput?_eq_some_iff.1 hsplit
  generalize readable tokens = body at htokens ⊢
  simp [htokens]

lemma splitInput?_congr {others : List Token}
    (hsplit : splitInput? tokens = some (readable tokens, last))
    (hend : others.getLast?.map Token.kind = some .eof)
    (htake : others.take ((readable tokens).length + 1) =
      tokens.take ((readable tokens).length + 1)) :
    splitInput? others = splitInput? tokens := by
  obtain ⟨more, htokens, hbody, hlast, _⟩ := splitInput?_eq_some_iff.1 hsplit
  generalize readable tokens = body at *
  obtain ⟨more', rfl⟩ : ∃ more', others = body ++ last :: more' := by
    refine ⟨others.drop (body.length + 1), ?_⟩
    calc others
      _ = others.take (body.length + 1) ++ others.drop (body.length + 1) :=
        (List.take_append_drop _ _).symm
      _ = body ++ last :: others.drop (body.length + 1) := by
        rw [htake, htokens, List.take_length_add_append]
        simp
  rw [hsplit]
  refine splitInput?_eq_some_iff.2 ⟨more', rfl, hbody, hlast, ?_⟩
  simpa [List.getLast?_append] using hend

lemma blames_getD {c : Complaint} {token : Option Token}
    (hsplit : splitInput? tokens = some (readable tokens, last))
    (hnum : ∀ t ∈ tokens, t.kind = .number → Token.IsLexeme .number t.value.toList)
    (hstart : start ≤ (readable tokens).length)
    (ht : ∀ t ∈ token, t ∈ (readable tokens).drop start ∧ Deserves c t) :
    Blames tokens start c (token.getD last) := by
  obtain ⟨more, htokens, _, hlast, _⟩ := splitInput?_eq_some_iff.1 hsplit
  cases token with
  | none =>
    exact ⟨_, hstart, le_rfl, getElem?_length_readable hsplit, fun _ hn => by simp [hlast] at hn⟩
  | some t =>
    obtain ⟨hmem, hdeserves⟩ := ht t rfl
    obtain ⟨offset, hoffset⟩ := List.mem_iff_getElem?.1 hmem
    rw [List.getElem?_drop] at hoffset
    obtain ⟨hlt, _⟩ := List.getElem?_eq_some_iff.1 hoffset
    have hplace : tokens[start + offset]? = some t := by
      rw [htokens, List.getElem?_append_left hlt, hoffset]
    refine ⟨start + offset, by omega, by omega, hplace, fun hc => ?_⟩
    exact kind_ne_number_of_atom? (hnum t (List.mem_of_getElem? hplace)) (hdeserves hc)

lemma Accounts.progresses (ha : Accounts (· ∈ (readable tokens).drop start)
      ((readable tokens).drop start).length q p ((readable tokens).drop start))
    (hreads : ∀ a rest, p ((readable tokens).drop start) = .ok (a, rest) →
      ∃ used, (readable tokens).drop start = used ++ rest)
    (hsplit : splitInput? tokens = some (readable tokens, last))
    (hnum : ∀ t ∈ tokens, t.kind = .number → Token.IsLexeme .number t.value.toList)
    (hstart : start ≤ (readable tokens).length) : Progresses tokens start p := by
  have hs := ha fun _ h => h
  generalize hr : p ((readable tokens).drop start) = r at hs
  cases hs with
  | @ok a rest _ hlength _ =>
    obtain ⟨used, hused⟩ := hreads a rest hr
    have hsum := congrArg List.length hused
    rw [List.length_append, List.length_drop] at hsum
    rw [List.length_drop] at hlength
    refine .inl ⟨a, start + used.length, by omega, by omega, ?_⟩
    rw [hr, ← List.drop_drop, hused, List.drop_left]
  | complaint ht =>
    exact .inr ⟨_, _, last, getElem?_length_readable hsplit, blames_getD hsplit hnum hstart ht, hr⟩

lemma Accounts.run (ha : Accounts (· ∈ readable tokens) limit q p (readable tokens))
    (hsplit : splitInput? tokens = some (readable tokens, last))
    (hnum : ∀ t ∈ tokens, t.kind = .number → Token.IsLexeme .number t.value.toList) :
    (∃ a, run p (readable tokens) last = .ok a) ∨
      ∃ c t, Blames tokens 0 c t ∧ run p (readable tokens) last = .error (.rejected c t) := by
  have hs := ha fun _ h => h
  simp only [Parser.run]
  generalize p (readable tokens) = r at hs ⊢
  cases hs with
  | ok _ _ _ => exact .inl ⟨_, rfl⟩
  | complaint ht => exact .inr ⟨_, _, blames_getD hsplit hnum (Nat.zero_le _) ht, rfl⟩

end Parser

open Klang.Parser

/-- Tokens that are ended by the end of input, and whose numbers are numerals, are parsed into a
tree, or one of those up to the first end of input is complained about. What follows this end does
not matter, and the parsers of statements and expressions read on wherever they start. -/
theorem parse_total {tokens : List Token} (hend : tokens.getLast?.map Token.kind = some .eof)
    (hnum : ∀ t ∈ tokens, t.kind = .number → Token.IsLexeme .number t.value.toList) :
    (∃ last, tokens[(readable tokens).length]? = some last ∧ last.kind = .eof ∧
      ∀ t ∈ readable tokens, t.kind ≠ .eof) ∧
    (∀ parse ∈ [parseProgram, parseExpression],
      ((∃ tree, parse tokens = .ok tree) ∨
        ∃ c t, Blames tokens 0 c t ∧ parse tokens = .error (.rejected c t) ∧
          ∀ source, ((ParseError.rejected c t).diagnostic source).span = some t.span) ∧
      ∀ others : List Token, others.getLast?.map Token.kind = some .eof →
        others.take ((readable tokens).length + 1) =
          tokens.take ((readable tokens).length + 1) →
        parse others = parse tokens) ∧
    ∀ start depth, start ≤ (readable tokens).length →
      (readable tokens).length - start < depth →
      Progresses tokens start (descend depth).statement ∧
      Progresses tokens start (descend depth).expression := by
  obtain ⟨last, hsplit⟩ : ∃ last, splitInput? tokens = some (readable tokens, last) :=
    splitInput?_of_getLast? hend
  obtain ⟨more, _, hbody, hlast, _⟩ := splitInput?_eq_some_iff.1 hsplit
  refine ⟨⟨last, getElem?_length_readable hsplit, hlast, hbody⟩, ?_, ?_⟩
  · intro parse hparse
    constructor
    · simp only [List.mem_cons, List.not_mem_nil, or_false] at hparse
      rcases hparse with rfl | rfl
      · simp only [parseProgram, hsplit]
        rcases accounts_program.run hsplit hnum with ⟨nodes, hrun⟩ | ⟨c, t, hblames, hrun⟩
        · exact .inl ⟨_, by rw [hrun]; rfl⟩
        · exact .inr ⟨c, t, hblames, by rw [hrun]; rfl, fun _ => rfl⟩
      · simp only [parseExpression, hsplit]
        rcases accounts_singleExpression.run hsplit hnum with
          ⟨node, hrun⟩ | ⟨c, t, hblames, hrun⟩
        · exact .inl ⟨node, hrun⟩
        · exact .inr ⟨c, t, hblames, hrun, fun _ => rfl⟩
    · intro others hothers htake
      have hsame := splitInput?_congr hsplit hothers htake
      simp only [List.mem_cons, List.not_mem_nil, or_false] at hparse
      rcases hparse with rfl | rfl
      · simp only [parseProgram, hsame]
      · simp only [parseExpression, hsame]
  · intro start depth hstart hdepth
    have haccounts : (descend depth).Accounts (· ∈ (readable tokens).drop start) depth :=
      accounts_descend depth
    have hsize : ((readable tokens).drop start).length < depth := by
      rwa [List.length_drop]
    have hsound := sound_descend depth
    constructor
    · refine (haccounts.statement hsize).progresses (fun _ _ h => ?_) hsplit hnum hstart
      obtain ⟨used, hused, _⟩ := hsound.statement _ _ _ h
      exact ⟨used, hused⟩
    · refine (haccounts.expression hsize).progresses (fun _ _ h => ?_) hsplit hnum hstart
      obtain ⟨used, hused, _⟩ := hsound.expression _ _ _ h
      exact ⟨used, hused⟩

theorem parse_total_unreadRest :
    let tokens : List Token := [⟨.number, "1", default⟩, ⟨.operator, "+", default⟩,
      ⟨.number, "2.5", default⟩, ⟨.eof, "", default⟩, ⟨.delimiter, ")", default⟩,
      ⟨.eof, "", default⟩]
    tokens.getLast?.map Token.kind = some .eof ∧
      (∀ t ∈ tokens, t.kind = .number → Token.IsLexeme .number t.value.toList) ∧
      Progresses tokens 2 (descend 2).statement := by
  intro tokens
  have hdigit {c : Char} (hc : Text.isDigit c = true) : Token.IsDigits [c] :=
    ⟨List.cons_ne_nil _ _, List.forall_mem_singleton.2 hc⟩
  have hone : Token.IsLexeme .number ['1'] := .whole (hdigit rfl)
  have htwo : Token.IsLexeme .number ['2', '.', '5'] :=
    @Token.IsLexeme.decimal ['2'] ['5'] (hdigit rfl) (hdigit rfl)
  have hend : tokens.getLast?.map Token.kind = some .eof := by rfl
  have hnum : ∀ t ∈ tokens, t.kind = .number → Token.IsLexeme .number t.value.toList := by
    intro t ht hkind
    simp only [tokens, List.mem_cons, List.not_mem_nil, or_false] at ht
    rcases ht with rfl | rfl | rfl | rfl | rfl | rfl
    · exact hone
    · cases hkind
    · exact htwo
    · cases hkind
    · cases hkind
    · cases hkind
  exact ⟨hend, hnum, ((parse_total hend hnum).2.2 2 2 (by decide) (by decide)).1⟩

end Klang

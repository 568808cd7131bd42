import Klang.Proofs.Phrases.Trees
import Klang.Proofs.ProgramSoundness
import Klang.Proofs.RoundTrip.Expressions

/-! Everything that a parser reads is a phrase, and what is left behind it follows the phrase. -/

namespace Klang

open Phrase

namespace Parser

lemma recognises_operatorOf (level : Level) : Recognises (operatorOf level) level := by
  cases level with
  | disjunction => exact recognises_disjunctionOf
  | conjunction => exact recognises_conjunctionOf
  | equality => exact recognises_symbolOf .equality
  | relational => exact recognises_symbolOf .relational
  | additive => exact recognises_symbolOf .additive
  | multiplicative => exact recognises_symbolOf .multiplicative
  | _ => rintro token operator ⟨⟩

end Parser

namespace Phrase

variable {ts : List Token} {level : Level}

lemma goesOn_eq_false {t : Token} : goesOn t = false ↔ ∀ level, Parser.continues level t = false := by
  constructor
  · intro h level
    simp only [goesOn, List.any_cons, List.any_nil, Bool.or_false, Bool.or_eq_false_iff] at h
    cases level <;> first | rfl | simp only [h]
  · intro h
    simp [goesOn, h]

lemma follow_continues : (follow ts).continues = false ↔ Parser.Stops .assignment ts := by
  cases ts with
  | nil => simp [follow, Parser.Stops]
  | cons t ts =>
    simp only [follow, goesOn_eq_false, Parser.Stops, List.head?_cons, Option.mem_def,
      Option.some.injEq]
    constructor
    · rintro h tight - _ rfl
      exact h tight
    · intro h level
      exact h level (Nat.zero_le _) t rfl

lemma follow_of_continues {t : Token} (h : Parser.continues level t = true) (ts : List Token) :
    (follow (t :: ts)).continues = true := by
  by_contra hfalse
  rw [Bool.not_eq_true] at hfalse
  have := goesOn_eq_false.1 hfalse level
  rw [h] at this
  cases this

def goingOn : Level → List String
  | .assignment => ["="]
  | .disjunction => ["||", "or"]
  | .conjunction => ["&&", "and"]
  | .suffixed => ["(", "["]
  | level => level.operators.map (·.symbol)

lemma value_of_operatorOf {t : Token} {operator : BinaryOperator}
    (h : Parser.operatorOf level t = some operator) : t.value ∈ goingOn level := by
  have hsymbol : ∀ operator ∈ level.operators, operator.symbol ∈ goingOn level := by
    cases level <;> decide
  obtain ⟨hm, hs | ⟨rfl, hw⟩ | ⟨rfl, hw⟩⟩ := Parser.recognises_operatorOf level t operator h
  · rw [Parser.value_of_isSymbol hs]
    exact hsymbol operator hm
  · simp only [Token.isKeyword, Bool.and_eq_true, decide_eq_true_eq] at hw
    rw [hw.2]
    revert hm
    cases level <;> decide
  · simp only [Token.isKeyword, Bool.and_eq_true, decide_eq_true_eq] at hw
    rw [hw.2]
    revert hm
    cases level <;> decide

lemma value_of_continues {t : Token} (h : Parser.continues level t = true) :
    t.value ∈ goingOn level := by
  cases level with
  | assignment =>
    rw [Parser.value_of_isSymbol (Parser.isSymbol_of_isOperator h)]
    decide
  | suffixed =>
    rw [Parser.continues, Bool.or_eq_true] at h
    rcases h with h | h <;> simp [Parser.value_of_isSymbol h, goingOn]
  | unary | primary => cases h
  | _ =>
    obtain ⟨operator, h⟩ := Option.isSome_iff_exists.1 h
    exact value_of_operatorOf h

lemma level_unique {t : Token} {tight : Level} (h : Parser.continues level t = true)
    (ht : Parser.continues tight t = true) : level = tight := by
  have hdisjoint : ∀ value ∈ goingOn level, value ∈ goingOn tight → level = tight := by
    cases level <;> cases tight <;> decide
  exact hdisjoint _ (value_of_continues h) (value_of_continues ht)

lemma follow_of_value {t : Token} (h : ∀ level, t.value ∉ goingOn level) (ts : List Token) :
    (follow (t :: ts)).continues = false :=
  goesOn_eq_false.2 fun level => Bool.eq_false_iff.2 fun hc => h level (value_of_continues hc)

lemma follow_ending {t : Token} {value : String} (h : t.isSymbol value = true)
    (hv : value = "\x7d" ∨ value = ";") (ts : List Token) : follow (t :: ts) = follow [] := by
  have hvalue := Parser.value_of_isSymbol h
  have hnone : ∀ level, value ∉ goingOn level := by
    rcases hv with rfl | rfl <;> rintro ⟨⟩ <;> decide
  have hcontinues : (follow (t :: ts)).continues = false := follow_of_value (hvalue ▸ hnone) ts
  have hword := Parser.not_isKeyword_of_isSymbol h "else"
  rcases hv with rfl | rfl <;> simp_all [follow]

lemma follow_closing {t : Token} (h : t.isSymbol "\x7d" = true) (ts : List Token) :
    follow (t :: ts) = follow [] :=
  follow_ending h (.inl rfl) ts

end Phrase

namespace Parser

lemma Stops.of_tighter (level : Level) {ts : List Token} (h : Stops level.tighter ts)
    (hl : level ≠ .primary) (hs : ∀ t ∈ ts.head?, continues level t = false) : Stops level ts := by
  intro tight hle
  by_cases he : level.rank = tight.rank
  · rw [← Level.rank_injective he]
    exact hs
  · apply h tight
    rw [Level.rank_tighter hl]
    omega

def ReadsAs {α : Type} (p : Parser α) (kind : Phrase → α → Prop) : Prop :=
  ∀ ts a rest, p ts = .ok (a, rest) →
    ∃ phrase : Phrase, ts = phrase.tokens ++ rest ∧ kind phrase a

lemma ReadsAs.reads {α : Type} {p : Parser α} {kind : Phrase → α → Prop} (h : ReadsAs p kind) :
    Reads p fun ts a => ∃ phrase : Phrase, phrase.tokens = ts ∧ kind phrase a := by
  intro ts a rest hp
  obtain ⟨phrase, rfl, hphrase⟩ := h ts a rest hp
  exact ⟨phrase.tokens, rfl, phrase, rfl, hphrase⟩

/-- Nothing that is left goes on with the level, and the phrase is as closed as that tells. -/
def ReadsOperand (p : Parser Node) (level : Level) : Prop :=
  ∀ ts node rest, p ts = .ok (node, rest) → Stops level rest ∧
    ∃ phrase : Phrase, ts = phrase.tokens ++ rest ∧
      Operand (!(follow rest).continues) level phrase node

structure Inner.Recognised (inner : Inner) : Prop where
  expression : ∀ ts node rest, inner.expression ts = .ok (node, rest) →
    (follow rest).continues = false ∧
      ∃ phrase : Phrase, ts = phrase.tokens ++ rest ∧ Phrase.Expression phrase node
  statement : ∀ ts node rest, inner.statement ts = .ok (node, rest) →
    ∃ phrase : Phrase, ts = phrase.tokens ++ rest ∧ Phrase.Statement (follow rest) phrase node
  conditional : ∀ {word ts node rest}, word.isKeyword "if" = true →
    inner.statement (word :: ts) = .ok (node, rest) →
    ∃ phrase : Phrase, word :: ts = phrase.tokens ++ rest ∧
      Phrase.Conditional (follow rest) phrase node

variable {inner : Inner}

lemma Inner.Recognised.readsAs (h : inner.Recognised) :
    ReadsAs inner.expression Phrase.Expression :=
  fun ts node rest hr => (h.expression ts node rest hr).2

lemma items_of_phrases {ts : List Token} {nodes : List Node}
    (h : Grammar.Separated (fun ts node => ∃ phrase : Phrase, phrase.tokens = ts ∧
      Phrase.Expression phrase node) ts nodes) :
    ∃ phrase : Phrase, phrase.tokens = ts ∧ Phrase.Items phrase nodes ∧ nodes ≠ [] := by
  induction h with
  | one hp =>
    obtain ⟨p, rfl, hp⟩ := hp
    exact ⟨_, by simp, .one hp, by simp⟩
  | more hp hcomma _ ih =>
    obtain ⟨p, rfl, hp⟩ := hp
    obtain ⟨q, rfl, hq, hne⟩ := ih
    exact ⟨_, by simp, .more hp hcomma hq hne, by simp⟩

inductive IsEntry : Phrase → String × Node → Prop
  | entry {key colon : Token} {p value} : key.isMapKey → colon.isSymbol ":" →
      Phrase.Expression p value →
      IsEntry (.form .entries [.words [key, colon], p]) (key.value, value)

lemma entries_of_phrases {ts : List Token} {entries : List (String × Node)}
    (h : Grammar.Separated (fun ts entry => ∃ phrase : Phrase, phrase.tokens = ts ∧
      IsEntry phrase entry) ts entries) :
    ∃ phrase : Phrase, phrase.tokens = ts ∧ Phrase.Entries phrase entries ∧ entries ≠ [] := by
  induction h with
  | one hp =>
    obtain ⟨_, rfl, hk, hc, hv⟩ := hp
    exact ⟨_, by simp, .one hk hc hv, by simp⟩
  | more hp hcomma _ ih =>
    obtain ⟨_, rfl, hk, hc, hv⟩ := hp
    obtain ⟨q, rfl, hq, hne⟩ := ih
    exact ⟨_, by simp, .more hk hc hv hcomma hq hne, by simp⟩

lemma read_items (h : inner.Recognised) {close : String} {complaint : Complaint}
    {ts rest : List Token} {nodes : List Node}
    (hi : items inner.expression close complaint ts = .ok (nodes, rest)) :
    ∃ (phrase : Phrase) (closing : Token), ts = phrase.tokens ++ closing :: rest ∧
      closing.isSymbol close = true ∧ Phrase.Items phrase nodes := by
  obtain ⟨used, closing, rfl, hclosing, hu⟩ := reads_items h.readsAs.reads hi
  rcases hu with ⟨rfl, rfl⟩ | hu
  · exact ⟨.words [], closing, by simp, hclosing, .nothing⟩
  · obtain ⟨p, rfl, hp, -⟩ := items_of_phrases hu
    exact ⟨p, closing, rfl, hclosing, hp⟩

lemma readsAs_mapEntry (h : inner.Recognised) : ReadsAs (mapEntry inner) IsEntry := by
  intro ts entry rest hm
  simp only [mapEntry, bind_eq_ok, expect_eq_ok, expectSymbol_eq_ok] at hm
  obtain ⟨key, mid, ⟨rfl, hkey⟩, colon, mid', ⟨rfl, hcolon⟩, value, mid'', hv, he⟩ := hm
  cases he
  obtain ⟨p, rfl, hp⟩ := h.readsAs _ _ _ hv
  exact ⟨_, by simp, .entry hkey hcolon hp⟩

lemma read_entries (h : inner.Recognised) {close : String} {complaint : Complaint}
    {ts rest : List Token} {entries : List (String × Node)}
    (hi : items (mapEntry inner) close complaint ts = .ok (entries, rest)) :
    ∃ (phrase : Phrase) (closing : Token), ts = phrase.tokens ++ closing :: rest ∧
      closing.isSymbol close = true ∧ Phrase.Entries phrase entries := by
  obtain ⟨used, closing, rfl, hclosing, hu⟩ := reads_items (readsAs_mapEntry h).reads hi
  rcases hu with ⟨rfl, rfl⟩ | hu
  · exact ⟨.words [], closing, by simp, hclosing, .nothing⟩
  · obtain ⟨p, rfl, hp, -⟩ := entries_of_phrases hu
    exact ⟨p, closing, rfl, hclosing, hp⟩

lemma statements_of_dropWhile (ts : List Token) {p : Phrase} {nodes : List Node}
    (hp : Phrase.Statements p nodes) {rest : List Token}
    (hd : ts.dropWhile (Token.isSymbol ";") = p.tokens ++ rest) :
    ∃ phrase : Phrase, ts = phrase.tokens ++ rest ∧ Phrase.Statements phrase nodes := by
  induction ts with
  | nil => exact ⟨p, hd, hp⟩
  | cons t ts ih =>
    by_cases ht : t.isSymbol ";" = true
    · rw [List.dropWhile_cons_of_pos ht] at hd
      obtain ⟨q, rfl, hq⟩ := ih hd
      exact ⟨_, by simp, .separator ht hq⟩
    · rw [List.dropWhile_cons_of_neg ht] at hd
      exact ⟨p, hd, hp⟩

lemma follow_append_closing (ts : List Token) {t : Token} (h : t.isSymbol "\x7d" = true)
    (rest : List Token) : follow (ts ++ t :: rest) = follow ts := by
  cases ts with
  | nil => exact follow_closing h rest
  | cons u us => rfl

lemma read_blockStatements (h : inner.Recognised) {opening : Token} {bound : Nat}
    {ts rest : List Token} {nodes : List Node}
    (hb : blockStatements inner.statement opening bound ts = .ok (nodes, rest)) :
    ∃ (phrase : Phrase) (closing : Token), ts = phrase.tokens ++ closing :: rest ∧
      closing.isSymbol "\x7d" = true ∧ Phrase.Statements phrase nodes := by
  induction bound generalizing ts nodes with
  | zero => cases hb
  | succ bound ih =>
    simp only [blockStatements, nextSymbol_bind] at hb
    split at hb
    · rename_i hc
      obtain ⟨closing, ts, rfl, hclosing⟩ := head_of_test hc
      cases hb
      exact ⟨.words [], closing, by simp, hclosing, .nothing⟩
    · simp only [atEnd_bind] at hb
      split at hb
      · cases hb
      · simp only [bind_eq_ok, skipSeparators_bind] at hb
        obtain ⟨first, mid, hf, others, mid', ho, he⟩ := hb
        cases he
        obtain ⟨p, rfl, hp⟩ := h.statement _ _ _ hf
        obtain ⟨q, closing, hq, hclosing, hst⟩ := ih ho
        obtain ⟨r, rfl, hr⟩ := statements_of_dropWhile mid hst hq
        rw [follow_append_closing _ hclosing] at hp
        exact ⟨_, closing, by simp, hclosing, .statement hp hr⟩

lemma read_block (h : inner.Recognised) : ReadsAs (block inner) Phrase.Block := by
  intro ts node rest hb
  simp only [block, skipSeparators_bind, rounds_bind, bind_eq_ok, expectSymbol_eq_ok] at hb
  obtain ⟨opening, mid, ⟨rfl, hopening⟩, nodes, mid', hn, he⟩ := hb
  cases he
  obtain ⟨p, closing, hp, hclosing, hst⟩ := read_blockStatements h hn
  obtain ⟨q, rfl, hq⟩ := statements_of_dropWhile mid hst hp
  exact ⟨_, by simp, .block hopening hq hclosing⟩

def IsPrimary (phrase : Phrase) (node : Node) (rest : List Token) : Prop :=
  Operand (!(follow rest).continues) .primary phrase node

lemma read_functionExpression (h : inner.Recognised) {word : Token}
    (hw : word.isKeyword "def" = true) {ts rest : List Token} {node : Node}
    (hf : functionExpression inner (word :: ts) = .ok (node, rest)) :
    ∃ phrase : Phrase, word :: ts = phrase.tokens ++ rest ∧ IsPrimary phrase node rest := by
  simp only [functionExpression, advance_bind_cons, bind_eq_ok] at hf
  obtain ⟨params, mid, hparams, body, mid', hb, he⟩ := hf
  cases he
  obtain ⟨us, rfl, hu⟩ := reads_parameters _ _ _ hparams
  obtain ⟨p, rfl, hp⟩ := read_block h _ _ _ hb
  exact ⟨_, by simp, .function (.function hw) hu hp (absurd rfl)⟩

lemma read_lambda (h : inner.Recognised) {word : Token} (hw : word.isKeyword "forge" = true)
    {ts rest : List Token} {node : Node} (hl : lambda inner (word :: ts) = .ok (node, rest)) :
    ∃ phrase : Phrase, word :: ts = phrase.tokens ++ rest ∧ IsPrimary phrase node rest := by
  simp only [lambda, lambdaBody, next_bind, advance_bind_cons, bind_eq_ok] at hl
  obtain ⟨params, mid, hparams, body, mid', hb, he⟩ := hl
  cases he
  obtain ⟨us, rfl, hu⟩ := reads_parameters _ _ _ hparams
  split at hb
  · rename_i hc
    obtain ⟨arrow, mid, rfl, harrow⟩ := head_of_test hc
    simp only [nextSymbol_bind, ahead_bind, advance_bind_cons] at hb
    split at hb
    · rename_i hblock
      rw [Bool.and_eq_true, Bool.not_eq_true'] at hblock
      obtain ⟨p, rfl, hp⟩ := read_block h _ _ _ hb
      have hmap : Token.looksLikeMap p.tokens = false :=
        Bool.eq_false_iff.2 fun hm => by simp [looksLikeMap_append hm] at hblock
      exact ⟨_, by simp, .function (.arrow hw harrow) hu hp fun _ => hmap⟩
    · simp only [bind_eq_ok] at hb
      obtain ⟨value, mid', hr, he⟩ := hb
      cases he
      obtain ⟨hfollow, p, rfl, hp⟩ := h.expression _ _ _ hr
      refine ⟨.form .lambdaValue [.words [word], .words us, .words [arrow], p], by simp, ?_⟩
      rw [IsPrimary, hfollow]
      exact .lambdaValue hw hu harrow hp
  · simp only [nextSymbol_bind] at hb
    split at hb
    · obtain ⟨p, rfl, hp⟩ := read_block h _ _ _ hb
      exact ⟨_, by simp, .function (.lambda hw) hu hp (absurd rfl)⟩
    · cases hb

lemma read_group (h : inner.Recognised) {first : Token} (ho : first.isSymbol "(" = true)
    {ts rest : List Token} {node : Node} (hg : group inner (first :: ts) = .ok (node, rest)) :
    ∃ phrase : Phrase, first :: ts = phrase.tokens ++ rest ∧ IsPrimary phrase node rest := by
  simp only [group, advance_bind_cons, bind_eq_ok, expectSymbol_eq_ok] at hg
  obtain ⟨value, mid, hv, closing, mid', ⟨rfl, hclosing⟩, he⟩ := hg
  cases he
  obtain ⟨p, rfl, hp⟩ := h.readsAs _ _ _ hv
  exact ⟨_, by simp, .group ho hp hclosing⟩

lemma read_listLiteral (h : inner.Recognised) {first : Token} (ho : first.isSymbol "[" = true)
    {ts rest : List Token} {node : Node} (hl : listLiteral inner (first :: ts) = .ok (node, rest)) :
    ∃ phrase : Phrase, first :: ts = phrase.tokens ++ rest ∧ IsPrimary phrase node rest := by
  simp only [listLiteral, advance_bind_cons, bind_eq_ok] at hl
  obtain ⟨elements, mid, hi, he⟩ := hl
  cases he
  obtain ⟨p, closing, rfl, hclosing, hp⟩ := read_items h hi
  exact ⟨_, by simp, .list ho hp hclosing⟩

/-- Whether a brace opens a map is told by tokens up to the brace that closes it. -/
lemma looksLikeMap_braced {opening closing : Token} {ts rest : List Token}
    (h : Token.looksLikeMap (opening :: (ts ++ closing :: rest)) = true)
    (hc : closing.isMapKey = false) (hd : closing.isDelimiter ":" = false) :
    Token.looksLikeMap (opening :: (ts ++ [closing])) = true := by
  match ts with
  | [] => simpa [Token.looksLikeMap, hc] using h
  | [t] => simpa [Token.looksLikeMap, hd] using h
  | t :: u :: ts => exact h

lemma read_mapLiteral (h : inner.Recognised) {first : Token} (ho : first.isSymbol "\x7b" = true)
    {ts rest : List Token} {node : Node} (hmap : Token.looksLikeMap (first :: ts) = true)
    (hl : mapLiteral inner (first :: ts) = .ok (node, rest)) :
    ∃ phrase : Phrase, first :: ts = phrase.tokens ++ rest ∧ IsPrimary phrase node rest := by
  simp only [mapLiteral, advance_bind_cons, bind_eq_ok] at hl
  obtain ⟨entries, mid, hi, he⟩ := hl
  cases he
  obtain ⟨p, closing, rfl, hclosing, hp⟩ := read_entries h hi
  have hkind : closing.isMapKey = false ∧ closing.isDelimiter ":" = false := by
    simp only [Token.isSymbol, Bool.and_eq_true, Bool.or_eq_true, decide_eq_true_eq] at hclosing
    rcases hclosing.1 with hkind | hkind <;>
      simp [Token.isMapKey, Token.isDelimiter, hkind, hclosing.2]
  exact ⟨_, by simp, .map ho hp hclosing (looksLikeMap_braced hmap hkind.1 hkind.2)⟩

lemma read_primary (h : inner.Recognised) {ts rest : List Token} {node : Node}
    (hp : primary inner ts = .ok (node, rest)) :
    ∃ phrase : Phrase, ts = phrase.tokens ++ rest ∧ IsPrimary phrase node rest := by
  simp only [primary, nextAtom?_bind] at hp
  cases hatom : ts.head?.bind atom? with
  | some atom =>
    rw [hatom] at hp
    obtain ⟨token, hhead, hatom⟩ := Option.bind_eq_some_iff.1 hatom
    obtain ⟨ts, rfl⟩ := List.head?_eq_some_iff.1 hhead
    cases hp
    exact ⟨.words [token], by simp, .atom hatom⟩
  | none =>
    rw [hatom] at hp
    simp only [nextKeyword_bind, nextSymbol_bind, ahead_bind, if_apply] at hp
    split at hp
    · rename_i hc
      obtain ⟨word, ts, rfl, hword⟩ := head_of_test hc
      exact read_functionExpression h hword hp
    · split at hp
      · rename_i hc
        obtain ⟨word, ts, rfl, hword⟩ := head_of_test hc
        exact read_lambda h hword hp
      · split at hp
        · rename_i hc
          obtain ⟨first, ts, rfl, hfirst⟩ := head_of_test hc
          exact read_group h hfirst hp
        · split at hp
          · rename_i hc
            obtain ⟨first, ts, rfl, hfirst⟩ := head_of_test hc
            exact read_listLiteral h hfirst hp
          · split at hp
            · rename_i hc
              obtain ⟨first, ts, rfl, hfirst⟩ := head_of_test hc
              split at hp
              · rename_i hmap
                exact read_mapLiteral h hfirst hmap hp
              · cases hp
            · cases hp

lemma read_suffixes (h : inner.Recognised) {bound : Nat} {p : Phrase} {ts rest : List Token}
    {operand node : Node} (hp : Operand (!(follow ts).continues) .suffixed p operand)
    (hs : suffixes inner bound operand ts = .ok (node, rest)) :
    Stops .suffixed rest ∧ ∃ phrase : Phrase, p.tokens ++ ts = phrase.tokens ++ rest ∧
      Operand (!(follow rest).continues) .suffixed phrase node := by
  induction bound generalizing p ts operand with
  | zero => cases hs
  | succ bound ih =>
    simp only [suffixes, nextSymbol_bind, if_apply] at hs
    split at hs
    · rename_i hc
      obtain ⟨first, ts, rfl, hfirst⟩ := head_of_test hc
      have hgoes : continues .suffixed first = true := by simp [continues, hfirst]
      rw [follow_of_continues hgoes] at hp
      simp only [advance_bind_cons, bind_eq_ok] at hs
      obtain ⟨arguments, mid, hi, hs⟩ := hs
      obtain ⟨q, closing, rfl, hclosing, hq⟩ := read_items h hi
      obtain ⟨hstops, r, hr, hoperand⟩ := ih (.call hp hfirst hq hclosing) hs
      exact ⟨hstops, r, by simpa using hr, hoperand⟩
    · rename_i hround
      split at hs
      · rename_i hc
        obtain ⟨first, ts, rfl, hfirst⟩ := head_of_test hc
        have hgoes : continues .suffixed first = true := by simp [continues, hfirst]
        rw [follow_of_continues hgoes] at hp
        simp only [advance_bind_cons, bind_eq_ok, expectSymbol_eq_ok] at hs
        obtain ⟨key, mid, hk, closing, mid', ⟨rfl, hclosing⟩, hs⟩ := hs
        obtain ⟨q, rfl, hq⟩ := h.readsAs _ _ _ hk
        obtain ⟨hstops, r, hr, hoperand⟩ := ih (.index hp hfirst hq hclosing) hs
        exact ⟨hstops, r, by simpa using hr, hoperand⟩
      · rename_i hsquare
        cases hs
        refine ⟨.of_tighter .suffixed (Writer.stops_primary rest) (by decide) ?_, p, rfl, hp⟩
        intro t ht
        rw [Option.mem_def] at ht
        simp only [ht, Option.map_some, Option.getD_some, Bool.not_eq_true] at hround hsquare
        simp [continues, hround, hsquare]

lemma operand_foldr_withSign {closed : Bool} {signs : List Token} {p : Phrase} {operand : Node}
    (hs : ∀ sign ∈ signs, isSign sign = true) (hp : Operand closed .unary p operand) :
    ∃ phrase : Phrase, phrase.tokens = signs ++ p.tokens ∧
      Operand closed .unary phrase (signs.foldr withSign operand) := by
  induction signs with
  | nil => exact ⟨p, rfl, hp⟩
  | cons sign signs ih =>
    obtain ⟨q, hq, hoperand⟩ := ih fun other hm => hs other (by simp [hm])
    exact ⟨_, by simp [hq], .unary (hs sign (by simp)) hoperand⟩

lemma read_unary (h : inner.Recognised) : ReadsOperand (unary inner) .unary := by
  intro ts node rest hu
  simp only [unary, takeWhile_bind, rounds_bind, bind_eq_ok] at hu
  obtain ⟨operand, mid, hp, operand', mid', hs, he⟩ := hu
  cases he
  obtain ⟨p, hts, hp⟩ := read_primary h hp
  obtain ⟨hstops, q, hq, hsuffixed⟩ := read_suffixes h (.tighter hp) hs
  have hsigns : ∀ sign ∈ ts.takeWhile isSign, isSign sign = true :=
    fun _ hm => List.mem_takeWhile_imp hm
  obtain ⟨r, hr, hoperand⟩ := operand_foldr_withSign hsigns (.tighter hsuffixed)
  refine ⟨.of_tighter .unary hstops (by decide) fun _ _ => rfl, r, ?_, hoperand⟩
  rw [hr, List.append_assoc, ← hq, ← hts, List.takeWhile_append_dropWhile]

variable {level : Level}

lemma read_chain {operand : Parser Node} (ho : ReadsOperand operand level.tighter)
    (hl : level ≠ .primary) (hc : ∀ t, continues level t = (operatorOf level t).isSome)
    {bound : Nat} {p : Phrase} {ts rest : List Token} {left node : Node}
    (hp : Operand (!(follow ts).continues) level p left) (hts : Stops level.tighter ts)
    (hr : chain operand (operatorOf level) bound left ts = .ok (node, rest)) :
    Stops level rest ∧ ∃ phrase : Phrase, p.tokens ++ ts = phrase.tokens ++ rest ∧
      Operand (!(follow rest).continues) level phrase node := by
  induction bound generalizing p ts left with
  | zero => cases hr
  | succ bound ih =>
    simp only [chain, nextOperator?_bind] at hr
    cases hhead : ts.head?.bind (operatorOf level) with
    | some operator =>
      rw [hhead] at hr
      obtain ⟨token, hhead, hoperator⟩ := Option.bind_eq_some_iff.1 hhead
      obtain ⟨ts, rfl⟩ := List.head?_eq_some_iff.1 hhead
      have hgoes : continues level token = true := by rw [hc, hoperator]; rfl
      rw [follow_of_continues hgoes] at hp
      simp only [advance_bind_cons, bind_eq_ok] at hr
      obtain ⟨right, mid, hright, hr⟩ := hr
      obtain ⟨hmid, q, rfl, hq⟩ := ho _ _ _ hright
      obtain ⟨hstops, r, hr, hoperand⟩ := ih (.binary hp hoperator hq) hmid hr
      exact ⟨hstops, r, by simpa using hr, hoperand⟩
    | none =>
      rw [hhead] at hr
      cases hr
      refine ⟨.of_tighter level hts hl fun t ht => ?_, p, rfl, hp⟩
      rw [Option.mem_def] at ht
      rw [ht, Option.bind_some] at hhead
      rw [hc, hhead]
      rfl

lemma read_level (level : Level) {operand : Parser Node} (ho : ReadsOperand operand level.tighter)
    (hl : level ≠ .primary) (hc : ∀ t, continues level t = (operatorOf level t).isSome) :
    ReadsOperand (Parser.level (operatorOf level) operand) level := by
  intro ts node rest h
  simp only [Parser.level, rounds_bind, bind_eq_ok] at h
  obtain ⟨left, mid, hleft, hr⟩ := h
  obtain ⟨hmid, p, rfl, hp⟩ := ho _ _ _ hleft
  exact read_chain ho hl hc (.tighter hp) hmid hr

lemma read_disjunction (h : inner.Recognised) :
    ReadsOperand (disjunction inner) .disjunction := by
  have hm : ReadsOperand (multiplicative inner) .multiplicative :=
    read_level .multiplicative (read_unary h) (by decide) fun _ => rfl
  have ha : ReadsOperand (additive inner) .additive :=
    read_level .additive hm (by decide) fun _ => rfl
  have hr : ReadsOperand (relational inner) .relational :=
    read_level .relational ha (by decide) fun _ => rfl
  have he : ReadsOperand (equality inner) .equality :=
    read_level .equality hr (by decide) fun _ => rfl
  have hc : ReadsOperand (conjunction inner) .conjunction :=
    read_level .conjunction he (by decide) fun _ => rfl
  exact read_level .disjunction hc (by decide) fun _ => rfl

lemma read_assignment (h : inner.Recognised) {ts rest : List Token} {node : Node}
    (ha : assignment inner ts = .ok (node, rest)) : (follow rest).continues = false ∧
      ∃ phrase : Phrase, ts = phrase.tokens ++ rest ∧ Phrase.Expression phrase node := by
  simp only [assignment, next_bind, bind_eq_ok] at ha
  obtain ⟨target, mid, ht, ha⟩ := ha
  obtain ⟨hmid, p, rfl, hp⟩ := read_disjunction h _ _ _ ht
  split at ha
  · rename_i hc
    obtain ⟨equals, mid, rfl, hequals⟩ := head_of_test hc
    simp only [advance_bind_cons] at ha
    split at ha
    · rename_i htarget
      simp only [bind_eq_ok] at ha
      obtain ⟨value, mid', hr, he⟩ := ha
      cases he
      obtain ⟨hrest, q, rfl, hq⟩ := h.expression _ _ _ hr
      have hgoes : continues .assignment equals = true := hequals
      rw [follow_of_continues hgoes] at hp
      exact ⟨hrest, _, by simp, .assignment hp (isTarget_of_isTarget htarget) hequals hq⟩
    · cases ha
  · rename_i hc
    cases ha
    have hrest : (follow rest).continues = false := by
      refine follow_continues.2 (.of_tighter .assignment hmid (by decide) fun t ht => ?_)
      rw [Option.mem_def] at ht
      simp only [ht, Option.map_some, Option.getD_some, Bool.not_eq_true] at hc
      exact hc
    rw [hrest] at hp
    exact ⟨hrest, p, rfl, .operand hp⟩

lemma read_declaration (h : inner.Recognised) {word : Token}
    (hw : word.isKeyword "let" = true ∨ word.isKeyword "final" = true) {ts rest : List Token}
    {node : Node} (hd : declaration inner (word :: ts) = .ok (node, rest)) :
    ∃ phrase : Phrase, word :: ts = phrase.tokens ++ rest ∧
      Phrase.Statement (follow rest) phrase node := by
  simp only [declaration, advance_bind_cons, bind_eq_ok, expectIdentifier_eq_ok,
    expectSymbol_eq_ok] at hd
  obtain ⟨_, mid, ⟨name, rfl, hname, rfl⟩, type, mid', ht, equals, mid'', ⟨rfl, hequals⟩,
    value, mid''', hr, he⟩ := hd
  cases he
  obtain ⟨us, rfl, hu⟩ := reads_ascription _ _ _ ht
  obtain ⟨hrest, p, rfl, hp⟩ := h.expression _ _ _ hr
  exact ⟨_, by simp, .declaration hw hname hu hequals hp hrest⟩

lemma read_definition (h : inner.Recognised) {word : Token} (hw : word.isKeyword "def" = true)
    {ts rest : List Token} {node : Node} (hd : definition inner (word :: ts) = .ok (node, rest)) :
    ∃ phrase : Phrase, word :: ts = phrase.tokens ++ rest ∧
      Phrase.Statement (follow rest) phrase node := by
  simp only [definition, advance_bind_cons, bind_eq_ok, expectIdentifier_eq_ok] at hd
  obtain ⟨_, mid, ⟨name, rfl, hname, rfl⟩, params, mid', hparams, body, mid'', hb, he⟩ := hd
  cases he
  obtain ⟨us, rfl, hu⟩ := reads_parameters _ _ _ hparams
  obtain ⟨p, rfl, hp⟩ := read_block h _ _ _ hb
  exact ⟨_, by simp, .definition hw hname hu hp⟩

lemma read_elseBranch (h : inner.Recognised) {ts rest : List Token} {branch : Option Node}
    (he : elseBranch inner ts = .ok (branch, rest)) : ∃ phrase : Phrase,
      ts = phrase.tokens ++ rest ∧ Phrase.Otherwise (follow rest) phrase branch := by
  simp only [elseBranch, nextKeyword_bind] at he
  split at he
  · rename_i ht
    obtain ⟨keyword, ts, rfl, hkeyword⟩ := head_of_test ht
    simp only [advance_bind_cons, nextKeyword_bind] at he
    split at he
    · rename_i ht
      obtain ⟨word, ts, rfl, hword⟩ := head_of_test ht
      simp only [bind_eq_ok] at he
      obtain ⟨node, mid, hs, he⟩ := he
      cases he
      obtain ⟨p, hts, hp⟩ := h.conditional hword hs
      exact ⟨_, by simp [hts], .conditional hkeyword hp⟩
    · simp only [bind_eq_ok] at he
      obtain ⟨node, mid, hb, he⟩ := he
      cases he
      obtain ⟨p, rfl, hp⟩ := read_block h _ _ _ hb
      exact ⟨_, by simp, .block hkeyword hp⟩
  · rename_i hnext
    cases he
    refine ⟨.words [], by simp, .nothing ?_⟩
    cases ts with
    | nil => rfl
    | cons t ts => simpa [follow] using hnext

lemma read_conditional (h : inner.Recognised) {word : Token} (hw : word.isKeyword "if" = true)
    {ts rest : List Token} {node : Node} (hc : conditional inner (word :: ts) = .ok (node, rest)) :
    ∃ phrase : Phrase, word :: ts = phrase.tokens ++ rest ∧
      Phrase.Conditional (follow rest) phrase node := by
  simp only [conditional, advance_bind_cons, bind_eq_ok] at hc
  obtain ⟨condition, mid, hread, thenBranch, mid', hb, otherwise, mid'', ho, he⟩ := hc
  cases he
  obtain ⟨p, rfl, hp⟩ := h.readsAs _ _ _ hread
  obtain ⟨q, rfl, hq⟩ := read_block h _ _ _ hb
  obtain ⟨r, rfl, hr⟩ := read_elseBranch h ho
  exact ⟨_, by simp, .conditional hw hp hq hr⟩

lemma read_whileLoop (h : inner.Recognised) {word : Token} (hw : word.isKeyword "while" = true)
    {ts rest : List Token} {node : Node} (hl : whileLoop inner (word :: ts) = .ok (node, rest)) :
    ∃ phrase : Phrase, word :: ts = phrase.tokens ++ rest ∧
      Phrase.Statement (follow rest) phrase node := by
  simp only [whileLoop, advance_bind_cons, bind_eq_ok] at hl
  obtain ⟨condition, mid, hr, body, mid', hb, he⟩ := hl
  cases he
  obtain ⟨p, rfl, hp⟩ := h.readsAs _ _ _ hr
  obtain ⟨q, rfl, hq⟩ := read_block h _ _ _ hb
  exact ⟨_, by simp, .whileLoop hw hp hq⟩

lemma read_forLoop (h : inner.Recognised) {word : Token} (hw : word.isKeyword "for" = true)
    {ts rest : List Token} {node : Node} (hl : forLoop inner (word :: ts) = .ok (node, rest)) :
    ∃ phrase : Phrase, word :: ts = phrase.tokens ++ rest ∧
      Phrase.Statement (follow rest) phrase node := by
  simp only [forLoop, advance_bind_cons, ahead_bind, if_apply] at hl
  split at hl
  · rename_i hheader
    obtain ⟨first, ts, rfl, hfirst⟩ := parenthesizedHeader_eq_true hheader
    simp only [advance_bind_cons, bind_eq_ok, expectIdentifier_eq_ok, expect_eq_ok,
      expectSymbol_eq_ok] at hl
    obtain ⟨_, mid, ⟨name, rfl, hname, rfl⟩, keyword, mid', ⟨rfl, hkeyword⟩, iterable, mid'', hr,
      closing, mid''', ⟨rfl, hclosing⟩, body, mid'''', hb, he⟩ := hl
    cases he
    obtain ⟨p, rfl, hp⟩ := h.readsAs _ _ _ hr
    obtain ⟨q, rfl, hq⟩ := read_block h _ _ _ hb
    exact ⟨_, by simp, .forLoop (.parenthesized hw hfirst hname hkeyword hclosing) hp hq⟩
  · simp only [bind_eq_ok, expectIdentifier_eq_ok, expect_eq_ok] at hl
    obtain ⟨_, mid, ⟨name, rfl, hname, rfl⟩, keyword, mid', ⟨rfl, hkeyword⟩, iterable, mid'', hr,
      body, mid''', hb, he⟩ := hl
    cases he
    obtain ⟨p, rfl, hp⟩ := h.readsAs _ _ _ hr
    obtain ⟨q, rfl, hq⟩ := read_block h _ _ _ hb
    exact ⟨_, by simp, .forLoop (.bare hw hname hkeyword) hp hq⟩

lemma closes_of_next {ts : List Token}
    (h : ((ts.head?.map (Token.isSymbol "\x7d")).getD false ||
      ((ts.head?.map (Token.isSymbol ";")).getD false || ts.isEmpty)) = true) :
    (follow ts).closes = true := by
  cases ts with
  | nil => rfl
  | cons t ts => simpa [follow] using h

lemma read_returnStatement (h : inner.Recognised) {word : Token}
    (hw : word.isKeyword "return" = true) {ts rest : List Token} {node : Node}
    (hr : returnStatement inner (word :: ts) = .ok (node, rest)) :
    ∃ phrase : Phrase, word :: ts = phrase.tokens ++ rest ∧
      Phrase.Statement (follow rest) phrase node := by
  simp only [returnStatement, advance_bind_cons, nextSymbol_bind, atEnd_bind, if_apply] at hr
  split at hr
  · rename_i hend
    cases hr
    rw [Bool.or_assoc] at hend
    exact ⟨.words [word], by simp, .returnNothing hw (closes_of_next hend)⟩
  · simp only [bind_eq_ok] at hr
    obtain ⟨value, mid, hv, he⟩ := hr
    cases he
    obtain ⟨hrest, p, rfl, hp⟩ := h.expression _ _ _ hv
    exact ⟨_, by simp, .returnValue hw hp hrest⟩

lemma read_expressionStatement (h : inner.Recognised) {ts rest : List Token} {node : Node}
    (hs : expressionStatement inner ts = .ok (node, rest)) : ∃ phrase : Phrase,
      ts = phrase.tokens ++ rest ∧ Phrase.Statement (follow rest) phrase node := by
  simp only [expressionStatement, get_bind, bind_eq_ok] at hs
  obtain ⟨value, mid, hv, he⟩ := hs
  cases he
  obtain ⟨hrest, p, rfl, hp⟩ := read_assignment h hv
  exact ⟨p, rfl, .expression hp hrest⟩

lemma read_statement (h : inner.Recognised) {ts rest : List Token} {node : Node}
    (hs : statement inner ts = .ok (node, rest)) : ∃ phrase : Phrase,
      ts = phrase.tokens ++ rest ∧ Phrase.Statement (follow rest) phrase node := by
  rw [statement_apply] at hs
  split at hs
  · rename_i hc
    rw [Bool.or_eq_true] at hc
    rcases hc with hc | hc
    · obtain ⟨word, ts, rfl, hword⟩ := head_of_test hc
      exact read_declaration h (.inl hword) hs
    · obtain ⟨word, ts, rfl, hword⟩ := head_of_test hc
      exact read_declaration h (.inr hword) hs
  · split at hs
    · rename_i hc
      obtain ⟨word, name, ts, rfl, hword, _⟩ := startsDefinition_eq_true hc
      exact read_definition h hword hs
    · split at hs
      · rename_i hc
        obtain ⟨word, ts, rfl, hword⟩ := head_of_test hc
        obtain ⟨p, hts, hp⟩ := read_conditional h hword hs
        exact ⟨p, hts, .conditional hp⟩
      · split at hs
        · rename_i hc
          obtain ⟨word, ts, rfl, hword⟩ := head_of_test hc
          exact read_whileLoop h hword hs
        · split at hs
          · rename_i hc
            obtain ⟨word, ts, rfl, hword⟩ := head_of_test hc
            exact read_forLoop h hword hs
          · split at hs
            · rename_i hc
              obtain ⟨word, ts, rfl, hword⟩ := head_of_test hc
              exact read_returnStatement h hword hs
            · split at hs
              · rename_i hc
                rw [Bool.and_eq_true, Bool.not_eq_true'] at hc
                obtain ⟨p, rfl, hp⟩ := read_block h _ _ _ hs
                have hmap : Token.looksLikeMap p.tokens = false :=
                  Bool.eq_false_iff.2 fun hm => by simp [looksLikeMap_append hm] at hc
                exact ⟨p, rfl, .block hp hmap⟩
              · exact read_expressionStatement h hs

lemma recognised_descend (depth : Nat) : (descend depth).Recognised := by
  induction depth with
  | zero =>
    refine ⟨?_, ?_, ?_⟩
    · rintro ts node rest ⟨⟩
    · rintro ts node rest ⟨⟩
    · rintro word ts node rest _ ⟨⟩
  | succ depth ih =>
    refine ⟨fun _ _ _ => read_assignment ih, fun _ _ _ => read_statement ih, ?_⟩
    intro word ts node rest hw hs
    change statement (descend depth) (word :: ts) = _ at hs
    rw [statement_of_if hw] at hs
    exact read_conditional ih hw hs

lemma read_programStatements (h : inner.Recognised) {bound : Nat} {ts rest : List Token}
    {nodes : List Node} (hp : programStatements inner.statement bound ts = .ok (nodes, rest)) :
    rest = [] ∧ ∃ phrase : Phrase, ts = phrase.tokens ∧ Phrase.Statements phrase nodes := by
  induction bound generalizing ts nodes with
  | zero => cases hp
  | succ bound ih =>
    simp only [programStatements, atEnd_bind, if_apply] at hp
    split at hp
    · rename_i hc
      obtain rfl := List.isEmpty_iff.1 hc
      cases hp
      exact ⟨rfl, .words [], by simp, .nothing⟩
    · simp only [bind_eq_ok, skipSeparators_bind] at hp
      obtain ⟨first, mid, hf, others, mid', ho, he⟩ := hp
      cases he
      obtain ⟨p, rfl, hp⟩ := h.statement _ _ _ hf
      obtain ⟨rfl, q, hq, hst⟩ := ih ho
      obtain ⟨r, rfl, hr⟩ := statements_of_dropWhile mid hst (hq.trans (List.append_nil _).symm)
      rw [List.append_nil] at hp
      exact ⟨rfl, .form .statements [p, r], by simp, .statement hp hr⟩

lemma phrase_of_program {body rest : List Token} {nodes : List Node}
    (h : program body = .ok (nodes, rest)) :
    ∃ phrase : Phrase, phrase.tokens = body ∧ Phrase.Statements phrase nodes := by
  simp only [program, rounds_bind, skipSeparators_bind] at h
  obtain ⟨rfl, p, hp, hst⟩ := read_programStatements (recognised_descend _) h
  obtain ⟨q, rfl, hq⟩ := statements_of_dropWhile body hst (hp.trans (List.append_nil _).symm)
  exact ⟨q, (List.append_nil _).symm, hq⟩

lemma phrase_of_singleExpression {body rest : List Token} {node : Node}
    (h : singleExpression body = .ok (node, rest)) :
    ∃ phrase : Phrase, phrase.tokens = body ∧ Phrase.Expression phrase node := by
  simp only [singleExpression, rounds_bind, bind_eq_ok, atEnd_bind, if_apply] at h
  obtain ⟨value, mid, hv, he⟩ := h
  split at he
  · rename_i hmid
    obtain rfl := List.isEmpty_iff.1 hmid
    cases he
    obtain ⟨-, p, rfl, hp⟩ := (recognised_descend _).expression _ _ _ hv
    exact ⟨p, (List.append_nil _).symm, hp⟩
  · cases he

end Parser

end Klang

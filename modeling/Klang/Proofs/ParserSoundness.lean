import Klang.Proofs.Grammar
import Klang.Proofs.ParserSteps
import Mathlib.Data.List.TakeWhile

/-! Parsing is sound: what a parser has read is a phrase of the grammar that spells its result. -/

namespace Klang.Parser

open Grammar

variable {α : Type}

def Reads (p : Parser α) (phrase : List Token → α → Prop) : Prop :=
  ∀ ts a rest, p ts = .ok (a, rest) → ∃ used, ts = used ++ rest ∧ phrase used a

structure Inner.Sound (inner : Inner) : Prop where
  expression : Reads inner.expression (Expression .assignment)
  statement : Reads inner.statement Statement
  conditional : ∀ {word ts node rest}, word.isKeyword "if" = true →
    inner.statement (word :: ts) = .ok (node, rest) →
    ∃ used, word :: ts = used ++ rest ∧ Conditional used node

lemma head_of_test {ts : List Token} {test : Token → Bool}
    (h : (ts.head?.map test).getD false = true) : ∃ t rest, ts = t :: rest ∧ test t = true := by
  cases ts with
  | nil => cases h
  | cons t rest => exact ⟨t, rest, rfl, h⟩

lemma reads_moreItems {item : Parser α} {phrase : List Token → α → Prop} (h : Reads item phrase)
    {bound : Nat} {ts us rest : List Token} {first : α} {others : List α} (hu : phrase us first)
    (hm : moreItems item bound ts = .ok (others, rest)) :
    ∃ used, ts = used ++ rest ∧ Separated phrase (us ++ used) (first :: others) := by
  induction bound generalizing ts us first others with
  | zero => cases hm
  | succ bound ih =>
    simp only [moreItems, nextSymbol_bind] at hm
    split at hm
    · rename_i hc
      obtain ⟨comma, ts, rfl, hcomma⟩ := head_of_test hc
      simp only [advance_bind_cons, bind_eq_ok] at hm
      obtain ⟨second, mid, hs, others', mid', ho, he⟩ := hm
      cases he
      obtain ⟨vs, rfl, hv⟩ := h _ _ _ hs
      obtain ⟨used, rfl, hsep⟩ := ih hv ho
      exact ⟨comma :: (vs ++ used), by simp, by simpa using .more hu hcomma hsep⟩
    · cases hm
      exact ⟨[], rfl, by simpa using .one hu⟩

lemma reads_items {item : Parser α} {phrase : List Token → α → Prop} (h : Reads item phrase)
    {close : String} {complaint : Complaint} {ts rest : List Token} {found : List α}
    (hi : items item close complaint ts = .ok (found, rest)) :
    ∃ used closing, ts = used ++ closing :: rest ∧ closing.isSymbol close = true ∧
      ((used = [] ∧ found = []) ∨ Separated phrase used found) := by
  simp only [items, nextSymbol_bind] at hi
  split at hi
  · rename_i hc
    obtain ⟨closing, ts, rfl, hclosing⟩ := head_of_test hc
    cases hi
    exact ⟨[], closing, rfl, hclosing, .inl ⟨rfl, rfl⟩⟩
  · simp only [bind_eq_ok, rounds_bind, expectSymbol_eq_ok] at hi
    obtain ⟨first, mid, hf, others, mid', ho, closing, rest', ⟨rfl, hclosing⟩, he⟩ := hi
    cases he
    obtain ⟨us, rfl, hu⟩ := h _ _ _ hf
    obtain ⟨used, rfl, hsep⟩ := reads_moreItems h hu ho
    exact ⟨us ++ used, closing, by simp, hclosing, .inr hsep⟩

lemma items_of_separated {ts : List Token} {nodes : List Node}
    (h : Separated (Expression .assignment) ts nodes) : Items ts nodes ∧ nodes ≠ [] := by
  induction h with
  | one hp => exact ⟨.one hp, by simp⟩
  | more hp hc _ ih => exact ⟨.more hp hc ih.1 ih.2, by simp⟩

inductive SpellsEntry : List Token → String × Node → Prop
  | entry {key colon : Token} {ts value} : key.isMapKey → colon.isSymbol ":" →
      Expression .assignment ts value → SpellsEntry (key :: colon :: ts) (key.value, value)

lemma entries_of_separated {ts : List Token} {entries : List (String × Node)}
    (h : Separated SpellsEntry ts entries) : Entries ts entries ∧ entries ≠ [] := by
  induction h with
  | one hp =>
    obtain ⟨hk, hc, hv⟩ := hp
    exact ⟨.one hk hc hv, by simp⟩
  | more hp hcomma _ ih =>
    obtain ⟨hk, hc, hv⟩ := hp
    exact ⟨.more hk hc hv hcomma ih.1 ih.2, by simp⟩

lemma reads_ascription : Reads ascription Ascription := by
  intro ts type rest h
  simp only [ascription, nextSymbol_bind] at h
  split at h
  · rename_i hc
    obtain ⟨colon, ts, rfl, hcolon⟩ := head_of_test hc
    simp only [advance_bind_cons, bind_eq_ok, expectIdentifier_eq_ok] at h
    obtain ⟨_, mid, ⟨name, rfl, hname, rfl⟩, he⟩ := h
    cases he
    exact ⟨[colon, name], rfl, .type hcolon hname⟩
  · cases h
    exact ⟨[], rfl, .nothing⟩

lemma reads_moreParameters {bound : Nat} {ts rest : List Token} {found all : List Parameter}
    (hd : DistinctNames found) (h : moreParameters bound found ts = .ok (all, rest)) :
    ∃ used more, ts = used ++ rest ∧ all = found ++ more ∧ DistinctNames all ∧
      Separated SpellsParameter used more := by
  induction bound generalizing ts found with
  | zero => cases h
  | succ bound ih =>
    simp only [moreParameters, bind_eq_ok, expectIdentifier_eq_ok] at h
    obtain ⟨_, mid, ⟨name, rfl, hname, rfl⟩, type, mid', ht, h⟩ := h
    obtain ⟨us, rfl, hu⟩ := reads_ascription _ _ _ ht
    have hp : SpellsParameter (name :: us) ⟨name.value, type⟩ := .parameter hname hu
    split at h
    · cases h
    · rename_i hnew
      have hd' : DistinctNames (found ++ [⟨name.value, type⟩]) := by
        unfold DistinctNames at hd ⊢
        simp only [List.any_eq_true, decide_eq_true_eq, not_exists, not_and] at hnew
        rw [List.map_append, List.nodup_append]
        refine ⟨hd, by simp, ?_⟩
        rintro x hx y hy rfl
        obtain ⟨p, hpm, rfl⟩ := List.mem_map.1 hx
        simp only [List.map_cons, List.map_nil, List.mem_singleton] at hy
        exact hnew p hpm hy
      simp only [nextSymbol_bind] at h
      split at h
      · rename_i hc
        obtain ⟨comma, ts, rfl, hcomma⟩ := head_of_test hc
        simp only [advance_bind_cons] at h
        obtain ⟨used, more, rfl, rfl, hall, hsep⟩ := ih hd' h
        exact ⟨name :: us ++ comma :: used, ⟨name.value, type⟩ :: more, by simp, by simp, hall,
          .more hp hcomma hsep⟩
      · cases h
        exact ⟨name :: us, [⟨name.value, type⟩], by simp, rfl, hd', .one hp⟩

lemma reads_parameters : Reads parameters Parameters := by
  intro ts found rest h
  simp only [parameters, nextSymbol_bind, bind_eq_ok, expectSymbol_eq_ok] at h
  obtain ⟨opening, mid, ⟨rfl, hopening⟩, h⟩ := h
  split at h
  · rename_i hc
    obtain ⟨closing, ts, rfl, hclosing⟩ := head_of_test hc
    cases h
    exact ⟨[opening, closing], rfl, .nothing hopening hclosing⟩
  · simp only [rounds_bind, bind_eq_ok, expectSymbol_eq_ok] at h
    obtain ⟨all, mid', hm, closing, rest', ⟨rfl, hclosing⟩, he⟩ := h
    cases he
    have hnil : DistinctNames [] := List.nodup_nil
    obtain ⟨used, more, rfl, rfl, hd, hsep⟩ := reads_moreParameters hnil hm
    exact ⟨opening :: (used ++ [closing]), by simp, .some hopening hsep hd hclosing⟩

lemma statements_separators {ts : List Token} {nodes : List Node}
    (h : ∀ t ∈ ts, t.isSymbol ";" = true) {us : List Token} (hu : Statements us nodes) :
    Statements (ts ++ us) nodes := by
  induction ts with
  | nil => exact hu
  | cons t ts ih =>
    exact .separator (h t (by simp)) (ih fun u hm => h u (by simp [hm]))

lemma statements_skipped (ts : List Token) {us rest : List Token} {nodes : List Node}
    (hd : ts.dropWhile (Token.isSymbol ";") = us ++ rest) (hu : Statements us nodes) :
    ∃ used, ts = used ++ rest ∧ Statements used nodes := by
  refine ⟨ts.takeWhile (Token.isSymbol ";") ++ us, ?_, statements_separators ?_ hu⟩
  · rw [List.append_assoc, ← hd, List.takeWhile_append_dropWhile]
  · intro t ht
    exact List.mem_takeWhile_imp ht

lemma reads_blockStatements {statement : Parser Node} (hs : Reads statement Statement)
    {opening : Token} {bound : Nat} {ts rest : List Token} {nodes : List Node}
    (h : blockStatements statement opening bound ts = .ok (nodes, rest)) :
    ∃ used closing, ts = used ++ closing :: rest ∧ closing.isSymbol "\x7d" = true ∧
      Statements used nodes := by
  induction bound generalizing ts nodes with
  | zero => cases h
  | succ bound ih =>
    simp only [blockStatements, nextSymbol_bind] at h
    split at h
    · rename_i hc
      obtain ⟨closing, ts, rfl, hclosing⟩ := head_of_test hc
      cases h
      exact ⟨[], closing, rfl, hclosing, .nothing⟩
    · simp only [atEnd_bind] at h
      split at h
      · cases h
      · simp only [bind_eq_ok, skipSeparators_bind] at h
        obtain ⟨first, mid, hf, others, mid', ho, he⟩ := h
        cases he
        obtain ⟨us, rfl, hu⟩ := hs _ _ _ hf
        obtain ⟨used, closing, he, hclosing, hst⟩ := ih ho
        obtain ⟨vs, rfl, hv⟩ := statements_skipped mid he hst
        exact ⟨us ++ vs, closing, by simp, hclosing, .statement hu hv⟩

variable {inner : Inner}

lemma reads_block (h : inner.Sound) : Reads (block inner) Block := by
  intro ts node rest hb
  simp only [block, skipSeparators_bind, rounds_bind, bind_eq_ok, expectSymbol_eq_ok] at hb
  obtain ⟨opening, mid, ⟨rfl, hopening⟩, nodes, mid', hn, he⟩ := hb
  cases he
  obtain ⟨us, closing, he, hclosing, hst⟩ := reads_blockStatements h.statement hn
  obtain ⟨used, rfl, hu⟩ := statements_skipped mid he hst
  exact ⟨opening :: (used ++ [closing]), by simp, .block hopening hu hclosing⟩

lemma reads_listLiteral (h : inner.Sound) {opening : Token} (ho : opening.isSymbol "[" = true)
    {ts rest : List Token} {node : Node} (hl : listLiteral inner (opening :: ts) = .ok (node, rest)) :
    ∃ used, opening :: ts = used ++ rest ∧ Expression .primary used node := by
  simp only [listLiteral, advance_bind_cons, bind_eq_ok] at hl
  obtain ⟨elements, mid, hi, he⟩ := hl
  cases he
  obtain ⟨used, closing, rfl, hclosing, hu⟩ := reads_items h.expression hi
  refine ⟨opening :: (used ++ [closing]), by simp, .list ho ?_ hclosing⟩
  rcases hu with ⟨rfl, rfl⟩ | hu
  · exact .nothing
  · exact (items_of_separated hu).1

lemma reads_mapEntry (h : inner.Sound) : Reads (mapEntry inner) SpellsEntry := by
  intro ts entry rest hm
  simp only [mapEntry, bind_eq_ok, expect_eq_ok, expectSymbol_eq_ok] at hm
  obtain ⟨key, mid, ⟨rfl, hkey⟩, colon, mid', ⟨rfl, hcolon⟩, value, mid'', hv, he⟩ := hm
  cases he
  obtain ⟨used, rfl, hu⟩ := h.expression _ _ _ hv
  exact ⟨key :: colon :: used, rfl, .entry hkey hcolon hu⟩

lemma reads_mapLiteral (h : inner.Sound) {opening : Token} (ho : opening.isSymbol "\x7b" = true)
    {ts rest : List Token} {node : Node} (hl : mapLiteral inner (opening :: ts) = .ok (node, rest)) :
    ∃ used, opening :: ts = used ++ rest ∧ Expression .primary used node := by
  simp only [mapLiteral, advance_bind_cons, bind_eq_ok] at hl
  obtain ⟨entries, mid, hi, he⟩ := hl
  cases he
  obtain ⟨used, closing, rfl, hclosing, hu⟩ := reads_items (reads_mapEntry h) hi
  refine ⟨opening :: (used ++ [closing]), by simp, .map ho ?_ hclosing⟩
  rcases hu with ⟨rfl, rfl⟩ | hu
  · exact .nothing
  · exact (entries_of_separated hu).1

lemma reads_functionExpression (h : inner.Sound) {word : Token}
    (hw : word.isKeyword "def" = true) {ts rest : List Token} {node : Node}
    (hf : functionExpression inner (word :: ts) = .ok (node, rest)) :
    ∃ used, word :: ts = used ++ rest ∧ Expression .primary used node := by
  simp only [functionExpression, advance_bind_cons, bind_eq_ok] at hf
  obtain ⟨params, mid, hp, body, mid', hb, he⟩ := hf
  cases he
  obtain ⟨us, rfl, hu⟩ := reads_parameters _ _ _ hp
  obtain ⟨vs, rfl, hv⟩ := reads_block h _ _ _ hb
  exact ⟨word :: (us ++ vs), by simp, .function hw hu hv⟩

lemma isSymbol_of_isOperator {token : Token} {value : String}
    (h : token.isOperator value = true) : token.isSymbol value = true := by
  simp only [Token.isOperator, Bool.and_eq_true, decide_eq_true_eq] at h
  simp [Token.isSymbol, h]

lemma reads_lambda (h : inner.Sound) {word : Token} (hw : word.isKeyword "forge" = true)
    {ts rest : List Token} {node : Node} (hl : lambda inner (word :: ts) = .ok (node, rest)) :
    ∃ used, word :: ts = used ++ rest ∧ Expression .primary used node := by
  simp only [lambda, lambdaBody, next_bind, advance_bind_cons, bind_eq_ok] at hl
  obtain ⟨params, mid, hp, body, mid', hb, he⟩ := hl
  cases he
  obtain ⟨us, rfl, hu⟩ := reads_parameters _ _ _ hp
  split at hb
  · rename_i hc
    obtain ⟨arrow, mid, rfl, harrow⟩ := head_of_test hc
    have harrow := isSymbol_of_isOperator harrow
    simp only [nextSymbol_bind, ahead_bind, advance_bind_cons] at hb
    split at hb
    · obtain ⟨vs, rfl, hv⟩ := reads_block h _ _ _ hb
      exact ⟨word :: (us ++ arrow :: vs), by simp, .lambdaBlock hw hu harrow hv⟩
    · simp only [bind_eq_ok] at hb
      obtain ⟨value, mid', hr, he⟩ := hb
      cases he
      obtain ⟨vs, rfl, hv⟩ := h.expression _ _ _ hr
      exact ⟨word :: (us ++ arrow :: vs), by simp, .lambdaValue hw hu harrow hv⟩
  · simp only [nextSymbol_bind] at hb
    split at hb
    · obtain ⟨vs, rfl, hv⟩ := reads_block h _ _ _ hb
      exact ⟨word :: (us ++ vs), by simp, .lambda hw hu hv⟩
    · cases hb

lemma reads_group (h : inner.Sound) {opening : Token} (ho : opening.isSymbol "(" = true)
    {ts rest : List Token} {node : Node} (hg : group inner (opening :: ts) = .ok (node, rest)) :
    ∃ used, opening :: ts = used ++ rest ∧ Expression .primary used node := by
  simp only [group, advance_bind_cons, bind_eq_ok, expectSymbol_eq_ok] at hg
  obtain ⟨value, mid, hv, closing, mid', ⟨rfl, hclosing⟩, he⟩ := hg
  cases he
  obtain ⟨us, rfl, hu⟩ := h.expression _ _ _ hv
  exact ⟨opening :: (us ++ [closing]), by simp, .group ho hu hclosing⟩

lemma expression_of_atom? {token : Token} {node : Node} (h : atom? token = some node) :
    Expression .primary [token] node := by
  unfold atom? at h
  split at h
  · rename_i hk
    obtain ⟨value, hv, rfl⟩ := Option.map_eq_some_iff.1 h
    exact .number hk hv
  · rename_i hk
    cases h
    exact .string hk
  · rename_i hk
    cases h
    exact .identifier (by simp [Token.isIdentifier, hk])
  · rename_i hk
    split at h
    · rename_i hv
      cases h
      exact .trueWord (by simp [Token.isKeyword, hk, hv])
    · split at h
      · rename_i hv
        cases h
        exact .falseWord (by simp [Token.isKeyword, hk, hv])
      · cases h
  · cases h

lemma reads_primary (h : inner.Sound) : Reads (primary inner) (Expression .primary) := by
  intro ts node rest hp
  simp only [primary, nextAtom?_bind] at hp
  cases hatom : ts.head?.bind atom? with
  | some atom =>
    rw [hatom] at hp
    obtain ⟨token, hhead, hatom⟩ := Option.bind_eq_some_iff.1 hatom
    obtain ⟨ts, rfl⟩ := List.head?_eq_some_iff.1 hhead
    cases hp
    exact ⟨[token], rfl, expression_of_atom? hatom⟩
  | none =>
    rw [hatom] at hp
    simp only [nextKeyword_bind, nextSymbol_bind, ahead_bind, if_apply] at hp
    split at hp
    · rename_i hc
      obtain ⟨word, ts, rfl, hword⟩ := head_of_test hc
      exact reads_functionExpression h hword hp
    · split at hp
      · rename_i hc
        obtain ⟨word, ts, rfl, hword⟩ := head_of_test hc
        exact reads_lambda h hword hp
      · split at hp
        · rename_i hc
          obtain ⟨opening, ts, rfl, hopening⟩ := head_of_test hc
          exact reads_group h hopening hp
        · split at hp
          · rename_i hc
            obtain ⟨opening, ts, rfl, hopening⟩ := head_of_test hc
            exact reads_listLiteral h hopening hp
          · split at hp
            · rename_i hc
              obtain ⟨opening, ts, rfl, hopening⟩ := head_of_test hc
              split at hp
              · exact reads_mapLiteral h hopening hp
              · cases hp
            · cases hp

lemma reads_suffixes (h : inner.Sound) {bound : Nat} {us ts rest : List Token} {operand node : Node}
    (hu : Expression .suffixed us operand) (hs : suffixes inner bound operand ts = .ok (node, rest)) :
    ∃ used, ts = used ++ rest ∧ Expression .suffixed (us ++ used) node := by
  induction bound generalizing us ts operand with
  | zero => cases hs
  | succ bound ih =>
    simp only [suffixes, nextSymbol_bind, if_apply] at hs
    split at hs
    · rename_i hc
      obtain ⟨opening, ts, rfl, hopening⟩ := head_of_test hc
      simp only [advance_bind_cons, bind_eq_ok] at hs
      obtain ⟨arguments, mid, hi, hs⟩ := hs
      obtain ⟨vs, closing, rfl, hclosing, hv⟩ := reads_items h.expression hi
      have hargs : Items vs arguments := by
        rcases hv with ⟨rfl, rfl⟩ | hv
        · exact .nothing
        · exact (items_of_separated hv).1
      obtain ⟨used, rfl, hn⟩ := ih (.call hu hopening hargs hclosing) hs
      exact ⟨opening :: (vs ++ closing :: used), by simp, by simpa using hn⟩
    · split at hs
      · rename_i hc
        obtain ⟨opening, ts, rfl, hopening⟩ := head_of_test hc
        simp only [advance_bind_cons, bind_eq_ok, expectSymbol_eq_ok] at hs
        obtain ⟨key, mid, hk, closing, mid', ⟨rfl, hclosing⟩, hs⟩ := hs
        obtain ⟨vs, rfl, hv⟩ := h.expression _ _ _ hk
        obtain ⟨used, rfl, hn⟩ := ih (.index hu hopening hv hclosing) hs
        exact ⟨opening :: (vs ++ closing :: used), by simp, by simpa using hn⟩
      · cases hs
        exact ⟨[], rfl, by simpa using hu⟩

lemma spellsSign_of_isSign {token : Token} (h : isSign token = true) :
    SpellsSign token (.ofSymbol token.value) := by
  simp only [isSign, Bool.or_eq_true] at h
  have hvalue {symbol : String} (hs : token.isSymbol symbol = true) : token.value = symbol := by
    simp only [Token.isSymbol, Bool.and_eq_true, decide_eq_true_eq] at hs
    exact hs.2
  rcases h with hs | hs
  · rw [hvalue hs]
    exact ⟨.inr rfl, hs⟩
  · rw [hvalue hs]
    exact ⟨.inl rfl, hs⟩

lemma expression_foldr_withSign {signs us : List Token} {operand : Node}
    (hs : ∀ sign ∈ signs, isSign sign = true) (hu : Expression .unary us operand) :
    Expression .unary (signs ++ us) (signs.foldr withSign operand) := by
  induction signs with
  | nil => exact hu
  | cons sign signs ih =>
    exact .unary (spellsSign_of_isSign (hs sign (by simp)))
      (ih fun other hm => hs other (by simp [hm]))

lemma reads_unary (h : inner.Sound) : Reads (unary inner) (Expression .unary) := by
  intro ts node rest hu
  simp only [unary, takeWhile_bind, rounds_bind, bind_eq_ok] at hu
  obtain ⟨operand, mid, hp, operand', mid', hs, he⟩ := hu
  cases he
  obtain ⟨us, hus, hu⟩ := reads_primary h _ _ _ hp
  obtain ⟨vs, rfl, hv⟩ := reads_suffixes h (.tighter hu) hs
  refine ⟨ts.takeWhile isSign ++ (us ++ vs), ?_, expression_foldr_withSign ?_ (.tighter hv)⟩
  · rw [List.append_assoc, List.append_assoc, ← hus, List.takeWhile_append_dropWhile]
  · intro sign hm
    exact List.mem_takeWhile_imp hm

def Recognises (operatorOf : Token → Option BinaryOperator) (level : Level) : Prop :=
  ∀ token operator, operatorOf token = some operator →
    operator ∈ level.operators ∧ SpellsOperator token operator

lemma recognises_symbolOf (level : Level) : Recognises (symbolOf level.operators) level := by
  intro token operator h
  have hs : token.isSymbol operator.symbol = true := by
    simpa using List.find?_some h
  exact ⟨List.mem_of_find?_eq_some h, .inl hs⟩

lemma recognises_conjunctionOf : Recognises conjunctionOf .conjunction := by
  intro token operator h
  simp only [conjunctionOf, Bool.or_eq_true] at h
  split at h
  · rename_i hc
    cases h
    refine ⟨by simp [Level.operators], ?_⟩
    rcases hc with hs | hk
    · exact .inl (isSymbol_of_isOperator hs)
    · exact .inr (.inr ⟨rfl, hk⟩)
  · cases h

lemma recognises_disjunctionOf : Recognises disjunctionOf .disjunction := by
  intro token operator h
  simp only [disjunctionOf, Bool.or_eq_true] at h
  split at h
  · rename_i hc
    cases h
    refine ⟨by simp [Level.operators], ?_⟩
    rcases hc with hs | hk
    · exact .inl (isSymbol_of_isOperator hs)
    · exact .inr (.inl ⟨rfl, hk⟩)
  · cases h

lemma reads_chain {operand : Parser Node} {operatorOf : Token → Option BinaryOperator}
    {level : Level} (ho : Reads operand (Expression level.tighter))
    (hop : Recognises operatorOf level) {bound : Nat} {us ts rest : List Token} {left node : Node}
    (hu : Expression level us left) (hc : chain operand operatorOf bound left ts = .ok (node, rest)) :
    ∃ used, ts = used ++ rest ∧ Expression level (us ++ used) node := by
  induction bound generalizing us ts left with
  | zero => cases hc
  | succ bound ih =>
    simp only [chain, nextOperator?_bind] at hc
    cases hhead : ts.head?.bind operatorOf with
    | some operator =>
      rw [hhead] at hc
      obtain ⟨token, hhead, hoperator⟩ := Option.bind_eq_some_iff.1 hhead
      obtain ⟨ts, rfl⟩ := List.head?_eq_some_iff.1 hhead
      simp only [advance_bind_cons, bind_eq_ok] at hc
      obtain ⟨right, mid, hr, hc⟩ := hc
      obtain ⟨vs, rfl, hv⟩ := ho _ _ _ hr
      obtain ⟨hm, hspell⟩ := hop _ _ hoperator
      obtain ⟨used, rfl, hn⟩ := ih (.binary hu hm hspell hv) hc
      exact ⟨token :: (vs ++ used), by simp, by simpa using hn⟩
    | none =>
      rw [hhead] at hc
      cases hc
      exact ⟨[], rfl, by simpa using hu⟩

lemma reads_level {operand : Parser Node} {operatorOf : Token → Option BinaryOperator}
    {level : Level} (ho : Reads operand (Expression level.tighter))
    (hop : Recognises operatorOf level) :
    Reads (Parser.level operatorOf operand) (Expression level) := by
  intro ts node rest h
  simp only [Parser.level, rounds_bind, bind_eq_ok] at h
  obtain ⟨left, mid, hl, hc⟩ := h
  obtain ⟨us, rfl, hu⟩ := ho _ _ _ hl
  obtain ⟨vs, rfl, hv⟩ := reads_chain ho hop (.tighter hu) hc
  exact ⟨us ++ vs, by simp, hv⟩

lemma reads_disjunction (h : inner.Sound) :
    Reads (disjunction inner) (Expression .disjunction) := by
  have hm : Reads (multiplicative inner) (Expression .multiplicative) :=
    reads_level (reads_unary h) (recognises_symbolOf .multiplicative)
  have ha : Reads (additive inner) (Expression .additive) :=
    reads_level hm (recognises_symbolOf .additive)
  have hr : Reads (relational inner) (Expression .relational) :=
    reads_level ha (recognises_symbolOf .relational)
  have he : Reads (equality inner) (Expression .equality) :=
    reads_level hr (recognises_symbolOf .equality)
  have hc : Reads (conjunction inner) (Expression .conjunction) :=
    reads_level he recognises_conjunctionOf
  exact reads_level hc recognises_disjunctionOf

lemma isTarget_of_isTarget {node : Node} (h : isTarget node = true) : node.IsTarget := by
  cases node with
  | identifier | index => trivial
  | _ => cases h

lemma reads_assignment (h : inner.Sound) : Reads (assignment inner) (Expression .assignment) := by
  intro ts node rest ha
  simp only [assignment, next_bind, bind_eq_ok] at ha
  obtain ⟨target, mid, ht, ha⟩ := ha
  obtain ⟨us, rfl, hu⟩ := reads_disjunction h _ _ _ ht
  split at ha
  · rename_i hc
    obtain ⟨equals, mid, rfl, hequals⟩ := head_of_test hc
    simp only [advance_bind_cons] at ha
    split at ha
    · rename_i htarget
      simp only [bind_eq_ok] at ha
      obtain ⟨value, mid', hr, he⟩ := ha
      cases he
      obtain ⟨vs, rfl, hv⟩ := h.expression _ _ _ hr
      exact ⟨us ++ equals :: vs, by simp, .assignment hu (isTarget_of_isTarget htarget)
        (isSymbol_of_isOperator hequals) hv⟩
    · cases ha
  · cases ha
    exact ⟨us, rfl, .tighter hu⟩

end Klang.Parser

import Klang.Proofs.Phrases.Reading

/-! The tokens of every phrase are read again as the same tree, whatever stands behind them that the
phrase allows. -/

namespace Klang

open Klang.Parser

namespace Phrase

lemma Block.first {p : Phrase} {node : Node} (h : Block p node) :
    ∃ brace us, p.tokens = brace :: us ∧ brace.isSymbol "\x7b" = true := by
  cases h with
  | block ho _ _ => exact ⟨_, _, by simp; rfl, ho⟩

lemma Block.unmapped_append {p : Phrase} {node : Node} (h : Block p node)
    (hm : Token.looksLikeMap p.tokens = false) (rest : List Token) :
    Token.looksLikeMap (p.tokens ++ rest) = false := by
  cases h with
  | @block opening q nodes closing span ho _ hc =>
    refine Bool.eq_false_iff.2 fun hmap => ?_
    have hkind : closing.isMapKey = false ∧ closing.isDelimiter ":" = false := by
      simp only [Token.isSymbol, Bool.and_eq_true, Bool.or_eq_true, decide_eq_true_eq] at hc
      rcases hc.1 with hkind | hkind <;> simp [Token.isMapKey, Token.isDelimiter, hkind, hc.2]
    simp only [tokens_form, tokensOf_cons, tokens_words, tokensOf_nil, List.append_nil,
      List.cons_append, List.nil_append, List.append_assoc] at hm hmap
    rw [looksLikeMap_braced hmap hkind.1 hkind.2] at hm
    cases hm

lemma Conditional.first {f : Follow} {p : Phrase} {node : Node} (h : Conditional f p node) :
    ∃ word us, p.tokens = word :: us ∧ word.isKeyword "if" = true := by
  cases h with
  | conditional hw _ _ _ => exact ⟨_, _, by simp; rfl, hw⟩

lemma Statement.begins {f : Follow} {p : Phrase} {node : Node} (h : Statement f p node) :
    (∃ t us, p.tokens = t :: us ∧
      ((∃ word, t.isKeyword word = true) ∨ t.isSymbol "\x7b" = true)) ∨ Opening p.tokens := by
  cases h with
  | declaration hw => exact .inl ⟨_, _, by simp; rfl, .inl (hw.elim (⟨_, ·⟩) (⟨_, ·⟩))⟩
  | definition hw | whileLoop hw | returnNothing hw | returnValue hw =>
    exact .inl ⟨_, _, by simp; rfl, .inl ⟨_, hw⟩⟩
  | conditional hc =>
    obtain ⟨word, us, hp, hw⟩ := hc.first
    exact .inl ⟨word, us, hp, .inl ⟨_, hw⟩⟩
  | forLoop hw =>
    cases hw with
    | bare hw | parenthesized hw => exact .inl ⟨_, _, by simp; rfl, .inl ⟨_, hw⟩⟩
  | block hb =>
    obtain ⟨brace, us, hp, hbrace⟩ := hb.first
    exact .inl ⟨brace, us, hp, .inr hbrace⟩
  | expression he => exact .inr he.opening

lemma Statement.first {f : Follow} {p : Phrase} {node : Node} (h : Statement f p node) :
    ∃ t us, p.tokens = t :: us ∧ t.isSymbol ";" = false ∧ t.isSymbol "\x7d" = false ∧
      t.isDelimiter ":" = false := by
  rcases h.begins with ⟨t, us, hp, ⟨word, hw⟩ | hb⟩ | ho
  · refine ⟨t, us, hp, not_isSymbol_of_isKeyword hw _, not_isSymbol_of_isKeyword hw _, ?_⟩
    simp only [Token.isKeyword, Bool.and_eq_true, decide_eq_true_eq] at hw
    simp [Token.isDelimiter, hw.1]
  · refine ⟨t, us, hp, not_isSymbol_of_isSymbol hb (by decide),
      not_isSymbol_of_isSymbol hb (by decide), ?_⟩
    simp [Token.isDelimiter, value_of_isSymbol hb]
  · obtain ⟨t, us, hp, hsymbol, -⟩ := ho.first
    have hnone {value : String} (hv : value ∉ ["!", "-", "(", "[", "\x7b"]) :
        t.isSymbol value = false := Bool.eq_false_iff.2 fun ht => hv (hsymbol value ht)
    refine ⟨t, us, hp, hnone (by decide), hnone (by decide), ?_⟩
    have hcolon := hnone (show ":" ∉ _ by decide)
    simp only [Token.isSymbol, Bool.and_eq_false_iff, Bool.or_eq_false_iff] at hcolon
    rw [Token.isDelimiter, Bool.and_eq_false_iff]
    exact hcolon.imp_left And.right

lemma Statement.unmapped {f : Follow} {p : Phrase} {node : Node} (h : Statement f p node)
    (brace : Token) {us : List Token} (hus : ∀ t ∈ us.head?, t.isDelimiter ":" = false) :
    Token.looksLikeMap (brace :: (p.tokens ++ us)) = false := by
  rcases h.begins with ⟨t, vs, hp, ht⟩ | ho
  · obtain ⟨t', vs', hp', -, hclose, -⟩ := h.first
    obtain ⟨rfl, rfl⟩ := List.cons.inj (hp.symm.trans hp')
    have hkey : t.isMapKey = false := by
      rcases ht with ⟨word, hw⟩ | hb
      · simp only [Token.isKeyword, Bool.and_eq_true, decide_eq_true_eq] at hw
        simp [Token.isMapKey, hw.1]
      · simp only [Token.isSymbol, Bool.and_eq_true, Bool.or_eq_true, decide_eq_true_eq] at hb
        rcases hb.1 with hkind | hkind <;> simp [Token.isMapKey, hkind]
    rw [hp]
    exact looksLikeMap_cons_of_not_isMapKey hclose hkey brace _
  · cases us with
    | nil =>
      rw [List.append_nil]
      exact ho.looksLikeMap_cons_false brace
    | cons u us => exact (ho.append (hus u rfl) us).looksLikeMap_cons_false brace

lemma Statements.head {p : Phrase} {nodes : List Node} (h : Statements p nodes) {closing : Token}
    (hc : closing.isDelimiter ":" = false) (rest : List Token) :
    ∀ t ∈ (p.tokens ++ closing :: rest).head?, t.isDelimiter ":" = false := by
  cases h with
  | nothing =>
    rintro t ⟨⟩
    exact hc
  | separator hs _ =>
    rintro t ⟨⟩
    simp [Token.isDelimiter, value_of_isSymbol hs]
  | statement hp _ =>
    obtain ⟨t, us, ht, -, -, hcolon⟩ := hp.first
    rw [tokens_form, tokensOf_cons, ht]
    rintro u ⟨⟩
    exact hcolon

lemma Block.unmapped {p : Phrase} {node : Node} (h : Block p node) (hp : p.tokens.length ≠ 2) :
    Token.looksLikeMap p.tokens = false := by
  cases h with
  | @block opening q nodes closing span ho hs hc =>
    have hcolon : closing.isDelimiter ":" = false := by
      simp [Token.isDelimiter, value_of_isSymbol hc]
    simp only [tokens_form, tokensOf_cons, tokens_words, tokensOf_nil, List.append_nil,
      List.cons_append, List.nil_append]
    cases hs with
    | nothing => exact absurd rfl hp
    | @separator semicolon q nodes hsemicolon _ =>
      have hkey : semicolon.isMapKey = false := by
        simp only [Token.isSymbol, Bool.and_eq_true, Bool.or_eq_true, decide_eq_true_eq] at hsemicolon
        rcases hsemicolon.1 with hkind | hkind <;> simp [Token.isMapKey, hkind]
      exact looksLikeMap_cons_of_not_isMapKey (not_isSymbol_of_isSymbol hsemicolon (by decide)) hkey
        opening _
    | statement hstatement hq =>
      simp only [tokens_form, tokensOf_cons, tokensOf_nil, List.append_nil, List.append_assoc]
      exact hstatement.unmapped opening (hq.head hcolon [])

lemma Block.follow_append {p : Phrase} {node : Node} (h : Block p node) (rest : List Token) :
    (follow (p.tokens ++ rest)).continues = false := by
  obtain ⟨brace, us, hp, hbrace⟩ := h.first
  rw [hp]
  exact follow_of_isSymbol hbrace (by simp) _

lemma LoopWords.follow_append {words behind : List Token} {name : String}
    (h : LoopWords words behind name) {p : Phrase} {node : Node} (hp : Block p node)
    (rest : List Token) : (follow (behind ++ (p.tokens ++ rest))).continues = false := by
  cases h with
  | bare => exact hp.follow_append rest
  | parenthesized _ _ _ _ hc => exact follow_of_isSymbol hc (by simp) _

lemma LoopWords.length_pos {words behind : List Token} {name : String}
    (h : LoopWords words behind name) : 0 < words.length := by
  cases h <;> simp

lemma follow_append (ts : List Token) {rest : List Token} (h : follow rest = follow []) :
    follow (ts ++ rest) = follow ts := by
  cases ts with
  | nil => exact h
  | cons t ts => rfl

lemma tighter_ne_assignment (level : Level) : level.tighter ≠ .assignment := by
  cases level <;> decide

lemma isItem_of_opening {item : Parser Node} {ts : List Token} {node : Node} (ho : Opening ts)
    (h : ∀ rest, (follow rest).continues = false → item (ts ++ rest) = .ok (node, rest)) :
    IsItem item ts node := by
  refine ⟨fun close hc rest => ?_, h⟩
  rw [ho.head?_append]
  refine ho.nextSymbol_false fun hv => ?_
  simp only [List.mem_cons, List.not_mem_nil, or_false] at hc
  rcases hc with rfl | rfl | rfl <;> simp at hv

lemma isItem_mapEntry {inner : Inner} {key colon : Token} {ts : List Token} {node : Node}
    (hk : key.isMapKey = true) (hc : colon.isSymbol ":" = true)
    (h : ∀ rest, (follow rest).continues = false →
      inner.expression (ts ++ rest) = .ok (node, rest)) :
    IsItem (mapEntry inner) (key :: colon :: ts) (key.value, node) := by
  refine ⟨fun close _ rest => ?_, fun rest hrest => mapEntry_reads hk hc (h rest hrest)⟩
  simp only [Token.isMapKey, Bool.or_eq_true, decide_eq_true_eq] at hk
  rcases hk with hk | hk <;> simp [Token.isSymbol, hk]

def AreItems {α : Type} (item : Parser α) (ts : List Token) (as : List α) : Prop :=
  (ts = [] ∧ as = []) ∨ Grammar.Separated (IsItem item) ts as

lemma AreItems.items {α : Type} {item : Parser α} {ts : List Token} {as : List α}
    (h : AreItems item ts as) {close : String} (hc : close ∈ [")", "]", "\x7d"]) {t : Token}
    (ht : t.isSymbol close = true) (complaint : Complaint) (rest : List Token) :
    items item close complaint (ts ++ t :: rest) = .ok (as, rest) := by
  rcases h with ⟨rfl, rfl⟩ | h
  · exact items_of_nothing complaint ht rest
  · exact items_of_isItem complaint h hc ht rest

lemma AreItems.more {α : Type} {item : Parser α} {ts us : List Token} {comma : Token} {a : α}
    {as : List α} (h : AreItems item us as) (hi : IsItem item ts a)
    (hc : comma.isSymbol "," = true) (hne : as ≠ []) :
    AreItems item (ts ++ comma :: us) (a :: as) :=
  .inr (.more hi hc (h.resolve_left fun hnothing => hne hnothing.2))

abbrev EntriesAlike (entries entries' : List (String × Node)) : Prop :=
  entries.map (fun e => (e.1, e.2.respan none)) = entries'.map fun e => (e.1, e.2.respan none)

mutual

lemma Expression.reread {p : Phrase} {node : Node} (h : Expression p node) {depth : Nat}
    (hd : p.tokens.length < depth) : ∃ node' : Node, node'.Alike node ∧ ∀ rest,
      (follow rest).continues = false →
        (descend depth).expression (p.tokens ++ rest) = .ok (node', rest) := by
  obtain ⟨depth, rfl⟩ : ∃ d, depth = d + 1 := ⟨depth - 1, by omega⟩
  match h with
  | .operand ho =>
    obtain ⟨node', halike, hreads⟩ := ho.reread (show _ ≤ depth by omega) (by decide)
    exact ⟨node', halike, fun rest => assignment_of_operand hreads⟩
  | .assignment ht htarget he hv =>
    simp at hd
    obtain ⟨target, htalike, htreads⟩ := ht.reread (show _ ≤ depth by omega) (by decide)
    obtain ⟨value, hvalike, hvreads⟩ := hv.reread (show _ < depth by omega)
    refine ⟨.assignment target.span target value, ?_, fun rest hrest => ?_⟩
    · simpa [Node.Alike, Node.respan] using ⟨htalike, hvalike⟩
    · have hread := assignment_of_target htreads (isTarget_of_alike htalike htarget) he
        (hvreads rest hrest)
      simpa [descend, above] using hread

lemma Operand.reread {closed : Bool} {level : Level} {p : Phrase} {node : Node}
    (h : Operand closed level p node) {depth : Nat} (hd : p.tokens.length ≤ depth)
    (hl : level ≠ .assignment) :
    ∃ node' : Node, node'.Alike node ∧ ReadsBack (descend depth) closed level p.tokens node' := by
  match h with
  | .tighter ht =>
    obtain ⟨node', halike, hreads⟩ := ht.reread hd (tighter_ne_assignment level)
    refine ⟨node', halike, hreads.of_tighter hl ?_ ht.opening⟩
    rintro rfl
    exact ht.unsigned (by decide)
  | .binary hp ho hq =>
    simp at hd
    obtain ⟨left, hleft, hreads⟩ := hp.reread (show _ ≤ depth by omega) hl
    obtain ⟨right, hright, hreads'⟩ :=
      hq.reread (show _ ≤ depth by omega) (tighter_ne_assignment level)
    refine ⟨.binary left.span _ left right, ?_, by simpa using hreads.binary ho hreads'⟩
    simpa [Node.Alike, Node.respan] using ⟨hleft, hright⟩
  | .unary hs hp =>
    simp at hd
    obtain ⟨operand, halike, hreads⟩ := hp.reread (show _ ≤ depth by omega) (by decide)
    refine ⟨withSign _ operand, ?_, by simpa using hreads.unary hs⟩
    simpa [Node.Alike, Node.respan, withSign] using halike
  | .call hp ho hi hc =>
    simp at hd
    obtain ⟨callee, hcallee, hreads⟩ := hp.reread (show _ ≤ depth by omega) (by decide)
    obtain ⟨arguments, harguments, hitems⟩ := hi.reread (show _ < depth by omega)
    refine ⟨.call _ callee arguments, ?_,
      by simpa using hreads.call ho (hitems.items (by simp) hc .argumentsClose)⟩
    simpa [Node.Alike, Node.respan] using ⟨hcallee, harguments⟩
  | .index hp ho hk hc =>
    simp at hd
    obtain ⟨target, htarget, hreads⟩ := hp.reread (show _ ≤ depth by omega) (by decide)
    obtain ⟨key, hkey, hkreads⟩ := hk.reread (show _ < depth by omega)
    have hkread (rest : List Token) := hkreads _ (follow_of_isSymbol hc (by simp) rest)
    refine ⟨.index _ target key, ?_, by simpa using hreads.index ho hkread hc⟩
    simpa [Node.Alike, Node.respan] using ⟨htarget, hkey⟩
  | .atom ha =>
    refine ⟨node, rfl, .of_primary fun rest _ => ?_⟩
    simp only [primary, tokens_words, List.cons_append, List.nil_append, nextAtom?_bind,
      List.head?_cons, Option.bind_some, ha, advance_bind_cons, pure_apply]
  | .group ho hp hc =>
    simp at hd
    obtain ⟨node', halike, hreads⟩ := hp.reread (show _ < depth by omega)
    refine ⟨node', halike, .of_primary fun rest _ => ?_⟩
    simpa using group_reads ho (fun rest => hreads _ (follow_of_isSymbol hc (by simp) rest)) hc rest
  | @Operand.list _ opening _ _ _ _ ho hi hc =>
    simp at hd
    obtain ⟨elements, helements, hitems⟩ := hi.reread (show _ < depth by omega)
    refine ⟨.list opening.span elements, ?_, .of_primary fun rest _ => ?_⟩
    · simpa [Node.Alike, Node.respan] using helements
    · simpa using list_reads ho (hitems.items (by simp) hc .listClose rest)
  | @Operand.map _ opening _ _ _ _ ho hi hc hmap =>
    simp at hd
    obtain ⟨entries, hentries, hitems⟩ := hi.reread (show _ < depth by omega)
    refine ⟨.map opening.span entries, ?_, .of_primary fun rest _ => ?_⟩
    · simpa [Node.Alike, Node.respan] using hentries
    · have hlooks := looksLikeMap_append hmap rest
      rw [List.cons_append, List.append_assoc] at hlooks
      simpa using map_reads ho hlooks (hitems.items (by simp) hc .mapClose rest)
  | @Operand.function _ front ts parameters _ _ _ _ hw hp hb hmap =>
    simp at hd
    obtain ⟨body, hbody, hreads⟩ := hb.reread (show _ ≤ depth by omega)
    refine ⟨.function (front.head?.map (·.span)) parameters body, ?_, .of_primary fun rest _ => ?_⟩
    · simpa [Node.Alike, Node.respan] using hbody
    · have hread := function_reads hw hp hb.first (fun hne => hb.unmapped_append (hmap hne) rest)
        (hreads rest)
      simpa using hread
  | @Operand.lambdaValue word _ parameters _ _ _ _ _ _ hw hp ha hv =>
    simp at hd
    obtain ⟨value, hvalue, hreads⟩ := hv.reread (show _ < depth by omega)
    refine ⟨.function word.span parameters
      (.block value.span [.returnStatement value.span (some value)]), ?_,
      .of_primary fun rest hc => ?_⟩
    · simpa [Node.Alike, Node.respan] using hvalue
    · simpa using lambdaValue_reads hw hp ha hv.opening (hreads rest (follow_continues.2 (hc rfl)))

lemma Items.reread {p : Phrase} {nodes : List Node} (h : Items p nodes) {depth : Nat}
    (hd : p.tokens.length < depth) : ∃ nodes', Node.EachAlike nodes' nodes ∧
      AreItems (descend depth).expression p.tokens nodes' := by
  match h with
  | .nothing => exact ⟨[], rfl, .inl ⟨tokens_words [], rfl⟩⟩
  | .one hp =>
    simp at hd
    obtain ⟨node', halike, hreads⟩ := hp.reread hd
    refine ⟨[node'], ?_, .inr ?_⟩
    · rw [Node.EachAlike, List.map_singleton, List.map_singleton, halike]
    · simpa using .one (isItem_of_opening hp.opening hreads)
  | .more hp hc hq hne =>
    simp at hd
    obtain ⟨node', halike, hreads⟩ := hp.reread (show _ < depth by omega)
    obtain ⟨nodes', heach, hitems⟩ := hq.reread (show _ < depth by omega)
    have hne' : nodes' ≠ [] := by
      rintro rfl
      simp [Node.EachAlike, hne] at heach
    refine ⟨node' :: nodes', ?_, ?_⟩
    · rw [Node.EachAlike, List.map_cons, List.map_cons, halike, heach]
    · simpa using hitems.more (isItem_of_opening hp.opening hreads) hc hne'

lemma Entries.reread {p : Phrase} {entries : List (String × Node)} (h : Entries p entries)
    {depth : Nat} (hd : p.tokens.length < depth) : ∃ entries', EntriesAlike entries' entries ∧
      AreItems (mapEntry (descend depth)) p.tokens entries' := by
  match h with
  | .nothing => exact ⟨[], rfl, .inl ⟨tokens_words [], rfl⟩⟩
  | @Entries.one key _ _ _ hk hc hp =>
    simp at hd
    obtain ⟨value', halike, hreads⟩ := hp.reread (show _ < depth by omega)
    refine ⟨[(key.value, value')], ?_, .inr ?_⟩
    · rw [EntriesAlike, List.map_singleton, List.map_singleton, halike]
    · simpa using .one (isItem_mapEntry hk hc hreads)
  | @Entries.more key _ _ _ _ _ _ hk hc hp hcomma hq hne =>
    simp at hd
    obtain ⟨value', halike, hreads⟩ := hp.reread (show _ < depth by omega)
    obtain ⟨entries', heach, hitems⟩ := hq.reread (show _ < depth by omega)
    have hne' : entries' ≠ [] := by
      rintro rfl
      simp [EntriesAlike, hne] at heach
    refine ⟨(key.value, value') :: entries', ?_, ?_⟩
    · rw [EntriesAlike, List.map_cons, List.map_cons, halike, heach]
    · simpa using hitems.more (isItem_mapEntry hk hc hreads) hcomma hne'

lemma Block.reread {p : Phrase} {node : Node} (h : Block p node) {depth : Nat}
    (hd : p.tokens.length ≤ depth) : ∃ node' : Node, node'.Alike node ∧ ∀ rest,
      block (descend depth) (p.tokens ++ rest) = .ok (node', rest) := by
  match h with
  | @Block.block opening _ _ closing _ ho hs hc =>
    simp at hd
    obtain ⟨nodes', heach, hrun⟩ := hs.reread (show _ < depth by omega)
    refine ⟨.block opening.span nodes', ?_, fun rest => ?_⟩
    · simpa [Node.Alike, Node.respan] using heach
    · have hseparator := not_isSymbol_of_isSymbol hc (show "\x7d" ≠ ";" by decide)
      have hread := block_of_run ho hc
        (hrun (closing :: rest) (follow_closing hc rest) (by simpa using hseparator))
      simpa using hread

lemma Statements.reread {p : Phrase} {nodes : List Node} (h : Statements p nodes) {depth : Nat}
    (hd : p.tokens.length < depth) : ∃ nodes', Node.EachAlike nodes' nodes ∧
      ∀ rest, follow rest = follow [] → (∀ t ∈ rest.head?, t.isSymbol ";" = false) →
        Run (descend depth).statement ((p.tokens ++ rest).dropWhile (Token.isSymbol ";")) nodes'
          rest := by
  match h with
  | .nothing =>
    refine ⟨[], rfl, fun rest _ hrest => ?_⟩
    have hnone : rest.dropWhile (Token.isSymbol ";") = rest := by
      cases rest with
      | nil => rfl
      | cons t ts => exact List.dropWhile_cons_of_neg (by simp [hrest t rfl])
    rw [tokens_words, List.nil_append, hnone]
    exact .done
  | .separator hs hp =>
    simp at hd
    obtain ⟨nodes', heach, hrun⟩ := hp.reread (show _ < depth by omega)
    refine ⟨nodes', heach, fun rest hfollow hrest => ?_⟩
    simpa [List.dropWhile_cons_of_pos hs] using hrun rest hfollow hrest
  | @Statements.statement p _ q _ hp hq =>
    simp at hd
    obtain ⟨node', halike, hreads⟩ := hp.reread (show _ < depth by omega)
    obtain ⟨nodes', heach, hrun⟩ := hq.reread (show _ < depth by
      have := hp.first
      omega)
    refine ⟨node' :: nodes', ?_, fun rest hfollow hrest => ?_⟩
    · rw [Node.EachAlike, List.map_cons, List.map_cons, halike, heach]
    · obtain ⟨t, us, ht, hseparator, hclose, -⟩ := hp.first
      have hread := hreads (q.tokens ++ rest) (follow_append q.tokens hfollow)
      rw [ht, List.cons_append] at hread
      have hstep := Run.step hclose hread (by simp) (hrun rest hfollow hrest)
      simpa [ht, List.dropWhile_cons_of_neg, hseparator] using hstep

lemma Statement.reread {f : Follow} {p : Phrase} {node : Node} (h : Statement f p node)
    {depth : Nat} (hd : p.tokens.length < depth) : ∃ node' : Node, node'.Alike node ∧
      ∀ rest, follow rest = f →
        (descend depth).statement (p.tokens ++ rest) = .ok (node', rest) := by
  obtain ⟨depth, rfl⟩ : ∃ d, depth = d + 1 := ⟨depth - 1, by omega⟩
  match h with
  | @Statement.declaration _ word name _ type _ _ _ _ hw hn ht he hv hf =>
    simp at hd
    obtain ⟨value', halike, hreads⟩ := hv.reread (show _ < depth by omega)
    refine ⟨.declaration word.span name.value value' (word.value = "final") type, ?_,
      fun rest hrest => ?_⟩
    · simpa [Node.Alike, Node.respan] using halike
    · have hread := declaration_reads hw hn ht he (hreads rest (hrest ▸ hf))
      simpa [descend, above] using hread
  | @Statement.definition _ word name _ parameters _ _ _ hw hn hp hb =>
    simp at hd
    obtain ⟨body', halike, hreads⟩ := hb.reread (show _ ≤ depth by omega)
    refine ⟨.definition word.span name.value parameters body', ?_, fun rest _ => ?_⟩
    · simpa [Node.Alike, Node.respan] using halike
    · simpa [descend, above] using definition_reads hw hn hp (hreads rest)
  | .conditional hc => exact hc.reread hd
  | @Statement.whileLoop _ word _ _ q _ _ hw hc hb =>
    simp at hd
    obtain ⟨condition', hcalike, hcreads⟩ := hc.reread (show _ < depth by omega)
    obtain ⟨body', hbalike, hbreads⟩ := hb.reread (show _ ≤ depth by omega)
    refine ⟨.whileLoop word.span condition' body', ?_, fun rest _ => ?_⟩
    · simpa [Node.Alike, Node.respan] using ⟨hcalike, hbalike⟩
    · have hread := whileLoop_reads hw (hcreads _ (hb.follow_append rest)) (hbreads rest)
      simpa [descend, above] using hread
  | @Statement.forLoop _ front behind name _ _ q _ _ hw hi hb =>
    simp at hd
    have hlength := hw.length_pos
    obtain ⟨iterable', hialike, hireads⟩ := hi.reread (show _ < depth by omega)
    obtain ⟨body', hbalike, hbreads⟩ := hb.reread (show _ ≤ depth by omega)
    refine ⟨.forLoop (front.head?.map (·.span)) name iterable' body', ?_, fun rest _ => ?_⟩
    · simpa [Node.Alike, Node.respan] using ⟨hialike, hbalike⟩
    · have hread := forLoop_reads hw (hireads _ (hw.follow_append hb rest)) (hbreads rest)
      simpa [descend, above] using hread
  | @Statement.returnNothing _ word _ hw hf =>
    refine ⟨.returnStatement word.span none, rfl, fun rest hrest => ?_⟩
    have hread : Parser.statement (descend depth) (word :: rest) = _ :=
      returnNothing_reads hw (hrest ▸ hf)
    simpa [descend, above] using hread
  | @Statement.returnValue _ word _ _ _ hw hv hf =>
    simp at hd
    obtain ⟨value', halike, hreads⟩ := hv.reread (show _ < depth by omega)
    refine ⟨.returnStatement word.span (some value'), ?_, fun rest hrest => ?_⟩
    · simpa [Node.Alike, Node.respan] using halike
    · have hread := returnValue_reads hw hv.opening (hreads rest (hrest ▸ hf))
      simpa [descend, above] using hread
  | .block hb hmap =>
    obtain ⟨node', halike, hreads⟩ := hb.reread (show _ ≤ depth by omega)
    refine ⟨node', halike, fun rest _ => ?_⟩
    obtain ⟨brace, us, hp, hbrace⟩ := hb.first
    have hlooks := hb.unmapped_append hmap rest
    have hread := hreads rest
    rw [hp] at hlooks hread ⊢
    exact (statement_of_block hbrace hlooks).trans hread
  | .expression he hf =>
    obtain ⟨e', halike, hreads⟩ := he.reread hd
    refine ⟨.expressionStatement (p.tokens.head?.map (·.span)) e', ?_, fun rest hrest => ?_⟩
    · simpa [Node.Alike, Node.respan] using halike
    · exact expressionStatement_reads he.opening (hreads rest (hrest ▸ hf))

lemma Conditional.reread {f : Follow} {p : Phrase} {node : Node} (h : Conditional f p node)
    {depth : Nat} (hd : p.tokens.length < depth) : ∃ node' : Node, node'.Alike node ∧
      ∀ rest, follow rest = f →
        (descend depth).statement (p.tokens ++ rest) = .ok (node', rest) := by
  obtain ⟨depth, rfl⟩ : ∃ d, depth = d + 1 := ⟨depth - 1, by omega⟩
  match h with
  | @Conditional.conditional _ word _ _ q _ r _ _ hw hc hb ho =>
    simp at hd
    obtain ⟨condition', hcalike, hcreads⟩ := hc.reread (show _ < depth by omega)
    obtain ⟨branch', hbalike, hbreads⟩ := hb.reread (show _ ≤ depth by omega)
    obtain ⟨other', hoalike, horeads⟩ := ho.reread (show _ ≤ depth by omega)
    refine ⟨.conditional word.span condition' branch' other', ?_, fun rest hrest => ?_⟩
    · simpa [Node.Alike, Node.respan] using ⟨hcalike, hbalike, hoalike⟩
    · have hread := conditional_reads hw (hcreads _ (hb.follow_append (r.tokens ++ rest)))
        (hbreads _) (horeads rest hrest)
      simpa [descend, above] using hread

lemma Otherwise.reread {f : Follow} {p : Phrase} {branch : Option Node} (h : Otherwise f p branch)
    {depth : Nat} (hd : p.tokens.length ≤ depth) : ∃ branch' : Option Node,
      branch'.map (Node.respan none) = branch.map (Node.respan none) ∧
      ∀ rest, follow rest = f →
        elseBranch (descend depth) (p.tokens ++ rest) = .ok (branch', rest) := by
  match h with
  | .nothing hf =>
    exact ⟨none, rfl, fun rest hrest => elseBranch_of_nothing (hrest ▸ hf)⟩
  | .block hk hb =>
    simp at hd
    obtain ⟨node', halike, hreads⟩ := hb.reread (show _ ≤ depth by omega)
    refine ⟨some node', congrArg some halike, fun rest _ => ?_⟩
    obtain ⟨brace, us, hp, hbrace⟩ := hb.first
    have hread := hreads rest
    rw [hp] at hread
    simpa [hp] using elseBranch_of_block hk hbrace hread
  | .conditional hk hc =>
    simp at hd
    obtain ⟨node', halike, hreads⟩ := hc.reread (show _ < depth by omega)
    refine ⟨some node', congrArg some halike, fun rest hrest => ?_⟩
    obtain ⟨word, us, hp, hword⟩ := hc.first
    have hread := hreads rest hrest
    rw [hp] at hread
    simpa [hp] using elseBranch_of_if hk hword hread

end

lemma Statements.program_reads {p : Phrase} {nodes : List Node} (h : Statements p nodes) :
    ∃ nodes', Node.EachAlike nodes' nodes ∧ program p.tokens = .ok (nodes', []) := by
  obtain ⟨nodes', heach, hrun⟩ := h.reread (Nat.lt_succ_self p.tokens.length)
  have hrun := hrun [] rfl (by simp)
  rw [List.append_nil] at hrun
  have hlength := hrun.length_le.trans (List.dropWhile_sublist (Token.isSymbol ";")).length_le
  refine ⟨nodes', heach, ?_⟩
  rw [program, rounds_bind, skipSeparators_bind]
  exact programStatements_of_run hrun (Nat.lt_succ_of_le hlength)

lemma Expression.single_reads {p : Phrase} {node : Node} (h : Expression p node) :
    ∃ node' : Node, node'.Alike node ∧ singleExpression p.tokens = .ok (node', []) := by
  obtain ⟨node', halike, hreads⟩ := h.reread (Nat.lt_succ_self p.tokens.length)
  have hread := hreads [] rfl
  rw [List.append_nil] at hread
  refine ⟨node', halike, ?_⟩
  rw [singleExpression, rounds_bind, bind_of_ok hread]
  rfl

end Phrase

end Klang

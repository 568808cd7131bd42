import Klang.Proofs.Phrases.Rereading

/-! Changes inside phrases. Where a change of constructs leaves the tree that they are read as, it
does so at any depth of a phrase. -/

namespace Klang

open Klang.Parser

namespace Phrase

/-- One construct of the phrase, at any depth of it, is changed. -/
inductive Within (change : Phrase → Phrase → Prop) : Phrase → Phrase → Prop
  | here {p p'} : change p p' → Within change p p'
  | inside {f before p p' after} : Within change p p' →
      Within change (form f (before ++ p :: after)) (form f (before ++ p' :: after))

structure SameFront (ts ts' : List Token) : Prop where
  ne_nil : ts ≠ []
  ne_nil' : ts' ≠ []
  follow_eq : follow ts' = follow ts

/-- A change that leaves the tree of the changed construct, and what the text in front of it can see.
No more than these constructs are changed at all. -/
structure Neutral (change : Phrase → Phrase → Prop) : Prop where
  not_words {ts p'} : ¬ change (words ts) p'
  forms {f ps p'} : change (form f ps) p' →
    f ∈ [.binary, .function, .lambdaValue, .forLoop, .block, .statements]
  front {p p'} : change p p' → SameFront p.tokens p'.tokens
  binary {p token q p' closed level left operator right span} :
    change (form .binary [p, words [token], q]) p' → Operand false level p left →
      Parser.operatorOf level token = some operator → Operand closed level.tighter q right →
      Operand closed level p' (.binary span operator left right)
  function {front ts behind p p' closed parameters body span} :
    change (form .function [words front, words ts, words behind, p]) p' →
      FunctionWords front behind → Grammar.Parameters ts parameters → Block p body →
      Operand closed .primary p' (.function span parameters body)
  lambdaValue {word ts arrow p p' parameters value span bodySpan returnSpan} :
    change (form .lambdaValue [words [word], words ts, words [arrow], p]) p' →
      Grammar.Parameters ts parameters → Expression p value → Operand true .primary p'
        (.function span parameters (.block bodySpan [.returnStatement returnSpan (some value)]))
  loop {front p behind q p' f name iterable body span} :
    change (form .forLoop [words front, p, words behind, q]) p' → LoopWords front behind name →
      Expression p iterable → Block q body → Statement f p' (.forLoop span name iterable body)
  block {ps p' node} : change (form .block ps) p' → Block (form .block ps) node → Block p' node
  length_block {ps p'} : change (form .block ps) p' → p'.tokens.length ≠ 2
  statements {ps p' nodes} : change (form .statements ps) p' →
    Statements (form .statements ps) nodes → Statements p' nodes

variable {change : Phrase → Phrase → Prop} {p p' : Phrase} {ps : List Phrase} {f : Form}

def Kept (change : Phrase → Phrase → Prop) (ps : List Phrase) (P : List Phrase → Prop) : Prop :=
  ∀ before p p' after, Within change p p' → ps = before ++ p :: after → P (before ++ p' :: after)

variable {P : List Phrase → Prop}

lemma Kept.nil : Kept change [] P := by
  intro before p p' after _ he
  simp at he

lemma Kept.cons (hp : ∀ p', Within change p p' → P (p' :: ps))
    (hps : Kept change ps fun ps' => P (p :: ps')) : Kept change (p :: ps) P := by
  intro before q q' after hq he
  cases before with
  | nil =>
    obtain ⟨rfl, rfl⟩ := List.cons.inj he
    exact hp q' hq
  | cons r before =>
    obtain ⟨rfl, rfl⟩ := List.cons.inj he
    exact hps before q q' after hq rfl

lemma Neutral.not_within_words (hn : Neutral change) {ts : List Token} :
    ¬ Within change (words ts) p' := by
  rintro ⟨hc⟩
  exact hn.not_words hc

lemma Kept.words (hn : Neutral change) {ts : List Token}
    (h : Kept change ps fun ps' => P (.words ts :: ps')) : Kept change (.words ts :: ps) P :=
  .cons (fun _ hr => absurd hr hn.not_within_words) h

@[elab_as_elim]
lemma Within.of_change {Q : Phrase → Prop} (h : Within change (form f ps) p')
    (hc : change (form f ps) p' → Q p') (hk : Kept change ps fun ps' => Q (form f ps')) : Q p' := by
  generalize he : form f ps = p at h
  cases h with
  | here hchange => exact hc (he ▸ hchange)
  | @inside f' before q q' after hq =>
    obtain ⟨rfl, rfl⟩ := Phrase.form.inj he
    exact hk before q q' after hq rfl

@[elab_as_elim]
lemma Within.of_kept {Q : Phrase → Prop} (h : Within change (form f ps) p') (hn : Neutral change)
    (hk : Kept change ps fun ps' => Q (form f ps'))
    (hf : f ∉ [.binary, .function, .lambdaValue, .forLoop, .block, .statements]) : Q p' :=
  h.of_change (fun hc => absurd (hn.forms hc) hf) hk

lemma follow_append_of_ne_nil {ts : List Token} (h : ts ≠ []) (us : List Token) :
    follow (ts ++ us) = follow ts := by
  obtain ⟨t, ts, rfl⟩ := List.exists_cons_of_ne_nil h
  rfl

lemma SameFront.of_heads {t t' : Token} {us us' : List Token} (h : follow [t'] = follow [t]) :
    SameFront (t :: us) (t' :: us') :=
  ⟨List.cons_ne_nil _ _, List.cons_ne_nil _ _, h⟩

lemma SameFront.prepend {ts ts' : List Token} (h : SameFront ts ts') (us : List Token) :
    SameFront (us ++ ts) (us ++ ts') := by
  cases us with
  | nil => exact h
  | cons u us => exact .of_heads rfl

lemma Within.sameFront (hn : Neutral change) (h : Within change p p') :
    SameFront p.tokens p'.tokens := by
  induction h with
  | here hc => exact hn.front hc
  | @inside f before p p' after _ ih =>
    simp only [tokens_form, tokensOf_append, tokensOf_cons]
    by_cases hbefore : tokensOf before = []
    · rw [hbefore, List.nil_append, List.nil_append]
      refine ⟨by simp [ih.ne_nil], by simp [ih.ne_nil'], ?_⟩
      rw [follow_append_of_ne_nil ih.ne_nil, follow_append_of_ne_nil ih.ne_nil', ih.follow_eq]
    · refine ⟨by simp [hbefore], by simp [hbefore], ?_⟩
      rw [follow_append_of_ne_nil hbefore, follow_append_of_ne_nil hbefore]

lemma Entries.looksLikeMap_eq (hn : Neutral change) {entries : List (String × Node)}
    (h : Entries p entries) (hr : Within change p p') (brace : Token) (ts : List Token) :
    Token.looksLikeMap (brace :: (p'.tokens ++ ts)) =
      Token.looksLikeMap (brace :: (p.tokens ++ ts)) := by
  cases h with
  | nothing => exact absurd hr hn.not_within_words
  | one =>
    exact hr.of_kept hn (.words hn (.cons (fun _ _ => by simp [Token.looksLikeMap]) .nil))
      (by decide)
  | more =>
    exact hr.of_kept hn (.words hn (.cons (fun _ _ => by simp [Token.looksLikeMap])
      (.words hn (.cons (fun _ _ => by simp [Token.looksLikeMap]) .nil)))) (by decide)

lemma Block.unmapped_of_within (hn : Neutral change) {node node' : Node} (h : Block p node)
    (hr : Within change p p') (h' : Block p' node') : Token.looksLikeMap p'.tokens = false := by
  apply h'.unmapped
  cases h with
  | block ho hs hc =>
    refine hr.of_change hn.length_block (.words hn (.cons (fun q hq => ?_) (.words hn .nil)))
    have hpos := List.length_pos_iff.2 (hq.sameFront hn).ne_nil'
    simp only [tokens_form, tokensOf_cons, tokens_words, tokensOf_nil, List.append_nil,
      List.length_append, List.length_singleton]
    omega

mutual

lemma Expression.of_within (hn : Neutral change) {p p' : Phrase} {node : Node}
    (h : Expression p node) (hr : Within change p p') : Expression p' node := by
  match h with
  | .operand ho => exact .operand (ho.of_within hn hr)
  | .assignment ht htarget he hv =>
    exact hr.of_kept hn
      (.cons (fun _ hp => .assignment (ht.of_within hn hp) htarget he hv)
        (.words hn (.cons (fun _ hq => .assignment ht htarget he (hv.of_within hn hq)) .nil)))
      (by decide)

lemma Operand.of_within (hn : Neutral change) {closed : Bool} {level : Level} {p p' : Phrase}
    {node : Node} (h : Operand closed level p node) (hr : Within change p p') :
    Operand closed level p' node := by
  match h with
  | .tighter ht => exact .tighter (ht.of_within hn hr)
  | .binary hp ho hq =>
    exact hr.of_change (fun hc => hn.binary hc hp ho hq)
      (.cons (fun _ h => .binary (hp.of_within hn h) ho hq)
        (.words hn (.cons (fun _ h => .binary hp ho (hq.of_within hn h)) .nil)))
  | .unary hs hp =>
    exact hr.of_kept hn (.words hn (.cons (fun _ h => .unary hs (hp.of_within hn h)) .nil)) (by decide)
  | .call hp ho hi hc =>
    exact hr.of_kept hn (.cons (fun _ h => .call (hp.of_within hn h) ho hi hc)
      (.words hn (.cons (fun _ h => .call hp ho (hi.of_within hn h) hc) (.words hn .nil))))
      (by decide)
  | .index hp ho hk hc =>
    exact hr.of_kept hn (.cons (fun _ h => .index (hp.of_within hn h) ho hk hc)
      (.words hn (.cons (fun _ h => .index hp ho (hk.of_within hn h) hc) (.words hn .nil))))
      (by decide)
  | .atom _ => exact absurd hr hn.not_within_words
  | .group ho hp hc =>
    exact hr.of_kept hn (.words hn (.cons (fun _ h => .group ho (hp.of_within hn h) hc)
      (.words hn .nil))) (by decide)
  | .list ho hi hc =>
    exact hr.of_kept hn (.words hn (.cons (fun _ h => .list ho (hi.of_within hn h) hc)
      (.words hn .nil))) (by decide)
  | .map ho hi hc hmap =>
    refine hr.of_kept hn (.words hn (.cons (fun _ h => ?_) (.words hn .nil))) (by decide)
    exact .map ho (hi.of_within hn h) hc ((hi.looksLikeMap_eq hn h _ _).trans hmap)
  | .function hw hp hb hmap =>
    refine hr.of_change (fun hc => hn.function hc hw hp hb)
      (.words hn (.words hn (.words hn (.cons (fun _ h => ?_) .nil))))
    have hchanged := hb.of_within hn h
    exact .function hw hp hchanged fun _ => hb.unmapped_of_within hn h hchanged
  | .lambdaValue hw hp ha hv =>
    exact hr.of_change (fun hc => hn.lambdaValue hc hp hv)
      (.words hn (.words hn (.words hn (.cons (fun _ h =>
        .lambdaValue hw hp ha (hv.of_within hn h)) .nil))))

lemma Items.of_within (hn : Neutral change) {p p' : Phrase} {nodes : List Node} (h : Items p nodes)
    (hr : Within change p p') : Items p' nodes := by
  match h with
  | .nothing => exact absurd hr hn.not_within_words
  | .one hp => exact hr.of_kept hn (.cons (fun _ h => .one (hp.of_within hn h)) .nil) (by decide)
  | .more hp hc hq hne =>
    exact hr.of_kept hn (.cons (fun _ h => .more (hp.of_within hn h) hc hq hne)
      (.words hn (.cons (fun _ h => .more hp hc (hq.of_within hn h) hne) .nil))) (by decide)

lemma Entries.of_within (hn : Neutral change) {p p' : Phrase} {entries : List (String × Node)}
    (h : Entries p entries) (hr : Within change p p') : Entries p' entries := by
  match h with
  | .nothing => exact absurd hr hn.not_within_words
  | .one hk hc hp =>
    exact hr.of_kept hn (.words hn (.cons (fun _ h => .one hk hc (hp.of_within hn h)) .nil))
      (by decide)
  | .more hk hc hp hcomma hq hne =>
    exact hr.of_kept hn (.words hn (.cons (fun _ h => .more hk hc (hp.of_within hn h) hcomma hq hne)
      (.words hn (.cons (fun _ h => .more hk hc hp hcomma (hq.of_within hn h) hne) .nil))))
      (by decide)

lemma Block.of_within (hn : Neutral change) {p p' : Phrase} {node : Node} (h : Block p node)
    (hr : Within change p p') : Block p' node := by
  match h with
  | .block ho hs hc =>
    exact hr.of_change (fun hchange => hn.block hchange (.block ho hs hc))
      (.words hn (.cons (fun _ h => .block ho (hs.of_within hn h) hc) (.words hn .nil)))

lemma Statements.of_within (hn : Neutral change) {p p' : Phrase} {nodes : List Node}
    (h : Statements p nodes) (hr : Within change p p') : Statements p' nodes := by
  match h with
  | .nothing => exact absurd hr hn.not_within_words
  | .separator hs hp =>
    exact hr.of_change (fun hc => hn.statements hc (.separator hs hp))
      (.words hn (.cons (fun _ h => .separator hs (hp.of_within hn h)) .nil))
  | .statement hp hq =>
    -- a statement in front of a changed part still has the same behind it
    refine hr.of_change (fun hc => hn.statements hc (.statement hp hq))
      (.cons (fun _ h => .statement (hp.of_within hn h) hq)
        (.cons (fun _ h => .statement ?_ (hq.of_within hn h)) .nil))
    rw [(h.sameFront hn).follow_eq]
    exact hp

lemma Statement.of_within (hn : Neutral change) {f : Follow} {p p' : Phrase} {node : Node}
    (h : Statement f p node) (hr : Within change p p') : Statement f p' node := by
  match h with
  | .declaration hw hname ht he hv hf =>
    exact hr.of_kept hn (.words hn (.cons (fun _ h =>
      .declaration hw hname ht he (hv.of_within hn h) hf) .nil)) (by decide)
  | .definition hw hname hp hb =>
    exact hr.of_kept hn (.words hn (.cons (fun _ h =>
      .definition hw hname hp (hb.of_within hn h)) .nil)) (by decide)
  | .conditional hc => exact .conditional (hc.of_within hn hr)
  | .whileLoop hw hc hb =>
    exact hr.of_kept hn (.words hn (.cons (fun _ h => .whileLoop hw (hc.of_within hn h) hb)
      (.cons (fun _ h => .whileLoop hw hc (hb.of_within hn h)) .nil))) (by decide)
  | .forLoop hw hi hb =>
    exact hr.of_change (fun hc => hn.loop hc hw hi hb)
      (.words hn (.cons (fun _ h => .forLoop hw (hi.of_within hn h) hb)
        (.words hn (.cons (fun _ h => .forLoop hw hi (hb.of_within hn h)) .nil))))
  | .returnNothing _ _ => exact absurd hr hn.not_within_words
  | .returnValue hw hv hf =>
    exact hr.of_kept hn (.words hn (.cons (fun _ h => .returnValue hw (hv.of_within hn h) hf) .nil))
      (by decide)
  | .block hb _ =>
    have hchanged := hb.of_within hn hr
    exact .block hchanged (hb.unmapped_of_within hn hr hchanged)
  | .expression he hf => exact .expression (he.of_within hn hr) hf

lemma Conditional.of_within (hn : Neutral change) {f : Follow} {p p' : Phrase} {node : Node}
    (h : Conditional f p node) (hr : Within change p p') : Conditional f p' node := by
  match h with
  | .conditional hw hc hb ho =>
    exact hr.of_kept hn (.words hn (.cons (fun _ h => .conditional hw (hc.of_within hn h) hb ho)
      (.cons (fun _ h => .conditional hw hc (hb.of_within hn h) ho)
        (.cons (fun _ h => .conditional hw hc hb (ho.of_within hn h)) .nil)))) (by decide)

lemma Otherwise.of_within (hn : Neutral change) {f : Follow} {p p' : Phrase} {branch : Option Node}
    (h : Otherwise f p branch) (hr : Within change p p') : Otherwise f p' branch := by
  match h with
  | .nothing _ => exact absurd hr hn.not_within_words
  | .block hk hb =>
    exact hr.of_kept hn (.words hn (.cons (fun _ h => .block hk (hb.of_within hn h)) .nil))
      (by decide)
  | .conditional hk hc =>
    exact hr.of_kept hn (.words hn (.cons (fun _ h => .conditional hk (hc.of_within hn h)) .nil))
      (by decide)

end

lemma Program.of_within (hn : Neutral change) {node : Node} (h : Program p node)
    (hr : Within change p p') : Program p' node := by
  cases h with
  | program hs => exact .program (hs.of_within hn hr)

lemma unended_of_isKeyword {t : Token} {word : String} (h : t.isKeyword word = true) :
    t.kind ≠ .eof := by
  simp only [Token.isKeyword, Bool.and_eq_true, decide_eq_true_eq] at h
  simp [h.1]

lemma unended_of_isSymbol {t : Token} {value : String} (h : t.isSymbol value = true) :
    t.kind ≠ .eof := by
  simp only [Token.isSymbol, Bool.and_eq_true, Bool.or_eq_true, decide_eq_true_eq] at h
  rcases h.1 with hkind | hkind <;> simp [hkind]

lemma unended_of_isIdentifier {t : Token} (h : t.isIdentifier = true) : t.kind ≠ .eof := by
  simp only [Token.isIdentifier, decide_eq_true_eq] at h
  simp [h]

end Phrase

lemma Parser.splitInput?_replace {tokens body body' : List Token} {last : Token}
    (h : splitInput? tokens = some (body, last)) (hbody : ∀ t ∈ body', t.kind ≠ .eof) :
    splitInput? (body' ++ tokens.dropWhile (·.kind ≠ .eof)) = some (body', last) := by
  obtain ⟨more, rfl, hbefore, hlast, hend⟩ := splitInput?_eq_some_iff.1 h
  have hdrop : (body ++ last :: more).dropWhile (fun t => decide (t.kind ≠ .eof)) = last :: more := by
    rw [List.dropWhile_append_of_pos (by simpa using hbefore)]
    simp [hlast]
  rw [hdrop]
  exact splitInput?_eq_some_iff.2 ⟨more, rfl, hbody, hlast, hend⟩

lemma Phrase.Program.parses {p : Phrase} {node : Node} (h : Program p node) {tokens : List Token}
    {last : Token} (hsplit : splitInput? tokens = some (p.tokens, last)) :
    ∃ program : Node, parseProgram tokens = .ok program ∧ program.Alike node := by
  cases h with
  | program hs =>
    obtain ⟨nodes', heach, hread⟩ := hs.program_reads
    refine ⟨_, (parseProgram_eq_ok hsplit).2 ⟨nodes', [], hread, rfl⟩, ?_⟩
    simpa [Node.Alike, Node.respan] using heach

lemma Phrase.Expression.parses {p : Phrase} {node : Node} (h : Phrase.Expression p node)
    {tokens : List Token} {last : Token} (hsplit : splitInput? tokens = some (p.tokens, last)) :
    ∃ expression : Node, parseExpression tokens = .ok expression ∧ expression.Alike node := by
  obtain ⟨node', halike, hread⟩ := h.single_reads
  exact ⟨node', by simp [parseExpression, hsplit, run, hread], halike⟩

end Klang

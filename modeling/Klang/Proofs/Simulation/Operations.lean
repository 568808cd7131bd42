import Klang.Proofs.Simulation.Basic

/-! Operators, indexing and builtins on values that belong together. -/

namespace Klang

namespace Table

variable {α : Type} {r : α → α → Prop} {t t' u u' : Table α}

lemma rel_empty : (empty : Table α).Rel r empty := .nil

lemma Rel.keys_eq (h : t.Rel r t') : t'.keys = t.keys := by
  have hlist {entries entries' : List (String × α)}
      (h : List.Forall₂ (fun e e' => e.1 = e'.1 ∧ r e.2 e'.2) entries entries') :
      entries'.map Prod.fst = entries.map Prod.fst := by
    induction h with
    | nil => rfl
    | cons he _ ih => rw [List.map_cons, List.map_cons, he.1, ih]
  exact hlist h

lemma Rel.size_eq (h : t.Rel r t') : t'.size = t.size := (List.Forall₂.length_eq h).symm

lemma Rel.find? (h : t.Rel r t') (key : String) : Option.Rel r (t.find? key) (t'.find? key) := by
  have hlist {entries entries' : List (String × α)}
      (h : List.Forall₂ (fun e e' => e.1 = e'.1 ∧ r e.2 e'.2) entries entries') :
      Option.Rel r (entries.lookup key) (entries'.lookup key) := by
    induction h with
    | nil => exact .none
    | cons he _ ih =>
      rw [List.lookup_cons, List.lookup_cons, he.1]
      split
      · exact .some he.2
      · exact ih
  exact hlist h

lemma forall₂_putEntry {key : String} {a a' : α} (ha : r a a') {entries entries' : List (String × α)}
    (h : List.Forall₂ (fun e e' => e.1 = e'.1 ∧ r e.2 e'.2) entries entries') :
    List.Forall₂ (fun e e' => e.1 = e'.1 ∧ r e.2 e'.2) (putEntry key a entries)
      (putEntry key a' entries') := by
  induction h with
  | nil => exact .cons ⟨rfl, ha⟩ .nil
  | cons he hrest ih =>
    rw [putEntry, putEntry, he.1]
    split
    · exact .cons ⟨rfl, ha⟩ hrest
    · exact .cons he ih

lemma Rel.insert (h : t.Rel r t') {a a' : α} (ha : r a a') (key : String) :
    (t.insert key a).Rel r (t'.insert key a') := forall₂_putEntry ha h

lemma Rel.merge (ht : t.Rel r t') (hu : u.Rel r u') : (t.merge u).Rel r (t'.merge u') := by
  have hlist {entries entries' : List (String × α)}
      (h : List.Forall₂ (fun e e' => e.1 = e'.1 ∧ r e.2 e'.2) entries entries') :
      (t.insertAll entries).Rel r (t'.insertAll entries') := by
    unfold insertAll
    induction h generalizing t t' with
    | nil => exact ht
    | @cons e e' _ _ he _ ih =>
      rw [List.foldl_cons, List.foldl_cons, ← he.1]
      exact ih (ht.insert he.2 e.1)
  exact hlist hu

lemma Rel.imp {r' : α → α → Prop} (h : t.Rel r t') (hr : ∀ a a', r a a' → r' a a') : t.Rel r' t' :=
  List.Forall₂.imp (fun _ _ he => ⟨he.1, hr _ _ he.2⟩) h

end Table

lemma BinaryOperator.onScalars?_cases {operator : BinaryOperator} {left right v : Value}
    (h : operator.onScalars? left right = some v) : (∃ x, v = .number x) ∨ ∃ b, v = .boolean b := by
  unfold onScalars? onNumbers? onStrings? onBooleans? at h
  grind

/-- Apart from lists and maps that are added, operands that are no scalars of one type are joined as
text or do not fit. -/
lemma BinaryOperator.apply_eq_of_onScalars? {operator : BinaryOperator} {left right : Value}
    (hs : operator.onScalars? left right = none)
    (hl : ¬ (operator = add ∧ left.tag = .list ∧ right.tag = .list))
    (hm : ¬ (operator = add ∧ left.tag = .map ∧ right.tag = .map)) :
    operator.apply left right =
      if operator = add ∧ joinsText left right then do
        let first ← Eval.ofExcept left.concatText
        let second ← Eval.ofExcept right.concatText
        return .string (first ++ second)
      else Eval.raise (.operation left.tag operator right.tag) := by
  unfold apply
  rw [hs]
  dsimp only
  split
  · exact absurd ⟨rfl, rfl, rfl⟩ hl
  · exact absurd ⟨rfl, rfl, rfl⟩ hm
  · rfl

lemma Builtin.functionAndList_of_unfit {name : String} {first second : Value}
    (hf : first.isCallable = false) (hl : first.tag ≠ .list) :
    functionAndList name [first, second] = .error
      (if second.isCallable then .functionAndList name first.tag second.tag
      else .argument name 1 [.function] first.tag) := by
  unfold functionAndList
  grind [Value.isCallable, Value.tag]

lemma Builtin.progression_mono {stop step : Float} {bound bound' : Nat} (hb : bound ≤ bound')
    {current : Float} {found numbers : Array Value}
    (h : progression stop step bound current found = some numbers) :
    progression stop step bound' current found = some numbers := by
  induction bound generalizing bound' current found with
  | zero => cases h
  | succ bound ih =>
    obtain ⟨bound', rfl⟩ : ∃ n, bound' = n + 1 := ⟨bound' - 1, by omega⟩
    rw [progression] at h ⊢
    split
    · rename_i hc
      rw [if_pos hc] at h
      exact ih (by omega) h
    · rename_i hc
      rw [if_neg hc] at h
      exact h

namespace Simulation

variable {R : Simulation} {w u : R.World} {v v' : Value} {vs vs' : List Value}

namespace Alike

lemma tag_eq (h : R.Alike w v v') : v'.tag = v.tag := by cases h <;> rfl

lemma isCallable_eq (h : R.Alike w v v') : v'.isCallable = v.isCallable := by cases h <;> rfl

lemma isTextual_eq (h : R.Alike w v v') : v'.isTextual = v.isTextual := by cases h <;> rfl

lemma concatText_eq (h : R.Alike w v v') : v'.concatText = v.concatText := by cases h <;> rfl

lemma mapKey_eq (h : R.Alike w v v') : v'.mapKey = v.mapKey := by cases h <;> rfl

lemma sequenceIndex_eq (h : R.Alike w v v') (length : Nat) (target : Tag) :
    v'.sequenceIndex length target = v.sequenceIndex length target := by cases h <;> rfl

lemma numberOf_eq (h : R.Alike w v v') : Builtin.numberOf v' = Builtin.numberOf v := by
  cases h <;> rfl

variable {left left' right right' : Value}

lemma onScalars?_eq (operator : BinaryOperator) (hl : R.Alike w left left')
    (hr : R.Alike w right right') :
    operator.onScalars? left' right' = operator.onScalars? left right := by
  cases hl <;> cases hr <;> rfl

lemma joinsText_eq (hl : R.Alike w left left') (hr : R.Alike w right right') :
    BinaryOperator.joinsText left' right' = BinaryOperator.joinsText left right := by
  have hstring {v v' : Value} (h : R.Alike w v v') :
      BinaryOperator.isString v' = BinaryOperator.isString v := by cases h <;> rfl
  simp only [BinaryOperator.joinsText, hstring hl, hstring hr, hl.isTextual_eq, hr.isTextual_eq]

end Alike

namespace AllAlike

lemma headD (h : R.AllAlike w vs vs') : R.Alike w (vs.headD .null) (vs'.headD .null) := by
  cases h with
  | nil => exact .null
  | cons hv _ => exact hv

lemma argumentsFault?_eq (h : R.AllAlike w vs vs') (name : String) (accepted : List (List Tag)) :
    argumentsFault? name vs' accepted = argumentsFault? name vs accepted := by
  have htypes (position : Nat) :
      argumentFault? name position vs' accepted = argumentFault? name position vs accepted := by
    induction h generalizing position accepted with
    | nil => rfl
    | cons hv _ ih =>
      cases accepted with
      | nil => rfl
      | cons tags accepted => rw [argumentFault?, argumentFault?, hv.tag_eq, ih]
  rw [argumentsFault?, argumentsFault?, h.length_eq, htypes]

lemma arityFault?_eq (h : R.AllAlike w vs vs') (name : String) (expected : Nat) :
    arityFault? name vs' expected = arityFault? name vs expected := by
  rw [arityFault?, arityFault?, h.length_eq]

lemma addAll_eq (h : R.AllAlike w vs vs') (total : Float) :
    Builtin.addAll vs' total = Builtin.addAll vs total := by
  induction h generalizing total with
  | nil => rfl
  | cons hv _ ih =>
    cases hv with
    | number x => exact ih (total + x)
    | _ => rfl

lemma numbers_eq (h : R.AllAlike w vs vs') :
    vs'.map Builtin.numberOf = vs.map Builtin.numberOf := by
  induction h with
  | nil => rfl
  | cons hv _ ih => rw [List.map_cons, List.map_cons, hv.numberOf_eq, ih]

lemma functionAndList (h : R.AllAlike w vs vs') (name : String) :
    (∃ reason, Builtin.functionAndList name vs = .error reason ∧
      Builtin.functionAndList name vs' = .error reason) ∨
    ∃ g g' c, Builtin.functionAndList name vs = .ok (g, c) ∧
      Builtin.functionAndList name vs' = .ok (g', c) ∧ R.Alike w g g' ∧ R.cell w c := by
  rcases h with _ | @⟨_, _, _, _, hfirst, _ | @⟨_, _, _, _, hsecond, _ | @⟨_, _, _, _, _, hrest⟩⟩⟩
  · exact .inl ⟨_, rfl, rfl⟩
  · exact .inl ⟨_, rfl, rfl⟩
  · cases hfirst with
    | function hf =>
      cases hsecond with
      | list hc => exact .inr ⟨_, _, _, rfl, rfl, .function hf, hc⟩
      | _ => exact .inl ⟨_, rfl, rfl⟩
    | builtin hb =>
      cases hsecond with
      | list hc => exact .inr ⟨_, _, _, rfl, rfl, .builtin hb, hc⟩
      | _ => exact .inl ⟨_, rfl, rfl⟩
    | list hc =>
      cases hsecond with
      | function hf => exact .inr ⟨_, _, _, rfl, rfl, .function hf, hc⟩
      | builtin hb => exact .inr ⟨_, _, _, rfl, rfl, .builtin hb, hc⟩
      | _ => exact .inl ⟨_, rfl, rfl⟩
    | _ =>
      refine .inl ⟨_, Builtin.functionAndList_of_unfit rfl nofun, ?_⟩
      refine (Builtin.functionAndList_of_unfit (by rfl) (by nofun)).trans ?_
      rw [hsecond.isCallable_eq, hsecond.tag_eq]
  · refine .inl ⟨_, rfl, ?_⟩
    simp only [Builtin.functionAndList, List.length_cons, hrest.length_eq]

end AllAlike

lemma allAlike_strings {α : Type} (f : α → String) (xs : List α) :
    R.AllAlike w (xs.map fun x => .string (f x)) (xs.map fun x => .string (f x)) := by
  unfold AllAlike
  rw [List.forall₂_same]
  intro v hv
  obtain ⟨x, _, rfl⟩ := List.mem_map.1 hv
  exact .string (f x)

lemma allAlike_progression {stop step : Float} {bound : Nat} {current : Float}
    {found numbers : Array Value}
    (h : Builtin.progression stop step bound current found = some numbers)
    (hfound : R.ItemsAlike w found found) : R.ItemsAlike w numbers numbers := by
  induction bound generalizing current found with
  | zero => cases h
  | succ bound ih =>
    rw [Builtin.progression] at h
    split at h
    · refine ih h ?_
      unfold ItemsAlike
      rw [Array.toList_push]
      exact List.rel_append hfound (.cons (.number current) .nil)
    · cases h
      exact hfound

lemma ItemsAlike.size_eq {items items' : Array Value} (h : R.ItemsAlike w items items') :
    items'.size = items.size := by
  rw [← Array.length_toList, ← Array.length_toList, h.length_eq]

lemma alike_getElem? {items items' : Array Value} (h : R.ItemsAlike w items items')
    (position : Nat) : Option.Rel (R.Alike w) items[position]? items'[position]? := by
  have hlist {vs vs' : List Value} (h : R.AllAlike w vs vs') (position : Nat) :
      Option.Rel (R.Alike w) vs[position]? vs'[position]? := by
    induction h generalizing position with
    | nil => exact .none
    | cons hv _ ih =>
      cases position with
      | zero => exact .some hv
      | succ position => exact ih position
  rw [← Array.getElem?_toList, ← Array.getElem?_toList]
  exact hlist h position

lemma alike_getD {found found' : Option Value} (h : Option.Rel (R.Alike w) found found') :
    R.Alike w (found.getD .null) (found'.getD .null) := by
  cases h with
  | some hv => exact hv
  | none => exact .null

namespace Computes

variable (hR : R.Computes) {α β : Type}

include hR

lemma alike_later (hw : R.later w u) (h : R.Alike w v v') : R.Alike u v v' := by
  cases h with
  | list hc => exact .list (hR.cell_later hw hc)
  | map hc => exact .map (hR.cell_later hw hc)
  | function hc => exact .function (hR.closure_later hw hc)
  | builtin hb => exact .builtin hb
  | _ => constructor

lemma all_later (hw : R.later w u) (h : R.AllAlike w vs vs') : R.AllAlike u vs vs' :=
  h.imp fun _ _ => hR.alike_later hw

lemma value (h : R.Alike w v v') : R.Runs w R.Alike (Pure.pure v) (Pure.pure v') :=
  hR.pure fun _ hu => hR.alike_later hu h

lemma same (a : α) : R.Same w (Pure.pure a) (Pure.pure a) := hR.pure fun _ _ => rfl

lemma bind_same {q : R.World → β → β → Prop} {m m' : Eval α} {k k' : α → Eval β}
    (h : R.Same w m m') (hk : ∀ u a, R.later w u → R.Runs u q (k a) (k' a)) :
    R.Runs w q (m >>= k) (m' >>= k') := by
  refine hR.bind h fun u a a' hu ha => ?_
  cases ha
  exact hk u a hu

lemma refuse {p : R.World → α → α → Prop} {reason : Fault} (h : ¬ reason.IsDefensive) :
    R.Runs w p (Eval.raise reason : Eval α) (Eval.raise reason) := hR.raise (hR.ordinary reason h)

lemma raiseIf {reason : Option Fault} (h : ∀ r ∈ reason, ¬ r.IsDefensive) :
    R.Same w (Eval.raiseIf reason) (Eval.raiseIf reason) := by
  cases reason with
  | none => exact hR.same ()
  | some reason => exact hR.refuse (h reason rfl)

lemma ofExcept {r : Except Fault α} (h : ∀ reason, r = .error reason → ¬ reason.IsDefensive) :
    R.Same w (Eval.ofExcept r) (Eval.ofExcept r) := by
  cases r with
  | ok a => exact hR.same a
  | error reason => exact hR.refuse (h reason rfl)

lemma mapM {ι : Type} {p : R.World → α → α → Prop}
    (hp : ∀ {w u a a'}, R.later w u → p w a a' → p u a a') {f f' : ι → Eval α} {xs xs' : List ι}
    (h : List.Forall₂ (fun x x' => ∀ u, R.later w u → R.Runs u p (f x) (f' x')) xs xs') :
    R.Runs w (fun u => List.Forall₂ (p u)) (xs.mapM f) (xs'.mapM f') := by
  induction xs generalizing w xs' with
  | nil =>
    cases h
    exact hR.pure fun _ _ => .nil
  | cons x xs ih =>
    cases h with
    | cons hx hxs =>
      rw [List.mapM_cons, List.mapM_cons]
      refine hR.bind (hx w (hR.refl w)) fun u a a' hu ha => ?_
      refine hR.bind (ih (hxs.imp fun _ _ h t ht => h t (hR.trans hu ht))) fun t as as' ht has => ?_
      refine hR.pure fun t' ht' => .cons (hp (hR.trans ht ht') ha) ?_
      exact has.imp fun _ _ => hp ht'

end Computes

namespace Lawful

variable (hR : R.Lawful)

include hR

lemma unaryApply {f : FrameId} {operand n' : Node} {s : Option Source.Span}
    {operator : UnaryOperator} {t : R.World} (hn : R.node t f (.unary s operator operand) n')
    (h : R.Alike w v v') :
    R.Runs w R.Alike (Eval.ofExcept (operator.apply v)) (Eval.ofExcept (operator.apply v')) := by
  have heq : operator.apply v' = operator.apply v := by cases operator <;> cases h <;> rfl
  rw [heq]
  cases hr : operator.apply v with
  | error reason =>
    rcases UnaryOperator.not_isDefensive_of_apply hr with hd | ⟨symbol, rfl, rfl⟩
    · exact hR.refuse hd
    · exact hR.raise (hR.misuse hn rfl)
  | ok result =>
    refine hR.value ?_
    cases operator <;> cases v <;> cases hr <;> constructor

lemma joined (operator : BinaryOperator) (left right : Value) :
    R.Runs w R.Alike
      (if operator = .add ∧ BinaryOperator.joinsText left right then do
        let first ← Eval.ofExcept left.concatText
        let second ← Eval.ofExcept right.concatText
        return .string (first ++ second)
      else Eval.raise (.operation left.tag operator right.tag))
      (if operator = .add ∧ BinaryOperator.joinsText left right then do
        let first ← Eval.ofExcept left.concatText
        let second ← Eval.ofExcept right.concatText
        return .string (first ++ second)
      else Eval.raise (.operation left.tag operator right.tag)) := by
  split
  · rename_i h
    simp only [BinaryOperator.joinsText, Bool.and_eq_true] at h
    obtain ⟨_, ⟨_, hl⟩, hr⟩ := h
    obtain ⟨first, hfirst⟩ := Value.concatText_of_isTextual hl
    obtain ⟨second, hsecond⟩ := Value.concatText_of_isTextual hr
    rw [hfirst, hsecond]
    exact hR.value (.string (first ++ second))
  · exact hR.refuse id

lemma binaryApply (operator : BinaryOperator) {left left' right right' : Value}
    (hl : R.Alike w left left') (hr : R.Alike w right right') :
    R.Runs w R.Alike (operator.apply left right) (operator.apply left' right') := by
  by_cases hlist : operator = .add ∧ left.tag = .list ∧ right.tag = .list
  · obtain ⟨rfl, hleft, hright⟩ := hlist
    cases hl with
    | list hx =>
      cases hr with
      | list hy =>
        refine hR.bind (hR.items hx) fun u xs xs' hu hxs => ?_
        refine hR.bind (hR.items (hR.cell_later hu hy)) fun t ys ys' ht hys => ?_
        refine hR.newList ?_
        unfold ItemsAlike
        rw [Array.toList_append, Array.toList_append]
        exact List.rel_append (hR.all_later ht hxs) hys
      | _ => cases hright
    | _ => cases hleft
  by_cases hmap : operator = .add ∧ left.tag = .map ∧ right.tag = .map
  · obtain ⟨rfl, hleft, hright⟩ := hmap
    cases hl with
    | map hx =>
      cases hr with
      | map hy =>
        refine hR.bind (hR.entries hx) fun u xs xs' hu hxs => ?_
        refine hR.bind (hR.entries (hR.cell_later hu hy)) fun t ys ys' ht hys => ?_
        exact hR.newMap (Table.Rel.merge (hxs.imp fun _ _ => hR.alike_later ht) hys)
      | _ => cases hright
    | _ => cases hleft
  cases hs : operator.onScalars? left right with
  | some result =>
    have happly : operator.apply left right = pure result ∧
        operator.apply left' right' = pure result := by
      unfold BinaryOperator.apply
      rw [hl.onScalars?_eq operator hr, hs]
      exact ⟨rfl, rfl⟩
    rw [happly.1, happly.2]
    rcases BinaryOperator.onScalars?_cases hs with ⟨x, rfl⟩ | ⟨b, rfl⟩
    · exact hR.value (.number x)
    · exact hR.value (.boolean b)
  | none =>
    rw [BinaryOperator.apply_eq_of_onScalars? hs hlist hmap,
      BinaryOperator.apply_eq_of_onScalars? (by rw [hl.onScalars?_eq operator hr, hs])
        (by rwa [hl.tag_eq, hr.tag_eq]) (by rwa [hl.tag_eq, hr.tag_eq])]
    rw [hl.joinsText_eq hr, hl.concatText_eq, hr.concatText_eq, hl.tag_eq, hr.tag_eq]
    exact hR.joined operator left right

lemma sequenceIndex (h : R.Alike w v v') (length : Nat) (target : Tag) :
    R.Same u (Eval.ofExcept (v.sequenceIndex length target))
      (Eval.ofExcept (v'.sequenceIndex length target)) := by
  rw [h.sequenceIndex_eq]
  exact hR.ofExcept fun _ => Value.not_isDefensive_of_sequenceIndex

lemma mapKey (h : R.Alike w v v') :
    R.Same u (Eval.ofExcept v.mapKey) (Eval.ofExcept v'.mapKey) := by
  rw [h.mapKey_eq]
  exact hR.ofExcept fun _ => Value.not_isDefensive_of_mapKey

variable {target target' index index' : Value}

lemma indexValue (ht : R.Alike w target target') (hi : R.Alike w index index') :
    R.Runs w R.Alike (Eval.indexValue target index) (Eval.indexValue target' index') := by
  cases ht with
  | list hc =>
    refine hR.bind (hR.items hc) fun u items items' hu hitems => ?_
    rw [hitems.size_eq]
    refine hR.bind_same (hR.sequenceIndex hi _ _) fun t place ht => hR.value ?_
    exact hR.alike_later ht (alike_getD (alike_getElem? hitems place))
  | string text =>
    exact hR.bind_same (hR.sequenceIndex hi _ _) fun _ place _ => hR.value (.string _)
  | map hc =>
    refine hR.bind_same (hR.mapKey hi) fun u key hu => ?_
    refine hR.bind (hR.entries (hR.cell_later hu hc)) fun t entries entries' _ he => hR.value ?_
    exact alike_getD (he.find? key)
  | function => exact hR.refuse id
  | builtin => exact hR.refuse id
  | _ => exact hR.refuse id

lemma assignIndex {f : FrameId} {n n' : Node} (hn : R.node w f n n') (ha : n.AssignsIndex)
    (ht : R.Alike w target target') (hi : R.Alike w index index') (hv : R.Alike w v v') :
    R.Runs w R.Alike (Eval.assignIndex target index v) (Eval.assignIndex target' index' v') := by
  cases ht with
  | list hc =>
    refine hR.bind (hR.items hc) fun u items items' hu hitems => ?_
    rw [hitems.size_eq]
    refine hR.bind_same (hR.sequenceIndex hi _ _) fun t place ht => ?_
    have hwt := hR.trans hu ht
    refine hR.bind_same (hR.setItem place (hR.node_later hwt hn) ha (hR.cell_later hwt hc)
      (hR.alike_later hwt hv)) fun t' _ ht' => ?_
    exact hR.value (hR.alike_later (hR.trans hwt ht') hv)
  | map hc =>
    refine hR.bind_same (hR.mapKey hi) fun u key hu => ?_
    refine hR.bind_same (hR.setEntry key (hR.node_later hu hn) ha (hR.cell_later hu hc)
      (hR.alike_later hu hv)) fun t _ ht => ?_
    exact hR.value (hR.alike_later (hR.trans hu ht) hv)
  | _ => exact hR.refuse id

lemma iterationItems (h : R.Alike w v v') :
    R.Runs w R.AllAlike (Eval.iterationItems v) (Eval.iterationItems v') := by
  cases h with
  | list hc =>
    refine hR.bind (hR.items hc) fun u items items' _ hitems => ?_
    exact hR.pure fun t ht => hR.all_later ht hitems
  | string text => exact hR.pure fun _ _ => allAlike_strings _ _
  | map hc =>
    refine hR.bind (hR.entries hc) fun u entries entries' _ he => ?_
    rw [he.keys_eq]
    exact hR.pure fun _ _ => allAlike_strings id _
  | _ => exact hR.refuse id

lemma printValues (he : R.endless) (h : R.AllAlike w vs vs') :
    R.Runs w R.Alike (Builtin.printValues vs) (Builtin.printValues vs') := by
  have htexts : R.Runs w (fun _ => List.Forall₂ Eq) (vs.mapM Eval.display) (vs'.mapM Eval.display) :=
    hR.mapM (fun _ h => h) (h.imp fun _ _ hv u hu => hR.display he (hR.alike_later hu hv))
  refine hR.bind htexts fun u texts texts' _ ht => ?_
  rw [List.forall₂_eq_eq_eq] at ht
  cases ht
  exact hR.bind_same (hR.print _) fun _ _ _ => hR.value .null

lemma textOf (he : R.endless) (h : R.AllAlike w vs vs') :
    R.Runs w R.Alike (Builtin.textOf vs) (Builtin.textOf vs') := by
  unfold Builtin.textOf
  rw [h.arityFault?_eq]
  refine hR.bind_same (hR.raiseIf fun _ => not_isDefensive_of_arityFault?) fun u _ hu => ?_
  refine hR.bind_same (hR.display he (hR.alike_later hu h.headD)) fun _ text _ => ?_
  exact hR.value (.string text)

lemma typeOf (h : R.AllAlike w vs vs') :
    R.Runs w R.Alike (Builtin.typeOf vs) (Builtin.typeOf vs') := by
  unfold Builtin.typeOf
  rw [h.arityFault?_eq, h.headD.tag_eq]
  exact hR.bind_same (hR.raiseIf fun _ => not_isDefensive_of_arityFault?) fun _ _ _ =>
    hR.value (.string _)

lemma argumentsFault (h : R.AllAlike w vs vs') (name : String) (accepted : List (List Tag)) :
    R.Same u (Eval.raiseIf (argumentsFault? name vs accepted))
      (Eval.raiseIf (argumentsFault? name vs' accepted)) := by
  rw [h.argumentsFault?_eq]
  exact hR.raiseIf fun _ => not_isDefensive_of_argumentsFault?

lemma lengthOf (h : R.AllAlike w vs vs') :
    R.Runs w R.Alike (Builtin.lengthOf vs) (Builtin.lengthOf vs') := by
  refine hR.bind_same (hR.argumentsFault h _ _) fun u _ hu => ?_
  have hhead := hR.alike_later hu h.headD
  generalize vs.headD .null = v at hhead
  generalize vs'.headD .null = v' at hhead
  cases hhead with
  | list hc =>
    refine hR.bind (hR.items hc) fun t items items' _ hitems => ?_
    rw [hitems.size_eq]
    exact hR.value (.number _)
  | map hc =>
    refine hR.bind (hR.entries hc) fun t entries entries' _ he => ?_
    rw [he.size_eq]
    exact hR.value (.number _)
  | string => exact hR.value (.number _)
  | _ => exact hR.value .null

lemma sumOf (h : R.AllAlike w vs vs') :
    R.Runs w R.Alike (Builtin.sumOf vs) (Builtin.sumOf vs') := by
  refine hR.bind_same (hR.argumentsFault h _ _) fun u _ hu => ?_
  have hhead := hR.alike_later hu h.headD
  generalize vs.headD .null = v at hhead
  generalize vs'.headD .null = v' at hhead
  cases hhead with
  | list hc =>
    refine hR.bind (hR.items hc) fun t items items' _ hitems => ?_
    rw [hitems.addAll_eq]
    exact hR.bind_same (hR.ofExcept fun _ => Builtin.not_isDefensive_of_addAll) fun _ _ _ =>
      hR.value (.number _)
  | _ => exact hR.value .null

lemma listOf (h : R.AllAlike w vs vs') :
    R.Runs w R.Alike (Builtin.listOf vs) (Builtin.listOf vs') := by
  refine hR.bind_same (hR.argumentsFault h _ _) fun u _ hu => ?_
  have hhead := hR.alike_later hu h.headD
  generalize vs.headD .null = v at hhead
  generalize vs'.headD .null = v' at hhead
  cases hhead with
  | list hc => exact hR.bind (hR.items hc) fun _ _ _ _ hitems => hR.newList hitems
  | string text => exact hR.newList (allAlike_strings _ _)
  | map hc =>
    refine hR.bind (hR.entries hc) fun t entries entries' _ he => ?_
    rw [he.keys_eq]
    exact hR.newList (allAlike_strings id _)
  | _ => exact hR.value .null

lemma rangeOf (he : R.endless) {bound bound' : Nat}
    (hb : bound = bound' ∨ R.lax ∧ bound ≤ bound') (h : R.AllAlike w vs vs') :
    R.Runs w R.Alike (Builtin.rangeOf bound vs) (Builtin.rangeOf bound' vs') := by
  have htypes : (vs'.map fun _ => [Tag.number]) = vs.map fun _ => [Tag.number] := by
    rw [List.map_const', List.map_const', h.length_eq]
  unfold Builtin.rangeOf
  rw [h.numbers_eq, htypes, ← h.length_eq]
  split
  · exact hR.refuse id
  refine hR.bind_same (hR.argumentsFault h _ _) fun u _ hu => ?_
  split
  rename_i start stop step _
  split
  · exact hR.refuse id
  rcases hb with rfl | ⟨hlax, hb⟩
  · split
    · rename_i hn
      exact hR.newList (allAlike_progression hn .nil)
    · exact hR.exhausted he
  cases hn : Builtin.progression stop step bound start #[] with
  | some numbers =>
    rw [Builtin.progression_mono hb hn]
    exact hR.newList (allAlike_progression hn .nil)
  | none =>
    cases hn' : Builtin.progression stop step bound' start #[] with
    | some numbers => exact hR.giveUp hlax (hR.newList (allAlike_progression hn' .nil))
    | none => exact hR.exhausted he

section

variable {call call' : Value → Eval Value} {c : CellId}
  (hcall : ∀ u v v', R.later w u → R.Alike u v v' → R.Runs u R.Alike (call v) (call' v'))
  (hc : R.cell w c)

include hcall hc

lemma mapItems (he : R.endless) (rounds position : Nat) {results results' : Array Value}
    (hr : R.ItemsAlike w results results') :
    R.Runs w R.ItemsAlike (Builtin.mapItems call c rounds position results)
      (Builtin.mapItems call' c rounds position results') := by
  induction rounds generalizing w position results results' with
  | zero => exact hR.exhausted he
  | succ rounds ih =>
    refine hR.bind (hR.items hc) fun u items items' hu hitems => ?_
    have hitem := alike_getElem? hitems position
    generalize items[position]? = item at hitem
    generalize items'[position]? = item' at hitem
    cases hitem with
    | none => exact hR.pure fun t ht => hR.all_later (hR.trans hu ht) hr
    | some hv =>
      refine hR.bind (hcall u _ _ hu hv) fun t result result' ht hresult => ?_
      have hwt := hR.trans hu ht
      refine ih (fun u v v' hu => hcall u v v' (hR.trans hwt hu)) (hR.cell_later hwt hc) _ ?_
      unfold ItemsAlike
      rw [Array.toList_push, Array.toList_push]
      exact List.rel_append (hR.all_later hwt hr) (.cons hresult .nil)

lemma filterItems (he : R.endless) (rounds position : Nat) {kept kept' : Array Value}
    (hk : R.ItemsAlike w kept kept') :
    R.Runs w R.ItemsAlike (Builtin.filterItems call c rounds position kept)
      (Builtin.filterItems call' c rounds position kept') := by
  induction rounds generalizing w position kept kept' with
  | zero => exact hR.exhausted he
  | succ rounds ih =>
    refine hR.bind (hR.items hc) fun u items items' hu hitems => ?_
    have hitem := alike_getElem? hitems position
    generalize items[position]? = item at hitem
    generalize items'[position]? = item' at hitem
    cases hitem with
    | none => exact hR.pure fun t ht => hR.all_later (hR.trans hu ht) hk
    | some hv =>
      refine hR.bind (hcall u _ _ hu hv) fun t verdict verdict' ht hverdict => ?_
      have hwt := hR.trans hu ht
      cases hverdict with
      | boolean b =>
        refine ih (fun u v v' hu => hcall u v v' (hR.trans hwt hu)) (hR.cell_later hwt hc) _ ?_
        split
        · unfold ItemsAlike
          rw [Array.toList_push, Array.toList_push]
          exact List.rel_append (hR.all_later hwt hk) (.cons (hR.alike_later ht hv) .nil)
        · exact hR.all_later hwt hk
      | _ => exact hR.refuse id

end

lemma functionAndList (name : String) (h : R.AllAlike w vs vs') :
    R.Runs w (fun u f f' => R.Alike u f.1 f'.1 ∧ f.2 = f'.2 ∧ R.cell u f.2)
      (Eval.ofExcept (Builtin.functionAndList name vs))
      (Eval.ofExcept (Builtin.functionAndList name vs')) := by
  rcases h.functionAndList name with ⟨reason, hv, hv'⟩ | ⟨g, g', c, hv, hv', hg, hc⟩
  · rw [hv, hv']
    exact hR.refuse (Builtin.not_isDefensive_of_functionAndList hv)
  · rw [hv, hv']
    exact hR.pure fun u hu => ⟨hR.alike_later hu hg, rfl, hR.cell_later hu hc⟩

lemma goesOver (name : String) {loop loop' : Value → CellId → Nat → Eval (Array Value)}
    (hloop : ∀ u g g' c rounds, R.Alike u g g' → R.cell u c →
      R.Runs u R.ItemsAlike (loop g c rounds) (loop' g' c rounds))
    (h : R.AllAlike w vs vs') :
    R.Runs w R.Alike
      (do
        let (function, cell) ← Eval.ofExcept (Builtin.functionAndList name vs)
        Eval.newList (← loop function cell ((← Eval.items cell).size + 1)))
      (do
        let (function, cell) ← Eval.ofExcept (Builtin.functionAndList name vs')
        Eval.newList (← loop' function cell ((← Eval.items cell).size + 1))) := by
  refine hR.bind (hR.functionAndList name h) ?_
  rintro u ⟨g, c⟩ ⟨g', _⟩ _ ⟨hg, rfl, hc⟩
  refine hR.bind (hR.items hc) fun t items items' ht hitems => ?_
  rw [hitems.size_eq]
  refine hR.bind (hloop t g g' c _ (hR.alike_later ht hg) (hR.cell_later ht hc)) ?_
  exact fun _ _ _ _ hresults => hR.newList hresults

section

variable {call call' : Value → Value → Eval Value}
  (hcall : ∀ u g g' v v', R.Alike u g g' → R.Alike u v v' →
    R.Runs u R.Alike (call g v) (call' g' v'))

include hcall

lemma mapOver (he : R.endless) (h : R.AllAlike w vs vs') :
    R.Runs w R.Alike (Builtin.mapOver call vs) (Builtin.mapOver call' vs') := by
  have hloop (u g g' c rounds) (hg : R.Alike u g g') (hc : R.cell u c) :
      R.Runs u R.ItemsAlike (Builtin.mapItems (call g) c rounds 0 #[])
        (Builtin.mapItems (call' g') c rounds 0 #[]) :=
    hR.mapItems (fun t v v' ht => hcall t g g' v v' (hR.alike_later ht hg)) hc he rounds 0 .nil
  exact hR.goesOver "map" hloop h

lemma filterOver (he : R.endless) (h : R.AllAlike w vs vs') :
    R.Runs w R.Alike (Builtin.filterOver call vs) (Builtin.filterOver call' vs') := by
  have hloop (u g g' c rounds) (hg : R.Alike u g g') (hc : R.cell u c) :
      R.Runs u R.ItemsAlike (Builtin.filterItems (call g) c rounds 0 #[])
        (Builtin.filterItems (call' g') c rounds 0 #[]) :=
    hR.filterItems (fun t v v' ht => hcall t g g' v v' (hR.alike_later ht hg)) hc he rounds 0 .nil
  exact hR.goesOver "filter" hloop h

end

lemma invoke (he : R.endless) {call call' : Caller}
    (hcall : ∀ u context context' g g' vs vs' caller, R.context context context' →
      R.Alike u g g' → R.AllAlike u vs vs' → (∀ f ∈ caller, R.frame u f) →
      R.Runs u R.Alike (call context g vs caller) (call' context' g' vs' caller))
    {bound bound' : Nat} (hb : bound = bound' ∨ R.lax ∧ bound ≤ bound') {context context' : Context}
    (hcontext : R.context context context') {b b' : Builtin} (hbuiltin : R.builtin b b')
    (h : R.AllAlike w vs vs') {caller : Option FrameId} (hf : ∀ f ∈ caller, R.frame w f) :
    R.Runs w R.Alike (b.invoke call bound context vs caller)
      (b'.invoke call' bound' context' vs' caller) := by
  have hback (u : R.World) (g g' v v' : Value) (hg : R.Alike u g g') (hv : R.Alike u v v') :
      R.Runs u R.Alike (call { context with policies := b.policies } g [v] none)
        (call' { context' with policies := b'.policies } g' [v'] none) :=
    hcall u _ _ g g' [v] [v'] none (hR.back hbuiltin hcontext) hg (.cons hv .nil) nofun
  unfold Builtin.invoke
  rw [hR.host hbuiltin]
  cases hhost : b.host with
  | print => exact hR.printValues he h
  | length => exact hR.lengthOf h
  | sum => exact hR.sumOf h
  | list => exact hR.listOf h
  | range => exact hR.rangeOf he hb h
  | map => exact hR.mapOver hback he h
  | filter => exact hR.filterOver hback he h
  | text => exact hR.textOf he h
  | type => exact hR.typeOf h
  | argumentCount =>
    dsimp only
    rw [h.length_eq]
    exact hR.value (.number _)
  | callerScope => exact hR.scope hbuiltin hhost hf
  | firstArgument => exact hR.value h.headD

end Lawful

end Simulation

end Klang

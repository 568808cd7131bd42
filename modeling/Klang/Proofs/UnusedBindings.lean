import Klang.Proofs.Views.Evaluator

/-! Unused bindings. A binding whose name occurs in no code that can be run has no influence on a run:
the run ends in the same way, prints the same, and leaves the same store but for that binding. -/

namespace Klang

namespace Table

variable {α : Type}

def without (table : Table α) (x : String) : Table α where
  entries := table.entries.filter fun e => e.1 ≠ x
  nodup := table.nodup.sublist (List.filter_sublist.map Prod.fst)

variable (table : Table α) {x y : String}

lemma find?_without (h : y ≠ x) : (table.without x).find? y = table.find? y := by
  change (table.entries.filter fun e => e.1 ≠ x).lookup y = table.entries.lookup y
  induction table.entries with
  | nil => rfl
  | cons entry entries ih =>
    by_cases hx : entry.1 = x
    · have hy : (y == entry.1) = false := by simpa [hx] using h
      rw [List.filter_cons_of_neg (by simpa using hx), List.lookup_cons, hy, ih]
    · rw [List.filter_cons_of_pos (by simpa using hx), List.lookup_cons, List.lookup_cons, ih]

lemma without_insert (h : y ≠ x) (a : α) :
    (table.insert y a).without x = (table.without x).insert y a := by
  apply ext_entries
  simp only [without, insert]
  induction table.entries with
  | nil => simp [putEntry, h]
  | cons entry entries ih =>
    by_cases hx : entry.1 = x
    · have hy : entry.1 ≠ y := fun he => h (he.symm.trans hx)
      rw [putEntry, if_neg hy, List.filter_cons_of_neg (by simpa using hx),
        List.filter_cons_of_neg (by simpa using hx), ih]
    · rw [List.filter_cons_of_pos (by simpa using hx)]
      by_cases hy : entry.1 = y
      · rw [putEntry, putEntry, if_pos hy, if_pos hy, List.filter_cons_of_pos (by simpa using h)]
      · rw [putEntry, putEntry, if_neg hy, if_neg hy, List.filter_cons_of_pos (by simpa using hx),
          ih]

lemma without_insert_self (h : table.contains x = false) (a : α) :
    (table.insert x a).without x = table := by
  have hkeys : x ∉ table.entries.map Prod.fst := by
    intro hm
    rw [(contains_eq_true_iff x).2 hm] at h
    cases h
  apply ext_entries
  simp only [without, insert]
  generalize table.entries = entries at hkeys ⊢
  induction entries with
  | nil => simp [putEntry]
  | cons entry entries ih =>
    rw [List.map_cons, List.mem_cons, not_or] at hkeys
    obtain ⟨hne, hrest⟩ := hkeys
    rw [putEntry, if_neg (Ne.symm hne), List.filter_cons_of_pos (by simpa using Ne.symm hne),
      ih hrest]

end Table

namespace Store

def without (s : Store) (f : FrameId) (x : String) : Store :=
  { s with frames := s.frames.modify f fun g => { g with bindings := g.bindings.without x } }

variable (s : Store) (f : FrameId) {x : String}

lemma bindings_without (g : FrameId) : (s.without f x).bindings g =
    if g = f then (s.bindings g).without x else s.bindings g := by
  simp only [bindings, without, Array.getElem?_modify]
  by_cases hg : g = f
  · subst hg
    cases s.frames[g]? with
    | none =>
      simp only [Option.map_none, if_true]
      rfl
    | some found => simp
  · simp [hg, Ne.symm hg]

lemma find?_bindings_without (g : FrameId) {y : String} (h : y ≠ x) :
    ((s.without f x).bindings g).find? y = (s.bindings g).find? y := by
  rw [bindings_without]
  split
  · exact Table.find?_without _ h
  · rfl

lemma parent?_without (g : FrameId) : (s.without f x).parent? g = s.parent? g := by
  simp only [parent?, without, Array.getElem?_modify]
  by_cases hg : f = g
  · subst hg
    cases s.frames[f]? <;> simp
  · simp [hg]

lemma size_frames_without : (s.without f x).frames.size = s.frames.size := by
  simp [without]

lemma without_pushFrame (h : f < s.frames.size) (parent : Option FrameId) :
    (s.pushFrame parent).without f x = (s.without f x).pushFrame parent := by
  simp only [without, pushFrame, Store.mk.injEq, and_true]
  apply Array.ext_getElem?
  intro i
  simp only [Array.getElem?_modify, Array.getElem?_push, Array.size_modify]
  by_cases hi : i = s.frames.size
  · simp [hi, Nat.ne_of_lt h]
  · simp [hi]

lemma without_setBinding (g : FrameId) {y : String} (h : y ≠ x) (b : Binding) :
    (s.setBinding g y b).without f x = (s.without f x).setBinding g y b := by
  simp only [without, setBinding, Store.mk.injEq, and_true]
  apply Array.ext_getElem?
  intro i
  simp only [Array.getElem?_modify]
  by_cases hf : f = i <;> by_cases hg : g = i <;> cases s.frames[i]? <;>
    simp [hf, hg, Table.without_insert _ h]

lemma without_setBinding_self (h : (s.bindings f).contains x = false) (b : Binding) :
    (s.setBinding f x b).without f x = s := by
  obtain ⟨frames, cells, output, trace⟩ := s
  simp only [without, setBinding, Store.mk.injEq, and_true]
  apply Array.ext_getElem?
  intro i
  simp only [Array.getElem?_modify]
  by_cases hf : f = i
  · subst hf
    simp only [bindings] at h
    cases hi : frames[f]? with
    | none => simp
    | some found =>
      rw [hi] at h
      simp [Table.without_insert_self _ h]
  · simp [hf]

/-- The second store has one binding more than the first. -/
structure Extra (s s' : Store) (f : FrameId) (x : String) (b : Binding) : Prop where
  rest : s'.without f x = s
  found : (s'.bindings f).find? x = some b

namespace Extra

variable {s s' : Store} {f : FrameId} {x : String} {b : Binding} (h : s.Extra s' f x b)

include h

lemma lt_size : f < s'.frames.size := by
  apply Nat.lt_of_not_le
  intro hle
  have hb := h.found
  rw [bindings, Array.getElem?_eq_none hle] at hb
  cases hb

lemma pushFrame (parent : Option FrameId) : (s.pushFrame parent).Extra (s'.pushFrame parent) f x b where
  rest := by rw [without_pushFrame _ _ h.lt_size, h.rest]
  found := by rw [bindings_pushFrame, h.found]

lemma setBinding (g : FrameId) {y : String} (hy : y ≠ x) (c : Binding) :
    (s.setBinding g y c).Extra (s'.setBinding g y c) f x b where
  rest := by rw [without_setBinding _ _ _ hy, h.rest]
  found := by rw [find?_setBinding, if_neg fun hc => hy hc.2.symm, h.found]

lemma of_frames_eq {t t' : Store} (ht : t'.without f x = t) (hf : t'.frames = s'.frames) :
    t.Extra t' f x b where
  rest := ht
  found := by rw [bindings, hf, ← h.found, bindings]

end Extra

end Store

def Node.mentions (n : Node) : List String := n.preorder.flatMap Node.names

def Closure.Ignores (c : Closure) (x : String) : Prop :=
  x ∉ c.parameters.map Parameter.name ∧ x ∉ c.body.mentions

def Builtin.IsStandard (b : Builtin) : Prop := b.host ∈ standardBuiltins.map Prod.snd

def Value.Ignores (x : String) : Value → Prop
  | .function c => c.Ignores x
  | .builtin b => b.IsStandard
  | _ => True

lemma Node.not_mem_mentions {n : Node} {x : String} :
    x ∉ n.mentions ↔ n.Everywhere fun m => x ∉ m.names := by
  constructor
  · intro h
    apply everywhere_of_preorder
    intro m hm hx
    exact h (List.mem_flatMap.2 ⟨m, hm, hx⟩)
  · intro h hm
    obtain ⟨m, hm, hx⟩ := List.mem_flatMap.1 hm
    exact h.of_mem_preorder hm hx

namespace View

variable {f : FrameId} {x : String} {b : Binding}

def unused (f : FrameId) (x : String) (b : Binding) : View where
  alike s s' := s.Extra s' f x b ∧ s.Holds (Value.Ignores x)
  name y := y ≠ x
  closure c := c.Ignores x
  builtin := Builtin.IsStandard
  node n := x ∉ n.mentions

lemma unused_value {s : Store} {v : Value} : (unused f x b).value s v ↔ v.Ignores x := by
  cases v <;> simp [value, unused, Value.Ignores]

lemma unused_all {s : Store} {cell : Cell} (h : cell.All ((unused f x b).value s)) :
    cell.All (Value.Ignores x) := by
  cases cell with
  | list items => exact fun v hv => unused_value.1 (h v hv)
  | map entries => exact fun e he => unused_value.1 (h e he)

lemma not_isStandard_of_callerScope {builtin : Builtin} (h : builtin.host = .callerScope) :
    ¬ builtin.IsStandard := by
  rw [Builtin.IsStandard, h]
  decide

lemma unused_made {n : Node} {g : FrameId} {c : Closure} (hn : x ∉ n.mentions)
    (hc : c ∈ n.closure? g) : c.Ignores x := by
  have heverywhere := Node.not_mem_mentions.1 hn
  refine ⟨?_, Node.not_mem_mentions.2 (heverywhere.closure hc)⟩
  have hself : x ∉ n.names := heverywhere.self
  cases n with
  | function =>
    cases hc
    exact hself
  | definition =>
    cases hc
    exact fun hm => hself (List.mem_cons_of_mem _ hm)
  | _ => cases hc

lemma lawful_unused (f : FrameId) (x : String) (b : Binding) : (unused f x b).Lawful where
  frame_mono := fun _ _ => trivial
  cell_mono := fun _ _ => trivial
  sizes := by
    rintro s s' ⟨h, -⟩
    rw [← h.rest]
    exact ⟨(s'.size_frames_without f).symm, rfl⟩
  parent := by
    rintro s s' g ⟨h, -⟩ _
    rw [← h.rest, Store.parent?_without]
    exact ⟨rfl, fun _ _ => trivial⟩
  find := by
    rintro s s' g y ⟨h, -⟩ _ hy
    rw [← h.rest, Store.find?_bindings_without _ _ _ hy]
  bound := by
    rintro s s' g y c ⟨-, h⟩ _ hc
    exact unused_value.2 ((h.bindings g).find? hc)
  items := by
    rintro s s' c ⟨h, hh⟩ _
    refine ⟨?_, fun v hv => unused_value.2 (hh.items c v hv)⟩
    rw [← h.rest]
    rfl
  entries := by
    rintro s s' c ⟨h, hh⟩ _
    refine ⟨?_, fun e he => unused_value.2 (hh.entries c e he)⟩
    rw [← h.rest]
    rfl
  scope := fun _ _ hb hhost => absurd hb (not_isStandard_of_callerScope hhost)
  pushFrame := by
    rintro s s' g ⟨h, hh⟩ _
    exact ⟨⟨h.pushFrame _, hh.pushFrame _⟩, trivial⟩
  pushCell := by
    rintro s s' cell ⟨h, hh⟩ hc
    refine ⟨⟨h.of_frames_eq ?_ rfl, hh.pushCell (unused_all hc)⟩, trivial⟩
    rw [← h.rest]
    rfl
  setBinding := by
    rintro s s' g y c ⟨h, hh⟩ _ hy hc
    exact ⟨h.setBinding g hy c, hh.setBinding (unused_value.1 hc) g y⟩
  setItem := by
    rintro n s s' c v index _ _ ⟨h, hh⟩ _ hv
    refine ⟨h.of_frames_eq ?_ rfl, hh.setItem (unused_value.1 hv) c index⟩
    rw [← h.rest]
    rfl
  setEntry := by
    rintro n s s' c v key _ _ ⟨h, hh⟩ _ hv
    refine ⟨h.of_frames_eq ?_ rfl, hh.setEntry (unused_value.1 hv) c key⟩
    rw [← h.rest]
    rfl
  print := by
    rintro s s' text ⟨h, hh⟩
    refine ⟨h.of_frames_eq ?_ rfl, hh.print text⟩
    rw [← h.rest]
    rfl
  log := by
    rintro s s' line ⟨h, hh⟩
    refine ⟨h.of_frames_eq ?_ rfl, hh.log line⟩
    rw [← h.rest]
    rfl
  here := fun hn hm => Node.not_mem_mentions.2 ((Node.not_mem_mentions.1 hn).here hm)
  inside := fun hn hm => Node.not_mem_mentions.2 ((Node.not_mem_mentions.1 hn).inside hm)
  names := by
    rintro n y hn hy rfl
    exact (Node.not_mem_mentions.1 hn).self hy
  made := unused_made
  body := by
    intro c m hc hm
    have hbody := Node.not_mem_mentions.1 hc.2
    exact Node.not_mem_mentions.2 (hbody.child (Node.mem_children_of_mem_statements hm))
  parameters := by
    rintro c p hc hp rfl
    exact hc.1 (List.mem_map_of_mem hp)

end View

/-- A binding whose name the program and the functions of a store do not speak of changes neither how
the program ends nor what it prints, and in the end it is all that is different. -/
theorem runProgram_unusedBinding (policies : Policies) (frame : FrameId) {program : Node} {s : Store}
    {f : FrameId} (hf : f < s.frames.size) {x : String} (hfree : (s.bindings f).contains x = false)
    (hprogram : x ∉ program.mentions) (hstore : s.Holds (Value.Ignores x)) {v : Value}
    (isFinal : Bool) {ascription : Option String} (hv : bindingFault? v ascription = none) :
    let r := runProgram policies frame program s
    let r' := (do
      let _ ← Eval.declare f x v isFinal ascription
      runProgram policies frame program : Eval Value) s
    (Outcome.of r').1 = (Outcome.of r).1 ∧ (finalStore r').output = (finalStore r).output ∧
      (finalStore r).Extra (finalStore r') f x ⟨v, isFinal, ascription⟩ := by
  intro r r'
  let t := s.setBinding f x ⟨v, isFinal, ascription⟩
  have hextra : s.Extra t f x ⟨v, isFinal, ascription⟩ := by
    refine ⟨s.without_setBinding_self f hfree _, ?_⟩
    rw [Store.find?_setBinding, if_pos ⟨⟨rfl, hf⟩, rfl⟩]
  have hdeclare : Eval.declare f x v isFinal ascription s = .ok v t := by
    rw [Eval.declare_apply, hfree, hv]
    rfl
  have hrun : r' = runProgram policies frame program t := Eval.bind_ok hdeclare
  have hview := View.lawful_unused f x ⟨v, isFinal, ascription⟩
  have hends := View.goes_runProgram hview policies (w := s) (f := frame) trivial hprogram s t
    (.refl s) ⟨hextra, hstore⟩
  rw [hrun]
  obtain ⟨hfinal, -⟩ := hends.alike
  refine ⟨hends.outcome, ?_, hfinal⟩
  rw [← hfinal.rest]
  rfl

lemma standardStore_ignores (policies : Policies) (x : String) :
    (standardStore policies).Holds (Value.Ignores x) := by
  have hnew : (finalStore (newGlobal policies [] {})).Holds (Value.Ignores x) := by
    apply holds_newGlobal
    intro e he
    have hextra : (Table.ofList ([] : List (String × HostFunction))).entries = [] := rfl
    rw [hextra, List.append_nil] at he
    exact List.mem_map_of_mem he
  unfold standardStore
  generalize newGlobal policies [] {} = r at hnew
  cases r <;> exact hnew

theorem runProgram_unusedBinding_call :
    let body : Node := .block none [.returnStatement none (some (.identifier none "n"))]
    let s := (standardStore {}).setBinding rootFrame "same"
      ⟨.function ⟨"same", [⟨"n", none⟩], body, rootFrame⟩, true, none⟩
    let program : Node := .program none
      [.expressionStatement none (.call none (.identifier none "same") [.boolean none true])]
    let r := runProgram {} rootFrame program s
    let r' := (do
      let _ ← Eval.declare rootFrame "flag" (.boolean false) true (some "bool")
      runProgram {} rootFrame program : Eval Value) s
    rootFrame < s.frames.size ∧ (s.bindings rootFrame).contains "flag" = false ∧
      "flag" ∉ program.mentions ∧ s.Holds (Value.Ignores "flag") ∧
        bindingFault? (.boolean false) (some "bool") = none ∧
          (Outcome.of r').1 = (Outcome.of r).1 ∧ (finalStore r').output = (finalStore r).output ∧
            (finalStore r).Extra (finalStore r') rootFrame "flag" ⟨.boolean false, true, some "bool"⟩ := by
  intro body s program r r'
  have hsize : rootFrame < s.frames.size := by decide
  have hfree : (s.bindings rootFrame).contains "flag" = false := by rfl
  have hprogram : "flag" ∉ program.mentions := by
    rw [Node.not_mem_mentions]
    refine .intro (by decide) (List.forall_mem_singleton.2 ?_)
    refine .intro (by decide) (List.forall_mem_singleton.2 ?_)
    refine .intro (by decide) (List.forall_mem_cons.2 ⟨?_, List.forall_mem_singleton.2 ?_⟩)
    · exact .intro (by decide) (List.forall_mem_nil _)
    · exact .intro (by decide) (List.forall_mem_nil _)
  have hbody : "flag" ∉ body.mentions := by
    rw [Node.not_mem_mentions]
    refine .intro (by decide) (List.forall_mem_singleton.2 ?_)
    refine .intro (by decide) (List.forall_mem_singleton.2 ?_)
    exact .intro (by decide) (List.forall_mem_nil _)
  have hstore : s.Holds (Value.Ignores "flag") :=
    (standardStore_ignores {} "flag").setBinding (b := ⟨.function _, true, none⟩)
      ⟨by decide, hbody⟩ rootFrame "same"
  have hv : bindingFault? (.boolean false) (some "bool") = none := by rfl
  exact ⟨hsize, hfree, hprogram, hstore, hv,
    runProgram_unusedBinding {} rootFrame hsize hfree hprogram hstore true hv⟩

end Klang

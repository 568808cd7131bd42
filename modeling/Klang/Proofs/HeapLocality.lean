import Klang.Proofs.Views.Evaluator
import Mathlib.Logic.Relation

/-! Evaluation is local. It changes nothing that cannot be reached from the frame it takes place in,
and what can be reached afterwards could be reached before or is new. -/

namespace Klang

inductive Ref where
  | frame (id : FrameId)
  | cell (id : CellId)
deriving DecidableEq

def Value.ref? : Value → Option Ref
  | .list c | .map c => some (.cell c)
  | .function c => some (.frame c.frame)
  | _ => none

def Frame.refs (frame : Frame) : List Ref :=
  frame.parent.toList.map .frame ++ frame.bindings.values.filterMap fun b => b.value.ref?

def Cell.refs : Cell → List Ref
  | .list items => items.toList.filterMap Value.ref?
  | .map entries => entries.values.filterMap Value.ref?

lemma Frame.mem_refs {frame : Frame} {r : Ref} : r ∈ frame.refs ↔
    (∃ p, frame.parent = some p ∧ .frame p = r) ∨
      ∃ e ∈ frame.bindings.entries, e.2.value.ref? = some r := by
  simp [refs, Table.values]

namespace Store

def refs (s : Store) : Ref → List Ref
  | .frame f => (s.frames[f]?.map Frame.refs).getD []
  | .cell c => (s.cells[c]?.map Cell.refs).getD []

def Has (s : Store) : Ref → Prop
  | .frame f => f < s.frames.size
  | .cell c => c < s.cells.size

def Same (s t : Store) : Ref → Prop
  | .frame f => t.frames[f]? = s.frames[f]?
  | .cell c => t.cells[c]? = s.cells[c]?

/-- What can be reached goes through parents, bound values, items, entries and the frames of
functions. -/
abbrev Reaches (s : Store) : Ref → Ref → Prop := Relation.ReflTransGen fun r r' => r' ∈ s.refs r

variable {s t : Store} {r r' : Ref}

lemma Same.refl (s : Store) (r : Ref) : s.Same s r := by
  cases r <;> rfl

lemma Same.trans {u : Store} (hst : s.Same t r) (htu : t.Same u r) : s.Same u r := by
  cases r <;> exact Eq.trans htu hst

lemma Same.refs (h : s.Same t r) : t.refs r = s.refs r := by
  cases r with
  | frame f => rw [Store.refs, Store.refs, h]
  | cell c => rw [Store.refs, Store.refs, h]

lemma Grows.has (h : s.Grows t) (hr : s.Has r) : t.Has r := by
  cases r with
  | frame f => exact Nat.lt_of_lt_of_le hr h.frames
  | cell c => exact Nat.lt_of_lt_of_le hr h.cells

lemma has_of_mem_refs (h : r' ∈ s.refs r) : s.Has r := by
  cases r with
  | frame f =>
    apply Nat.lt_of_not_le
    intro hle
    simp [refs, Array.getElem?_eq_none hle] at h
  | cell c =>
    apply Nat.lt_of_not_le
    intro hle
    simp [refs, Array.getElem?_eq_none hle] at h

lemma same_pushFrame (s : Store) (parent : Option FrameId) (h : r ≠ .frame s.frames.size) :
    s.Same (s.pushFrame parent) r := by
  cases r with
  | frame f =>
    have hf : f ≠ s.frames.size := fun he => h (congrArg _ he)
    simp [Same, pushFrame, Array.getElem?_push, hf]
  | cell c => rfl

lemma same_pushCell (s : Store) (cell : Cell) (h : r ≠ .cell s.cells.size) :
    s.Same (s.pushCell cell) r := by
  cases r with
  | frame f => rfl
  | cell c =>
    have hc : c ≠ s.cells.size := fun he => h (congrArg _ he)
    simp [Same, pushCell, Array.getElem?_push, hc]

lemma same_setBinding (s : Store) {f : FrameId} (x : String) (b : Binding) (h : r ≠ .frame f) :
    s.Same (s.setBinding f x b) r := by
  cases r with
  | frame g =>
    have hg : f ≠ g := fun he => h (congrArg _ he.symm)
    simp [Same, setBinding, Array.getElem?_modify, hg]
  | cell c => rfl

lemma same_setItem (s : Store) {c : CellId} (index : Nat) (v : Value) (h : r ≠ .cell c) :
    s.Same (s.setItem c index v) r := by
  cases r with
  | frame f => rfl
  | cell c' =>
    have hc : c ≠ c' := fun he => h (congrArg _ he.symm)
    simp [Same, setItem, Array.getElem?_modify, hc]

lemma same_setEntry (s : Store) {c : CellId} (key : String) (v : Value) (h : r ≠ .cell c) :
    s.Same (s.setEntry c key v) r := by
  cases r with
  | frame f => rfl
  | cell c' =>
    have hc : c ≠ c' := fun he => h (congrArg _ he.symm)
    simp [Same, setEntry, Array.getElem?_modify, hc]

lemma refs_pushFrame (s : Store) (parent : Option FrameId) :
    (s.pushFrame parent).refs (.frame s.frames.size) = parent.toList.map .frame := by
  simp [refs, pushFrame, Frame.refs, Table.values, Table.empty]

lemma refs_pushCell (s : Store) (cell : Cell) :
    (s.pushCell cell).refs (.cell s.cells.size) = cell.refs := by
  simp [refs, pushCell]

lemma mem_refs_setBinding {f : FrameId} {x : String} {b : Binding}
    (h : r ∈ (s.setBinding f x b).refs (.frame f)) :
    r ∈ s.refs (.frame f) ∨ b.value.ref? = some r := by
  simp only [refs, setBinding, Array.getElem?_modify, if_true] at h ⊢
  cases hf : s.frames[f]? with
  | none => simp [hf] at h
  | some frame =>
    simp only [hf, Option.map_some, Option.getD_some, Frame.mem_refs] at h ⊢
    rcases h with hp | ⟨e, he, hr⟩
    · exact .inl (.inl hp)
    · rcases Table.mem_putEntry he with rfl | he
      · exact .inr hr
      · exact .inl (.inr ⟨e, he, hr⟩)

lemma mem_refs_setItem {c : CellId} {index : Nat} {v : Value}
    (h : r ∈ (s.setItem c index v).refs (.cell c)) :
    r ∈ s.refs (.cell c) ∨ v.ref? = some r := by
  simp only [refs, setItem, Array.getElem?_modify, if_true] at h ⊢
  cases hc : s.cells[c]? with
  | none => simp [hc] at h
  | some cell =>
    simp only [hc, Option.map_some, Option.getD_some] at h ⊢
    cases cell with
    | list items =>
      obtain ⟨item, hm, hr⟩ := List.mem_filterMap.1 h
      rcases Array.mem_or_eq_of_mem_setIfInBounds (Array.mem_toList_iff.1 hm) with hm | rfl
      · exact .inl (List.mem_filterMap.2 ⟨item, Array.mem_toList_iff.2 hm, hr⟩)
      · exact .inr hr
    | map entries => exact .inl h

lemma mem_refs_setEntry {c : CellId} {key : String} {v : Value}
    (h : r ∈ (s.setEntry c key v).refs (.cell c)) :
    r ∈ s.refs (.cell c) ∨ v.ref? = some r := by
  simp only [refs, setEntry, Array.getElem?_modify, if_true] at h ⊢
  cases hc : s.cells[c]? with
  | none => simp [hc] at h
  | some cell =>
    simp only [hc, Option.map_some, Option.getD_some] at h ⊢
    cases cell with
    | list items => exact .inl h
    | map entries =>
      obtain ⟨v', hm, hr⟩ := List.mem_filterMap.1 h
      obtain ⟨e, he, rfl⟩ := List.mem_map.1 hm
      rcases Table.mem_putEntry he with rfl | he
      · exact .inr hr
      · exact .inl (List.mem_filterMap.2 ⟨e.2, List.mem_map_of_mem he, hr⟩)

end Store

section

variable (base : Store) (frame : FrameId)

def Store.Region (s : Store) (r : Ref) : Prop :=
  base.Reaches (.frame frame) r ∨ ¬ base.Has r ∧ s.Has r

/-- No way leads out of the region, and outside of it nothing has changed. -/
structure Store.Confines (s : Store) : Prop where
  grows : base.Grows s
  same : ∀ r, base.Has r → ¬ base.Reaches (.frame frame) r → base.Same s r
  closed : ∀ {r r'}, base.Region frame s r → r' ∈ s.refs r → base.Region frame s r'

def View.region : View where
  alike s s' := s' = s ∧ base.Confines frame s
  frame s f := base.Region frame s (.frame f)
  cell s c := base.Region frame s (.cell c)

end

variable {base s t : Store} {frame : FrameId} {r : Ref}

namespace Store

lemma Region.mono (hr : base.Region frame s r) (h : s.Grows t) : base.Region frame t r := by
  rcases hr with hr | ⟨hnew, hr⟩
  · exact .inl hr
  · exact .inr ⟨hnew, h.has hr⟩

lemma confines_refl (s : Store) (frame : FrameId) : s.Confines frame s where
  grows := .refl s
  same := fun r _ _ => .refl s r
  closed := by
    rintro r r' (hr | ⟨hnew, hr⟩) hm
    · exact .inl (hr.tail hm)
    · exact absurd hr hnew

lemma Confines.write (h : base.Confines frame s) (hgrows : s.Grows t) {x : Ref}
    (hx : base.Region frame t x) (hsame : ∀ r, r ≠ x → s.Same t r)
    (hrefs : ∀ r ∈ t.refs x, base.Region frame t r) : base.Confines frame t where
  grows := h.grows.trans hgrows
  same := by
    intro r hr hfar
    have hne : r ≠ x := by
      rintro rfl
      rcases hx with hx | ⟨hnew, -⟩
      · exact hfar hx
      · exact hnew hr
    exact (h.same r hr hfar).trans (hsame r hne)
  closed := by
    intro r r' hr hm
    by_cases he : r = x
    · subst he
      exact hrefs r' hm
    · rw [(hsame r he).refs] at hm
      have hold : base.Region frame s r := hr.imp_right fun hnew => ⟨hnew.1, has_of_mem_refs hm⟩
      exact (h.closed hold hm).mono hgrows

lemma Confines.of_data_eq (h : base.Confines frame s) (hf : t.frames = s.frames)
    (hc : t.cells = s.cells) : base.Confines frame t := by
  obtain ⟨frames, cells, output, trace⟩ := t
  subst hf hc
  refine ⟨⟨h.grows.frames, h.grows.cells⟩, ?_, ?_⟩
  · intro r hr hfar
    cases r <;> exact h.same _ hr hfar
  · intro r r' hr hm
    have hold : base.Region frame s r := by cases r <;> exact hr
    have hnew : base.Region frame s r' := h.closed hold (by cases r <;> exact hm)
    cases r' <;> exact hnew

lemma Confines.reaches (h : base.Confines frame s) {r' : Ref} (hr : base.Region frame s r)
    (hreach : s.Reaches r r') : base.Region frame s r' := by
  induction hreach with
  | refl => exact hr
  | tail _ hm ih => exact h.closed ih hm

end Store

namespace View

lemma region_value {v : Value} :
    (region base frame).value s v ↔ ∀ r, v.ref? = some r → base.Region frame s r := by
  cases v <;> simp [value, region, Value.ref?]

lemma region_binding {f : FrameId} {x : String} {b : Binding} (h : base.Confines frame s)
    (hf : base.Region frame s (.frame f)) (hb : (s.bindings f).find? x = some b) :
    (region base frame).value s b.value := by
  have hall : (s.bindings f).All fun b => (region base frame).value s b.value := by
    intro e he
    apply region_value.2
    intro r hr
    apply h.closed hf
    unfold Store.bindings at he
    split at he
    · rename_i found hfound
      rw [Store.refs, hfound]
      exact Frame.mem_refs.2 (.inr ⟨e, he, hr⟩)
    · cases he
  exact hall.find? hb

lemma region_items {c : CellId} (h : base.Confines frame s)
    (hc : base.Region frame s (.cell c)) :
    ∀ v ∈ s.items c, (region base frame).value s v := by
  intro v hv
  apply region_value.2
  intro r hr
  apply h.closed hc
  unfold Store.items at hv
  split at hv
  · rename_i items hcell
    rw [Store.refs, hcell]
    exact List.mem_filterMap.2 ⟨v, Array.mem_toList_iff.2 hv, hr⟩
  · simp at hv

lemma region_entries {c : CellId} (h : base.Confines frame s)
    (hc : base.Region frame s (.cell c)) :
    (s.entries c).All ((region base frame).value s) := by
  intro e he
  apply region_value.2
  intro r hr
  apply h.closed hc
  unfold Store.entries at he
  split at he
  · rename_i entries hcell
    rw [Store.refs, hcell]
    exact List.mem_filterMap.2 ⟨e.2, List.mem_map_of_mem he, hr⟩
  · cases he

lemma region_refs {cell : Cell} (h : cell.All ((region base frame).value s)) :
    ∀ r ∈ cell.refs, base.Region frame s r := by
  intro r hr
  cases cell with
  | list items =>
    obtain ⟨v, hm, hv⟩ := List.mem_filterMap.1 hr
    exact region_value.1 (h v (Array.mem_toList_iff.1 hm)) r hv
  | map entries =>
    obtain ⟨v, hm, hv⟩ := List.mem_filterMap.1 hr
    obtain ⟨e, he, rfl⟩ := List.mem_map.1 hm
    exact region_value.1 (h e he) r hv

lemma region_pushFrame {f : FrameId} (h : base.Confines frame s)
    (hf : base.Region frame s (.frame f)) :
    base.Confines frame (s.pushFrame (some f)) ∧
      base.Region frame (s.pushFrame (some f)) (.frame s.frames.size) := by
  have hgrows := s.grows_pushFrame (some f)
  have hnew : base.Region frame (s.pushFrame (some f)) (.frame s.frames.size) := by
    refine .inr ⟨Nat.not_lt.2 h.grows.frames, ?_⟩
    simp [Store.Has, Store.pushFrame]
  refine ⟨h.write hgrows hnew (fun r hr => s.same_pushFrame _ hr) ?_, hnew⟩
  intro r hr
  rw [Store.refs_pushFrame] at hr
  obtain rfl := List.mem_singleton.1 hr
  exact hf.mono hgrows

lemma region_pushCell {cell : Cell} (h : base.Confines frame s)
    (hc : cell.All ((region base frame).value s)) :
    base.Confines frame (s.pushCell cell) ∧
      base.Region frame (s.pushCell cell) (.cell s.cells.size) := by
  have hgrows := s.grows_pushCell cell
  have hnew : base.Region frame (s.pushCell cell) (.cell s.cells.size) := by
    refine .inr ⟨Nat.not_lt.2 h.grows.cells, ?_⟩
    simp [Store.Has, Store.pushCell]
  refine ⟨h.write hgrows hnew (fun r hr => s.same_pushCell _ hr) ?_, hnew⟩
  intro r hr
  rw [Store.refs_pushCell] at hr
  exact (region_refs hc r hr).mono hgrows

lemma region_put {v : Value} {x : Ref} (h : base.Confines frame s) (hgrows : s.Grows t)
    (hx : base.Region frame s x) (hv : (region base frame).value s v)
    (hrefs : ∀ r ∈ t.refs x, r ∈ s.refs x ∨ v.ref? = some r) :
    ∀ r ∈ t.refs x, base.Region frame t r := by
  intro r hr
  rcases hrefs r hr with hr | hr
  · exact (h.closed hx hr).mono hgrows
  · exact (region_value.1 hv r hr).mono hgrows

lemma lawful_region (base : Store) (frame : FrameId) : (region base frame).Lawful where
  frame_mono := fun h hr => hr.mono h
  cell_mono := fun h hr => hr.mono h
  sizes := by
    rintro s _ ⟨rfl, -⟩
    exact ⟨rfl, rfl⟩
  parent := by
    rintro s _ f ⟨rfl, h⟩ hf
    refine ⟨rfl, fun p hp => h.closed hf ?_⟩
    obtain ⟨found, hfound, hparent⟩ := Option.bind_eq_some_iff.1 hp
    rw [Store.refs, hfound]
    exact Frame.mem_refs.2 (.inl ⟨p, hparent, rfl⟩)
  find := by
    rintro s _ f x ⟨rfl, -⟩ _ _
    rfl
  bound := fun h hf hb => region_binding h.2 hf hb
  items := by
    rintro s _ c ⟨rfl, h⟩ hc
    exact ⟨rfl, region_items h hc⟩
  entries := by
    rintro s _ c ⟨rfl, h⟩ hc
    exact ⟨rfl, region_entries h hc⟩
  scope := by
    rintro s _ f b ⟨rfl, -⟩ _ _ _
    rfl
  pushFrame := by
    rintro s _ f ⟨rfl, h⟩ hf
    obtain ⟨hconfined, hnew⟩ := region_pushFrame h hf
    exact ⟨⟨rfl, hconfined⟩, hnew⟩
  pushCell := by
    rintro s _ cell ⟨rfl, h⟩ hc
    obtain ⟨hconfined, hnew⟩ := region_pushCell h hc
    exact ⟨⟨rfl, hconfined⟩, hnew⟩
  setBinding := by
    rintro _ s f x b ⟨rfl, h⟩ hf _ hb
    have hgrows := s.grows_setBinding f x b
    refine ⟨rfl, h.write hgrows (hf.mono hgrows) (fun r hr => s.same_setBinding x b hr) ?_⟩
    exact region_put h hgrows hf hb fun r hr => Store.mem_refs_setBinding hr
  setItem := by
    rintro n _ s c v index _ _ ⟨rfl, h⟩ hc hv
    have hgrows := s.grows_setItem c index v
    refine ⟨rfl, h.write hgrows (hc.mono hgrows) (fun r hr => s.same_setItem index v hr) ?_⟩
    exact region_put h hgrows hc hv fun r hr => Store.mem_refs_setItem hr
  setEntry := by
    rintro n _ s c v key _ _ ⟨rfl, h⟩ hc hv
    have hgrows := s.grows_setEntry c key v
    refine ⟨rfl, h.write hgrows (hc.mono hgrows) (fun r hr => s.same_setEntry key v hr) ?_⟩
    exact region_put h hgrows hc hv fun r hr => Store.mem_refs_setEntry hr
  print := by
    rintro s _ text ⟨rfl, h⟩
    exact ⟨rfl, h.of_data_eq rfl rfl⟩
  log := by
    rintro s _ line ⟨rfl, h⟩
    exact ⟨rfl, h.of_data_eq rfl rfl⟩
  here := fun _ _ => trivial
  inside := fun _ _ => trivial
  names := fun _ _ => trivial
  made := fun _ _ => trivial
  body := fun _ _ => trivial
  parameters := fun _ _ => trivial

end View

/-- The value that an evaluation gives, or that a `return` carries out of it. -/
def givenValue? : EStateM.Result Interrupt Store Value → Option Value
  | .ok v _ | .error (.returning v) _ => some v
  | .error _ _ => none

lemma View.Ends.given {d : View} {r r' : EStateM.Result Interrupt Store Value} {v : Value}
    (h : d.Ends s (both d.value) r r') (hv : givenValue? r = some v) :
    d.value (finalStore r) v := by
  cases h with
  | ok _ _ hgood =>
    cases hv
    exact hgood.2
  | @error e _ _ _ _ hi =>
    cases e with
    | returning =>
      cases hv
      exact hi
    | _ => cases hv

/-- Evaluation in a frame leaves everything alone that cannot be reached from the frame. Whatever can
be reached afterwards from the frame or from the value that is given could be reached from the frame
before, or is new. -/
theorem evaluateWithin_local (bound : Nat) (context : Context) (frame : FrameId) (n : Node)
    (s : Store) :
    let r := evaluateWithin bound context frame n s
    let t := finalStore r
    (∀ x, s.Has x → ¬ s.Reaches (.frame frame) x → s.Same t x) ∧
      ∀ root, root = .frame frame ∨ (∃ v, givenValue? r = some v ∧ v.ref? = some root) →
        ∀ x, t.Reaches root x → s.Reaches (.frame frame) x ∨ ¬ s.Has x ∧ t.Has x := by
  intro r t
  have hstart : (View.region s frame).alike s s := ⟨rfl, s.confines_refl frame⟩
  have hframe : (View.region s frame).frame s frame := .inl .refl
  have hends : (View.region s frame).Ends s (View.both (View.region s frame).value) r r :=
    (View.respects_within (View.lawful_region s frame) bound).node hframe trivial s s (.refl s)
      hstart
  obtain ⟨-, hconfined⟩ := hends.alike
  refine ⟨hconfined.same, ?_⟩
  rintro root (rfl | ⟨v, hv, hroot⟩) x hx
  · exact hconfined.reaches (.inl .refl) hx
  · exact hconfined.reaches (View.region_value.1 (hends.given hv) root hroot) hx

end Klang

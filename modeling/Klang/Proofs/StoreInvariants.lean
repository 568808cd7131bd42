import Klang.Proofs.StoreWrites
import Klang.Proofs.TableLaws

/-! What a run may keep true of its store: that all values in it are of one kind, and that the frames
of an older store keep their parents and their names. -/

namespace Klang

namespace Table

variable {α : Type} {p : α → Prop} {t u : Table α}

def All (p : α → Prop) (t : Table α) : Prop := ∀ e ∈ t.entries, p e.2

lemma all_empty : (empty : Table α).All p := by
  intro e he
  cases he

lemma All.find? (h : t.All p) {key : String} {a : α} (ha : t.find? key = some a) : p a :=
  h (key, a) (mem_of_lookup_eq_some ha)

lemma mem_putEntry {key : String} {a : α} {entries : List (String × α)} {e : String × α}
    (he : e ∈ putEntry key a entries) : e = (key, a) ∨ e ∈ entries := by
  induction entries with
  | nil => exact .inl (List.mem_singleton.1 he)
  | cons entry entries ih =>
    rw [putEntry] at he
    split at he
    · rcases List.mem_cons.1 he with rfl | he
      · exact .inl rfl
      · exact .inr (List.mem_cons_of_mem _ he)
    · rcases List.mem_cons.1 he with rfl | he
      · exact .inr List.mem_cons_self
      · rcases ih he with rfl | he
        · exact .inl rfl
        · exact .inr (List.mem_cons_of_mem _ he)

lemma All.insert (h : t.All p) {a : α} (ha : p a) (key : String) : (t.insert key a).All p := by
  intro e he
  rcases mem_putEntry he with rfl | he
  · exact ha
  · exact h e he

lemma contains_eq_true_iff (key : String) : t.contains key = true ↔ key ∈ t.keys := by
  change (t.entries.lookup key).isSome = true ↔ key ∈ t.entries.map Prod.fst
  induction t.entries with
  | nil => simp
  | cons entry entries ih =>
    rw [List.lookup_cons, List.map_cons, List.mem_cons, ← ih]
    cases hk : key == entry.1 with
    | true => simp [eq_of_beq hk]
    | false => simp [ne_of_beq_false hk]

end Table

def Cell.All (p : Value → Prop) : Cell → Prop
  | .list items => ∀ v ∈ items, p v
  | .map entries => entries.All p

namespace Store

variable {p : Value → Prop} {s base : Store}

structure Holds (p : Value → Prop) (s : Store) : Prop where
  frames : ∀ f ∈ s.frames, f.bindings.All fun b => p b.value
  cells : ∀ c ∈ s.cells, c.All p

lemma holds_empty : ({} : Store).Holds p := ⟨by simp, by simp⟩

lemma holds_of_forall (h : ∀ v, p v) (s : Store) : s.Holds p where
  frames := fun _ _ _ _ => h _
  cells := by
    intro c _
    cases c with
    | list => exact fun v _ => h v
    | map => exact fun e _ => h e.2

namespace Holds

lemma bindings (h : s.Holds p) (frame : FrameId) : (s.bindings frame).All fun b => p b.value := by
  unfold Store.bindings
  split
  · rename_i hf
    exact h.frames _ (Array.mem_of_getElem? hf)
  · exact Table.all_empty

lemma binding (h : s.Holds p) {frame : FrameId} {name : String} {b : Binding}
    (hb : s.binding? frame name = some b) : p b.value := by
  obtain ⟨owner, _, hfind⟩ := Option.bind_eq_some_iff.1 hb
  exact (h.bindings owner).find? hfind

lemma items (h : s.Holds p) (cell : CellId) : ∀ v ∈ s.items cell, p v := by
  unfold Store.items
  split
  · rename_i hc
    exact h.cells _ (Array.mem_of_getElem? hc)
  · simp

lemma entries (h : s.Holds p) (cell : CellId) : (s.entries cell).All p := by
  unfold Store.entries
  split
  · rename_i hc
    exact h.cells _ (Array.mem_of_getElem? hc)
  · exact Table.all_empty

lemma pushFrame (h : s.Holds p) (parent : Option FrameId) : (s.pushFrame parent).Holds p := by
  refine ⟨?_, h.cells⟩
  intro f hf
  rcases Array.mem_push.1 hf with hf | rfl
  · exact h.frames f hf
  · exact Table.all_empty

lemma pushCell (h : s.Holds p) {cell : Cell} (hc : cell.All p) : (s.pushCell cell).Holds p := by
  refine ⟨h.frames, ?_⟩
  intro c hm
  rcases Array.mem_push.1 hm with hm | rfl
  · exact h.cells c hm
  · exact hc

lemma print (h : s.Holds p) (text : String) : (s.print text).Holds p := ⟨h.frames, h.cells⟩

lemma log (h : s.Holds p) (line : String) : (s.log line).Holds p := ⟨h.frames, h.cells⟩

lemma saysMore (h : s.Holds p) {t : Store} (ht : s.SaysMore t) : t.Holds p := by
  obtain ⟨text, lines, rfl⟩ := ht
  exact ⟨h.frames, h.cells⟩

lemma logAll (h : s.Holds p) (debug : Bool) (lines : List String) :
    (s.logAll debug lines).Holds p := h.saysMore (s.saysMore_logAll debug lines)

lemma mono {q : Value → Prop} (h : s.Holds p) (hpq : ∀ v, p v → q v) : s.Holds q where
  frames := fun f hf e he => hpq _ (h.frames f hf e he)
  cells := by
    intro c hc
    have hall := h.cells c hc
    cases c with
    | list => exact fun v hv => hpq v (hall v hv)
    | map => exact fun e he => hpq e.2 (hall e he)

omit s base in
lemma all_modify {α : Type} {q : α → Prop} {f : α → α} {xs : Array α} (h : ∀ x ∈ xs, q x)
    (hf : ∀ x, q x → q (f x)) (i : Nat) : ∀ x ∈ xs.modify i f, q x := by
  intro x hx
  obtain ⟨j, hj⟩ := Array.getElem?_of_mem hx
  rw [Array.getElem?_modify] at hj
  split at hj
  · obtain ⟨y, hy, rfl⟩ := Option.map_eq_some_iff.1 hj
    exact hf y (h y (Array.mem_of_getElem? hy))
  · exact h x (Array.mem_of_getElem? hj)

lemma setBinding (h : s.Holds p) {b : Binding} (hb : p b.value) (frame : FrameId) (name : String) :
    (s.setBinding frame name b).Holds p := by
  refine ⟨?_, h.cells⟩
  simp only [Store.setBinding]
  apply all_modify h.frames
  intro f hf
  exact hf.insert hb name

lemma setItem (h : s.Holds p) {value : Value} (hv : p value) (cell : CellId) (index : Nat) :
    (s.setItem cell index value).Holds p := by
  refine ⟨h.frames, ?_⟩
  simp only [Store.setItem]
  apply all_modify h.cells
  intro c hc
  cases c with
  | list items =>
    intro v hm
    rcases Array.mem_or_eq_of_mem_setIfInBounds hm with hm | rfl
    · exact hc v hm
    · exact hv
  | map entries => exact hc

lemma setEntry (h : s.Holds p) {value : Value} (hv : p value) (cell : CellId) (key : String) :
    (s.setEntry cell key value).Holds p := by
  refine ⟨h.frames, ?_⟩
  simp only [Store.setEntry]
  apply all_modify h.cells
  intro c hc
  cases c with
  | list items => exact hc
  | map entries => exact Table.All.insert hc hv key

end Holds

/-- A store that still has the frames of an older one, with their parents and their names. -/
structure KeepsNames (base s : Store) : Prop where
  size : base.frames.size ≤ s.frames.size
  parent : ∀ frame < base.frames.size, s.parent? frame = base.parent? frame
  names : ∀ frame < base.frames.size, (s.bindings frame).keys = (base.bindings frame).keys

lemma parent?_setBinding (s : Store) (frame other : FrameId) (name : String) (b : Binding) :
    (s.setBinding frame name b).parent? other = s.parent? other := by
  simp only [parent?, setBinding, Array.getElem?_modify]
  by_cases ho : frame = other
  · subst ho
    cases s.frames[frame]? <;> simp
  · simp [ho]

namespace KeepsNames

lemma refl (s : Store) : s.KeepsNames s := ⟨Nat.le_refl _, fun _ _ => rfl, fun _ _ => rfl⟩

lemma empty (s : Store) : ({} : Store).KeepsNames s :=
  ⟨Nat.zero_le _, fun _ h => absurd h (Nat.not_lt_zero _), fun _ h => absurd h (Nat.not_lt_zero _)⟩

lemma of_frames_eq {t : Store} (h : base.KeepsNames s) (hf : t.frames = s.frames) :
    base.KeepsNames t where
  size := by
    rw [hf]
    exact h.size
  parent := by
    intro frame hlt
    rw [show t.parent? frame = s.parent? frame by rw [parent?, hf, parent?]]
    exact h.parent frame hlt
  names := by
    intro frame hlt
    rw [show t.bindings frame = s.bindings frame by rw [Store.bindings, hf, Store.bindings]]
    exact h.names frame hlt

lemma pushFrame (h : base.KeepsNames s) (parent : Option FrameId) :
    base.KeepsNames (s.pushFrame parent) where
  size := by
    have := h.size
    simp only [Store.pushFrame, Array.size_push]
    omega
  parent := by
    intro frame hlt
    have hne : frame ≠ s.frames.size := by
      have := h.size
      omega
    rw [← h.parent frame hlt]
    simp [parent?, Store.pushFrame, Array.getElem?_push, hne]
  names := by
    intro frame hlt
    rw [bindings_pushFrame]
    exact h.names frame hlt

lemma setBinding (h : base.KeepsNames s) {frame : FrameId} {name : String} {b : Binding}
    (hname : frame < base.frames.size → name ∈ (s.bindings frame).keys) :
    base.KeepsNames (s.setBinding frame name b) where
  size := by
    simp only [Store.setBinding, Array.size_modify]
    exact h.size
  parent := by
    intro other hlt
    rw [parent?_setBinding]
    exact h.parent other hlt
  names := by
    intro other hlt
    rw [bindings_setBinding]
    split
    · rename_i ho
      obtain ⟨rfl, _⟩ := ho
      rw [Table.keys_insert, if_pos (hname hlt)]
      exact h.names other hlt
    · exact h.names other hlt

end KeepsNames

end Store

end Klang

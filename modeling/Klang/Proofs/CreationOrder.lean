import Klang.Proofs.BindingInvariant
import Klang.Proofs.Knots
import Klang.Proofs.Views.Evaluator

/-! The order in which lists and maps are made. Only an index assignment can put a list or a map into
an older one. Without index assignments what a list or map holds is older than itself, so that every
value can be shown. -/

namespace Klang

open Relation

def Value.OlderThan (c : CellId) (v : Value) : Prop := ∀ d, v.cell? = some d → d < c

namespace Store

variable {s : Store} {v w : Value} {c d : CellId}

/-- All lists and maps hold only lists and maps that were made before them. -/
def Layered (s : Store) : Prop :=
  ∀ (c : CellId) (cell : Cell), s.cells[c]? = some cell → cell.All (Value.OlderThan c)

namespace Layered

lemma pushCell (h : s.Layered) {cell : Cell} (hnew : cell.All (Value.OlderThan s.cells.size)) :
    (s.pushCell cell).Layered := by
  intro c found hc
  rw [Store.pushCell, Array.getElem?_push] at hc
  split at hc
  · rename_i hlast
    obtain rfl := Option.some.inj hc
    rwa [hlast]
  · exact h c found hc

lemma lt_of_hasPart (h : s.Layered) (hpart : s.HasPart v w) (hv : v.cell? = some c)
    (hw : w.cell? = some d) : d < c := by
  cases v with
  | list e =>
    obtain rfl := Option.some.inj hv
    rw [HasPart, parts, items] at hpart
    split at hpart
    · rename_i items hitems
      exact h e _ hitems w (Array.mem_toList_iff.1 hpart) d hw
    · cases hpart
  | map e =>
    obtain rfl := Option.some.inj hv
    rw [HasPart, parts, entries] at hpart
    split at hpart
    · rename_i entries hentries
      obtain ⟨entry, hentry, rfl⟩ := List.mem_map.1 hpart
      exact h e _ hentries entry hentry d hw
    · cases hpart
  | _ => cases hv

lemma lt_of_transGen (h : s.Layered) (hpart : TransGen s.HasPart v w) (hv : v.cell? = some c)
    (hw : w.cell? = some d) : d < c := by
  induction hpart generalizing d with
  | single hpart => exact h.lt_of_hasPart hpart hv hw
  | tail _ hpart ih =>
    obtain ⟨e, hmiddle, -⟩ := cell?_of_hasPart hpart
    exact Nat.lt_trans (h.lt_of_hasPart hpart hmiddle hw) (ih hmiddle)

lemma not_knotted (h : s.Layered) (v : Value) : ¬ s.Knotted v := by
  rintro ⟨w, w', c, -, hagain, hw, hw'⟩
  exact Nat.lt_irrefl c (h.lt_of_transGen hagain hw hw')

lemma isSome_display? (h : s.Layered) (v : Value) : (s.display? v).isSome = true := by
  rw [← Option.ne_none_iff_isSome]
  exact fun hnone => h.not_knotted v (display?_eq_none_iff.1 hnone)

end Layered

end Store

def Node.NeverAssignsIndex (n : Node) : Prop := ∀ m ∈ n.preorder, ¬ m.AssignsIndex

lemma Node.neverAssignsIndex_iff {n : Node} :
    n.NeverAssignsIndex ↔ n.Everywhere fun m => ¬ m.AssignsIndex :=
  ⟨everywhere_of_preorder, fun h _ hm => h.of_mem_preorder hm⟩

def Value.Tame (cells : Nat) : Value → Prop
  | .list c | .map c => c < cells
  | .function c => c.body.NeverAssignsIndex
  | _ => True

lemma Value.Tame.mono {v : Value} {cells later : Nat} (h : v.Tame cells) (hle : cells ≤ later) :
    v.Tame later := by
  cases v with
  | list c | map c => exact Nat.lt_of_lt_of_le h hle
  | function c => exact h
  | _ => trivial

lemma Value.Tame.olderThan {v : Value} {cells : Nat} (h : v.Tame cells) : v.OlderThan cells := by
  intro d hd
  cases v with
  | list c | map c =>
    obtain rfl := Option.some.inj hd
    exact h
  | _ => cases hd

structure Store.Tame (s : Store) : Prop where
  layered : s.Layered
  holds : s.Holds (Value.Tame s.cells.size)

namespace View

def tame : View where
  alike s s' := s' = s ∧ s.Tame
  cell s c := c < s.cells.size
  closure c := c.body.NeverAssignsIndex
  node := Node.NeverAssignsIndex

lemma tame_value {s : Store} {v : Value} : tame.value s v ↔ v.Tame s.cells.size := by
  cases v <;> simp [value, tame, Value.Tame]

lemma tame_all {s : Store} {cell : Cell} (h : cell.All (tame.value s)) :
    cell.All (Value.Tame s.cells.size) ∧ cell.All (Value.OlderThan s.cells.size) := by
  cases cell with
  | list items =>
    have hall (v : Value) (hv : v ∈ items) : v.Tame s.cells.size := tame_value.1 (h v hv)
    exact ⟨hall, fun v hv => (hall v hv).olderThan⟩
  | map entries =>
    have hall (e : String × Value) (he : e ∈ entries.entries) : e.2.Tame s.cells.size :=
      tame_value.1 (h e he)
    exact ⟨hall, fun e he => (hall e he).olderThan⟩

lemma tame_pushCell {s : Store} {cell : Cell} (hs : s.Tame) (hc : cell.All (tame.value s)) :
    (s.pushCell cell).Tame := by
  obtain ⟨hall, holder⟩ := tame_all hc
  refine ⟨hs.layered.pushCell holder, ?_⟩
  apply (hs.holds.pushCell hall).mono
  intro v hv
  exact hv.mono (s.grows_pushCell cell).cells

lemma lawful_tame : tame.Lawful where
  frame_mono := fun _ _ => trivial
  cell_mono := fun hw hc => Nat.lt_of_lt_of_le hc hw.cells
  sizes := by
    rintro s _ ⟨rfl, -⟩
    exact ⟨rfl, rfl⟩
  parent := by
    rintro s _ f ⟨rfl, -⟩ _
    exact ⟨rfl, fun _ _ => trivial⟩
  find := by
    rintro s _ f x ⟨rfl, -⟩ _ _
    rfl
  bound := by
    rintro s _ f x b ⟨rfl, hs⟩ _ hb
    exact tame_value.2 ((hs.holds.bindings f).find? hb)
  items := by
    rintro s _ c ⟨rfl, hs⟩ _
    exact ⟨rfl, fun v hv => tame_value.2 (hs.holds.items c v hv)⟩
  entries := by
    rintro s _ c ⟨rfl, hs⟩ _
    exact ⟨rfl, fun e he => tame_value.2 (hs.holds.entries c e he)⟩
  scope := by
    rintro s _ f b ⟨rfl, -⟩ _ _ _
    rfl
  pushFrame := by
    rintro s _ f ⟨rfl, hs⟩ _
    exact ⟨⟨rfl, hs.layered, hs.holds.pushFrame _⟩, trivial⟩
  pushCell := by
    rintro s _ cell ⟨rfl, hs⟩ hc
    exact ⟨⟨rfl, tame_pushCell hs hc⟩, by simp [tame, Store.pushCell]⟩
  setBinding := by
    rintro s _ f x b ⟨rfl, hs⟩ _ _ hb
    exact ⟨rfl, hs.layered, hs.holds.setBinding (tame_value.1 hb) f x⟩
  setItem := fun _ hn hi _ _ _ => absurd hi (Node.neverAssignsIndex_iff.1 hn).self
  setEntry := fun _ hn hi _ _ _ => absurd hi (Node.neverAssignsIndex_iff.1 hn).self
  print := by
    rintro s _ text ⟨rfl, hs⟩
    exact ⟨rfl, hs.layered, hs.holds.print text⟩
  log := by
    rintro s _ line ⟨rfl, hs⟩
    exact ⟨rfl, hs.layered, hs.holds.log line⟩
  here := fun hn hm => Node.neverAssignsIndex_iff.2 ((Node.neverAssignsIndex_iff.1 hn).here hm)
  inside := fun hn hm => Node.neverAssignsIndex_iff.2 ((Node.neverAssignsIndex_iff.1 hn).inside hm)
  names := fun _ _ => trivial
  made := fun hn hc => Node.neverAssignsIndex_iff.2 ((Node.neverAssignsIndex_iff.1 hn).closure hc)
  body := by
    intro c m hc hm
    have hbody := Node.neverAssignsIndex_iff.1 hc
    exact Node.neverAssignsIndex_iff.2 (hbody.child (Node.mem_children_of_mem_statements hm))
  parameters := fun _ _ => trivial

end View

lemma Store.Tame.runProgramUntil {s : Store} (hs : s.Tame) (stop : Store → Bool)
    (policies : Policies) (frame : FrameId) {program : Node} (hp : program.NeverAssignsIndex) :
    (finalStore (runProgramUntil stop policies frame program s)).Tame := by
  have hstop {s s' : Store} (h : View.tame.alike s s') : stop s' = stop s := by rw [h.1]
  have hgoes : View.tame.Goes s
      (evaluateUntil stop stepBound (.ofPolicies policies) frame program) :=
    (View.respects_until View.lawful_tame hstop stepBound).node trivial hp
  rw [finalStore_runProgramUntil]
  exact (hgoes s s (.refl s) ⟨rfl, hs⟩).alike.2

lemma Store.Tame.sessionUntil {s : Store} (hs : s.Tame) (stop : Store → Bool)
    {programs : List (Policies × Node)} (hp : ∀ p ∈ programs, p.2.NeverAssignsIndex) :
    (sessionUntil stop programs s).Tame := by
  induction programs generalizing s with
  | nil => exact hs
  | cons step rest ih =>
    rw [List.forall_mem_cons] at hp
    have hrun := hs.runProgramUntil stop step.1 rootFrame hp.1
    unfold Klang.sessionUntil
    split
    · rename_i he
      rwa [he] at hrun
    · exact ih hrun hp.2

lemma tame_globalStore {policies : Policies} {extra : List (String × HostFunction)} {start : Store}
    (h : globalStore policies extra = .ok start) : start.Tame := by
  -- A fresh store holds builtins only, which are tame before there is any cell.
  have hnew : (finalStore (newGlobal policies extra {})).Holds (Value.Tame 0) :=
    holds_newGlobal policies extra fun _ _ => trivial
  have hstart : start.Holds (Value.Tame 0) := by
    unfold globalStore at h
    generalize newGlobal policies extra {} = r at h hnew
    split at h
    · cases h
      exact hnew
    · cases h
    · cases h
      exact hnew
  refine ⟨?_, hstart.mono fun v hv => hv.mono (Nat.zero_le _)⟩
  intro c cell hc
  have hcell : cell.All (Value.Tame 0) := hstart.cells cell (Array.mem_of_getElem? hc)
  cases cell with
  | list items => exact fun v hv => ((hcell v hv).mono (Nat.zero_le c)).olderThan
  | map entries => exact fun e he => ((hcell e he).mono (Nat.zero_le c)).olderThan

/-- At every moment of a session whose programs are free of index assignments, what a list or a map
holds is older than itself, and all values can be unfolded and shown. -/
theorem session_without_knots (policies : Policies) (extra : List (String × HostFunction))
    {start : Store} (hstart : globalStore policies extra = .ok start)
    (programs : List (Policies × Node)) (hprograms : ∀ p ∈ programs, p.2.NeverAssignsIndex)
    (stop : Store → Bool) :
    let s := sessionUntil stop programs start
    runProgramUntil (fun _ => false) = runProgram ∧ s.Layered ∧
      ∀ v, (s.datum? v).isSome = true ∧ (s.display? v).isSome = true := by
  intro s
  have hs : s.Layered := ((tame_globalStore hstart).sessionUntil stop hprograms).layered
  refine ⟨runProgramUntil_never, hs, ?_⟩
  intro v
  have hdisplay := hs.isSome_display? v
  rw [Store.display?, Option.isSome_map] at hdisplay
  exact ⟨hdisplay, hs.isSome_display? v⟩

theorem session_without_knots_nested :
    let programs : List (Policies × Node) :=
      [({}, .program none [.declaration none "rows"
          (.list none [.list none [], .boolean none true]) false none]),
        ({}, .program none [.declaration none "table"
          (.map none [("rows", .identifier none "rows")]) true none])]
    let s := sessionUntil (fun _ => false) programs (standardStore {})
    globalStore {} [] = .ok (standardStore {}) ∧ (∀ p ∈ programs, p.2.NeverAssignsIndex) ∧
      s.Layered ∧ s.display? (.map 2) = some "\x7brows: [[], true]\x7d" ∧
        ∀ v, (s.datum? v).isSome = true ∧ (s.display? v).isSome = true := by
  intro programs s
  have hstart : globalStore {} [] = .ok (standardStore {}) := rfl
  have hprograms : ∀ p ∈ programs, p.2.NeverAssignsIndex := by
    refine List.forall_mem_cons.2 ⟨?_, List.forall_mem_singleton.2 ?_⟩
    · rw [Node.neverAssignsIndex_iff]
      refine .intro id (List.forall_mem_singleton.2 ?_)
      refine .intro id (List.forall_mem_singleton.2 ?_)
      refine .intro id (List.forall_mem_cons.2 ⟨?_, List.forall_mem_singleton.2 ?_⟩)
      · exact .intro id (List.forall_mem_nil _)
      · exact .intro id (List.forall_mem_nil _)
    · rw [Node.neverAssignsIndex_iff]
      refine .intro id (List.forall_mem_singleton.2 ?_)
      refine .intro id (List.forall_mem_singleton.2 ?_)
      refine .intro id (List.forall_mem_singleton.2 ?_)
      exact .intro id (List.forall_mem_nil _)
  obtain ⟨-, hlayered, hshown⟩ :=
    session_without_knots {} [] hstart programs hprograms (fun _ => false)
  have hdisplay : s.display? (.map 2) = some "\x7brows: [[], true]\x7d" := by decide +kernel
  exact ⟨hstart, hprograms, hlayered, hdisplay, hshown⟩

end Klang

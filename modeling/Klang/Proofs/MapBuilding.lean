import Klang.Proofs.HeapLocality
import Klang.Proofs.IndexLaws
import Klang.Proofs.TableLaws

/-! Three ways to build a map: by a literal, by assignments to an empty map, and by adding up maps of
one entry each. They end with the same entries in the same order. -/

namespace Klang

open Eval

/-- Nodes evaluated one after the other, each in the store that the one before it leaves. -/
inductive Evaluator.Yields (inner : Evaluator) (context : Context) (frame : FrameId) :
    List (String × Node) → Store → List (String × Value) → Store → Prop
  | nil {s : Store} : Yields inner context frame [] s [] s
  | cons {s t u : Store} {key : String} {node : Node} {v : Value} {nodes : List (String × Node)}
      {pairs : List (String × Value)} : inner.node context frame node s = .ok v t →
      Yields inner context frame nodes t pairs u →
      Yields inner context frame ((key, node) :: nodes) s ((key, v) :: pairs) u

namespace Eval

def assignEntries (target : Value) : List (String × Value) → Eval Unit
  | [] => return ()
  | (key, v) :: rest => do
    let _ ← assignIndex target (.string key) v
    assignEntries target rest

def mapByAssignments (pairs : List (String × Value)) : Eval Value := do
  let target ← newMap .empty
  assignEntries target pairs
  return target

def addEntries (left : Value) : List (String × Value) → Eval Value
  | [] => return left
  | pair :: rest => do
    let right ← newMap (.ofList [pair])
    let sum ← BinaryOperator.add.apply left right
    addEntries sum rest

def mapBySums : List (String × Value) → Eval Value
  | [] => newMap .empty
  | pair :: rest => do addEntries (← newMap (.ofList [pair])) rest

end Eval

namespace Store

variable {s t u : Store} {cell other : CellId} {entries found : Table Value}

/-- A later store with a map that was not there before, and otherwise nothing changed. -/
structure GainsMap (s t : Store) (cell : CellId) (entries : Table Value) : Prop where
  grows : s.Grows t
  new : s.cells.size ≤ cell
  found : t.cells[cell]? = some (.map entries)
  kept : ∀ r, s.Has r → s.Same t r

def MakesMap (s : Store) (entries : Table Value) (r : EStateM.Result Interrupt Store Value) : Prop :=
  ∃ cell t, r = .ok (.map cell) t ∧ s.GainsMap t cell entries

lemma gainsMap_pushCell (s : Store) (entries : Table Value) :
    s.GainsMap (s.pushCell (.map entries)) s.cells.size entries where
  grows := s.grows_pushCell _
  new := Nat.le_refl _
  found := by simp [pushCell]
  kept := by
    intro r hr
    apply s.same_pushCell
    rintro rfl
    exact Nat.lt_irrefl _ hr

namespace GainsMap

lemma trans (hst : s.GainsMap t other found) (htu : t.GainsMap u cell entries) :
    s.GainsMap u cell entries where
  grows := hst.grows.trans htu.grows
  new := Nat.le_trans hst.grows.cells htu.new
  found := htu.found
  kept := fun r hr => (hst.kept r hr).trans (htu.kept r (hst.grows.has hr))

lemma entries_eq (h : s.GainsMap t cell entries) : t.entries cell = entries := by
  rw [Store.entries, h.found]

lemma setEntry (h : s.GainsMap t cell entries) (key : String) (v : Value) :
    s.GainsMap (t.setEntry cell key v) cell (entries.insert key v) where
  grows := h.grows.trans (t.grows_setEntry cell key v)
  new := h.new
  found := by simp [Store.setEntry, Array.getElem?_modify, h.found]
  kept := by
    intro r hr
    apply (h.kept r hr).trans
    apply t.same_setEntry
    rintro rfl
    exact Nat.not_lt.2 h.new hr

end GainsMap

lemma makesMap_newMap (s : Store) (entries : Table Value) : s.MakesMap entries (newMap entries s) :=
  ⟨_, _, rfl, s.gainsMap_pushCell entries⟩

end Store

section

variable {s t : Store} {cell : CellId} {entries : Table Value} {pairs : List (String × Value)}

lemma Evaluator.Yields.mapEntries {inner : Evaluator} {context : Context} {frame : FrameId}
    {nodes : List (String × Node)} (h : inner.Yields context frame nodes s pairs t)
    (found : Table Value) :
    mapEntries inner context frame nodes found s = .ok (found.insertAll pairs) t := by
  induction h generalizing found with
  | nil => rfl
  | cons hnode _ ih =>
    rw [Evaluator.mapEntries, bind_ok hnode]
    exact ih _

lemma assignEntries_of_gainsMap (h : s.GainsMap t cell entries) (pairs : List (String × Value)) :
    ∃ u, assignEntries (.map cell) pairs t = .ok () u ∧
      s.GainsMap u cell (entries.insertAll pairs) := by
  induction pairs generalizing t entries with
  | nil => exact ⟨t, rfl, h⟩
  | cons pair pairs ih =>
    obtain ⟨key, v⟩ := pair
    have hassign : assignIndex (.map cell) (.string key) v t = .ok v (t.setEntry cell key v) :=
      assignIndex_map t cell (.string key) v
    rw [assignEntries, bind_ok hassign]
    exact ih (h.setEntry key v)

lemma makesMap_mapByAssignments (s : Store) (pairs : List (String × Value)) :
    s.MakesMap (.ofList pairs) (mapByAssignments pairs s) := by
  have hempty : newMap .empty s = .ok (.map s.cells.size) (s.pushCell (.map .empty)) := rfl
  obtain ⟨t, hassign, hgains⟩ := assignEntries_of_gainsMap (s.gainsMap_pushCell .empty) pairs
  refine ⟨s.cells.size, t, ?_, hgains⟩
  rw [mapByAssignments, bind_ok hempty, bind_ok hassign, pure_apply]

lemma makesMap_add (s : Store) (x y : CellId) :
    s.MakesMap ((s.entries x).merge (s.entries y))
      (BinaryOperator.add.apply (.map x) (.map y) s) :=
  s.makesMap_newMap _

lemma addEntries_of_gainsMap (h : s.GainsMap t cell entries) (pairs : List (String × Value)) :
    s.MakesMap (entries.insertAll pairs) (addEntries (.map cell) pairs t) := by
  induction pairs generalizing t cell entries with
  | nil => exact ⟨cell, t, rfl, h⟩
  | cons pair pairs ih =>
    have hright := t.gainsMap_pushCell (.ofList [pair])
    have hnew : newMap (.ofList [pair]) t = .ok (.map t.cells.size) (t.pushCell _) := rfl
    -- The operands of the sum are the map so far and the one that has just been made.
    have hleft : (t.pushCell (.map (.ofList [pair]))).entries cell = entries := by
      have hcell : t.Has (.cell cell) := (Array.getElem?_eq_some_iff.1 h.found).1
      have hsame := hright.kept (.cell cell) hcell
      rw [Store.entries, hsame, h.found]
    obtain ⟨sum, u, hsum, hgains⟩ := makesMap_add (t.pushCell (.map (.ofList [pair]))) cell t.cells.size
    rw [hleft, hright.entries_eq] at hgains
    rw [addEntries, bind_ok hnew, bind_ok hsum]
    exact ih (h.trans (hright.trans hgains))

lemma makesMap_mapBySums (s : Store) (pairs : List (String × Value)) :
    s.MakesMap (.ofList pairs) (mapBySums pairs s) := by
  cases pairs with
  | nil => exact s.makesMap_newMap .empty
  | cons pair pairs =>
    have hnew : newMap (.ofList [pair]) s = .ok (.map s.cells.size) (s.pushCell _) := rfl
    rw [mapBySums, bind_ok hnew]
    exact addEntries_of_gainsMap (s.gainsMap_pushCell (.ofList [pair])) pairs

end

/-- A literal, index assignments to an empty map and a sum of maps of one entry each make maps with
the same entries. A key stands where it came first, with the value that came last. Sums of maps are
associative and idempotent, with the empty map as identity, and leave their operands as they are. -/
theorem maps_built_alike {inner : Evaluator} {context : Context} {frame : FrameId}
    {nodes : List (String × Node)} {pairs : List (String × Value)} {s t : Store}
    (h : inner.Yields context frame nodes s pairs t) (bound : Nat) (span : Option Source.Span) :
    t.MakesMap (.ofList pairs)
      (Evaluator.meaning inner bound context frame (.map span nodes) s) ∧
    (∀ u : Store, u.MakesMap (.ofList pairs) (mapByAssignments pairs u) ∧
      u.MakesMap (.ofList pairs) (mapBySums pairs u)) ∧
    ((Table.ofList pairs).keys = (pairs.map Prod.fst).eraseDups ∧
      ∀ key, (Table.ofList pairs).find? key = pairs.reverse.lookup key) ∧
    (∀ (x y : CellId) (u : Store), u.MakesMap ((u.entries x).merge (u.entries y))
      (BinaryOperator.add.apply (.map x) (.map y) u)) ∧
    (∀ a b c : Table Value, (a.merge b).merge c = a.merge (b.merge c)) ∧
    (∀ a : Table Value, a.merge .empty = a ∧ Table.empty.merge a = a ∧ a.merge a = a) ∧
    ∀ (a b : Table Value) (key : String), (a.merge b).find? key = (b.find? key).or (a.find? key) := by
  have hliteral : Evaluator.meaning inner bound context frame (.map span nodes) s =
      newMap (.ofList pairs) t := bind_ok (h.mapEntries .empty)
  refine ⟨?_, fun u => ⟨makesMap_mapByAssignments u pairs, makesMap_mapBySums u pairs⟩,
    ⟨Table.keys_ofList pairs, Table.find?_ofList pairs⟩, fun x y u => makesMap_add u x y,
    Table.merge_assoc, fun a => ⟨a.merge_empty, a.empty_merge, a.merge_self⟩, Table.find?_merge⟩
  rw [hliteral]
  exact t.makesMap_newMap _

theorem maps_built_alike_twice :
    let inner : Evaluator := ⟨evaluateWithin 1, callWithin 1⟩
    let nodes : List (String × Node) :=
      [("a", .boolean none true), ("b", .string none "x"), ("a", .boolean none false)]
    let pairs : List (String × Value) :=
      [("a", .boolean true), ("b", .string "x"), ("a", .boolean false)]
    inner.Yields (.ofPolicies {}) rootFrame nodes {} pairs {} ∧
      ({} : Store).MakesMap (.ofList pairs)
        (Evaluator.meaning inner 1 (.ofPolicies {}) rootFrame (.map none nodes) {}) ∧
      (Table.ofList pairs).keys = ["a", "b"] ∧
      (Table.ofList pairs).find? "a" = some (.boolean false) := by
  intro inner nodes pairs
  have h : inner.Yields (.ofPolicies {}) rootFrame nodes {} pairs {} :=
    .cons rfl (.cons rfl (.cons rfl .nil))
  obtain ⟨hliteral, -, ⟨hkeys, hfind⟩, -⟩ := maps_built_alike h 1 none
  refine ⟨h, hliteral, ?_, ?_⟩
  · rw [hkeys]
    decide
  · rw [hfind]
    rfl

end Klang

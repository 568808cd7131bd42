import Klang.Proofs.HeapLocality

/-! Reading and writing through an index. A write succeeds where a read does, it is read back through
every index that denotes the same slot, and it changes nothing else. -/

namespace Klang

open Eval

inductive Store.IsContainer (s : Store) : Value → CellId → Prop
  | list {cell : CellId} {items : Array Value} : s.cells[cell]? = some (.list items) →
      IsContainer s (.list cell) cell
  | map {cell : CellId} {entries : Table Value} : s.cells[cell]? = some (.map entries) →
      IsContainer s (.map cell) cell

/-- Two indexes denote the same integer position of a list, or the same key of a map. -/
def Value.SameSlot (target i j : Value) : Prop :=
  match target with
  | .list _ => ∃ x y n, i = .number x ∧ j = .number y ∧ Number.toInt? x = some n ∧
      Number.toInt? y = some n
  | .map _ => ∃ key, i.mapKey = .ok key ∧ j.mapKey = .ok key
  | _ => False

namespace Value

variable {i j : Value} {length place : Nat} {tag : Tag}

lemma sequenceIndex_eq_ok : i.sequenceIndex length tag = .ok place ↔
    ∃ x, i = .number x ∧ Number.toInt? x = some (place : Int) ∧ place < length := by
  unfold sequenceIndex
  constructor
  · intro h
    split at h
    · rename_i x
      split at h
      · cases h
      · rename_i n hn
        split at h
        · cases h
        · cases h
          exact ⟨x, rfl, by rw [hn, Int.toNat_of_nonneg (by omega)], by omega⟩
    · cases h
  · rintro ⟨x, rfl, hx, hlt⟩
    simp only [hx]
    rw [if_neg (by omega), Int.toNat_natCast]

lemma sameSlot_list_of_eq_ok {cell : CellId} (hi : i.sequenceIndex length tag = .ok place) :
    SameSlot (.list cell) i j ↔ j.sequenceIndex length tag = .ok place := by
  obtain ⟨x, rfl, hx, hlt⟩ := sequenceIndex_eq_ok.1 hi
  rw [sequenceIndex_eq_ok]
  constructor
  · rintro ⟨x', y, n, hx', rfl, hn, hy⟩
    cases hx'
    rw [hx] at hn
    exact ⟨y, rfl, hy.trans hn.symm, hlt⟩
  · rintro ⟨y, rfl, hy, -⟩
    exact ⟨x, y, place, rfl, rfl, hx, hy⟩

lemma sameSlot_map_of_eq_ok {cell : CellId} {key : String} (hi : i.mapKey = .ok key) :
    SameSlot (.map cell) i j ↔ j.mapKey = .ok key := by
  constructor
  · rintro ⟨key', hi', hj⟩
    rw [hi] at hi'
    cases hi'
    exact hj
  · intro hj
    exact ⟨key, hi, hj⟩

lemma mapKey_of_toInt? {x : Float} {n : Int} (hx : Number.toInt? x = some n)
    (hn : n.natAbs < Number.plainLimit) : mapKey (.number x) = .ok (toString n) := by
  have hdisplay : Number.display x = toString n := by
    unfold Number.display
    cases hparts : Number.parts x with
    | nan => simp [Number.toInt?, hparts] at hx
    | infinite negative => simp [Number.toInt?, hparts] at hx
    | finite negative mantissa exponent => simp only [hx, if_pos hn]
  change Except.ok (Number.display x) = _
  rw [hdisplay]

end Value

namespace Eval

variable (s : Store) (cell : CellId) (i v : Value)

lemma indexValue_list : indexValue (.list cell) i s =
    match i.sequenceIndex (s.items cell).size .list with
    | .ok place => .ok ((s.items cell)[place]?.getD .null) s
    | .error fault => .error (.fault fault none) s := by
  simp only [indexValue, items, get_bind, bind_assoc, pure_bind]
  cases i.sequenceIndex (s.items cell).size .list <;> rfl

lemma indexValue_map : indexValue (.map cell) i s =
    match i.mapKey with
    | .ok key => .ok (((s.entries cell).find? key).getD .null) s
    | .error fault => .error (.fault fault none) s := by
  simp only [indexValue]
  cases i.mapKey <;> rfl

lemma assignIndex_list : assignIndex (.list cell) i v s =
    match i.sequenceIndex (s.items cell).size .list with
    | .ok place => .ok v (s.setItem cell place v)
    | .error fault => .error (.fault fault none) s := by
  simp only [assignIndex, items, get_bind, bind_assoc, pure_bind]
  cases i.sequenceIndex (s.items cell).size .list <;> rfl

lemma assignIndex_map : assignIndex (.map cell) i v s =
    match i.mapKey with
    | .ok key => .ok v (s.setEntry cell key v)
    | .error fault => .error (.fault fault none) s := by
  simp only [assignIndex]
  cases i.mapKey <;> rfl

variable {s cell i v}

lemma assignIndex_eq_error {target : Value} {interrupt : Interrupt} {t : Store}
    (h : assignIndex target i v s = .error interrupt t) : t = s := by
  cases target with
  | list cell =>
    rw [assignIndex_list] at h
    split at h <;> cases h
    rfl
  | map cell =>
    rw [assignIndex_map] at h
    split at h <;> cases h
    rfl
  | _ =>
    cases h
    rfl

end Eval

namespace Store

variable {s : Store} {cell : CellId}

lemma items_setItem {items : Array Value} (h : s.cells[cell]? = some (.list items)) (place : Nat)
    (v : Value) : (s.setItem cell place v).items cell = (s.items cell).setIfInBounds place v := by
  simp [Store.items, setItem, Array.getElem?_modify, h]

lemma entries_setEntry {entries : Table Value} (h : s.cells[cell]? = some (.map entries))
    (key : String) (v : Value) :
    (s.setEntry cell key v).entries cell = (s.entries cell).insert key v := by
  simp [Store.entries, setEntry, Array.getElem?_modify, h]

end Store

/-- What a write to a container does: the value is read back from its slot and from no other one, and
neither another cell nor a frame changes. -/
structure Store.WrittenAt (s t : Store) (target : Value) (cell : CellId) (i v : Value) : Prop where
  same : ∀ j, target.SameSlot i j → indexValue target j t = .ok v t
  other : ∀ j, ¬ target.SameSlot i j →
    (Outcome.of (indexValue target j t)).1 = (Outcome.of (indexValue target j s)).1
  keys : ∀ key, target = .map cell → i.mapKey = .ok key → (t.entries cell).keys =
    if key ∈ (s.entries cell).keys then (s.entries cell).keys else (s.entries cell).keys ++ [key]
  elsewhere : ∀ r ≠ .cell cell, s.Same t r

variable {s t : Store} {cell : CellId} {i v : Value}

lemma writtenAt_setItem {contents : Array Value} (hc : s.cells[cell]? = some (.list contents))
    {place : Nat} (hi : i.sequenceIndex (s.items cell).size .list = .ok place) :
    s.WrittenAt (s.setItem cell place v) (.list cell) cell i v where
  same := by
    intro j hj
    rw [Value.sameSlot_list_of_eq_ok hi] at hj
    obtain ⟨-, -, -, hlt⟩ := Value.sequenceIndex_eq_ok.1 hj
    rw [indexValue_list, Store.items_setItem hc, Array.size_setIfInBounds, hj]
    simp [hlt]
  other := by
    intro j hj
    rw [Value.sameSlot_list_of_eq_ok hi] at hj
    rw [indexValue_list, indexValue_list, Store.items_setItem hc, Array.size_setIfInBounds]
    cases hplace : j.sequenceIndex (s.items cell).size .list with
    | error fault => rfl
    | ok place' =>
      have hne : place ≠ place' := by
        rintro rfl
        exact hj hplace
      simp [Outcome.of, hne]
  keys := by
    rintro key ⟨⟩
  elsewhere := fun _ => s.same_setItem place v

lemma writtenAt_setEntry {contents : Table Value} (hc : s.cells[cell]? = some (.map contents))
    {key : String} (hi : i.mapKey = .ok key) :
    s.WrittenAt (s.setEntry cell key v) (.map cell) cell i v where
  same := by
    intro j hj
    rw [Value.sameSlot_map_of_eq_ok hi] at hj
    rw [indexValue_map, hj, Store.entries_setEntry hc]
    simp
  other := by
    intro j hj
    rw [Value.sameSlot_map_of_eq_ok hi] at hj
    rw [indexValue_map, indexValue_map, Store.entries_setEntry hc]
    cases hkey : j.mapKey with
    | error fault => rfl
    | ok key' =>
      have hne : key' ≠ key := by
        rintro rfl
        exact hj hkey
      simp [Outcome.of, hne]
  keys := by
    intro key' _ hkey
    rw [hi] at hkey
    cases hkey
    rw [Store.entries_setEntry hc, Table.keys_insert]
  elsewhere := fun _ => s.same_setEntry key v

/-- A container can be written at an index exactly if it can be read there; then the value is read
back, through every reference to the container, wherever an index denotes the same slot, and all the
rest stays. A write that fails changes nothing. Integers and their numerals are one key of a map. -/
theorem index_laws {s : Store} {target : Value} {cell : CellId} (h : s.IsContainer target cell)
    (i v : Value) :
    ((∃ t, assignIndex target i v s = .ok v t) ↔ ∃ w, indexValue target i s = .ok w s) ∧
    (∀ result t, assignIndex target i v s = .ok result t → result = v ∧
      ∀ reference, s.IsContainer reference cell → s.WrittenAt t reference cell i v) ∧
    (∀ other interrupt t, assignIndex other i v s = .error interrupt t → t = s) ∧
    ∀ x n, Number.toInt? x = some n → n.natAbs < Number.plainLimit →
      Value.SameSlot (.map cell) (.number x) (.string (toString n)) := by
  refine ⟨?_, ?_, fun _ _ _ => assignIndex_eq_error, fun x n hx hn =>
    ⟨toString n, Value.mapKey_of_toInt? hx hn, rfl⟩⟩
  · cases h with
    | list hc =>
      rw [assignIndex_list, indexValue_list]
      cases i.sequenceIndex (s.items cell).size .list <;> simp
    | map hc =>
      rw [assignIndex_map, indexValue_map]
      cases i.mapKey <;> simp
  · intro result t hw
    cases h with
    | list hc =>
      rw [assignIndex_list] at hw
      split at hw
      · rename_i place hi
        cases hw
        refine ⟨rfl, ?_⟩
        rintro reference (hc' | hc')
        · exact writtenAt_setItem hc' hi
        · cases hc.symm.trans hc'
      · cases hw
    | map hc =>
      rw [assignIndex_map] at hw
      split at hw
      · rename_i key hi
        cases hw
        refine ⟨rfl, ?_⟩
        rintro reference (hc' | hc')
        · cases hc.symm.trans hc'
        · exact writtenAt_setEntry hc' hi
      · cases hw

theorem index_laws_self :
    let s := ({} : Store).pushCell (.map (.ofList [("self", .map 0)]))
    let t := s.setEntry 0 "1" (.map 0)
    s.IsContainer (.map 0) 0 ∧ assignIndex (.map 0) (.number 1.0) (.map 0) s = .ok (.map 0) t ∧
      indexValue (.map 0) (.string "1") t = .ok (.map 0) t ∧ (t.entries 0).keys = ["self", "1"] := by
  intro s t
  have hs : s.IsContainer (.map 0) 0 := .map rfl
  have hone : Number.toInt? 1.0 = some 1 := by decide
  obtain ⟨-, hwritten, -, hslot⟩ := index_laws hs (.number 1.0) (.map 0)
  have hkey : Value.mapKey (.number 1.0) = .ok "1" := Value.mapKey_of_toInt? hone (by decide)
  have hassign : assignIndex (.map 0) (.number 1.0) (.map 0) s = .ok (.map 0) t := by
    rw [assignIndex_map, hkey]
  have ht := (hwritten _ _ hassign).2 _ hs
  refine ⟨hs, hassign, ht.same _ (hslot 1.0 1 hone (by decide)), ?_⟩
  rw [ht.keys "1" rfl hkey]
  decide

end Klang

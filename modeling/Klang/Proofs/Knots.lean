import Klang.Proofs.StoreWrites
import Mathlib.Data.List.Perm.Subperm

/-! Values that cannot be shown. The unfolding of a value into data fails exactly if it comes to a list
or map that lies within itself. -/

namespace Klang

open Relation

def Value.cell? : Value → Option CellId
  | .list c | .map c => some c
  | _ => none

namespace Store

variable {s t : Store} {c : CellId} {v w root : Value} {path : List CellId} {bound : Nat}

def parts (s : Store) : Value → List Value
  | .list c => (s.items c).toList
  | .map c => (s.entries c).values
  | _ => []

def HasPart (s : Store) (v w : Value) : Prop := w ∈ s.parts v

/-- A value is, or holds, a list or a map that lies within itself. -/
def Knotted (s : Store) (v : Value) : Prop :=
  ∃ w w' c, ReflTransGen s.HasPart v w ∧ TransGen s.HasPart w w' ∧ w.cell? = some c ∧
    w'.cell? = some c

lemma SaysMore.knotted_iff (h : s.SaysMore t) : t.Knotted v ↔ s.Knotted v := by
  obtain ⟨text, lines, rfl⟩ := h
  exact .rfl

lemma unfoldWithin_of_cells_eq (h : t.cells = s.cells) (bound : Nat) :
    t.unfoldWithin bound = s.unfoldWithin bound := by
  have hitems (c : CellId) : t.items c = s.items c := by rw [items, items, h]
  have hentries (c : CellId) : t.entries c = s.entries c := by rw [entries, entries, h]
  induction bound with
  | zero =>
    funext path v
    cases v <;> simp only [unfoldWithin]
  | succ bound ih =>
    funext path v
    cases v <;> simp only [unfoldWithin, hitems, hentries, ih]

lemma SaysMore.datum?_eq (h : s.SaysMore t) (v : Value) : t.datum? v = s.datum? v := by
  have hcells : t.cells = s.cells := by
    obtain ⟨text, lines, rfl⟩ := h
    rfl
  rw [datum?, datum?, unfoldWithin_of_cells_eq hcells, hcells]

lemma cell?_of_hasPart (h : s.HasPart v w) : ∃ c, v.cell? = some c ∧ c < s.cells.size := by
  cases v with
  | list c =>
    refine ⟨c, rfl, Nat.lt_of_not_le fun hle => ?_⟩
    simp [HasPart, parts, items, Array.getElem?_eq_none hle] at h
  | map c =>
    refine ⟨c, rfl, Nat.lt_of_not_le fun hle => ?_⟩
    simp [HasPart, parts, entries, Array.getElem?_eq_none hle, Table.values, Table.empty] at h
  | _ => cases h

lemma isSome_mapM {α β : Type} {f : α → Option β} {xs : List α} :
    (xs.mapM f).isSome = true ↔ ∀ x ∈ xs, (f x).isSome = true := by
  induction xs with
  | nil => simp
  | cons x xs ih =>
    rw [List.forall_mem_cons, ← ih, List.mapM_cons]
    cases f x with
    | none => simp
    | some y => cases xs.mapM f <;> simp

lemma isSome_unfoldWithin_zero (h : (s.unfoldWithin 0 path v).isSome = true) : v.cell? = none := by
  cases v with
  | list c | map c => cases h
  | _ => rfl

lemma isSome_unfoldWithin_succ : (s.unfoldWithin (bound + 1) path v).isSome = true ↔
    ∀ c, v.cell? = some c → c ∉ path ∧
      ∀ w, s.HasPart v w → (s.unfoldWithin bound (c :: path) w).isSome = true := by
  have hcell {d : CellId} {p : CellId → Prop} : (∀ c, some d = some c → p c) ↔ p d := by simp
  cases v with
  | list d =>
    rw [Value.cell?, hcell, unfoldWithin]
    by_cases hd : d ∈ path
    · simp [hd]
    · simp only [hd, if_false, Option.isSome_map, isSome_mapM, not_false_eq_true, true_and]
      rfl
  | map d =>
    rw [Value.cell?, hcell, unfoldWithin]
    by_cases hd : d ∈ path
    · simp [hd]
    · simp only [hd, if_false, Option.isSome_map, isSome_mapM, not_false_eq_true, true_and]
      change _ ↔ ∀ w ∈ (s.entries d).entries.map Prod.snd, _
      rw [List.forall_mem_map]
  | _ => simp [unfoldWithin, Value.cell?]

lemma not_mem_of_isSome (h : (s.unfoldWithin bound path v).isSome = true) (hv : v.cell? = some c) :
    c ∉ path := by
  cases bound with
  | zero =>
    rw [isSome_unfoldWithin_zero h] at hv
    cases hv
  | succ bound => exact (isSome_unfoldWithin_succ.1 h c hv).1

lemma isSome_of_hasPart (h : (s.unfoldWithin bound path v).isSome = true) (hw : s.HasPart v w) :
    ∃ c bound, v.cell? = some c ∧ (s.unfoldWithin bound (c :: path) w).isSome = true := by
  obtain ⟨c, hv, -⟩ := cell?_of_hasPart hw
  cases bound with
  | zero =>
    rw [isSome_unfoldWithin_zero h] at hv
    cases hv
  | succ bound => exact ⟨c, bound, hv, (isSome_unfoldWithin_succ.1 h c hv).2 w hw⟩

lemma isSome_of_transGen (h : (s.unfoldWithin bound path v).isSome = true) (hv : v.cell? = some c)
    (hw : TransGen s.HasPart v w) :
    ∃ bound path, c ∈ path ∧ (s.unfoldWithin bound path w).isSome = true := by
  induction hw with
  | single hpart =>
    obtain ⟨d, bound, hd, hsome⟩ := isSome_of_hasPart h hpart
    obtain rfl : c = d := Option.some.inj (hv.symm.trans hd)
    exact ⟨bound, _, List.mem_cons_self, hsome⟩
  | tail _ hpart ih =>
    obtain ⟨bound, path, hmem, hsome⟩ := ih
    obtain ⟨d, bound, -, hsome⟩ := isSome_of_hasPart hsome hpart
    exact ⟨bound, _, List.mem_cons_of_mem d hmem, hsome⟩

lemma isSome_of_reflTransGen (h : (s.unfoldWithin bound path v).isSome = true)
    (hw : ReflTransGen s.HasPart v w) :
    ∃ bound path, (s.unfoldWithin bound path w).isSome = true := by
  induction hw with
  | refl => exact ⟨bound, path, h⟩
  | tail _ hpart ih =>
    obtain ⟨bound, path, hsome⟩ := ih
    obtain ⟨d, bound, -, hsome⟩ := isSome_of_hasPart hsome hpart
    exact ⟨bound, _, hsome⟩

lemma not_knotted_of_isSome (h : (s.unfoldWithin bound path v).isSome = true) : ¬ s.Knotted v := by
  rintro ⟨w, w', c, hreach, hagain, hw, hw'⟩
  obtain ⟨_, _, hsome⟩ := isSome_of_reflTransGen h hreach
  obtain ⟨_, _, hmem, hsome⟩ := isSome_of_transGen hsome hw hagain
  exact not_mem_of_isSome hsome hw' hmem

/-- The cells between a value and a part of it: none of them is met twice. -/
structure Trail (s : Store) (root : Value) (path : List CellId) (v : Value) : Prop where
  nodup : path.Nodup
  bounded : ∀ c ∈ path, c < s.cells.size
  leads : ReflTransGen s.HasPart root v
  passes : ∀ c ∈ path, ∃ w, w.cell? = some c ∧ ReflTransGen s.HasPart root w ∧
    TransGen s.HasPart w v

namespace Trail

lemma length_le (h : s.Trail root path v) : path.length ≤ s.cells.size := by
  have hsub : path ⊆ List.range s.cells.size := fun c hc => List.mem_range.2 (h.bounded c hc)
  have hle := (List.subperm_of_subset h.nodup hsub).length_le
  rwa [List.length_range] at hle

lemma not_mem (h : s.Trail root path v) (hroot : ¬ s.Knotted root) (hv : v.cell? = some c) :
    c ∉ path := by
  intro hmem
  obtain ⟨w, hw, hreach, hagain⟩ := h.passes c hmem
  exact hroot ⟨w, v, c, hreach, hagain, hw, hv⟩

lemma part (h : s.Trail root path v) (hv : v.cell? = some c) (hnew : c ∉ path)
    (hw : s.HasPart v w) : s.Trail root (c :: path) w := by
  refine ⟨List.nodup_cons.2 ⟨hnew, h.nodup⟩, ?_, h.leads.tail hw, ?_⟩
  · obtain ⟨d, hd, hlt⟩ := cell?_of_hasPart hw
    obtain rfl : c = d := Option.some.inj (hv.symm.trans hd)
    exact List.forall_mem_cons.2 ⟨hlt, h.bounded⟩
  · refine List.forall_mem_cons.2 ⟨⟨v, hv, h.leads, .single hw⟩, fun d hd => ?_⟩
    obtain ⟨u, hu, hreach, hagain⟩ := h.passes d hd
    exact ⟨u, hu, hreach, hagain.tail hw⟩

lemma isSome_unfoldWithin (h : s.Trail root path v) (hroot : ¬ s.Knotted root)
    (hbound : s.cells.size < bound + path.length) :
    (s.unfoldWithin bound path v).isSome = true := by
  -- The bound is never used up: the trail would be longer than there are cells.
  induction bound generalizing path v with
  | zero =>
    have hle := h.length_le
    omega
  | succ bound ih =>
    refine isSome_unfoldWithin_succ.2 fun c hv => ?_
    have hnew := h.not_mem hroot hv
    refine ⟨hnew, fun w hw => ih (h.part hv hnew hw) ?_⟩
    rw [List.length_cons]
    omega

end Trail

lemma display?_eq_none_iff : s.display? v = none ↔ s.Knotted v := by
  have htrail : s.Trail v [] v := ⟨List.nodup_nil, List.forall_mem_nil _, .refl, List.forall_mem_nil _⟩
  have hbound : s.cells.size < s.cells.size + 1 + ([] : List CellId).length := Nat.lt_succ_self _
  rw [display?, Option.map_eq_none_iff, ← Option.not_isSome_iff_eq_none, ← not_iff_not, not_not]
  exact ⟨not_knotted_of_isSome, fun h => htrail.isSome_unfoldWithin h hbound⟩

end Store

end Klang

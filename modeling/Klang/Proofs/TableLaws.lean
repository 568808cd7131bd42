import Klang.Proofs.Masks
import Mathlib.Data.List.Induction
import Mathlib.Data.List.Nodup
import Mathlib.Data.Prod.Basic

/-! Tables as ordered maps. A table is known by its keys, in order, and by what stands under each. -/

namespace Klang.Table

variable {α : Type} {t u : Table α} {key : String}

lemma nodup_keys (t : Table α) : t.keys.Nodup := t.nodup

lemma lookup_eq_some_of_mem {entries : List (String × α)} {a : α}
    (hnodup : (entries.map Prod.fst).Nodup) (hmem : (key, a) ∈ entries) :
    entries.lookup key = some a := by
  obtain ⟨before, after, rfl⟩ := List.append_of_mem hmem
  refine List.lookup_eq_some_iff.2 ⟨before, after, rfl, fun e he => ?_⟩
  rw [List.map_append, List.map_cons, List.nodup_append] at hnodup
  simpa using Ne.symm (hnodup.2.2 e.1 (List.mem_map_of_mem he) key List.mem_cons_self)

lemma mem_of_lookup_eq_some {entries : List (String × α)} {a : α}
    (h : entries.lookup key = some a) : (key, a) ∈ entries := by
  obtain ⟨before, after, rfl, -⟩ := List.lookup_eq_some_iff.1 h
  exact List.mem_append_right _ List.mem_cons_self

lemma lookup_reverse {entries : List (String × α)} (hnodup : (entries.map Prod.fst).Nodup) :
    entries.reverse.lookup key = entries.lookup key := by
  have hreverse : (entries.reverse.map Prod.fst).Nodup := by
    rwa [List.map_reverse, List.nodup_reverse]
  apply Option.ext
  intro a
  constructor
  · intro h
    exact lookup_eq_some_of_mem hnodup (List.mem_reverse.1 (mem_of_lookup_eq_some h))
  · intro h
    exact lookup_eq_some_of_mem hreverse (List.mem_reverse.2 (mem_of_lookup_eq_some h))

lemma map_entries (t : Table α) :
    t.entries.map (Prod.map id some) = t.keys.map fun key => (key, t.find? key) := by
  rw [keys, List.map_map]
  apply List.map_congr_left
  intro e he
  have hfound : t.find? e.1 = some e.2 := lookup_eq_some_of_mem t.nodup he
  exact Prod.ext rfl hfound.symm

lemma ext_find? (hkeys : t.keys = u.keys) (hfind : ∀ key, t.find? key = u.find? key) : t = u := by
  have hinjective : Function.Injective (Prod.map (id : String → String) (some : α → Option α)) :=
    Function.Injective.prodMap Function.injective_id fun _ _ => Option.some.inj
  apply ext_entries
  apply List.map_injective_iff.2 hinjective
  rw [map_entries, map_entries, hkeys, funext hfind]

@[simp] lemma insertAll_nil : t.insertAll [] = t := rfl

lemma insertAll_concat (t : Table α) (entries : List (String × α)) (entry : String × α) :
    t.insertAll (entries ++ [entry]) = (t.insertAll entries).insert entry.1 entry.2 :=
  List.foldl_append

lemma eraseDups_concat (keys : List String) (key : String) :
    (keys ++ [key]).eraseDups = if key ∈ keys then keys.eraseDups else keys.eraseDups ++ [key] := by
  rw [List.eraseDups_append]
  split
  · rename_i hmem
    simp [List.removeAll, hmem]
  · rename_i hmem
    simp [List.removeAll, hmem, List.eraseDups_cons]

lemma eraseDups_of_nodup {keys : List String} (h : keys.Nodup) : keys.eraseDups = keys := by
  induction keys using List.reverseRecOn with
  | nil => rfl
  | append_singleton keys key ih =>
    obtain ⟨hkeys, -, hne⟩ := List.nodup_append.1 h
    have hmem : key ∉ keys := fun hm => hne key hm key List.mem_cons_self rfl
    rw [eraseDups_concat, if_neg hmem, ih hkeys]

lemma keys_insertAll (t : Table α) (entries : List (String × α)) :
    (t.insertAll entries).keys = (t.keys ++ entries.map Prod.fst).eraseDups := by
  induction entries using List.reverseRecOn with
  | nil => rw [insertAll_nil, List.map_nil, List.append_nil, eraseDups_of_nodup t.nodup_keys]
  | append_singleton entries entry ih =>
    rw [insertAll_concat, keys_insert, ih, List.map_append, List.map_singleton, ← List.append_assoc,
      eraseDups_concat]
    simp only [List.mem_eraseDups]

lemma find?_insertAll (t : Table α) (entries : List (String × α)) (key : String) :
    (t.insertAll entries).find? key = (entries.reverse.lookup key).or (t.find? key) := by
  induction entries using List.reverseRecOn with
  | nil => rfl
  | append_singleton entries entry ih =>
    rw [insertAll_concat, find?_insert, ih, List.reverse_append, List.reverse_singleton,
      List.singleton_append, List.lookup_cons]
    by_cases hkey : key = entry.1
    · simp [hkey]
    · have hbeq : (key == entry.1) = false := by simpa using hkey
      rw [if_neg hkey, hbeq]

lemma keys_ofList (entries : List (String × α)) :
    (ofList entries).keys = (entries.map Prod.fst).eraseDups := keys_insertAll empty entries

lemma find?_ofList (entries : List (String × α)) (key : String) :
    (ofList entries).find? key = entries.reverse.lookup key := by
  rw [ofList, find?_insertAll]
  exact Option.or_none

variable (t u : Table α)

lemma find?_merge (key : String) : (t.merge u).find? key = (u.find? key).or (t.find? key) := by
  rw [merge, find?_insertAll, lookup_reverse u.nodup]
  rfl

lemma keys_merge : (t.merge u).keys = t.keys ++ u.keys.filter (· ∉ t.keys) := by
  have hnew : (u.keys.filter (· ∉ t.keys)).Nodup := u.nodup_keys.filter _
  have hremove : u.keys.removeAll t.keys = u.keys.filter (· ∉ t.keys) := by
    simp [List.removeAll]
  rw [merge, keys_insertAll]
  change (t.keys ++ u.keys).eraseDups = _
  rw [List.eraseDups_append, hremove, eraseDups_of_nodup t.nodup_keys, eraseDups_of_nodup hnew]

lemma merge_assoc (v : Table α) : (t.merge u).merge v = t.merge (u.merge v) := by
  apply ext_find?
  · have hfilter : v.keys.filter (· ∉ t.keys ++ u.keys.filter (· ∉ t.keys)) =
        (v.keys.filter (· ∉ u.keys)).filter (· ∉ t.keys) := by
      rw [List.filter_filter]
      apply List.filter_congr
      intro key _
      by_cases ht : key ∈ t.keys <;> simp [ht]
    rw [keys_merge, keys_merge, keys_merge, keys_merge, hfilter, List.filter_append,
      List.append_assoc]
  · intro key
    rw [find?_merge, find?_merge, find?_merge, find?_merge, Option.or_assoc]

lemma merge_empty : t.merge empty = t := rfl

lemma empty_merge : (empty : Table α).merge t = t := by
  apply ext_find?
  · simp [keys_merge]
  · intro key
    rw [find?_merge]
    exact Option.or_none

lemma merge_self : t.merge t = t := by
  apply ext_find?
  · simp [keys_merge]
  · intro key
    rw [find?_merge, Option.or_self]

end Klang.Table

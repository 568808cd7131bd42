/-! Ordered tables: text keys, each held once, in the order of their first insertion. -/

namespace Klang

/-- Overwrites the first entry of a key in place, or appends a new entry at the end. -/
def putEntry {α : Type} (key : String) (value : α) : List (String × α) → List (String × α)
  | [] => [(key, value)]
  | entry :: rest =>
    if entry.1 = key then (key, value) :: rest else entry :: putEntry key value rest

theorem keys_putEntry {α : Type} (key : String) (value : α) (entries : List (String × α)) :
    (putEntry key value entries).map Prod.fst =
      if key ∈ entries.map Prod.fst then entries.map Prod.fst
      else entries.map Prod.fst ++ [key] := by
  induction entries with
  | nil => simp [putEntry]
  | cons entry rest ih =>
    by_cases h : entry.1 = key
    · simp [putEntry, h]
    · have h' : ¬ key = entry.1 := fun e => h e.symm
      simp only [putEntry, if_neg h, List.map_cons, ih, List.mem_cons, h', false_or]
      split <;> simp

structure Table (α : Type) where
  entries : List (String × α)
  nodup : (entries.map Prod.fst).Nodup

namespace Table

variable {α β : Type}

def empty : Table α := ⟨[], by simp⟩

instance : Inhabited (Table α) := ⟨empty⟩

def keys (table : Table α) : List String := table.entries.map Prod.fst

def values (table : Table α) : List α := table.entries.map Prod.snd

def size (table : Table α) : Nat := table.entries.length

def find? (table : Table α) (key : String) : Option α := table.entries.lookup key

def contains (table : Table α) (key : String) : Bool := (table.find? key).isSome

def insert (table : Table α) (key : String) (value : α) : Table α where
  entries := putEntry key value table.entries
  nodup := by
    rw [keys_putEntry]
    split
    · exact table.nodup
    · rename_i absent
      rw [List.nodup_append]
      exact ⟨table.nodup, by simp, fun a ha b hb => by
        rw [List.mem_singleton] at hb
        exact fun e => absent (hb ▸ e ▸ ha)⟩

def insertAll (table : Table α) (entries : List (String × α)) : Table α :=
  entries.foldl (fun t e => t.insert e.1 e.2) table

def ofList (entries : List (String × α)) : Table α := empty.insertAll entries

/-- The entries of both tables; the right one wins on a common key. -/
def merge (left right : Table α) : Table α := left.insertAll right.entries

@[simp] theorem keys_empty : (empty : Table α).keys = [] := rfl

theorem keys_insert (table : Table α) (key : String) (value : α) :
    (table.insert key value).keys =
      if key ∈ table.keys then table.keys else table.keys ++ [key] :=
  keys_putEntry key value table.entries

theorem lookup_putEntry (key other : String) (value : α) (entries : List (String × α)) :
    (putEntry key value entries).lookup other =
      if other = key then some value else entries.lookup other := by
  have beq_false {a b : String} (h : ¬ a = b) : (a == b) = false := by simpa using h
  induction entries with
  | nil => by_cases h : other = key <;> simp [putEntry, List.lookup_cons, List.lookup_nil, h, beq_false]
  | cons entry rest ih =>
    obtain ⟨k, v⟩ := entry
    by_cases hk : k = key
    · by_cases h : other = key <;> simp [putEntry, List.lookup_cons, hk, h, beq_false]
    · by_cases h : other = key
      · subst h
        simp [putEntry, List.lookup_cons, hk, ih, beq_false (Ne.symm hk)]
      · simp [putEntry, List.lookup_cons, hk, ih, h]

@[simp] theorem find?_insert (table : Table α) (key other : String) (value : α) :
    (table.insert key value).find? other = if other = key then some value else table.find? other :=
  lookup_putEntry key other value table.entries

end Table

end Klang

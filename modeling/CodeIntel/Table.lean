namespace CodeIntel

variable {α : Type}

/-- Puts a value under a key; the entries stay in ascending order of their keys, and an earlier
value of the key is replaced. -/
def insertEntry (key : String) (value : α) : List (String × α) → List (String × α)
  | [] => [(key, value)]
  | (k, v) :: rest =>
    if key < k then (key, value) :: (k, v) :: rest
    else if key = k then (key, value) :: rest
    else (k, v) :: insertEntry key value rest

/-- The value under a key. -/
def findEntry (key : String) : List (String × α) → Option α
  | [] => none
  | (k, v) :: rest => if k = key then some v else findEntry key rest

/-- Entries in ascending order of their keys, each key once. -/
def Ascending (entries : List (String × α)) : Prop := entries.Pairwise fun a b => a.1 < b.1

theorem findEntry_insertEntry_self (key : String) (value : α) (entries : List (String × α)) :
    findEntry key (insertEntry key value entries) = some value := by
  induction entries with
  | nil => simp [insertEntry, findEntry]
  | cons e rest ih =>
    obtain ⟨k, v⟩ := e
    unfold insertEntry
    split
    · simp [findEntry]
    · split
      · simp [findEntry]
      next _ ne => simp [findEntry, Ne.symm ne, ih]

theorem findEntry_insertEntry_of_ne {key other : String} (ne : other ≠ key) (value : α)
    (entries : List (String × α)) :
    findEntry other (insertEntry key value entries) = findEntry other entries := by
  induction entries with
  | nil => simp [insertEntry, findEntry, Ne.symm ne]
  | cons e rest ih =>
    obtain ⟨k, v⟩ := e
    unfold insertEntry
    split
    · simp [findEntry, Ne.symm ne]
    · split
      next _ eq => simp [findEntry, ← eq, Ne.symm ne]
      · simp only [findEntry, ih]

theorem mem_insertEntry {key : String} {value : α} {e : String × α} {entries : List (String × α)}
    (h : e ∈ insertEntry key value entries) : e = (key, value) ∨ e ∈ entries := by
  induction entries with
  | nil => simpa [insertEntry] using h
  | cons first rest ih =>
    obtain ⟨k, v⟩ := first
    unfold insertEntry at h
    split at h
    · simpa using h
    · split at h
      · rcases List.mem_cons.mp h with rfl | h
        · exact .inl rfl
        · exact .inr (List.mem_cons_of_mem _ h)
      · rcases List.mem_cons.mp h with rfl | h
        · exact .inr (List.mem_cons_self ..)
        · exact (ih h).imp_right (List.mem_cons_of_mem _)

theorem Ascending.insertEntry {entries : List (String × α)} (h : Ascending entries) (key : String)
    (value : α) : Ascending (insertEntry key value entries) := by
  induction entries with
  | nil => simp [CodeIntel.insertEntry, Ascending]
  | cons first rest ih =>
    obtain ⟨k, v⟩ := first
    have ⟨below, tail⟩ := List.pairwise_cons.mp h
    unfold CodeIntel.insertEntry
    split
    next lt =>
      refine List.pairwise_cons.mpr ⟨?_, h⟩
      intro e he
      rcases List.mem_cons.mp he with rfl | he
      · exact lt
      · exact String.lt_trans lt (below e he)
    next notLt =>
      split
      next eq =>
        refine List.pairwise_cons.mpr ⟨?_, tail⟩
        intro e he
        simpa [eq] using below e he
      next ne =>
        refine List.pairwise_cons.mpr ⟨?_, ih tail⟩
        intro e he
        rcases mem_insertEntry he with rfl | he
        · exact Decidable.byContradiction fun notGt =>
            ne (String.le_antisymm (String.not_lt.mp notGt) (String.not_lt.mp notLt))
        · exact below e he

/-- A finite map from texts, kept in ascending order of its keys. -/
structure Table (α : Type) where
  entries : List (String × α)
  ascending : Ascending entries

namespace Table

instance : Inhabited (Table α) := ⟨⟨[], .nil⟩⟩

def empty : Table α := ⟨[], .nil⟩

def insert (t : Table α) (key : String) (value : α) : Table α :=
  ⟨insertEntry key value t.entries, t.ascending.insertEntry key value⟩

def get? (t : Table α) (key : String) : Option α := findEntry key t.entries

/-- The entries put in one after the other; of several with one key the last stays. -/
def ofList (entries : List (String × α)) : Table α :=
  entries.foldl (fun t e => t.insert e.1 e.2) empty

/-- Both tables together; where they share a key, the second decides. -/
def merge (t u : Table α) : Table α := u.entries.foldl (fun t e => t.insert e.1 e.2) t

end Table

end CodeIntel

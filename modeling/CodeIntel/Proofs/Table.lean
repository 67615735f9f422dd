import CodeIntel.Table
import Mathlib.Data.List.Nodup

namespace CodeIntel

variable {α : Type} {entries entries' : List (String × α)} {key : String} {value : α}

theorem mem_of_findEntry (found : findEntry key entries = some value) : (key, value) ∈ entries := by
  induction entries with
  | nil => cases found
  | cons e rest ih =>
    obtain ⟨k, v⟩ := e
    unfold findEntry at found
    split at found
    next eq =>
      cases found
      rw [eq]
      exact List.mem_cons_self ..
    next => exact List.mem_cons_of_mem _ (ih found)

theorem findEntry_eq_none_iff : findEntry key entries = none ↔ key ∉ entries.map Prod.fst := by
  induction entries with
  | nil => simp [findEntry]
  | cons e rest ih =>
    obtain ⟨k, v⟩ := e
    unfold findEntry
    split
    next eq => simp [eq]
    next ne => simp [ih, Ne.symm ne]

/-- Where each key stands once, an entry is found under its key. -/
theorem findEntry_of_mem (once : (entries.map Prod.fst).Nodup) (mem : (key, value) ∈ entries) :
    findEntry key entries = some value := by
  induction entries with
  | nil => cases mem
  | cons e rest ih =>
    obtain ⟨k, v⟩ := e
    obtain ⟨apart, once⟩ := List.nodup_cons.mp once
    unfold findEntry
    rcases List.mem_cons.mp mem with same | mem
    · cases same
      exact if_pos rfl
    · have other : k ≠ key := by
        rintro rfl
        exact apart (List.mem_map.mpr ⟨_, mem, rfl⟩)
      rw [if_neg other, ih once mem]

namespace Ascending

theorem nodup_keys (h : Ascending entries) : (entries.map Prod.fst).Nodup := by
  refine List.pairwise_map.mpr (List.Pairwise.imp ?_ h)
  intro a b lt eq
  exact String.lt_irrefl _ (eq ▸ lt)

theorem nodup (h : Ascending entries) : entries.Nodup := List.Nodup.of_map Prod.fst h.nodup_keys

theorem findEntry_eq_some_iff (h : Ascending entries) :
    findEntry key entries = some value ↔ (key, value) ∈ entries :=
  ⟨mem_of_findEntry, findEntry_of_mem h.nodup_keys⟩

/-- Entries in ascending order are told apart by what stands under some key. -/
theorem eq_of_findEntry (h : Ascending entries) (h' : Ascending entries')
    (same : ∀ key, findEntry key entries = findEntry key entries') : entries = entries' := by
  have perm : entries.Perm entries' := by
    refine (List.perm_ext_iff_of_nodup h.nodup h'.nodup).mpr ?_
    rintro ⟨key, value⟩
    rw [← h.findEntry_eq_some_iff, ← h'.findEntry_eq_some_iff, same key]
  refine perm.eq_of_pairwise (fun a b _ _ lt gt => ?_) h h'
  exact absurd (String.lt_trans lt gt) (String.lt_irrefl _)

end Ascending

section Fold

/-- What stands under a key after more entries came in, each key once: the new entry of the key, or
what was there before. -/
theorem findEntry_foldl_insertEntry (once : (entries'.map Prod.fst).Nodup)
    (entries : List (String × α)) (key : String) :
    findEntry key (entries'.foldl (fun acc e => insertEntry e.1 e.2 acc) entries) =
      (findEntry key entries').or (findEntry key entries) := by
  induction entries' generalizing entries with
  | nil => rfl
  | cons e rest ih =>
    obtain ⟨k, v⟩ := e
    obtain ⟨apart, once⟩ := List.nodup_cons.mp once
    rw [List.foldl_cons, ih once]
    by_cases eq : k = key
    · have absent : findEntry key rest = none := findEntry_eq_none_iff.mpr (eq ▸ apart)
      simp [absent, findEntry, eq, findEntry_insertEntry_self]
    · rw [findEntry_insertEntry_of_ne (Ne.symm eq), findEntry, if_neg eq]

theorem ascending_foldl_insertEntry (h : Ascending entries) (entries' : List (String × α)) :
    Ascending (entries'.foldl (fun acc e => insertEntry e.1 e.2 acc) entries) := by
  induction entries' generalizing entries with
  | nil => exact h
  | cons e rest ih => exact ih (h.insertEntry e.1 e.2)

end Fold

namespace Table

variable {t u v : Table α}

theorem ext_get? (same : ∀ key, t.get? key = u.get? key) : t = u := by
  have entries := t.ascending.eq_of_findEntry u.ascending same
  cases t
  cases u
  cases entries
  rfl

@[simp]
theorem get?_empty (key : String) : (empty : Table α).get? key = none := rfl

theorem entries_merge (t u : Table α) :
    (t.merge u).entries = u.entries.foldl (fun acc e => insertEntry e.1 e.2 acc) t.entries :=
  (List.foldl_hom Table.entries fun _ _ => rfl).symm

@[simp]
theorem get?_merge (t u : Table α) (key : String) :
    (t.merge u).get? key = (u.get? key).or (t.get? key) := by
  unfold get?
  rw [entries_merge, findEntry_foldl_insertEntry u.ascending.nodup_keys]

theorem merge_assoc (t u v : Table α) : (t.merge u).merge v = t.merge (u.merge v) :=
  ext_get? fun key => by simp [Option.or_assoc]

@[simp]
theorem empty_merge (t : Table α) : empty.merge t = t := ext_get? fun key => by simp

@[simp]
theorem merge_empty (t : Table α) : t.merge empty = t := ext_get? fun key => by simp

end Table

section Map

variable {β : Type}

theorem findEntry_map (g : α → β) (key : String) (entries : List (String × α)) :
    findEntry key (entries.map (Prod.map id g)) = (findEntry key entries).map g := by
  induction entries with
  | nil => rfl
  | cons e rest ih =>
    obtain ⟨k, v⟩ := e
    simp only [List.map_cons, Prod.map, id, findEntry]
    split
    · rfl
    · exact ih

theorem insertEntry_map (g : α → β) (key : String) (value : α) (entries : List (String × α)) :
    insertEntry key (g value) (entries.map (Prod.map id g)) =
      (insertEntry key value entries).map (Prod.map id g) := by
  induction entries with
  | nil => rfl
  | cons e rest ih =>
    obtain ⟨k, v⟩ := e
    simp only [List.map_cons, Prod.map, id, insertEntry]
    split
    · rfl
    split
    · rfl
    · exact congrArg ((k, g v) :: ·) ih

theorem foldl_insertEntry_map (g : α → β) (entries acc : List (String × α)) :
    (entries.map (Prod.map id g)).foldl (fun acc e => insertEntry e.1 e.2 acc)
        (acc.map (Prod.map id g)) =
      (entries.foldl (fun acc e => insertEntry e.1 e.2 acc) acc).map (Prod.map id g) := by
  induction entries generalizing acc with
  | nil => rfl
  | cons e rest ih =>
    have insert : insertEntry (Prod.map id g e).1 (Prod.map id g e).2 (acc.map (Prod.map id g)) =
        (insertEntry e.1 e.2 acc).map (Prod.map id g) :=
      insertEntry_map g e.1 e.2 acc
    rw [List.map_cons, List.foldl_cons, List.foldl_cons, insert, ih]

namespace Table

/-- The table with other values under its keys. -/
def mapValues (g : α → β) (t : Table α) : Table β where
  entries := t.entries.map (Prod.map id g)
  ascending := List.pairwise_map.mpr t.ascending

theorem entries_ofList (entries : List (String × α)) :
    (ofList entries).entries = entries.foldl (fun acc e => insertEntry e.1 e.2 acc) [] :=
  (List.foldl_hom Table.entries fun _ _ => rfl).symm

theorem ofList_map (g : α → β) (entries : List (String × α)) :
    ofList (entries.map (Prod.map id g)) = (ofList entries).mapValues g := by
  have same : (ofList (entries.map (Prod.map id g))).entries =
      (ofList entries).entries.map (Prod.map id g) := by
    rw [entries_ofList, entries_ofList]
    exact foldl_insertEntry_map g entries []
  exact ext_get? fun key => congrArg (findEntry key) same

end Table

end Map

end CodeIntel

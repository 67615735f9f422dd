import CodeIntel.Proofs.Basic
import CodeIntel.Proofs.Table
import CodeIntel.Shape.Fields

namespace CodeIntel

variable {α β : Type}

namespace Json

/-- What stands under a key among members, each of which has a key of its own. -/
theorem findEntry_sortMembers {members : List (String × Json)} (once : (members.map Prod.fst).Nodup)
    (key : String) : findEntry key (sortMembers members) = findEntry key members :=
  (findEntry_foldl_insertEntry once [] key).trans (Option.or_none ..)

theorem findEntry_filterMap {members : List (String × Option Json)}
    (once : (members.map Prod.fst).Nodup) (key : String) :
    findEntry key (members.filterMap fun (key, value?) => value?.map fun value => (key, value)) =
      (findEntry key members).join := by
  induction members with
  | nil => rfl
  | cons member rest ih =>
    obtain ⟨name, value?⟩ := member
    obtain ⟨apart, later⟩ : name ∉ rest.map Prod.fst ∧ (rest.map Prod.fst).Nodup :=
      List.nodup_cons.mp once
    rw [findEntry]
    cases value? with
    | some value =>
      change (if name = key then some value else findEntry key (rest.filterMap _)) = _
      rw [ih later]
      split <;> rfl
    | none =>
      change findEntry key (rest.filterMap _) = _
      rw [ih later]
      split
      next same =>
        rw [findEntry_eq_none_iff.mpr (same ▸ apart)]
        rfl
      · rfl

theorem nodup_keys_filterMap {members : List (String × Option Json)}
    (once : (members.map Prod.fst).Nodup) :
    ((members.filterMap fun (key, value?) => value?.map fun value => (key, value)).map
      Prod.fst).Nodup := by
  refine once.sublist ?_
  induction members with
  | nil => exact .slnil
  | cons member rest ih =>
    obtain ⟨name, value?⟩ := member
    have rest := ih (List.nodup_cons.mp once).2
    cases value? with
    | some value => exact rest.cons_cons name
    | none => exact rest.cons name

/-- What stands under a key in the object of the members that have a value. -/
theorem exists_ofOptionalMembers {members : List (String × Option Json)}
    (once : (members.map Prod.fst).Nodup) : ∃ entries, ofOptionalMembers members = .object entries ∧
      ∀ key, findEntry key entries = (findEntry key members).join :=
  ⟨_, rfl, fun key => (findEntry_sortMembers (nodup_keys_filterMap once) key).trans
    (findEntry_filterMap once key)⟩

/-- What a record is given for a field: the member of its name, or the element at its place. -/
def fieldAt? (value : Json) (name : String) (index : Nat) : Option Json :=
  match value with
  | object members => findEntry name members
  | array items => items[index]?
  | _ => none

theorem exists_ofMembers {members : List (String × Json)} (once : (members.map Prod.fst).Nodup) :
    ∃ entries, ofMembers members = .object entries ∧
      ∀ key, findEntry key entries = findEntry key members :=
  ⟨_, rfl, findEntry_sortMembers once⟩

end Json

namespace Decoder

/-- Whatever is read is as said. -/
def Yields (P : α → Prop) (decode : Decoder α) : Prop := ∀ value a, decode value = .ok a → P a

/-- Reading undoes a way of writing for the values that are as said, and yields no others. -/
structure Undoes (decode : Decoder α) (write : α → Json) (P : α → Prop) : Prop where
  back : ∀ a, P a → decode (write a) = .ok a
  yields : decode.Yields P

variable {decode : Decoder α} {write : α → Json} {P : α → Prop} {value : Json} {a? : Option α}

/-- What was read once is written and read as it is. -/
theorem Undoes.again (undoes : decode.Undoes write P) {a : α} (read : decode value = .ok a) :
    decode (write a) = .ok a :=
  undoes.back a (undoes.yields value a read)

theorem nullable_of_ne_null (some : value ≠ .null) :
    nullable decode value = Option.some <$> decode value := by
  cases value with
  | null => exact absurd rfl some
  | _ => rfl

theorem nullable_ofOption (back : ∀ a ∈ a?, decode (write a) = .ok a ∧ write a ≠ .null) :
    nullable decode (.ofOption (a?.map write)) = .ok a? := by
  cases a? with
  | none => rfl
  | some a =>
    obtain ⟨read, some⟩ := back a rfl
    rw [Option.map_some, Json.ofOption, nullable_of_ne_null some, read]
    rfl

theorem yields_true (decode : Decoder α) : decode.Yields fun _ => True := fun _ _ _ => trivial

theorem Yields.apart (yields : decode.Yields P) :
    ∀ value a, value ≠ .null → decode value = .ok a → P a :=
  fun value a _ => yields value a

theorem json_apart : ∀ value a, value ≠ .null → json value = .ok a → a ≠ .null := by
  rintro value _ some ⟨⟩
  exact some

theorem undoes_bool : bool.Undoes .bool fun _ => True := ⟨fun _ _ => rfl, yields_true _⟩

/-- Whether a number has 64 bits with its sign. -/
def IsLong (n : Int) : Prop := -0x8000000000000000 ≤ n ∧ n ≤ 0x7FFFFFFFFFFFFFFF

theorem integer_eq_ok_iff {low high n : Int} {expected : String} :
    integer low high expected value = .ok n ↔ value = .int n ∧ low ≤ n ∧ n ≤ high := by
  unfold integer
  split
  next m =>
    split
    next inside =>
      constructor
      · rintro ⟨⟩
        exact ⟨rfl, inside⟩
      · rintro ⟨⟨⟩, _⟩
        rfl
    next outside =>
      constructor
      · nofun
      · rintro ⟨⟨⟩, inside⟩
        exact absurd inside outside
  next other =>
    constructor
    · nofun
    · rintro ⟨rfl, _⟩
      exact absurd rfl (other n)

theorem undoes_i64 : i64.Undoes .int IsLong where
  back _ long := integer_eq_ok_iff.mpr ⟨rfl, long⟩
  yields _ _ read := (integer_eq_ok_iff.mp read).2

/-- Whether a number has 32 bits with its sign. -/
def IsShort (n : Int) : Prop := -0x80000000 ≤ n ∧ n ≤ 0x7FFFFFFF

theorem undoes_i32 : i32.Undoes .int IsShort where
  back _ short := integer_eq_ok_iff.mpr ⟨rfl, short⟩
  yields _ _ read := (integer_eq_ok_iff.mp read).2

theorem firstOf_cons (union : String) (rest : List (Decoder α)) :
    firstOf union (decode :: rest) value =
      match decode value with
      | .ok a => .ok a
      | .error _ => firstOf union rest value := by
  unfold firstOf
  rw [List.findSome?_cons]
  cases decode value <;> rfl

theorem list_cons_eq_ok_iff {as : List α} {values : List Json} : list decode (.array (value :: values)) = .ok as ↔
    ∃ a rest, decode value = .ok a ∧ list decode (.array values) = .ok rest ∧ as = a :: rest := by
  change (value :: values).mapM decode = .ok as ↔
    ∃ a rest, decode value = .ok a ∧ values.mapM decode = .ok rest ∧ as = a :: rest
  rw [List.mapM_cons, bind_eq_ok_iff]
  refine exists_congr fun a => ?_
  rw [bind_eq_ok_iff]
  constructor
  · rintro ⟨first, rest, later, ⟨⟩⟩
    exact ⟨rest, first, later, rfl⟩
  · rintro ⟨rest, first, later, rfl⟩
    exact ⟨first, rest, later, rfl⟩

theorem Undoes.list (undoes : decode.Undoes write P) :
    (list decode).Undoes (fun as => .array (as.map write)) fun as => ∀ a ∈ as, P a where
  back as all := by
    induction as with
    | nil => rfl
    | cons a as ih =>
      obtain ⟨here, later⟩ := List.forall_mem_cons.mp all
      exact list_cons_eq_ok_iff.mpr ⟨a, as, undoes.back a here, ih later, rfl⟩
  yields value as read := by
    cases value with
    | array items =>
      induction items generalizing as with
      | nil =>
        cases read
        exact nofun
      | cons item items ih =>
        obtain ⟨a, rest, first, later, rfl⟩ := list_cons_eq_ok_iff.mp read
        exact List.forall_mem_cons.mpr ⟨undoes.yields item a first, ih rest later⟩
    | _ => cases read

end Decoder

namespace Fields

variable {members : List (String × Json)} {name : String} {decoder : Decoder α} {value : Json} {a : α}
  {a? : Option α} {fields : Fields α} {P : α → Prop}

/-- Wherever the fields stand in their record, they read a value off some members. -/
def Reads (fields : Fields α) (members : List (String × Json)) (a : α) : Prop :=
  ∀ index, (fields.read (.members members) index).2 = some a

theorem Reads.map {x : Fields α} (reads : x.Reads members a) (g : α → β) :
    (g <$> x).Reads members (g a) := by
  intro index
  rw [read_map, reads index]
  rfl

theorem Reads.seq {f : Fields (α → β)} {g : α → β} {x : Fields α} (readsF : f.Reads members g)
    (readsX : x.Reads members a) : (f <*> x).Reads members (g a) := by
  intro index
  rw [read_seq, readsF index, Option.bind_some, readsX]
  rfl

theorem reads_required (found : findEntry name members = some value) (read : decoder value = .ok a) :
    (required name decoder).Reads members a := by
  intro index
  rw [read_required, found, Option.bind_some, read]
  rfl

theorem reads_optional (found : findEntry name members = some value)
    (read : Decoder.nullable decoder value = .ok a?) : (optional name decoder).Reads members a? := by
  intro index
  rw [read_optional, found]
  exact toOption_eq_some_iff.mpr read

theorem reads_optional_none (absent : findEntry name members = none) :
    (optional name decoder).Reads members none := by
  intro index
  rw [read_optional, absent]

theorem read_defaulted (value : α) (source : FieldSource) (index : Nat) :
    (defaulted name decoder value).read source index =
      match valueAt? source name index with
      | none => ([], some value)
      | some found =>
        match decoder found with
        | .ok a => ([], some a)
        | .error e => ([.bad name e], none) := by
  unfold defaulted field
  simp only
  cases valueAt? source name index with
  | some found => rfl
  | none => cases source <;> rfl

theorem reads_defaulted {b : α} (found : findEntry name members = some value)
    (read : decoder value = .ok a) : (defaulted name decoder b).Reads members a := by
  intro index
  rw [read_defaulted, valueAt?, found]
  simp only [read]

theorem reads_defaulted_none (absent : findEntry name members = none) :
    (defaulted name decoder a).Reads members a := by
  intro index
  rw [read_defaulted, valueAt?, absent]

section Written

variable {write : α → Json}

/-- An optional field that is left out where it has no value. -/
theorem reads_optional_map (found : findEntry name members = a?.map write)
    (back : ∀ a ∈ a?, decoder (write a) = .ok a ∧ write a ≠ .null) :
    (optional name decoder).Reads members a? := by
  cases a? with
  | none => exact reads_optional_none found
  | some a =>
    have read : Decoder.nullable decoder (write a) = .ok (some a) := Decoder.nullable_ofOption back
    exact reads_optional found read

theorem reads_omittable_map (found : findEntry name members = a?.map write)
    (back : ∀ a ∈ a?, decoder (write a) = .ok a ∧ write a ≠ .null) :
    (omittable name decoder).Reads members a? := by
  cases a? with
  | none => exact reads_defaulted_none found
  | some a =>
    have read : Decoder.nullable decoder (write a) = .ok (some a) := Decoder.nullable_ofOption back
    exact reads_defaulted found read

/-- What is written of a value is read back as that value, where a field holds it. -/
theorem reads_written {P : α → Prop} (undoes : decoder.Undoes write P) (plain : P a)
    (found : findEntry name members = some (write a)) : (required name decoder).Reads members a :=
  reads_required found (undoes.back a plain)

end Written

variable {text : String} {text? : Option String} {payload : Option Json}

theorem reads_text (found : findEntry name members = some (.string text)) :
    (required name .string).Reads members text :=
  reads_required found rfl

theorem reads_optional_text (found : findEntry name members = text?.map .string) :
    (optional name .string).Reads members text? :=
  reads_optional_map found fun _ _ => ⟨rfl, nofun⟩

theorem reads_omittable_text (found : findEntry name members = text?.map .string) :
    (omittable name .string).Reads members text? :=
  reads_omittable_map found fun _ _ => ⟨rfl, nofun⟩

theorem reads_optional_json (found : findEntry name members = payload)
    (given : ∀ value ∈ payload, value ≠ .null) : (optional name .json).Reads members payload := by
  rw [← Option.map_id_apply (x := payload)] at found
  exact reads_optional_map found fun value mem => ⟨rfl, given value mem⟩

theorem reads_omittable_json (found : findEntry name members = payload)
    (given : ∀ value ∈ payload, value ≠ .null) : (omittable name .json).Reads members payload := by
  rw [← Option.map_id_apply (x := payload)] at found
  exact reads_omittable_map found fun value mem => ⟨rfl, given value mem⟩

theorem Reads.decode (reads : fields.Reads members a) (name : String) :
    fields.decode name (.object members) = .ok a :=
  toOption_eq_some_iff.mp ((fields.toOption_decode name).trans (reads 0))

/-- A record is read back from the object of those of its members that have a value. -/
theorem decode_ofOptionalMembers {members : List (String × Option Json)}
    (once : (members.map Prod.fst).Nodup)
    (reads : ∀ entries, (∀ key, findEntry key entries = (findEntry key members).join) →
      fields.Reads entries a) (name : String) :
    fields.decode name (.ofOptionalMembers members) = .ok a := by
  obtain ⟨entries, same, found⟩ := Json.exists_ofOptionalMembers once
  rw [same]
  exact (reads entries found).decode name

theorem decode_ofMembers {members : List (String × Json)} (once : (members.map Prod.fst).Nodup)
    (reads : ∀ entries, (∀ key, findEntry key entries = findEntry key members) →
      fields.Reads entries a) (name : String) :
    fields.decode name (.ofMembers members) = .ok a := by
  obtain ⟨entries, same, found⟩ := Json.exists_ofMembers once
  rw [same]
  exact (reads entries found).decode name

/-- Whatever the fields read from a place of a source on is as said. -/
def Sees (fields : Fields α) (source : FieldSource) (index : Nat) (P : α → Prop) : Prop :=
  ∀ a, (fields.read source index).2 = some a → P a

section Sees

variable {source : FieldSource} {index : Nat}

theorem sees_true (fields : Fields α) (source : FieldSource) (index : Nat) :
    fields.Sees source index fun _ => True := fun _ _ => trivial

theorem Sees.map {Q : β → Prop} {x : Fields α} {g : α → β} (sees : x.Sees source index P)
    (so : ∀ a, P a → Q (g a)) : (g <$> x).Sees source index Q := by
  intro b read
  rw [read_map] at read
  obtain ⟨a, first, rfl⟩ := Option.map_eq_some_iff.mp read
  exact so a (sees a first)

theorem Sees.seq {Q : β → Prop} {f : Fields (α → β)} {x : Fields α}
    (seesF : f.Sees source index fun g => ∀ a, P a → Q (g a))
    (seesX : x.Sees source (index + f.count) P) : (f <*> x).Sees source index Q := by
  intro b read
  rw [read_seq] at read
  obtain ⟨g, readF, read⟩ := Option.bind_eq_some_iff.mp read
  obtain ⟨a, readX, rfl⟩ := Option.map_eq_some_iff.mp read
  exact seesF g readF a (seesX a readX)

theorem Sees.skip {Q : β → Prop} {f : Fields (α → β)} {x : Fields α}
    (sees : f.Sees source index fun g => ∀ a, Q (g a)) : (f <*> x).Sees source index Q :=
  Sees.seq (P := fun _ => True) (fun g read a _ => sees g read a) (sees_true x source _)

/-- A field is read off what stands there, or it is what stands in for it. -/
theorem sees_field (inObject inArray : Option α) :
    (field name decoder inObject inArray).Sees source index fun a =>
      (∃ value, valueAt? source name index = some value ∧ decoder value = .ok a) ∨
        (valueAt? source name index = none ∧ (inObject = some a ∨ inArray = some a)) := by
  intro a read
  unfold field at read
  simp only at read
  split at read
  next value found =>
    split at read
    next b decoded =>
      cases read
      exact .inl ⟨value, found, decoded⟩
    next => cases read
  next absent =>
    refine .inr ⟨absent, ?_⟩
    cases source with
    | members members =>
      cases inObject with
      | none => cases read
      | some b => exact .inl read
    | elements items =>
      cases inArray with
      | none => cases read
      | some b => exact .inr read

theorem sees_required (name : String) (decoder : Decoder α) :
    (required name decoder).Sees source index fun a =>
      ∃ value, valueAt? source name index = some value ∧ decoder value = .ok a := by
  intro a read
  rcases sees_field _ _ a read with given | ⟨_, ⟨⟨⟩⟩ | ⟨⟨⟩⟩⟩
  exact given

/-- What is read of an optional field is what stands there, unless it is null. -/
def Taken (decoder : Decoder α) (given : Option Json) : Option α → Prop
  | none => ∀ value ∈ given, value = .null
  | some a => ∃ value, given = some value ∧ value ≠ .null ∧ decoder value = .ok a

theorem taken_of_nullable (given : valueAt? source name index = some value)
    (read : Decoder.nullable decoder value = .ok a?) :
    Taken decoder (valueAt? source name index) a? := by
  rw [given]
  by_cases null : value = .null
  · rw [null] at read
    cases read
    rintro _ ⟨⟩
    exact null
  · rw [Decoder.nullable_of_ne_null null] at read
    cases decoded : decoder value with
    | error e => rw [decoded] at read; cases read
    | ok a =>
      rw [decoded] at read
      cases read
      exact ⟨value, rfl, null, decoded⟩

theorem sees_optional (name : String) (decoder : Decoder α) :
    (optional name decoder).Sees source index (Taken decoder (valueAt? source name index)) := by
  intro a? read
  rcases sees_field _ _ a? read with ⟨value, given, decoded⟩ | ⟨absent, ⟨⟨⟩⟩ | ⟨⟨⟩⟩⟩
  · exact taken_of_nullable given decoded
  · rw [absent]
    exact nofun

theorem sees_omittable (name : String) (decoder : Decoder α) :
    (omittable name decoder).Sees source index (Taken decoder (valueAt? source name index)) := by
  intro a? read
  rcases sees_field _ _ a? read with ⟨value, given, decoded⟩ | ⟨absent, ⟨⟨⟩⟩ | ⟨⟨⟩⟩⟩
  · exact taken_of_nullable given decoded
  · rw [absent]
    exact nofun
  · rw [absent]
    exact nofun

end Sees

/-- Whatever the fields read off a record is as said. -/
def Yields (P : α → Prop) (fields : Fields α) : Prop :=
  ∀ source index, fields.Sees source index P

theorem yields_true (fields : Fields α) : fields.Yields fun _ => True := fields.sees_true

theorem Yields.map {Q : β → Prop} {x : Fields α} {g : α → β} (yields : x.Yields P)
    (so : ∀ a, P a → Q (g a)) : (g <$> x).Yields Q :=
  fun source index => (yields source index).map so

theorem Yields.seq {Q : β → Prop} {f : Fields (α → β)} {x : Fields α}
    (yieldsF : f.Yields fun g => ∀ a, P a → Q (g a)) (yieldsX : x.Yields P) :
    (f <*> x).Yields Q :=
  fun source index => (yieldsF source index).seq (yieldsX source _)

theorem yields_required (yields : decoder.Yields P) : (required name decoder).Yields P := by
  intro source index a read
  rcases sees_field _ _ a read with ⟨value, _, decoded⟩ | ⟨_, ⟨⟨⟩⟩ | ⟨⟨⟩⟩⟩
  exact yields value a decoded

/-- What an optional field yields where it has a value was not null. -/
theorem Taken.yields (given : Option Json) (taken : Taken decoder given a?)
    (yields : ∀ value a, value ≠ .null → decoder value = .ok a → P a) : ∀ a ∈ a?, P a := by
  rintro a rfl
  obtain ⟨value, _, some, read⟩ := taken
  exact yields value a some read

theorem yields_optional (yields : ∀ value a, value ≠ .null → decoder value = .ok a → P a) :
    (optional name decoder).Yields fun a? => ∀ a ∈ a?, P a :=
  fun _ _ a? read => Taken.yields _ (sees_optional name decoder a? read) yields

theorem yields_omittable (yields : ∀ value a, value ≠ .null → decoder value = .ok a → P a) :
    (omittable name decoder).Yields fun a? => ∀ a ∈ a?, P a :=
  fun _ _ a? read => Taken.yields _ (sees_omittable name decoder a? read) yields

theorem toOption_ofElements (items : List Json) :
    (fields.ofElements name items).toOption =
      if (fields.read (.elements items) 0).1 = [] ∧ items.length ≤ fields.count then
        (fields.read (.elements items) 0).2
      else none := by
  unfold ofElements
  generalize fields.read (.elements items) 0 = found
  obtain ⟨problems, value⟩ := found
  cases problems with
  | cons problem _ => cases problem <;> simp [Except.toOption]
  | nil =>
    cases value with
    | none => simp [Except.toOption]
    | some a =>
      by_cases long : fields.count < items.length
      · simp [long, Except.toOption]
      · simp [long, Except.toOption, Nat.le_of_not_lt long]

/-- A record that could be read was read off the members or the elements that there are. -/
theorem exists_source (read : fields.decode name value = .ok a) :
    ∃ source, (fields.read source 0).2 = some a ∧
      ∀ key index, valueAt? source key index = value.fieldAt? key index := by
  cases value with
  | object members =>
    refine ⟨.members members, ?_, fun _ _ => rfl⟩
    rw [← fields.toOption_decode name, read]
    rfl
  | array items =>
    refine ⟨.elements items, ?_, fun _ _ => rfl⟩
    have found : (fields.ofElements name items).toOption = some a := toOption_eq_some_iff.mpr read
    rw [toOption_ofElements] at found
    split at found
    · exact found
    · cases found
  | _ => cases read

/-- So what its fields say of what they read off those is said of the record. -/
theorem holds_of_decode (sees : ∀ source,
    (∀ key index, valueAt? source key index = value.fieldAt? key index) → fields.Sees source 0 P) :
    ∀ a, fields.decode name value = .ok a → P a := by
  intro a read
  obtain ⟨source, read, given⟩ := exists_source read
  exact sees source given a read

theorem Yields.decode (yields : fields.Yields P) (name : String) : (fields.decode name).Yields P :=
  fun _ => holds_of_decode fun source _ => yields source 0

end Fields

end CodeIntel

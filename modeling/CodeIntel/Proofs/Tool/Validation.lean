import CodeIntel.Proofs.Basic
import CodeIntel.Proofs.Table
import CodeIntel.Tool.Catalog

namespace CodeIntel

/-- What is given for an argument; null counts as nothing. -/
def Json.argument? (args : Json) (name : String) : Option Json :=
  (args.member? name).filter fun value => !value.isNull

theorem Json.filter_argument? (args : Json) (name : String) :
    ((args.argument? name).filter fun value => !value.isNull) = args.argument? name := by
  simp [argument?, Option.filter_filter]

namespace FieldSpec

variable {field : FieldSpec} {given value? : Option Json}

/-- Whether a field takes what is given for it. -/
structure Takes (field : FieldSpec) (given : Option Json) : Prop where
  kind : ∀ value, given = some value → field.kind.accepts value = true
  present : field.required = true → given ≠ none
  visible : field.required = true → ∀ s, given = some (.string s) → isBlankText s.toList = false

theorem isBlankString_iff {value : Json} :
    isBlankString value = true ↔ ∃ s, value = .string s ∧ isBlankText s.toList = true := by
  cases value <;> simp [isBlankString]

theorem takes_none_iff : field.Takes none ↔ field.required = false := by
  constructor
  · intro takes
    exact Bool.eq_false_iff.mpr fun required => takes.present required rfl
  · intro optional
    exact ⟨nofun, by simp [optional], by simp [optional]⟩

theorem takes_some_iff {value : Json} : field.Takes (some value) ↔
    field.kind.accepts value = true ∧ (field.required && isBlankString value) = false := by
  constructor
  · intro takes
    refine ⟨takes.kind value rfl, Bool.eq_false_iff.mpr fun both => ?_⟩
    obtain ⟨required, blank⟩ := Bool.and_eq_true_iff.mp both
    obtain ⟨s, rfl, blank⟩ := isBlankString_iff.mp blank
    exact Bool.eq_false_iff.mp (takes.visible required s rfl) blank
  · rintro ⟨accepted, visible⟩
    refine ⟨?_, nofun, ?_⟩
    · rintro _ ⟨⟩
      exact accepted
    · rintro required s ⟨⟩
      simpa [required, isBlankString] using visible

/-- Nothing else than a value that is not null is checked, and the default stands in for it. -/
theorem resolve_eq_ok_iff : field.resolve given = .ok value? ↔
    field.Takes (given.filter fun value => !value.isNull) ∧
      value? = (given.filter fun value => !value.isNull).or field.default := by
  have absent : (if field.required then .error (.missing field.name) else .ok field.default :
      Except ArgumentError (Option Json)) = .ok value? ↔
      field.Takes none ∧ value? = field.default := by
    rw [takes_none_iff]
    cases field.required <;> simp [eq_comm]
  unfold resolve
  split
  next => exact absent
  next => exact absent
  next value notNull =>
    have kept : (some value).filter (fun value => !value.isNull) = some value := by
      cases value <;> simp_all [Json.isNull]
    rw [kept, takes_some_iff]
    cases field.kind.accepts value with
    | false => simp
    | true => cases field.required && isBlankString value <;> simp [eq_comm]

/-- Where the default is null or of its kind, a field takes again what was filled in for it, and
fills in the same. -/
theorem Takes.refill (takes : field.Takes given)
    (fit : ∀ value, field.default = some value → value = .null ∨ field.kind.accepts value = true)
    (notNull : (given.filter fun value => !value.isNull) = given) :
    field.Takes ((given.or field.default).filter fun value => !value.isNull) ∧
      ((given.or field.default).filter fun value => !value.isNull).or field.default =
        given.or field.default := by
  cases given with
  | some value => exact ⟨by rwa [Option.some_or, notNull], by rw [Option.some_or, notNull]; rfl⟩
  | none =>
    rw [Option.none_or]
    cases default : field.default with
    | none => exact ⟨takes, rfl⟩
    | some value =>
      rcases fit value default with rfl | accepted
      · exact ⟨takes, rfl⟩
      · have kept : (some value).filter (fun value => !value.isNull) = some value := by
          cases value <;> simp_all [Json.isNull, FieldKind.accepts]
        rw [kept]
        exact ⟨takes_some_iff.mpr ⟨accepted, by simp [takes_none_iff.mp takes]⟩, rfl⟩

end FieldSpec

/-- Some value of a kind. -/
def FieldKind.sample : FieldKind → Json
  | string => .string "a"
  | boolean => .bool true
  | integer => .nat 1
  | array => .array []

theorem FieldKind.accepts_sample (kind : FieldKind) : kind.accepts kind.sample = true := by
  cases kind <;> rfl

theorem FieldKind.sample_visible (kind : FieldKind) :
    FieldSpec.isBlankString kind.sample = false := by
  cases kind <;> decide

theorem findEntry_withoutMember (key name : String) (members : List (String × Json)) :
    findEntry name (Prompt.withoutMember key members) =
      if name = key then none else findEntry name members := by
  induction members with
  | nil => simp [Prompt.withoutMember, findEntry]
  | cons member rest ih =>
    obtain ⟨k, v⟩ := member
    unfold Prompt.withoutMember at ih ⊢
    by_cases taken : k = key
    · rw [List.filter_cons_of_neg (by simpa using taken), ih]
      by_cases eq : name = key
      · simp [eq]
      · simp [eq, findEntry, taken, Ne.symm eq]
    · rw [List.filter_cons_of_pos (by simpa using taken), findEntry, ih, findEntry]
      by_cases eq : k = name
      · simp [eq, eq ▸ taken]
      · simp [eq]

namespace ToolSchema

variable {schema : ToolSchema} {given acc members members' : List (String × Json)}
  {fields : List FieldSpec} {args : Json}

theorem findEntry_of_undeclared (h : resolveFields given fields acc = .ok members) {name : String}
    (undeclared : name ∉ fields.map FieldSpec.name) :
    findEntry name members = findEntry name acc := by
  induction fields generalizing acc with
  | nil =>
    cases h
    rfl
  | cons field rest ih =>
    simp only [List.map_cons, List.mem_cons, not_or] at undeclared
    unfold resolveFields at h
    split at h
    · cases h
    · exact ih h undeclared.2
    next value _ =>
      exact (ih h undeclared.2).trans (findEntry_insertEntry_of_ne undeclared.1 value acc)

/-- A declared argument has the value that comes of checking what was given for it. -/
theorem resolve_of_resolveFields (once : (fields.map FieldSpec.name).Nodup)
    (new : ∀ field ∈ fields, findEntry field.name acc = none)
    (h : resolveFields given fields acc = .ok members) {field : FieldSpec} (mem : field ∈ fields) :
    field.resolve (findEntry field.name given) = .ok (findEntry field.name members) := by
  induction fields generalizing acc with
  | nil => cases mem
  | cons first rest ih =>
    obtain ⟨apart, once⟩ := List.nodup_cons.mp once
    obtain ⟨newFirst, newRest⟩ := List.forall_mem_cons.mp new
    unfold resolveFields at h
    split at h
    · cases h
    next resolved =>
      rcases List.mem_cons.mp mem with rfl | mem
      · rw [resolved, findEntry_of_undeclared h apart, newFirst]
      · exact ih once newRest h mem
    next value resolved =>
      have newRest' : ∀ field ∈ rest,
          findEntry field.name (insertEntry first.name value acc) = none := by
        intro field mem
        have other : field.name ≠ first.name := fun same =>
          apart (same ▸ List.mem_map_of_mem mem)
        rw [findEntry_insertEntry_of_ne other, newRest field mem]
      rcases List.mem_cons.mp mem with rfl | mem
      · rw [resolved, findEntry_of_undeclared h apart, findEntry_insertEntry_self]
      · exact ih once newRest' h mem

theorem ascending_resolveFields (ascending : Ascending acc)
    (h : resolveFields given fields acc = .ok members) : Ascending members := by
  induction fields generalizing acc with
  | nil =>
    cases h
    exact ascending
  | cons field rest ih =>
    unfold resolveFields at h
    split at h
    · cases h
    · exact ih ascending h
    next value _ => exact ih (ascending.insertEntry field.name value) h

theorem exists_resolveFields
    (resolves : ∀ field ∈ fields,
      ∃ value?, field.resolve (findEntry field.name given) = .ok value?) :
    ∃ members, resolveFields given fields acc = .ok members := by
  induction fields generalizing acc with
  | nil => exact ⟨acc, rfl⟩
  | cons field rest ih =>
    obtain ⟨⟨value?, resolved⟩, resolves⟩ := List.forall_mem_cons.mp resolves
    unfold resolveFields
    rw [resolved]
    cases value? with
    | none => exact ih resolves
    | some value => exact ih resolves

/-- The only field that does not pass its check is the one that is told of. -/
theorem resolveFields_of_error {field : FieldSpec} {e : ArgumentError} (mem : field ∈ fields)
    (failed : field.resolve (findEntry field.name given) = .error e)
    (others : ∀ other ∈ fields, other ≠ field →
      ∃ value?, other.resolve (findEntry other.name given) = .ok value?) :
    resolveFields given fields acc = .error e := by
  induction fields generalizing acc with
  | nil => cases mem
  | cons first rest ih =>
    obtain ⟨resolves, others⟩ := List.forall_mem_cons.mp others
    unfold resolveFields
    by_cases same : first = field
    · rw [same, failed]
    · have mem : field ∈ rest := (List.mem_cons.mp mem).resolve_left (Ne.symm same)
      obtain ⟨value?, resolved⟩ := resolves same
      rw [resolved]
      cases value? with
      | none => exact ih mem others
      | some value => exact ih mem others

/-- Whether arguments come as members, and each field takes what is given for it. -/
structure Takes (schema : ToolSchema) (args : Json) : Prop where
  record : args = .null ∨ ∃ members, args = .object members
  fields : ∀ field ∈ schema.fields, field.Takes (args.argument? field.name)

/-- Whether members are the declared arguments with a value: the values that are given, and the
defaults of the others. -/
structure Fills (schema : ToolSchema) (args : Json) (members : List (String × Json)) : Prop where
  ascending : Ascending members
  declared : ∀ field ∈ schema.fields,
    findEntry field.name members = (args.argument? field.name).or field.default
  undeclared : ∀ name, name ∉ schema.fields.map FieldSpec.name → findEntry name members = none

theorem Fills.unique (h : schema.Fills args members) (h' : schema.Fills args members') :
    members = members' := by
  refine h.ascending.eq_of_findEntry h'.ascending fun name => ?_
  by_cases declared : name ∈ schema.fields.map FieldSpec.name
  · obtain ⟨field, mem, rfl⟩ := List.mem_map.mp declared
    rw [h.declared field mem, h'.declared field mem]
  · rw [h.undeclared name declared, h'.undeclared name declared]

/-- What is checked of arguments that come as members. -/
theorem exists_given (record : args = .null ∨ ∃ members, args = .object members) :
    ∃ given, (∀ name, args.member? name = findEntry name given) ∧
      ∀ schema : ToolSchema, schema.validate args = resolveFields given schema.fields [] := by
  rcases record with rfl | ⟨members, rfl⟩
  · exact ⟨[], fun _ => rfl, fun _ => rfl⟩
  · exact ⟨members, fun _ => rfl, fun _ => rfl⟩

theorem record_of_validate (h : schema.validate args = .ok members) :
    args = .null ∨ ∃ members, args = .object members := by
  unfold validate at h
  split at h
  next members => exact .inr ⟨members, rfl⟩
  next => exact .inl rfl
  · cases h

theorem exists_validate (takes : schema.Takes args) :
    ∃ members, schema.validate args = .ok members := by
  obtain ⟨given, members_given, validates⟩ := exists_given takes.record
  rw [validates]
  refine exists_resolveFields fun field mem => ⟨_, FieldSpec.resolve_eq_ok_iff.mpr ⟨?_, rfl⟩⟩
  rw [← members_given]
  exact takes.fields field mem

theorem spec_of_validate (once : (schema.fields.map FieldSpec.name).Nodup)
    (h : schema.validate args = .ok members) : schema.Takes args ∧ schema.Fills args members := by
  have record := record_of_validate h
  obtain ⟨given, members_given, validates⟩ := exists_given record
  rw [validates] at h
  have resolved (field) (mem : field ∈ schema.fields) := FieldSpec.resolve_eq_ok_iff.mp
    (resolve_of_resolveFields once (fun _ _ => rfl) h mem)
  simp only [← members_given] at resolved
  exact ⟨⟨record, fun field mem => (resolved field mem).1⟩, ascending_resolveFields .nil h,
    fun field mem => (resolved field mem).2, fun name => findEntry_of_undeclared h⟩

theorem validate_eq_ok_iff (once : (schema.fields.map FieldSpec.name).Nodup) :
    schema.validate args = .ok members ↔ schema.Takes args ∧ schema.Fills args members := by
  refine ⟨spec_of_validate once, fun ⟨takes, fills⟩ => ?_⟩
  obtain ⟨members', validated⟩ := exists_validate takes
  rw [validated, fills.unique (spec_of_validate once validated).2]

/-- Whether arguments pass the check. -/
def Accepts (schema : ToolSchema) (args : Json) : Prop :=
  ∃ members, schema.validate args = .ok members

theorem accepts_iff (once : (schema.fields.map FieldSpec.name).Nodup) :
    schema.Accepts args ↔ schema.Takes args :=
  ⟨fun ⟨_, h⟩ => (spec_of_validate once h).1, exists_validate⟩

section Again

/-- Whether the defaults of a schema are null or of the kinds of their fields. -/
def FitsDefaults (schema : ToolSchema) : Prop :=
  ∀ field ∈ schema.fields, ∀ value, field.default = some value →
    value = .null ∨ field.kind.accepts value = true

/-- What a check has filled in passes the check and stays as it is. -/
theorem Fills.again (fit : schema.FitsDefaults) (takes : schema.Takes args)
    (fills : schema.Fills args members) :
    schema.Takes (.object members) ∧ schema.Fills (.object members) members := by
  have refilled (field) (mem : field ∈ schema.fields) :=
    (takes.fields field mem).refill (fit field mem) (args.filter_argument? field.name)
  have argument (field) (mem : field ∈ schema.fields) : (Json.object members).argument? field.name =
      ((args.argument? field.name).or field.default).filter fun value => !value.isNull := by
    rw [← fills.declared field mem]
    rfl
  refine ⟨⟨.inr ⟨members, rfl⟩, fun field mem => ?_⟩, fills.ascending, fun field mem => ?_,
    fills.undeclared⟩
  · rw [argument field mem]
    exact (refilled field mem).1
  · rw [argument field mem, fills.declared field mem]
    exact (refilled field mem).2.symm

end Again

section Required

open Prompt (withoutMember)

/-- The arguments that are listed as required. -/
def requiredNames (schema : ToolSchema) : List String :=
  (schema.fields.filter FieldSpec.required).map FieldSpec.name

theorem member?_required (schema : ToolSchema) : schema.toJsonSchema.member? "required" =
    some (.array (schema.requiredNames.map .string)) := by
  simp [toJsonSchema, requiredNames, Json.ofMembers, Json.sortMembers, Json.member?,
    findEntry_insertEntry_self, Function.comp_def]

theorem mem_requiredNames_iff (once : (schema.fields.map FieldSpec.name).Nodup)
    {field : FieldSpec} (mem : field ∈ schema.fields) :
    field.name ∈ schema.requiredNames ↔ field.required = true := by
  constructor
  · intro listed
    obtain ⟨other, chosen, same⟩ := List.mem_map.mp listed
    obtain ⟨mem', required⟩ := List.mem_filter.mp chosen
    exact List.inj_on_of_nodup_map once mem' mem same ▸ required
  · intro required
    exact List.mem_map_of_mem (List.mem_filter.mpr ⟨mem, required⟩)

theorem argument?_withoutMember_self (name : String) (members : List (String × Json)) :
    (Json.object (withoutMember name members)).argument? name = none := by
  simp [Json.argument?, Json.member?, findEntry_withoutMember]

theorem argument?_withoutMember_of_ne {name other : String} (ne : other ≠ name)
    (members : List (String × Json)) :
    (Json.object (withoutMember name members)).argument? other =
      (Json.object members).argument? other := by
  simp [Json.argument?, Json.member?, findEntry_withoutMember, ne]

/-- Without an argument that is required, it is the one told of as missing. -/
theorem validate_without (once : (schema.fields.map FieldSpec.name).Nodup)
    (takes : schema.Takes (.object members)) {name : String}
    (listed : name ∈ schema.requiredNames) :
    schema.validate (.object (withoutMember name members)) = .error (.missing name) := by
  obtain ⟨field, chosen, rfl⟩ := List.mem_map.mp listed
  obtain ⟨mem, required⟩ := List.mem_filter.mp chosen
  refine resolveFields_of_error mem ?_ fun other mem' ne =>
    ⟨_, FieldSpec.resolve_eq_ok_iff.mpr ⟨?_, rfl⟩⟩
  · simp [findEntry_withoutMember, FieldSpec.resolve, required]
  · have apart : other.name ≠ field.name := fun same =>
      ne (List.inj_on_of_nodup_map once mem' mem same)
    have taken := takes.fields other mem'
    rw [← argument?_withoutMember_of_ne apart] at taken
    exact taken

/-- An argument that is not required may be left out. -/
theorem Takes.without (once : (schema.fields.map FieldSpec.name).Nodup)
    (takes : schema.Takes (.object members)) {name : String}
    (unlisted : name ∉ schema.requiredNames) :
    schema.Takes (.object (withoutMember name members)) := by
  refine ⟨.inr ⟨_, rfl⟩, fun field mem => ?_⟩
  by_cases same : field.name = name
  · subst same
    rw [argument?_withoutMember_self, FieldSpec.takes_none_iff]
    exact Bool.eq_false_iff.mpr fun required =>
      unlisted ((mem_requiredNames_iff once mem).mpr required)
  · rw [argument?_withoutMember_of_ne same]
    exact takes.fields field mem

/-- There are arguments that a schema takes: one of its kind for each field. -/
theorem exists_takes (once : (schema.fields.map FieldSpec.name).Nodup) :
    ∃ members, Ascending members ∧ schema.Takes (.object members) := by
  let samples := schema.fields.map fun field => (field.name, field.kind.sample)
  have names : samples.map Prod.fst = schema.fields.map FieldSpec.name := by
    simp [samples, Function.comp_def]
  refine ⟨Json.sortMembers samples, ascending_foldl_insertEntry .nil samples, .inr ⟨_, rfl⟩,
    fun field mem => ?_⟩
  have sample : (field.name, field.kind.sample) ∈ samples := List.mem_map_of_mem mem
  have found : findEntry field.name (Json.sortMembers samples) = some field.kind.sample := by
    unfold Json.sortMembers
    rw [findEntry_foldl_insertEntry (names ▸ once), findEntry_of_mem (names ▸ once) sample]
    rfl
  have given : (Json.object (Json.sortMembers samples)).argument? field.name =
      some field.kind.sample := by
    rw [Json.argument?, Json.member?, found]
    cases field.kind <;> rfl
  rw [given, FieldSpec.takes_some_iff]
  exact ⟨field.kind.accepts_sample, by rw [field.kind.sample_visible, Bool.and_false]⟩

end Required

end ToolSchema

/-- Arguments pass the check of a schema just when they come as members (or as null, for none), each
one that is given is of its kind, and each required one is given and no blank text. What comes of it
is what was given and the defaults of the rest, which comes of it again if it is checked again. The
schema lists as required just the arguments that cannot be left out of what it accepts. -/
theorem arguments_are_checked_and_filled {schema : ToolSchema}
    (once : (schema.fields.map FieldSpec.name).Nodup) (fit : schema.FitsDefaults) :
    (∀ args, schema.Accepts args ↔ schema.Takes args) ∧
      (∀ args members, schema.validate args = .ok members →
        schema.Fills args members ∧ schema.validate (.object members) = .ok members) ∧
      ∃ names : List String,
        schema.toJsonSchema.member? "required" = some (.array (names.map .string)) ∧
          names.Nodup ∧ (∃ members, Ascending members ∧ schema.Accepts (.object members)) ∧
          ∀ name members, schema.Accepts (.object members) →
            (name ∈ names → schema.validate (.object (Prompt.withoutMember name members)) =
              .error (.missing name)) ∧
            (name ∉ names → schema.Accepts (.object (Prompt.withoutMember name members))) := by
  refine ⟨fun args => schema.accepts_iff once, fun args members h => ?_, schema.requiredNames,
    schema.member?_required, ?_, ?_, fun name members accepted => ?_⟩
  · obtain ⟨takes, fills⟩ := ToolSchema.spec_of_validate once h
    exact ⟨fills, (ToolSchema.validate_eq_ok_iff once).mpr (fills.again fit takes)⟩
  · exact once.sublist (List.filter_sublist.map FieldSpec.name)
  · obtain ⟨members, ascending, takes⟩ := schema.exists_takes once
    exact ⟨members, ascending, ToolSchema.exists_validate takes⟩
  · have takes := (ToolSchema.accepts_iff once).mp accepted
    exact ⟨ToolSchema.validate_without once takes,
      fun unlisted => ToolSchema.exists_validate (takes.without once unlisted)⟩

theorem path_is_given_and_context_filled_in :
    let schema : ToolSchema :=
      { name := "get_diagnostics"
        description := "Diagnostics for a file"
        fields :=
          [{ name := "filePath", kind := .string, description := "Path to the file",
             required := true },
            { name := "includeContext", kind := .boolean, description := "Show context",
              default := some (.bool false) },
            { name := "index", kind := .integer, description := "Lens index",
              default := some .null }] }
    let given := [("extra", Json.nat 1), ("filePath", .string "a.go"), ("includeContext", .null)]
    let filled := [("filePath", Json.string "a.go"), ("includeContext", .bool false),
      ("index", .null)]
    (schema.fields.map FieldSpec.name).Nodup ∧ schema.FitsDefaults ∧
      schema.validate (.object given) = .ok filled ∧
        schema.validate (.object filled) = .ok filled ∧
          ¬ schema.Takes (.object (Prompt.withoutMember "filePath" given)) := by
  intro schema given filled
  have once : (schema.fields.map FieldSpec.name).Nodup := by decide
  have fit : schema.FitsDefaults := by
    simp [ToolSchema.FitsDefaults, schema, FieldKind.accepts]
  have validated : schema.validate (.object given) = .ok filled := by rfl
  have whole := arguments_are_checked_and_filled once fit
  have blank : ¬ schema.Accepts (.object (Prompt.withoutMember "filePath" given)) := by
    rintro ⟨_, ⟨⟩⟩
  exact ⟨once, fit, validated, (whole.2.1 _ _ validated).2,
    fun takes => blank ((whole.1 _).mpr takes)⟩

end CodeIntel

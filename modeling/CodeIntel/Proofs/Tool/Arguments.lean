import CodeIntel.Proofs.Basic
import CodeIntel.Proofs.EditFile.Stages
import CodeIntel.Proofs.Plan
import CodeIntel.Proofs.Tool.Validation

namespace CodeIntel

/-- Whether all arguments that are accepted have the field: it is required, or there is a default
of its kind. -/
def FieldSpec.isFilled (field : FieldSpec) : Bool :=
  field.required || field.default.any field.kind.accepts

namespace FieldKind

theorem accepts_string_iff {value : Json} :
    string.accepts value = true ↔ ∃ s, value = .string s := by
  cases value <;> simp [accepts]

theorem accepts_boolean_iff {value : Json} :
    boolean.accepts value = true ↔ ∃ b, value = .bool b := by
  cases value <;> simp [accepts]

theorem accepts_array_iff {value : Json} :
    array.accepts value = true ↔ ∃ items, value = .array items := by
  cases value <;> simp [accepts]

theorem accepts_integer_iff {value : Json} :
    integer.accepts value = true ↔ ∃ n, value = .number (.int n) := by
  cases value with
  | number n => cases n <;> simp [accepts]
  | _ => simp [accepts]

end FieldKind

/-- Where no field can be left out, accepted arguments have a value of its kind for each. -/
theorem ToolSchema.accepts_of_validate {schema : ToolSchema} {args : Json}
    {members : List (String × Json)} (once : (schema.fields.map FieldSpec.name).Nodup)
    (filled : ∀ field ∈ schema.fields, field.isFilled = true)
    (h : schema.validate args = .ok members) :
    ∀ field ∈ schema.fields,
      ∃ value, findEntry field.name members = some value ∧ field.kind.accepts value = true := by
  intro field mem
  obtain ⟨takes, fills⟩ := spec_of_validate once h
  have taken := takes.fields field mem
  rw [fills.declared field mem]
  cases given : args.argument? field.name with
  | some value => exact ⟨value, rfl, taken.kind value given⟩
  | none =>
    rw [given, FieldSpec.takes_none_iff] at taken
    have notLeft := filled field mem
    simp only [FieldSpec.isFilled, taken, Bool.false_or] at notLeft
    exact (Option.any_eq_true _ _).mp notLeft

/-- Whether every integer among the arguments has 64 bits with its sign. -/
def ToolSchema.InRange (schema : ToolSchema) (members : List (String × Json)) : Prop :=
  ∀ field ∈ schema.fields, field.kind = .integer → ∀ n,
    findEntry field.name members = some (.number (.int n)) →
      -0x8000000000000000 ≤ n ∧ n ≤ 0x7FFFFFFFFFFFFFFF

namespace Decoder

theorem string_reads {value : Json} (accepted : FieldKind.string.accepts value = true) :
    ∃ s, string value = .ok s := by
  obtain ⟨s, rfl⟩ := FieldKind.accepts_string_iff.mp accepted
  exact ⟨s, rfl⟩

theorem bool_reads {value : Json} (accepted : FieldKind.boolean.accepts value = true) :
    ∃ b, bool value = .ok b := by
  obtain ⟨b, rfl⟩ := FieldKind.accepts_boolean_iff.mp accepted
  exact ⟨b, rfl⟩

theorem list_reads {value : Json} (accepted : FieldKind.array.accepts value = true) :
    ∃ items, list json value = .ok items := by
  obtain ⟨items, rfl⟩ := FieldKind.accepts_array_iff.mp accepted
  exact ⟨items, (List.mapM_pure (f := id)).trans (congrArg Except.ok items.map_id)⟩

theorem i64_reads_iff {n : Int} :
    (∃ m, i64 (.number (.int n)) = .ok m) ↔ -0x8000000000000000 ≤ n ∧ n ≤ 0x7FFFFFFFFFFFFFFF := by
  unfold i64 integer
  simp only
  split
  next inside => exact ⟨fun _ => inside, fun _ => ⟨n, rfl⟩⟩
  next outside => exact ⟨fun ⟨_, h⟩ => (nomatch h), fun inside => absurd inside outside⟩

end Decoder

namespace Fields

variable {α β : Type} {members : List (String × Json)}

/-- Wherever the fields stand in their record, they can be read off some members. -/
def Readable (fields : Fields α) (members : List (String × Json)) : Prop :=
  ∀ index, ∃ a, (fields.read (.members members) index).2 = some a

theorem readable_required {name : String} {decode : Decoder α} {value : Json}
    (found : findEntry name members = some value) (reads : ∃ a, decode value = .ok a) :
    (required name decode).Readable members := by
  obtain ⟨a, decoded⟩ := reads
  intro index
  rw [read_required, found]
  exact ⟨a, toOption_eq_some_iff.mpr decoded⟩

theorem Readable.seq {f : Fields (α → β)} {x : Fields α} (hf : f.Readable members)
    (hx : x.Readable members) : (f <*> x).Readable members := by
  intro index
  obtain ⟨g, readF⟩ := hf index
  obtain ⟨a, readX⟩ := hx (index + f.count)
  rw [read_seq, readF]
  exact ⟨g a, congrArg (Option.map g) readX⟩

theorem Readable.map {x : Fields α} (h : x.Readable members) (g : α → β) :
    (g <$> x).Readable members := by
  intro index
  obtain ⟨a, read⟩ := h index
  rw [read_map]
  exact ⟨g a, congrArg (Option.map g) read⟩

theorem Readable.decode {fields : Fields α} (h : fields.Readable members) (name : String) :
    ∃ a, fields.decode name (.object members) = .ok a := by
  obtain ⟨a, read⟩ := h 0
  exact ⟨a, toOption_eq_some_iff.mp ((fields.toOption_decode name).trans read)⟩

end Fields

namespace Tool

/-- The record that a tool reads its arguments into, with its name and its fields. -/
inductive HasRecord : Tool → {Record : Type} → String → Fields Record → Prop
  | definition : HasRecord Definition.tool "DefinitionArgs" SymbolArguments.fields
  | references : HasRecord References.tool "ReferencesArgs" SymbolArguments.fields
  | diagnostics : HasRecord Diagnostics.tool "DiagnosticsArgs" Diagnostics.fields
  | listing : HasRecord Lenses.Listing.tool "FileArgs" (.required "filePath" .string)
  | execution : HasRecord Lenses.Execution.tool "ExecuteArgs" Lenses.Execution.fields
  | editing : HasRecord EditFile.tool "ApplyArgs" EditFile.fields

variable {tool : Tool} {Record : Type} {name : String} {fields : Fields Record} {args : Json}
  {members : List (String × Json)}

theorem exists_record (mem : tool ∈ tools) :
    ∃ (Record : Type) (name : String) (fields : Fields Record), tool.HasRecord name fields := by
  simp only [tools, List.mem_cons, List.not_mem_nil, or_false] at mem
  obtain rfl | rfl | rfl | rfl | rfl | rfl := mem
  · exact ⟨_, _, _, .definition⟩
  · exact ⟨_, _, _, .references⟩
  · exact ⟨_, _, _, .diagnostics⟩
  · exact ⟨_, _, _, .listing⟩
  · exact ⟨_, _, _, .execution⟩
  · exact ⟨_, _, _, .editing⟩

/-- The first step of each tool is to read its arguments into its record. -/
theorem HasRecord.runs (record : tool.HasRecord name fields) :
    ∃ rest : Caller → Record → Action Output,
      ∀ caller args, tool.run caller args = arguments name fields args >>= rest caller := by
  cases record <;> exact ⟨_, fun _ _ => rfl⟩

theorem HasRecord.accepts (record : tool.HasRecord name fields)
    (accepted : tool.schema.validate args = .ok members) :
    ∀ field ∈ tool.schema.fields,
      ∃ value, findEntry field.name members = some value ∧ field.kind.accepts value = true := by
  refine ToolSchema.accepts_of_validate ?_ ?_ accepted
  · cases record <;> decide +kernel
  · cases record <;> decide +kernel

/-- Accepted arguments fill the record of a tool if the integers among them are not too large. -/
theorem HasRecord.readable (record : tool.HasRecord name fields)
    (accepted : tool.schema.validate args = .ok members) (inRange : tool.schema.InRange members) :
    fields.Readable members := by
  have accepts := record.accepts accepted
  have string : ∀ field ∈ tool.schema.fields, field.kind = .string →
      (Fields.required field.name .string).Readable members := by
    intro field mem kind
    obtain ⟨value, found, accepted⟩ := accepts field mem
    exact Fields.readable_required found (Decoder.string_reads (kind ▸ accepted))
  have bool : ∀ field ∈ tool.schema.fields, field.kind = .boolean →
      (Fields.required field.name .bool).Readable members := by
    intro field mem kind
    obtain ⟨value, found, accepted⟩ := accepts field mem
    exact Fields.readable_required found (Decoder.bool_reads (kind ▸ accepted))
  have list : ∀ field ∈ tool.schema.fields, field.kind = .array →
      (Fields.required field.name (.list .json)).Readable members := by
    intro field mem kind
    obtain ⟨value, found, accepted⟩ := accepts field mem
    exact Fields.readable_required found (Decoder.list_reads (kind ▸ accepted))
  have i64 : ∀ field ∈ tool.schema.fields, field.kind = .integer →
      (Fields.required field.name .i64).Readable members := by
    intro field mem kind
    obtain ⟨value, found, accepted⟩ := accepts field mem
    obtain ⟨n, rfl⟩ := FieldKind.accepts_integer_iff.mp (kind ▸ accepted)
    exact Fields.readable_required found (Decoder.i64_reads_iff.mpr (inRange field mem kind n found))
  cases record with
  | definition | references =>
    exact ((string _ (.head _) rfl).map _).seq (bool _ (.tail _ (.head _)) rfl)
  | diagnostics =>
    exact (((string _ (.head _) rfl).map _).seq (bool _ (.tail _ (.head _)) rfl)).seq
      (bool _ (.tail _ (.tail _ (.head _))) rfl)
  | listing => exact string _ (.head _) rfl
  | execution => exact ((string _ (.head _) rfl).map _).seq (i64 _ (.tail _ (.head _)) rfl)
  | editing => exact ((string _ (.head _) rfl).map _).seq (list _ (.tail _ (.head _)) rfl)

theorem HasRecord.mem (record : tool.HasRecord name fields) : tool ∈ tools := by
  cases record <;> simp [tools]

theorem integer_is_index :
    ∀ tool ∈ tools, ∀ field ∈ tool.schema.fields, field.kind = .integer →
      tool.schema.name = "execute_codelens" ∧ field.name = "index" := by
  decide +kernel

theorem HasRecord.inRange_of_decode (record : tool.HasRecord name fields) {a : Record}
    (decoded : fields.decode name (.object members) = .ok a) : tool.schema.InRange members := by
  intro field mem kind n found
  obtain ⟨executes, isIndex⟩ := integer_is_index tool record.mem field mem kind
  cases record with
  | execution =>
    have read := (Fields.toOption_decode ..).symm.trans (toOption_eq_some_iff.mpr decoded)
    rw [Lenses.Execution.fields, Fields.read_seq] at read
    obtain ⟨g, _, read⟩ := Option.bind_eq_some_iff.mp read
    obtain ⟨index, read, _⟩ := Option.map_eq_some_iff.mp read
    rw [Fields.read_required, ← isIndex, found] at read
    exact Decoder.i64_reads_iff.mp ⟨index, toOption_eq_some_iff.mp read⟩
  | _ => exact absurd executes (by decide)

theorem HasRecord.decodes_iff (record : tool.HasRecord name fields)
    (accepted : tool.schema.validate args = .ok members) :
    (∃ a, fields.decode name (.object members) = .ok a) ↔ tool.schema.InRange members :=
  ⟨fun ⟨_, decoded⟩ => record.inRange_of_decode decoded,
    fun inRange => (record.readable accepted inRange).decode name⟩

end Tool

/-- The error of a call whose arguments could not be read into the record of its tool. -/
def ToolError.IsMisreading (e : ToolError) : Prop :=
  ∃ cause : String, e = .validation s!"Invalid arguments: {cause}"

theorem ToolError.not_misreading {e : ToolError} (h : e.isValidation = false) :
    ¬ e.IsMisreading := by
  rintro ⟨cause, rfl⟩
  cases h

/-- The first nine letters tell other reasons apart. -/
theorem ToolError.not_misreading_of_start {reason : String}
    (h : reason.toList.take 9 ≠ "Invalid a".toList) : ¬ (ToolError.validation reason).IsMisreading := by
  rintro ⟨cause, same⟩
  cases same
  exact h (by simp [toString])

namespace Action

open Plan

variable {α β : Type}

/-- Whatever it is answered on the way, the action does not fail for arguments it cannot read. -/
def Understands (action : Action α) : Prop :=
  action.run.Outcomes fun result => ∀ e, result = .error e → ¬ e.IsMisreading

theorem understands_pure (a : α) : (pure a : Action α).Understands := by
  rintro _ ⟨⟩

theorem understands_throw {e : ToolError} (h : ¬ e.IsMisreading) :
    (throw e : Action α).Understands := by
  rintro _ ⟨⟩
  exact h

theorem understands_except {result : Except ToolError α}
    (h : ∀ e, result = .error e → ¬ e.IsMisreading) : (liftM result : Action α).Understands := by
  cases result with
  | ok a => exact understands_pure a
  | error e => exact understands_throw (h e rfl)

theorem understands_lift (plan : CallPlan α) : (liftM plan : Action α).Understands :=
  outcomes_bind understands_pure plan

theorem Understands.bind {x : Action α} {f : α → Action β} (h : x.Understands)
    (rest : ∀ a, (f a).Understands) : (x >>= f).Understands := by
  unfold Understands
  rw [ExceptT.run_bind]
  refine (outcomes_bind_iff _).mpr (Outcomes.mono h fun result understood => ?_)
  cases result with
  | ok a => exact rest a
  | error e =>
    rintro _ ⟨⟩
    exact understood e rfl

theorem understands_ask (q : Ask) : (ask q).Understands := understands_lift _

theorem understands_request (q : Query) : (request q).Understands := by
  refine (understands_ask _).bind fun reply => ?_
  split
  · exact understands_pure _
  next failure => exact understands_throw (ToolError.not_misreading (by cases failure <;> rfl))

theorem understands_readText (path : Path) : (readText path).Understands := by
  refine (understands_ask _).bind fun reply => ?_
  split
  · exact understands_pure _
  · exact understands_throw (ToolError.not_misreading rfl)

theorem understands_checkCancelled : checkCancelled.Understands := by
  refine (understands_ask _).bind fun tripped => ?_
  split
  · exact understands_throw (ToolError.not_misreading rfl)
  · exact understands_pure _

theorem understands_resolvePath (raw : String) (s : Surroundings) :
    (resolvePath raw s).Understands := by
  refine (understands_except ?_).bind fun readings => ?_
  · intro e failed
    unfold Path.readings at failed
    dsimp only at failed
    split at failed
    · cases failed
      exact ToolError.not_misreading_of_start (by decide)
    · split at failed <;> cases failed
  · split
    · exact understands_pure _
    · refine (understands_ask _).bind fun there => ?_
      split
      · exact understands_pure _
      · refine (understands_ask _).bind fun there => ?_
        split <;> exact understands_pure _

theorem understands_resolveSymbol (name : String) (root : Path) :
    (resolveSymbol name root).Understands := by
  have selects : ∀ (q : SymbolQuery) candidates,
      (liftM (q.select candidates root) : Action WorkspaceSymbol).Understands := by
    intro q candidates
    refine understands_except fun e failed => ToolError.not_misreading ?_
    unfold SymbolQuery.select at failed
    split at failed <;> cases failed <;> rfl
  unfold resolveSymbol
  split
  · unfold SymbolQuery.resolve
    refine (understands_request _).bind fun found => ?_
    dsimp only
    split
    · exact (understands_request _).bind fun candidates => selects _ candidates
    · exact (understands_pure found).bind fun candidates => selects _ candidates
  · refine understands_throw ?_
    exact ToolError.not_misreading_of_start (by decide)

theorem understands_declaration (s : WorkspaceSymbol) : s.declaration.Understands := by
  refine (understands_request _).bind fun places => ?_
  split <;> exact understands_pure _

theorem understands_fetch (path : Path) : (Lenses.fetch path).Understands :=
  (understands_request _).bind fun _ => understands_request _

theorem understands_reports (caller : Caller) (numbers : Bool) (groups : List References.Group) :
    (References.reports caller numbers groups).Understands := by
  induction groups with
  | nil => exact understands_pure _
  | cons group rest ih =>
    refine understands_checkCancelled.bind fun _ => (understands_ask _).bind fun text => ?_
    exact ih.bind fun more => understands_pure _

theorem understands_choose (lenses : List CodeLens) (index : Int) (file : String) :
    (liftM (Lenses.Execution.choose lenses index file) : Action Command).Understands := by
  refine understands_except fun e failed => ToolError.not_misreading ?_
  unfold Lenses.Execution.choose at failed
  split at failed
  · cases failed
    rfl
  · split at failed <;> cases failed
    rfl

theorem understands_readEdits (number : Nat) (values : List Json) :
    (liftM (EditFile.readEdits number values) : Action (List EditRequest)).Understands := by
  refine understands_except fun e failed => ?_
  induction values generalizing number with
  | nil => cases failed
  | cons value rest ih =>
    unfold EditFile.readEdits at failed
    cases read : EditRequest.ofJson value with
    | error cause =>
      rw [read] at failed
      cases failed
      exact ToolError.not_misreading_of_start (by simp [toString])
    | ok request =>
      rw [read] at failed
      cases more : EditFile.readEdits (number + 1) rest with
      | error cause =>
        rw [more] at failed
        cases failed
        exact ih _ more
      | ok requests =>
        rw [more] at failed
        cases failed

theorem understands_updated (text : List Char) (requests : List EditRequest) :
    (liftM (EditFile.updated text requests) : Action (List Char)).Understands := by
  have resolves : ∀ number e, EditFile.resolveEdits text number requests = .error e →
      e.isValidation = false := by
    induction requests with
    | nil =>
      rintro _ _ ⟨⟩
    | cons request rest ih =>
      intro number e failed
      unfold EditFile.resolveEdits at failed
      cases resolved : request.resolve text with
      | error cause =>
        rw [resolved] at failed
        cases failed
        rfl
      | ok edit =>
        rw [resolved] at failed
        cases more : EditFile.resolveEdits text (number + 1) rest with
        | error cause =>
          rw [more] at failed
          cases failed
          exact ih _ _ more
        | ok edits =>
          rw [more] at failed
          cases failed
  refine understands_except fun e failed => ToolError.not_misreading ?_
  unfold EditFile.updated EditFile.applied at failed
  cases resolved : EditFile.resolveEdits text 1 requests with
  | error cause =>
    rw [resolved] at failed
    cases failed
    exact resolves _ _ resolved
  | ok edits =>
    rw [resolved] at failed
    cases applied : applyEdits text edits with
    | error cause =>
      rw [ok_bind, applied] at failed
      cases failed
      rfl
    | ok after =>
      rw [ok_bind, applied] at failed
      cases failed

theorem understands_giveUp (temporary : Path) {cause : ToolError}
    (h : cause.isValidation = false) : (giveUp temporary cause).Understands :=
  (understands_ask _).bind fun _ => understands_throw (ToolError.not_misreading h)

theorem understands_replace (path : Path) (text : String) : (replace path text).Understands := by
  refine (understands_ask _).bind fun fresh => (understands_lift _).bind fun filled => ?_
  split
  · exact understands_giveUp _ rfl
  · refine (understands_ask _).bind fun tripped => ?_
    split
    · exact understands_giveUp _ rfl
    · refine (understands_ask _).bind fun moved => ?_
      split
      · exact understands_giveUp _ rfl
      · exact understands_pure _

theorem Understands.exclusively {action : Action α} (h : action.Understands) (path : Path) :
    (exclusively path action).Understands := by
  unfold Understands
  rw [EditFile.run_exclusively]
  intro entered
  cases entered with
  | true => exact (outcomes_bind_iff _).mpr (Outcomes.mono h fun result understood _ => understood)
  | false => exact understands_throw (ToolError.not_misreading rfl)

theorem understands_editReal (path : Path) (requests : List EditRequest) (file : String) :
    (EditFile.editReal path requests file).Understands := by
  refine (understands_readText path).bind fun before => ?_
  refine (understands_updated _ _).bind fun after => understands_checkCancelled.bind fun _ => ?_
  split
  · exact understands_pure _
  · refine (understands_replace _ _).bind fun _ => (understands_ask _).bind fun told => ?_
    exact understands_pure _

end Action

namespace Tool

open CodeIntel.Action

variable {tool : Tool} {Record : Type} {name : String} {fields : Fields Record} {args : Json}
  {members : List (String × Json)}

theorem understands_arguments {a : Record} (decoded : fields.decode name args = .ok a) :
    (arguments name fields args).Understands := by
  unfold arguments
  rw [decoded]
  exact understands_pure a

/-- A tool that has read its record fails for other reasons only. -/
theorem HasRecord.understands (record : tool.HasRecord name fields) (caller : Caller) {a : Record}
    (decoded : fields.decode name args = .ok a) : (tool.run caller args).Understands := by
  have read := understands_arguments decoded
  cases record with
  | definition =>
    refine read.bind fun args => (understands_resolveSymbol ..).bind fun s => ?_
    refine (understands_declaration s).bind fun declared => (understands_request _).bind fun _ => ?_
    exact (understands_readText _).bind fun text => understands_pure _
  | references =>
    refine read.bind fun args => (understands_resolveSymbol ..).bind fun s => ?_
    refine (understands_declaration s).bind fun declared => (understands_request _).bind fun _ => ?_
    dsimp only
    split
    · exact understands_pure _
    · exact (understands_reports ..).bind fun text => understands_pure _
  | diagnostics =>
    refine read.bind fun args => (understands_resolvePath ..).bind fun path => ?_
    refine (understands_request _).bind fun _ => (understands_request _).bind fun found => ?_
    split
    · exact understands_throw (ToolError.not_misreading rfl)
    · exact understands_pure _
    · exact (understands_readText path).bind fun text => understands_pure _
  | listing =>
    refine read.bind fun raw => (understands_resolvePath ..).bind fun path => ?_
    refine (understands_fetch path).bind fun lenses => ?_
    split <;> exact understands_pure _
  | execution =>
    refine read.bind fun args => (understands_resolvePath ..).bind fun path => ?_
    refine (understands_fetch path).bind fun lenses => (understands_choose _ _ _).bind fun _ => ?_
    exact (understands_request _).bind fun _ => understands_pure _
  | editing =>
    refine read.bind fun args => (understands_resolvePath ..).bind fun requested => ?_
    dsimp only
    split
    · exact understands_throw (ToolError.not_misreading_of_start (by decide))
    · refine (understands_readEdits _ _).bind fun requests => (understands_ask _).bind fun real => ?_
      split
      · exact understands_throw (ToolError.not_misreading rfl)
      · exact (understands_editReal _ _ _).exclusively _

theorem HasRecord.misreads (record : tool.HasRecord name fields) (caller : Caller)
    (failed : ¬ ∃ a, fields.decode name args = .ok a) : ¬ (tool.run caller args).Understands := by
  obtain ⟨rest, runs⟩ := record.runs
  rw [runs]
  unfold arguments
  split
  next a decoded => exact absurd ⟨a, decoded⟩ failed
  next e _ => exact fun understood => understood _ rfl ⟨e.message, rfl⟩

/-- How a tool takes arguments that its schema accepts. -/
structure Agrees (tool : Tool) {Record : Type} (name : String) (fields : Fields Record) : Prop where
  /-- It reads them into its record first. -/
  runs : ∃ rest : Caller → Record → Action Output,
    ∀ caller args, tool.run caller args = arguments name fields args >>= rest caller
  /-- They fill the record but for integers of more than 64 bits. -/
  decodes : ∀ args members, tool.schema.validate args = .ok members →
    ((∃ record, fields.decode name (.object members) = .ok record) ↔ tool.schema.InRange members)
  /-- A call by the tool's name is told that they are invalid only then. -/
  dispatched : ∀ caller args members, tool.schema.validate args = .ok members →
    (((callTool tool.schema.name caller args).Outcomes fun result =>
        ∀ e, result = .error e → ¬ e.cause.IsMisreading) ↔
      tool.schema.InRange members)

theorem findTool_of_mem (mem : tool ∈ tools) : findTool tool.schema.name = some tool := by
  simp only [tools, List.mem_cons, List.not_mem_nil, or_false] at mem
  obtain rfl | rfl | rfl | rfl | rfl | rfl := mem <;> rfl

theorem callTool_of_mem (mem : tool ∈ tools) (caller : Caller) (args : Json) :
    callTool tool.schema.name caller args = ofOperation tool.schema.name (tool.call caller args) := by
  unfold callTool
  rw [findTool_of_mem mem]

end Tool

/-- Each tool on offer reads what its schema accepts, up to the size of its integers. -/
theorem accepted_arguments_are_read {tool : Tool} (mem : tool ∈ tools) :
    ∃ (Record : Type) (name : String) (fields : Fields Record),
      tool.HasRecord name fields ∧ tool.Agrees name fields := by
  obtain ⟨Record, name, fields, record⟩ := Tool.exists_record mem
  refine ⟨Record, name, fields, record, record.runs, fun _ _ => record.decodes_iff, ?_⟩
  intro caller args members accepted
  have calls : tool.call caller args = tool.run caller (.object members) := by
    unfold Tool.call
    rw [accepted]
  rw [Tool.callTool_of_mem mem, calls, ← record.decodes_iff accepted]
  refine (Plan.outcomes_bind_iff _).trans ?_
  constructor
  · intro understood
    refine Classical.byContradiction fun failed => ?_
    refine record.misreads caller failed (understood.mono fun result understood e same => ?_)
    subst same
    exact understood _ rfl
  · rintro ⟨_, decoded⟩
    refine (record.understands caller decoded).mono fun result understood e same => ?_
    cases result with
    | error cause =>
      cases same
      exact understood cause rfl
    | ok => cases same

namespace Lenses.Execution

def someCaller : Caller := ⟨⟨.ofString "/w", .ofString "/w"⟩, 0⟩

/-- Arguments that name a lens by an index. -/
def naming (index : Int) : List (String × Json) :=
  [("filePath", .string "a.go"), ("index", .number (.int index))]

theorem last_index_is_read :
    tool ∈ tools ∧ tool.schema.validate (.object (naming 0x7FFFFFFFFFFFFFFF)) =
        .ok (naming 0x7FFFFFFFFFFFFFFF) ∧
      (callTool "execute_codelens" someCaller (.object (naming 0x7FFFFFFFFFFFFFFF))).Outcomes
        fun result => ∀ e, result = .error e → ¬ e.cause.IsMisreading := by
  have mem : tool ∈ tools := by simp [tools]
  have accepted : tool.schema.validate (.object (naming 0x7FFFFFFFFFFFFFFF)) =
      .ok (naming 0x7FFFFFFFFFFFFFFF) := by rfl
  have inRange : tool.schema.InRange (naming 0x7FFFFFFFFFFFFFFF) := by
    intro field mem kind n found
    obtain ⟨_, isIndex⟩ := Tool.integer_is_index tool ‹_› field mem kind
    rw [isIndex] at found
    cases found
    decide
  obtain ⟨_, _, _, _, agrees⟩ := accepted_arguments_are_read mem
  exact ⟨mem, accepted, (agrees.dispatched someCaller _ _ accepted).mpr inRange⟩

/-- An index that the schema accepts is refused as one that cannot be read, before anything is
asked. -/
theorem huge_index_is_misread :
    tool ∈ tools ∧ tool.schema.validate (.object (naming 0x8000000000000000)) =
        .ok (naming 0x8000000000000000) ∧
      callTool "execute_codelens" someCaller (.object (naming 0x8000000000000000)) =
        .done (.error ⟨"execute_codelens", .validation <| "Invalid arguments: invalid value: " ++
          "integer `9223372036854775808`, expected i64"⟩) := by
  refine ⟨by simp [tools], by rfl, by rfl⟩

end Lenses.Execution

end CodeIntel

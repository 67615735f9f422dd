import CodeIntel.Proofs.Tool.Arguments
import CodeIntel.Tool.Catalog

namespace CodeIntel.Prompt

variable {prompt : Prompt} {subject : String} {members : List (String × Json)}

/-- Arguments of a prompt that hold its subject, under the name that all prompts share or, where
nothing has that name, under the name that the tool has for it. -/
inductive Holds (prompt : Prompt) (members : List (String × Json)) (subject : String) : Prop
  | shared (found : findEntry subjectName members = some (.string subject))
  | own (free : findEntry subjectName members = none)
      (found : findEntry prompt.target members = some (.string subject))

/-- The arguments of the tool for a subject: the subject and what the prompt fixes. -/
def argumentsFor (prompt : Prompt) (subject : String) : Json :=
  .ofMembers ((prompt.target, .string subject) :: prompt.fixed)

/-- The message for the end of a call with a subject. -/
def message (prompt : Prompt) (subject : String) : Except CallError Output → String
  | .ok output => output.text
  | .error e => s!"{prompt.failure} {subject}: {e.cause.message}"

theorem normalize_of_holds (h : prompt.Holds members subject) :
    ∃ normal, prompt.normalize (.object members) = .object normal ∧
      findEntry subjectName normal = some (.string subject) := by
  cases h with
  | shared found =>
    refine ⟨members, ?_, found⟩
    simp [normalize, found]
  | own free found =>
    refine ⟨insertEntry subjectName (.string subject) (withoutMember prompt.target members), ?_,
      findEntry_insertEntry_self ..⟩
    simp [normalize, moveMember, free, found]

theorem subjectOf_of_found (found : findEntry subjectName members = some (.string subject)) :
    subjectOf (.object members) = subject := by
  simp [subjectOf, Json.member?, found, Json.string?]

theorem validate_subjectSchema {name description text : String}
    (visible : isBlankText subject.toList = false)
    (found : findEntry subjectName members = some (.string subject)) :
    (subjectSchema name description text).validate (.object members) =
      .ok [(subjectName, .string subject)] := by
  have resolved : FieldSpec.resolve
      { name := subjectName, kind := .string, description := text, required := true }
      (findEntry subjectName members) = .ok (some (.string subject)) := by
    simp [FieldSpec.resolve, found, FieldKind.accepts, FieldSpec.isBlankString, visible]
  unfold ToolSchema.validate subjectSchema ToolSchema.resolveFields
  simp only [resolved]
  rfl

theorem toolArguments_subject (prompt : Prompt) (subject : String) :
    prompt.toolArguments [(subjectName, .string subject)] = prompt.argumentsFor subject := by
  have moved : moveMember subjectName prompt.target [(subjectName, .string subject)] =
      [(prompt.target, .string subject)] := by
    simp [moveMember, findEntry, withoutMember, insertEntry]
  unfold toolArguments
  rw [moved]
  rfl

theorem schema_of_mem (mem : prompt ∈ prompts) :
    ∃ name description text, prompt.schema = subjectSchema name description text := by
  simp only [prompts, List.mem_cons, List.not_mem_nil, or_false] at mem
  obtain rfl | rfl | rfl | rfl := mem <;> exact ⟨_, _, _, rfl⟩

theorem tool_of_mem (mem : prompt ∈ prompts) : prompt.tool ∈ tools := by
  simp only [prompts, List.mem_cons, List.not_mem_nil, or_false] at mem
  obtain rfl | rfl | rfl | rfl := mem <;> simp [tools, definition, references, lenses, diagnostics]

theorem findPrompt_of_mem (mem : prompt ∈ prompts) : findPrompt prompt.schema.name = some prompt := by
  simp only [prompts, List.mem_cons, List.not_mem_nil, or_false] at mem
  obtain rfl | rfl | rfl | rfl := mem <;> rfl

/-- A prompt with a subject calls its tool on the arguments for the subject. -/
theorem run_of_found (mem : prompt ∈ prompts) (visible : isBlankText subject.toList = false)
    (found : findEntry subjectName members = some (.string subject)) (caller : Caller) :
    prompt.run caller (.object members) = prompt.tool.call caller (prompt.argumentsFor subject) := by
  obtain ⟨name, description, text, schema⟩ := schema_of_mem mem
  unfold run
  rw [schema, validate_subjectSchema visible found]
  exact congrArg (prompt.tool.call caller) (prompt.toolArguments_subject subject)

theorem render_of_holds (mem : prompt ∈ prompts) (visible : isBlankText subject.toList = false)
    (h : prompt.Holds members subject) (caller : Caller) :
    prompt.render caller (.object members) =
      prompt.message subject <$>
        callTool prompt.tool.schema.name caller (prompt.argumentsFor subject) := by
  obtain ⟨normal, normalized, found⟩ := normalize_of_holds h
  unfold render
  simp only [normalized]
  rw [run_of_found mem visible found, Tool.callTool_of_mem (tool_of_mem mem),
    subjectOf_of_found found]
  unfold Action.ofOperation
  rw [Functor.map_map, map_eq_pure_bind]
  refine bind_congr fun result => ?_
  cases result <;> rfl

end CodeIntel.Prompt

namespace CodeIntel

/-- Whichever way a prompt is given its subject, it asks what a call of its tool asks, and what
the call comes to is told in its message. -/
theorem prompt_is_call_of_tool {prompt : Prompt} (mem : prompt ∈ prompts) {subject : String}
    (visible : isBlankText subject.toList = false) {members : List (String × Json)}
    (h : prompt.Holds members subject) (caller : Caller) :
    renderPrompt prompt.schema.name caller (.object members) =
      (fun result => .ok (prompt.message subject result)) <$>
        callTool prompt.tool.schema.name caller (prompt.argumentsFor subject) := by
  unfold renderPrompt
  rw [Prompt.findPrompt_of_mem mem]
  simp only
  rw [Prompt.render_of_holds mem visible h, Functor.map_map]

theorem file_prompt_is_call_of_tool :
    Prompt.diagnostics ∈ prompts ∧ isBlankText "a.go".toList = false ∧
      Prompt.diagnostics.Holds [("filePath", .string "a.go")] "a.go" ∧
      renderPrompt "get-diagnostics" ⟨⟨.ofString "/w", .ofString "/w"⟩, 3⟩
          (.ofMembers [("filePath", .string "a.go")]) =
        (fun result => .ok (Prompt.diagnostics.message "a.go" result)) <$>
          callTool "get_diagnostics" ⟨⟨.ofString "/w", .ofString "/w"⟩, 3⟩
            (.ofMembers [("filePath", .string "a.go"), ("includeContext", .bool true),
              ("showLineNumbers", .bool true)]) := by
  have mem : Prompt.diagnostics ∈ prompts := by simp [prompts]
  have visible : isBlankText "a.go".toList = false := by decide
  have holds : Prompt.diagnostics.Holds [("filePath", .string "a.go")] "a.go" := .own rfl rfl
  exact ⟨mem, visible, holds, prompt_is_call_of_tool mem visible holds _⟩

end CodeIntel

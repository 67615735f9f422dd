import CodeIntel.Agent.Server
import CodeIntel.Tool.Catalog

namespace CodeIntel.Agent

/-- A tool as agents are offered it: only the text of its output is told. -/
def offerTool (caller : Caller) (tool : Tool) : OfferedTool where
  name := tool.schema.name
  description := tool.schema.description
  parameters := tool.schema.toJsonSchema
  run _ args := do
    match ← callTool tool.schema.name caller args with
    | .ok output => pure (.ok output.text)
    | .error e => pure (.error e.message)

def offerArgument (field : FieldSpec) : PromptArgument :=
  ⟨field.name, some field.description, field.required⟩

def offerPrompt (caller : Caller) (prompt : Prompt) : OfferedPrompt where
  name := prompt.schema.name
  description := prompt.schema.description
  responseDescription := prompt.responseDescription
  arguments := prompt.schema.fields.map offerArgument
  render _ args := do
    match ← renderPrompt prompt.schema.name caller args with
    | .ok text => pure text
    | .error e => pure e.message

/-- The server that offers all tools and prompts for the workspace at `root`. -/
def offer (name version : String) (root : Path) (contextLines : UInt32) : Server :=
  let caller : Caller := ⟨⟨root, root⟩, contextLines⟩
  ⟨name, version, tools.map (offerTool caller), prompts.map (offerPrompt caller)⟩

end CodeIntel.Agent

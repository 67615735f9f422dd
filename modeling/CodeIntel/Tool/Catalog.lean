import CodeIntel.Tool.Definition
import CodeIntel.Tool.Diagnostics
import CodeIntel.Tool.Edit
import CodeIntel.Tool.Lenses
import CodeIntel.Tool.References

namespace CodeIntel

/-- The tools on offer, in the order in which they are listed. -/
def tools : List Tool :=
  [Definition.tool, References.tool, Diagnostics.tool, Lenses.Listing.tool, Lenses.Execution.tool,
    EditFile.tool]

def findTool (name : String) : Option Tool := tools.find? fun tool => tool.schema.name == name

def Action.ofOperation {α : Type} (name : String) (action : Action α) :
    CallPlan (Except CallError α) :=
  (fun result => result.mapError fun cause => ⟨name, cause⟩) <$> action.run

def callTool (name : String) (caller : Caller) (args : Json) : CallPlan (Except CallError Output) :=
  Action.ofOperation name <|
    match findTool name with
    | some tool => tool.call caller args
    | none => throw (.validation s!"Unknown tool: {name}")

/-- A prompt: a tool run with some arguments fixed, its failures told as text. -/
structure Prompt where
  schema : ToolSchema
  /-- What every answer is described as. -/
  responseDescription : String
  tool : Tool
  /-- The tool's argument that takes the subject of the prompt. -/
  target : String
  fixed : List (String × Json)
  /-- How a failure is told, before the subject. -/
  failure : String

namespace Prompt

/-- The argument that every prompt takes. -/
def subjectName : String := "symbol"

def subjectSchema (name description subject : String) : ToolSchema :=
  { name := name
    description := description
    fields :=
      [{ name := subjectName, kind := .string, description := subject, required := true }] }

def definition : Prompt where
  schema :=
    subjectSchema "read-definition" "Show the source code definition of a symbol"
      "The name of the symbol"
  responseDescription := "Read definition prompt response"
  tool := Definition.tool
  target := "symbolName"
  fixed := [("showLineNumbers", .bool true)]
  failure := "There is an error reading the definition for"

def references : Prompt where
  schema :=
    subjectSchema "find-references" "Show every reference to a symbol" "The name of the symbol"
  responseDescription := "Find references prompt response"
  tool := References.tool
  target := "symbolName"
  fixed := [("showLineNumbers", .bool true)]
  failure := "There is an error finding references for"

def lenses : Prompt where
  schema := subjectSchema "get-codelens" "List the code lenses of a file" "The path to the file"
  responseDescription := "Get codelens prompt response"
  tool := Lenses.Listing.tool
  target := "filePath"
  fixed := []
  failure := "There is an error getting codelens for file"

def diagnostics : Prompt where
  schema :=
    subjectSchema "get-diagnostics" "Show the diagnostics of a file with surrounding source"
      "The path to the file"
  responseDescription := "Get diagnostics prompt response"
  tool := Diagnostics.tool
  target := "filePath"
  fixed := [("includeContext", .bool true), ("showLineNumbers", .bool true)]
  failure := "There is an error getting diagnostics for file"

def withoutMember (key : String) (members : List (String × Json)) : List (String × Json) :=
  members.filter fun member => member.1 ≠ key

/-- Moves a member to another name, where it takes the place of what is there. -/
def moveMember (source destination : String) (members : List (String × Json)) :
    List (String × Json) :=
  match findEntry source members with
  | none => members
  | some value => insertEntry destination value (withoutMember source members)

/-- Arguments that name the subject as the tool does are taken as well. -/
def normalize (prompt : Prompt) : Json → Json
  | .object members =>
    if (findEntry subjectName members).isSome then .object members
    else .object (moveMember prompt.target subjectName members)
  | other => other

def toolArguments (prompt : Prompt) (members : List (String × Json)) : Json :=
  .object <| prompt.fixed.foldl (fun acc member => insertEntry member.1 member.2 acc)
    (moveMember subjectName prompt.target members)

def run (prompt : Prompt) (caller : Caller) (args : Json) : Action Output :=
  match prompt.schema.validate args with
  | .ok members => prompt.tool.call caller (prompt.toolArguments members)
  | .error e => throw (.validation e.message)

def subjectOf (args : Json) : String := ((args.member? subjectName).bind Json.string?).getD ""

/-- The text of the prompt's message. -/
def render (prompt : Prompt) (caller : Caller) (args : Json) : CallPlan String := do
  let args := prompt.normalize args
  match ← (prompt.run caller args).run with
  | .ok output => pure output.text
  | .error e => pure s!"{prompt.failure} {subjectOf args}: {e.message}"

end Prompt

/-- The prompts on offer, in the order in which they are listed. -/
def prompts : List Prompt := [.definition, .references, .lenses, .diagnostics]

def findPrompt (name : String) : Option Prompt :=
  prompts.find? fun prompt => prompt.schema.name == name

def renderPrompt (name : String) (caller : Caller) (args : Json) :
    CallPlan (Except CallError String) :=
  match findPrompt name with
  | some prompt => .ok <$> prompt.render caller args
  | none => pure (.error ⟨name, .validation s!"Unknown prompt: {name}"⟩)

end CodeIntel

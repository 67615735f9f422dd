import CodeIntel.Agent.Protocol
import CodeIntel.Tool.Ask

namespace CodeIntel.Agent

/-- A tool as agents are offered it. It is run for a request on its arguments, and its failures
are told as text. -/
structure OfferedTool where
  name : String
  description : String
  parameters : Json
  run : RequestId → Json → CallPlan (Except String String)

structure OfferedPrompt where
  name : String
  description : String
  responseDescription : String
  arguments : List PromptArgument
  render : RequestId → Json → CallPlan String

/-- What answers the requests of an agent. -/
structure Server where
  name : String
  version : String
  tools : List OfferedTool
  prompts : List OfferedPrompt

namespace Server

def new (name version : String) : Server := ⟨name, version, [], []⟩

/-- Puts an item at the end of a list, or in the place of the one with its name. -/
def addNamed {α : Type} (nameOf : α → String) (item : α) : List α → List α
  | [] => [item]
  | first :: rest =>
    if nameOf first = nameOf item then item :: rest else first :: addNamed nameOf item rest

def addTool (s : Server) (tool : OfferedTool) : Server :=
  { s with tools := addNamed OfferedTool.name tool s.tools }

def addPrompt (s : Server) (prompt : OfferedPrompt) : Server :=
  { s with prompts := addNamed OfferedPrompt.name prompt s.prompts }

def startResult (s : Server) : InitializeResult :=
  ⟨protocolVersion, ⟨some ⟨false⟩, some ⟨false⟩⟩, ⟨s.name, some s.version⟩⟩

def toolList (s : Server) : ToolList :=
  ⟨s.tools.map fun tool => ⟨tool.name, some tool.description, some tool.parameters⟩⟩

def promptList (s : Server) : PromptList :=
  ⟨s.prompts.map fun prompt => ⟨prompt.name, some prompt.description, prompt.arguments⟩⟩

/-- The parameters of a call, or why there are none. -/
def callParams (decode : Decoder CallParams) : Option Json → Except String CallParams
  | none => .error "Missing params"
  | some params => (decode params).mapError fun e => s!"Invalid params: {e.message}"

/-- The arguments of a call; none stand for an empty object. -/
def argumentsOf (params : CallParams) : Json := params.arguments.getD (.object [])

/-- The result of a tool, failed or not. -/
def toolResult : Except String String → ToolResult
  | .ok text => ⟨[.text text], false⟩
  | .error text => ⟨[.text text], true⟩

def callTool (s : Server) (id : RequestId) (params : Option Json) : CallPlan Response :=
  match callParams CallParams.decodeTool params with
  | .error message => pure (.failure (some id) ErrorObject.invalidParams message)
  | .ok params =>
    match s.tools.find? fun tool => tool.name == params.name with
    | none =>
      pure (.failure (some id) ErrorObject.invalidParams s!"Unknown tool: {params.name}")
    | some tool => do
      let result ← tool.run id (argumentsOf params)
      pure (.success (some id) (toolResult result).toJson)

def getPrompt (s : Server) (id : RequestId) (params : Option Json) : CallPlan Response :=
  match callParams CallParams.decodePrompt params with
  | .error message => pure (.failure (some id) ErrorObject.invalidParams message)
  | .ok params =>
    match s.prompts.find? fun prompt => prompt.name == params.name with
    | none =>
      pure (.failure (some id) ErrorObject.invalidParams s!"Unknown prompt: {params.name}")
    | some prompt => do
      let text ← prompt.render id (argumentsOf params)
      let result : PromptResult := ⟨some prompt.responseDescription, [⟨.user, .text text⟩]⟩
      pure (.success (some id) result.toJson)

def handle (s : Server) (id : RequestId) (method : String) (params : Option Json) :
    CallPlan Response :=
  match method with
  | "initialize" => pure (.success (some id) s.startResult.toJson)
  | "ping" => pure (.success (some id) (.object []))
  | "tools/list" => pure (.success (some id) s.toolList.toJson)
  | "tools/call" => s.callTool id params
  | "prompts/list" => pure (.success (some id) s.promptList.toJson)
  | "prompts/get" => s.getPrompt id params
  | _ => pure (.failure (some id) ErrorObject.methodNotFound "Method not found")

end Server

end CodeIntel.Agent

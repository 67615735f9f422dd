import CodeIntel.Agent.Message
import CodeIntel.Shape.Fields

namespace CodeIntel.Agent

/-- An item of a tool's result or of a prompt's message. -/
inductive Content
  | text (text : String)
deriving DecidableEq, Repr

namespace Content

def textFields : Fields Content := Content.text <$> .required "text" .string

/-- The tag of an item; only texts are known. -/
def checkTag : Json → Except ShapeError Unit
  | .string "text" => .ok ()
  | .string other => .error (.unknownVariant other ["text"])
  | value => Decoder.wrongType value "variant identifier"

/-- An item as an array: the tag and then the fields. -/
def ofElements (items : List Json) : Except ShapeError Content := do
  match items with
  | [] => throw (.missingField "type")
  | tag :: fields =>
    checkTag tag
    match fields with
    | [] =>
      throw (.invalidLength 0 "struct variant ToolContent::Text with 1 element")
    | field :: rest =>
      let text ← Decoder.string field
      if rest ≠ [] then throw (.invalidLength fields.length "1 element in sequence")
      pure (.text text)

def decode : Decoder Content
  | .object members => do
    match findEntry "type" members with
    | none => throw (.missingField "type")
    | some tag =>
      checkTag tag
      textFields.ofMembers members
  | .array items => ofElements items
  | value => Decoder.wrongType value "internally tagged enum ToolContent"

def toJson : Content → Json
  | text s => .ofMembers [("type", .string "text"), ("text", .string s)]

end Content

/-- Who speaks in a message. -/
inductive Role
  | user
  | assistant
deriving DecidableEq, Repr

namespace Role

def name : Role → String
  | user => "user"
  | assistant => "assistant"

def decode : Decoder Role := .choice [("user", user), ("assistant", assistant)]

end Role

def protocolVersion : String := "2024-11-05"

/-- Whether the list of something offered may change. -/
structure ListCapability where
  listChanged : Bool

namespace ListCapability

def decode (name : String) : Decoder ListCapability :=
  Fields.decode name (ListCapability.mk <$> .defaulted "listChanged" .bool false)

def toJson (c : ListCapability) : Json := .ofMembers [("listChanged", .bool c.listChanged)]

end ListCapability

/-- What a server offers. -/
structure Capabilities where
  tools : Option ListCapability
  prompts : Option ListCapability

namespace Capabilities

def decode : Decoder Capabilities :=
  Fields.decode "ServerCapabilities" <|
    Capabilities.mk <$> .optional "tools" (ListCapability.decode "ToolsCapability")
      <*> .optional "prompts" (ListCapability.decode "PromptsCapability")

def toJson (c : Capabilities) : Json :=
  .ofOptionalMembers
    [("tools", c.tools.map ListCapability.toJson), ("prompts", c.prompts.map ListCapability.toJson)]

end Capabilities

/-- Name and version of a program. -/
structure ProgramInfo where
  name : String
  version : Option String

namespace ProgramInfo

def decode : Decoder ProgramInfo :=
  Fields.decode "ServerInfo" <|
    ProgramInfo.mk <$> .required "name" .string <*> .optional "version" .string

def toJson (i : ProgramInfo) : Json :=
  .ofOptionalMembers [("name", some (.string i.name)), ("version", i.version.map .string)]

end ProgramInfo

/-- The answer to the first call of a conversation. -/
structure InitializeResult where
  version : String
  capabilities : Capabilities
  info : ProgramInfo

namespace InitializeResult

def decode : Decoder InitializeResult :=
  Fields.decode "InitializeResult" <|
    InitializeResult.mk <$> .required "protocolVersion" .string
      <*> .required "capabilities" Capabilities.decode
      <*> .required "serverInfo" ProgramInfo.decode

def toJson (r : InitializeResult) : Json :=
  .ofMembers
    [("protocolVersion", .string r.version), ("capabilities", r.capabilities.toJson),
      ("serverInfo", r.info.toJson)]

end InitializeResult

structure ToolInfo where
  name : String
  description : Option String
  inputSchema : Option Json

namespace ToolInfo

def decode : Decoder ToolInfo :=
  Fields.decode "McpTool" <|
    ToolInfo.mk <$> .required "name" .string
      <*> .optional "description" .string
      <*> .optional "inputSchema" .json

def toJson (t : ToolInfo) : Json :=
  .ofOptionalMembers
    [("name", some (.string t.name)), ("description", t.description.map .string),
      ("inputSchema", t.inputSchema)]

end ToolInfo

structure ToolList where
  tools : List ToolInfo

namespace ToolList

def decode : Decoder ToolList :=
  Fields.decode "ListToolsResult" (ToolList.mk <$> .required "tools" (.list ToolInfo.decode))

def toJson (l : ToolList) : Json := .ofMembers [("tools", .array (l.tools.map ToolInfo.toJson))]

end ToolList

/-- What a caller names and passes to a tool or a prompt. -/
structure CallParams where
  name : String
  arguments : Option Json

namespace CallParams

def decode (typeName : String) : Decoder CallParams :=
  Fields.decode typeName <|
    CallParams.mk <$> .required "name" .string <*> .optional "arguments" .json

def decodeTool : Decoder CallParams := decode "CallToolParams"

def decodePrompt : Decoder CallParams := decode "GetPromptParams"

def toJson (p : CallParams) : Json :=
  .ofOptionalMembers [("name", some (.string p.name)), ("arguments", p.arguments)]

end CallParams

/-- What a tool gives back. -/
structure ToolResult where
  content : List Content
  isError : Bool

namespace ToolResult

def decode : Decoder ToolResult :=
  Fields.decode "ToolCallResult" <|
    ToolResult.mk <$> .required "content" (.list Content.decode) <*> .defaulted "isError" .bool false

def toJson (r : ToolResult) : Json :=
  .ofMembers [("content", .array (r.content.map Content.toJson)), ("isError", .bool r.isError)]

end ToolResult

structure PromptArgument where
  name : String
  description : Option String
  required : Bool

namespace PromptArgument

def decode : Decoder PromptArgument :=
  Fields.decode "PromptArgument" <|
    PromptArgument.mk <$> .required "name" .string
      <*> .optional "description" .string
      <*> .defaulted "required" .bool false

def toJson (a : PromptArgument) : Json :=
  .ofOptionalMembers
    [("name", some (.string a.name)), ("description", a.description.map .string),
      ("required", some (.bool a.required))]

end PromptArgument

structure PromptInfo where
  name : String
  description : Option String
  arguments : List PromptArgument

namespace PromptInfo

def decode : Decoder PromptInfo :=
  Fields.decode "McpPrompt" <|
    PromptInfo.mk <$> .required "name" .string
      <*> .optional "description" .string
      <*> .defaulted "arguments" (.list PromptArgument.decode) []

def toJson (p : PromptInfo) : Json :=
  .ofOptionalMembers
    [("name", some (.string p.name)), ("description", p.description.map .string),
      ("arguments", some (.array (p.arguments.map PromptArgument.toJson)))]

end PromptInfo

structure PromptList where
  prompts : List PromptInfo

namespace PromptList

def decode : Decoder PromptList :=
  Fields.decode "ListPromptsResult" (PromptList.mk <$> .required "prompts" (.list PromptInfo.decode))

def toJson (l : PromptList) : Json :=
  .ofMembers [("prompts", .array (l.prompts.map PromptInfo.toJson))]

end PromptList

structure Message where
  role : Role
  content : Content

namespace Message

def decode : Decoder Message :=
  Fields.decode "PromptMessage" <|
    Message.mk <$> .required "role" Role.decode <*> .required "content" Content.decode

def toJson (m : Message) : Json :=
  .ofMembers [("role", .string m.role.name), ("content", m.content.toJson)]

end Message

/-- What a prompt gives back. -/
structure PromptResult where
  description : Option String
  messages : List Message

namespace PromptResult

def decode : Decoder PromptResult :=
  Fields.decode "GetPromptResult" <|
    PromptResult.mk <$> .optional "description" .string
      <*> .required "messages" (.list Message.decode)

def toJson (r : PromptResult) : Json :=
  .ofOptionalMembers
    [("description", r.description.map .string),
      ("messages", some (.array (r.messages.map Message.toJson)))]

end PromptResult

/-- Which call a caller no longer wants answered, and why. -/
structure Cancellation where
  requestId : RequestId
  reason : Option String

namespace Cancellation

def decode : Decoder Cancellation :=
  Fields.decode "CancelledParams" <|
    Cancellation.mk <$> .required "requestId" RequestId.decode <*> .omittable "reason" .string

def toJson (c : Cancellation) : Json :=
  .ofOptionalMembers [("requestId", some c.requestId.toJson), ("reason", c.reason.map .string)]

end Cancellation

end CodeIntel.Agent

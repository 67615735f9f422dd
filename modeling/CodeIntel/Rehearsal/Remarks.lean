import CodeIntel.Agent.Conversation
import CodeIntel.Link.Step
import CodeIntel.Logging.Filter
import CodeIntel.Text.Basic
import CodeIntel.Tool.Catalog
import CodeIntel.Tool.Edit

namespace CodeIntel.Remark

/-! What the program remarks on in the course of its work. -/

/-- The remarks of every run, before a server is started. -/
def opening : List Remark :=
  [⟨.program, .info⟩, ⟨.client, .info⟩, ⟨.transport, .debug⟩]

/-- The remarks of a run that has started a server, which may use its error stream. -/
def started (complaining : Bool) : List Remark :=
  ⟨.transport, .trace⟩ :: if complaining then [⟨.serverErrors, .debug⟩] else []

/-- The remarks of a run that serves an agent, up to its end. -/
def serving : List Remark :=
  [⟨.bridge, .info⟩, ⟨.conversation, .info⟩]

/-- Requests whose failure is remarked on because nobody else learns of it. -/
def ownRequests : List String := ["shutdown", "codeLens/resolve"]

def ofFailedRequest (method : Option String) : List Remark :=
  if method.any ownRequests.contains then [⟨.client, .warn⟩] else []

/-- Whether the result of a request is of no use. -/
def isUseless (method : Option String) (result : Option Json) : Bool :=
  method = some "codeLens/resolve" && !(CodeLens.decode (.ofOption result)).isOk

def methodOf? (message : Json) : Option String := (message.member? "method").bind Json.string?

def methodIn? (bytes : List UInt8) : Option String :=
  match Frame.read true bytes with
  | .message value _ => methodOf? value
  | _ => none

/-- The method of the request with a number. -/
def requested? (sent : List Json) (id : Nat) : Option String :=
  let isIt (m : Json) := (m.member? "id").bind Json.int? = some (id : Int) && (methodOf? m).isSome
  (sent.find? isIt).bind methodOf?

/-- The remarks on a deed that is done with some reply, given the messages sent before. -/
def ofDeed (sent : List Json) : (d : Deed) → d.Reply → List Remark
  | .await id _, .late => ⟨.transport, .warn⟩ :: ofFailedRequest (requested? sent id)
  | .await id _, .lost => ofFailedRequest (requested? sent id)
  | .await id _, .answered ⟨_, some _⟩ => ofFailedRequest (requested? sent id)
  | .await id _, .answered ⟨result, none⟩ =>
    if isUseless (requested? sent id) result then [⟨.client, .warn⟩] else []
  | .write bytes, .error _ => ofFailedRequest (methodIn? bytes)
  | _, _ => []

def ofReader (link : Link) : List Remark :=
  match link.reader with
  | .replying (.done (.error _)) => [⟨.transport, .warn⟩]
  | .reading =>
    match Frame.read link.finished link.incoming with
    | .failed _ => [⟨.transport, .warn⟩]
    | .message value _ => if (Incoming.ofJson? value).isNone then [⟨.transport, .warn⟩] else []
    | _ => []
  | _ => []

/-- How grave a message of the server is. -/
def severityOfMessage : Int → Severity
  | 1 => .error
  | 2 => .warn
  | 3 => .info
  | _ => .debug

def messageSeverity : Decoder Severity :=
  Fields.decode "LogMessageParams" <|
    (fun severity _ => severityOfMessage severity) <$> .required "type" .i32
      <*> .required "message" .string

def ofNotice (method : String) (params : Json) : List Remark :=
  match method with
  | "textDocument/publishDiagnostics" =>
    if (PublishedDiagnostics.decode params).isOk then [] else [⟨.client, .warn⟩]
  | "window/logMessage" | "window/showMessage" =>
    ((messageSeverity params).toOption.map fun severity => ⟨.server, severity⟩).toList
  | _ => []

def isMalformedCancellation (line : String) : Bool :=
  match (Json.parse? line).map Agent.Request.decode with
  | some (.ok ⟨_, none, "notifications/cancelled", params⟩) =>
    !params.any fun p => (Agent.Cancellation.decode p).isOk
  | _ => false

def ofLine (c : Agent.Conversation) (line : String) : List Remark :=
  match Agent.lineMeaning line with
  | .refused _ => []
  | .request _ "initialize" _ => [⟨.agentServer, .info⟩]
  | .request .. => [⟨.agentServer, .debug⟩]
  | .cancellation id =>
    if (c.jobOf? id).isSome then [⟨.conversation, .info⟩] else [⟨.conversation, .debug⟩]
  | .nothing => if isMalformedCancellation line then [⟨.conversation, .warn⟩] else []

def ofConversation (c : Agent.Conversation) : List Remark :=
  if !c.listening then []
  else
    match Agent.readLine c.closed c.unread with
    | .tooLong => [⟨.conversation, .warn⟩]
    | .ended => [⟨.conversation, .debug⟩]
    | .line text _ => ofLine c text
    | _ => []

/-- Whether a text tells of an error after which the connection to the server is of no use. -/
def tellsFatal (text : String) : Bool :=
  [ServerError.connectionLost "", .process "", .io ""].any fun e =>
    isWithin (ToolError.backend e).message.toList text.toList

def ofFatal (text : String) : List Remark := if tellsFatal text then [⟨.session, .error⟩] else []

def ofToolResult (result : Agent.ToolResult) : List Remark :=
  let text := String.join (result.content.map fun | .text text => text)
  if result.isError then
    ⟨.tools, .warn⟩ :: ⟨.agentServer, .warn⟩ :: ofFatal text
  else if isWithin EditFile.warningStart.toList text.toList then
    ⟨.tools, .debug⟩ :: ⟨.edits, .warn⟩ :: ofFatal text
  else [⟨.tools, .debug⟩]

def tellsFailedPrompt (text : String) : Bool :=
  prompts.any fun prompt => text.startsWith (prompt.failure ++ " ")

def ofPromptResult (result : Agent.PromptResult) : List Remark :=
  let text := String.join (result.messages.map fun message =>
    match message.content with
    | .text text => text)
  if tellsFailedPrompt text then ⟨.prompts, .warn⟩ :: ofFatal text else []

def ofResponse (r : Agent.Response) : List Remark :=
  match r.result with
  | none => []
  | some result =>
    match Agent.ToolResult.decode result with
    | .ok result => ofToolResult result
    | .error _ =>
      match Agent.PromptResult.decode result with
      | .ok result => ofPromptResult result
      | .error _ => []

end CodeIntel.Remark

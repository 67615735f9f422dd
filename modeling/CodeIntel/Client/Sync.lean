import CodeIntel.Client.Connection
import CodeIntel.Client.Features
import CodeIntel.Client.Results
import CodeIntel.Path.Normal
import CodeIntel.Server.Config

namespace CodeIntel

/-- A connection to a server that has told what it can do. -/
structure Client where
  config : ServerConfig
  features : Features
  /-- Where relative paths are taken from. -/
  cwd : Path

namespace Client

/-- The language of a file by its extension, if that is text. -/
def languageOf (client : Client) (path : Path) : String :=
  match path.extension?.bind ofUtf8? with
  | some extension => client.config.languageId extension
  | none => "plaintext"

def changeParams (uri : Uri) (version : Int) (text : String) : Json :=
  .ofMembers
    [("textDocument", .ofMembers [("uri", .string uri.text), ("version", .int version)]),
      ("contentChanges", .array [.ofMembers [("text", .string text)]])]

def openParams (uri : Uri) (language text : String) : Json :=
  .ofMembers
    [("textDocument", .ofMembers
      [("uri", .string uri.text), ("languageId", .string language), ("version", .int 1),
        ("text", .string text)])]

/-- Sends the text of a document that is known to the server, unless it has that text already. -/
def sendChange (path : Path) (uri : Uri) (known : Document) (text : String) (arrivals : Nat) :
    Attempt Unit := do
  if known.text = text then pure ()
  else
    let version := nextVersion known.version
    Attempt.ask (.setDocument path { known with version := version })
    Attempt.notify "textDocument/didChange" (some (changeParams uri version text))
    Attempt.ask (.setDocument path ⟨version, text, arrivals⟩)

/-- Makes a document known to the server. -/
def sendOpen (client : Client) (path : Path) (uri : Uri) (text : String) (arrivals : Nat) :
    Attempt Unit := do
  Attempt.notify "textDocument/didOpen" (some (openParams uri (client.languageOf path) text))
  Attempt.ask (.setDocument path ⟨1, text, arrivals⟩)

/-- Brings the server's text of a document to the given one. -/
def sendText (client : Client) (path : Path) (text : String) : Attempt Unit :=
  Attempt.withDocuments do
    let arrivals ← Attempt.ask .arrivals
    let uri ← (path.uri client.cwd : Except ServerError Uri)
    match ← Attempt.ask (.document path) with
    | some known => sendChange path uri known text arrivals
    | none => client.sendOpen path uri text arrivals

/-- Brings the server's text of a document to what is on disk. -/
def sync (client : Client) (path : Path) : Attempt Unit := do
  match ← Attempt.ask (.readText path) with
  | .ok text => client.sendText path text
  | .error e => throw (.io e.message)

/-- Makes a document known to the server unless it is. -/
def ensureOpen (client : Client) (path : Path) : Attempt Unit := do
  match ← Attempt.withDocuments (Attempt.ask (.document path)) with
  | some _ => pure ()
  | none => client.sync path

def emptyObject : Json := .object []

/-- What is told to a server of this side. -/
def ownFeatures : Json :=
  .ofMembers
    [("textDocument", .ofMembers
      [("synchronization", .ofMembers [("didSave", .bool false)]),
        ("publishDiagnostics", .ofMembers [("relatedInformation", .bool true)]),
        ("documentSymbol", .ofMembers [("hierarchicalDocumentSymbolSupport", .bool true)]),
        ("codeLens", emptyObject), ("diagnostic", emptyObject)]),
      ("workspace", .ofMembers
        [("configuration", .bool true), ("workspaceFolders", .bool true), ("symbol", emptyObject),
          ("executeCommand", emptyObject)])]

/-- The name of a workspace: that of its directory, if it is text. -/
def workspaceName (root : Path) : String := (root.fileName?.bind ofUtf8?).getD "workspace"

/-- The parameters of the first request; `process` identifies this program. -/
def startParams (root : Path) (uri : Uri) (process : Json) : Json :=
  .ofMembers
    [("processId", process), ("rootUri", .string uri.text),
      ("workspaceFolders",
        .array [.ofMembers [("uri", .string uri.text), ("name", .string (workspaceName root))]]),
      ("capabilities", ownFeatures)]

/-- Makes the server ready for work in the workspace at `root`. -/
def start (config : ServerConfig) (root cwd : Path) (process : Json) : Attempt Client := do
  let uri ← (root.uri cwd : Except ServerError Uri)
  let params := startParams root uri process
  let answered ← liftM (m := Work)
    (Attempt.request "initialize" (some params) (config.initializeTimeoutSecs * 1000)).run
  match answered with
  | .error e => throw (.initialization e.message)
  | .ok value =>
    match Features.ofStartResult value with
    | .error e => throw (.initialization s!"Invalid initialize result: {e.message}")
    | .ok features =>
      Attempt.notify "initialized" (some emptyObject)
      pure ⟨config, features, cwd⟩

/-- The server has this many milliseconds to answer the request to shut down. -/
def shutdownTimeout : Nat := 2000

/-- Ends the work of the server. Whether it answers does not matter. -/
def shutdown : Attempt Unit := do
  let _ ← liftM (m := Work) (Attempt.request "shutdown" none shutdownTimeout).run
  let _ ← liftM (m := Work) (Attempt.notify "exit" none).run
  Attempt.ask .enterWriter
  Attempt.ask .closeWriter
  Attempt.ask .leaveWriter

end Client

end CodeIntel

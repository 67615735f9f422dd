import CodeIntel.Client.Sync
import CodeIntel.Client.Results
import CodeIntel.Server.Query
import CodeIntel.Text.Basic

namespace CodeIntel.Client

/-- Makes a request that may take as long as configured. -/
def request (client : Client) (method : String) (params : Json) : Attempt Json :=
  Attempt.request method (some params) (client.config.requestTimeoutSecs * 1000)

/-- Goes on only if the server can do what a method asks for. -/
def require (supported : Bool) (method : String) : Attempt Unit := do
  if !supported then throw (.unsupported method)

/-- Names a document in the parameters of a request. -/
def documentMember (client : Client) (path : Path) : Except ServerError (String × Json) := do
  let uri ← path.uri client.cwd
  pure ("textDocument", .ofMembers [("uri", .string uri.text)])

def requestAbout (client : Client) (path : Path) (method : String) (more : List (String × Json)) :
    Attempt Json := do
  let document ← (client.documentMember path : Except ServerError (String × Json))
  client.request method (.ofMembers (document :: more))

def workspaceSymbols (client : Client) (query : String) : Attempt (List WorkspaceSymbol) := do
  require client.features.workspaceSymbols "workspace/symbol"
  let result ← client.request "workspace/symbol" (.ofMembers [("query", .string query)])
  liftM (readWorkspaceSymbols result)

def definition (client : Client) (path : Path) (position : Position) : Attempt (List Location) := do
  require client.features.definition "textDocument/definition"
  client.ensureOpen path
  let result ← client.requestAbout path "textDocument/definition" [("position", position.toJson)]
  let targets ← (readTargets result : Except ServerError (List UriLocation))
  liftM (localLocations targets)

def references (client : Client) (path : Path) (position : Position) (declaration : Bool) :
    Attempt (List Location) := do
  require client.features.references "textDocument/references"
  client.ensureOpen path
  let result ← client.requestAbout path "textDocument/references"
    [("position", position.toJson),
      ("context", .ofMembers [("includeDeclaration", .bool declaration)])]
  let places ← (readReferences result : Except ServerError (List UriLocation))
  liftM (localLocations places)

def documentSymbols (client : Client) (path : Path) : Attempt (List DocumentSymbol) := do
  require client.features.documentSymbols "textDocument/documentSymbol"
  client.ensureOpen path
  let result ← client.requestAbout path "textDocument/documentSymbol" []
  liftM (readDocumentSymbols result)

def isUnknownMethod : ServerError → Bool
  | .requestFailed reason => isWithin s!"code {RemoteError.methodNotFoundCode}".toList reason.toList
  | _ => false

/-- Asks for the diagnostics of a document. Nothing comes back if the server has none that are new
or does not know the request after all. -/
def pullDiagnostics (client : Client) (path : Path) : Attempt (Option (List Diagnostic)) := do
  let document ← (client.documentMember path : Except ServerError (String × Json))
  let params := Json.ofMembers [document, ("identifier", .null), ("previousResultId", .null)]
  match ← liftM (m := Work) (client.request "textDocument/diagnostic" params).run with
  | .ok value => liftM (readReport value)
  | .error e => if isUnknownMethod e then pure none else throw e

/-- The diagnostics of a publication that came after the first `synced` ones. -/
def newerThan (synced : Nat) : Option (Nat × List Diagnostic) → Option (List Diagnostic)
  | some (number, diagnostics) => if synced < number then some diagnostics else none
  | none => none

/-- Waits for diagnostics of a document that come after the first `synced` publications, and makes
do with older ones at the deadline. It looks again after each arrival, at most `rounds` times. -/
def awaitPublished (path : Path) (synced deadline : Nat) : Nat → Attempt (Option (List Diagnostic))
  | 0 => pure none
  | rounds + 1 => do
    let seen ← Attempt.ask .arrivals
    let latest ← Attempt.ask (.published path)
    match newerThan synced latest with
    | some diagnostics => pure (some diagnostics)
    | none =>
      if ← Attempt.ask (.update seen deadline) then awaitPublished path synced deadline rounds
      else pure (latest.map Prod.snd)

/-- Publications are counted in 64 bits, so there are never as many. -/
def greatestArrivals : Nat := UInt64.size

/-- The diagnostics that the server publishes for a document after it has its text. -/
def publishedDiagnostics (client : Client) (path : Path) : Attempt (Option (List Diagnostic)) := do
  let known ← Attempt.withDocuments (Attempt.ask (.document path))
  let start ← Attempt.ask .now
  let synced := (known.map Document.arrivals).getD 0
  awaitPublished path synced (start + client.config.diagnosticsWaitMs) greatestArrivals

/-- The diagnostics of a document, asked for if the server can be asked, else as they are
published. -/
def diagnostics (client : Client) (path : Path) : Attempt (Option (List Diagnostic)) := do
  client.ensureOpen path
  let pulled ←
    if client.features.diagnostics then client.pullDiagnostics path else pure none
  match pulled with
  | some found => pure (some found)
  | none => client.publishedDiagnostics path

/-- Asks the server for the rest of a lens; a lens that it does not give stays as it is. -/
def resolveLens (client : Client) (lens : CodeLens) : Attempt CodeLens := do
  match ← liftM (m := Work) (client.request "codeLens/resolve" lens.toJson).run with
  | .ok value => pure (((CodeLens.decode value).toOption).getD lens)
  | .error _ => pure lens

/-- Resolves the lenses without a command one after the other. -/
def resolveLenses (client : Client) (canResolve : Bool) : List CodeLens → Attempt (List CodeLens)
  | [] => pure []
  | lens :: rest => do
    let lens ← if lens.command.isNone && canResolve then client.resolveLens lens else pure lens
    let more ← client.resolveLenses canResolve rest
    pure (lens :: more)

def codeLenses (client : Client) (path : Path) : Attempt (List CodeLens) := do
  match client.features.lenses with
  | none => throw (.unsupported "textDocument/codeLens")
  | some canResolve =>
    client.ensureOpen path
    let result ← client.requestAbout path "textDocument/codeLens" []
    let lenses ← (readLenses result : Except ServerError (List CodeLens))
    client.resolveLenses canResolve lenses

def execute (client : Client) (command : Command) : Attempt (Option Json) := do
  require client.features.execution "workspace/executeCommand"
  let result ← client.request "workspace/executeCommand" <|
    .ofMembers
      [("command", .string command.command), ("arguments", .array (command.arguments.getD []))]
  pure (if result.isNull then none else some result)

def answer (client : Client) : (q : Query) → Attempt q.Reply
  | .workspaceSymbols query => client.workspaceSymbols query
  | .definition path position => client.definition path position
  | .references path position declaration => client.references path position declaration
  | .documentSymbols path => client.documentSymbols path
  | .sync path => client.sync path
  | .changed path text => client.sendText path text
  | .diagnostics path => client.diagnostics path
  | .codeLenses path => client.codeLenses path
  | .execute command => client.execute command

end CodeIntel.Client

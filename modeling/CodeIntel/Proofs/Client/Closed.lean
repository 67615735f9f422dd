import CodeIntel.Client.Query
import CodeIntel.Proofs.Basic
import CodeIntel.Proofs.Plan

namespace CodeIntel

/-- Whether a deed has to do neither with files, nor with the documents, nor with the stream to the
server. -/
def Deed.IsPlain : Deed → Prop
  | register | await .. | forget _ => True
  | now | arrivals | published _ | update .. => True
  | _ => False

/-- A request names one of these documents, or has to do with none. -/
inductive Regards (about : Uri → Prop) : String → Json → Prop
  | document {uri : Uri} (named : about uri) (method : String) (more : List (String × Json)) :
      Regards about method
        (.ofMembers (("textDocument", .ofMembers [("uri", .string uri.text)]) :: more))
  | symbols (params : Json) : Regards about "workspace/symbol" params
  | lens (lens : CodeLens) : Regards about "codeLens/resolve" lens.toJson
  | command (params : Json) : Regards about "workspace/executeCommand" params

/-- What holds of some deeds, of requests that name some documents, and of all that is made of
them. -/
structure Closed (may : Deed → Prop) (about : Uri → Prop) (P : {α : Type} → Attempt α → Prop) :
    Prop where
  plain : ∀ d : Deed, d.IsPlain → may d
  ask : ∀ d, may d → P (Attempt.ask d)
  send : ∀ id {method params}, Regards about method params →
    P (Attempt.send (.request id method (some params)))
  result : ∀ {α : Type} (result : Except ServerError α), P (liftM result : Attempt α)
  bind : ∀ {α β : Type} {x : Attempt α} {f : α → Attempt β}, P x → (∀ a, P (f a)) → P (x >>= f)
  run : ∀ {α : Type} {x : Attempt α}, P x →
    P (liftM (m := Work) x.run : Attempt (Except ServerError α))

/-- If requests may be written, whatever is made of what may be done only does what may be done. -/
theorem closed_asks {may : Deed → Prop} {about : Uri → Prop}
    (plain : ∀ d : Deed, d.IsPlain → may d) (enters : may .enterWriter) (looks : may .writerOpen)
    (writes : ∀ id {method params}, Regards about method params →
      may (.write (Outgoing.request id method (some params)).bytes))
    (leaves : may .leaveWriter) : Closed may about fun x => x.run.Asks may where
  plain := plain
  ask _ allowed := ⟨allowed, fun _ => trivial⟩
  send id _ _ regards := Attempt.asks_send enters looks (writes id regards) leaves
  result := Plan.asks_run_except
  bind := Plan.asks_run_bind
  run := Plan.asks_run_lift

namespace Closed

-- How a path becomes a URI and how replies are read does not matter to what is asked.
attribute [local irreducible] Path.uri readReport readLenses readTargets readReferences
  localLocations readDocumentSymbols readWorkspaceSymbols

variable {may : Deed → Prop} {about : Uri → Prop} {P : {α : Type} → Attempt α → Prop} {α β : Type}

theorem pure (closed : Closed may about P) (a : α) : P (Pure.pure a : Attempt α) :=
  closed.result (.ok a)

theorem throw (closed : Closed may about P) (e : ServerError) : P (throw e : Attempt α) :=
  closed.result (.error e)

theorem bind_result (closed : Closed may about P) {result : Except ServerError α}
    {f : α → Attempt β} (rest : ∀ a, result = .ok a → P (f a)) : P (liftM result >>= f) := by
  cases result with
  | ok a => exact rest a rfl
  | error e => exact closed.throw e

theorem withDocuments (closed : Closed may about P) {x : Attempt α} (enters : may .enterDocuments)
    (leaves : may .leaveDocuments) (h : P x) : P (Attempt.withDocuments x) :=
  closed.bind (closed.ask _ enters) fun _ =>
    closed.bind (closed.run h) fun result =>
      closed.bind (closed.ask _ leaves) fun _ => closed.result result

theorem require (closed : Closed may about P) (supported : Bool) (method : String) :
    P (Client.require supported method) := by
  unfold Client.require
  split
  · exact closed.throw _
  · exact closed.pure ()

theorem inquiry (closed : Closed may about P) {method : String} {params : Option Json}
    (send : ∀ id, P (Attempt.send (.request id method params))) (timeout : Nat) :
    P (Attempt.request method params timeout) := by
  refine closed.bind (closed.ask _ (closed.plain _ trivial)) fun id => ?_
  refine closed.bind (closed.run ?_) fun result =>
    closed.bind (closed.ask _ (closed.plain _ trivial)) fun _ => closed.result result
  refine closed.bind (send id) fun _ => ?_
  refine closed.bind (closed.ask _ (closed.plain _ trivial)) fun start => ?_
  exact closed.bind (closed.ask _ (closed.plain _ trivial)) fun awaited => closed.result _

variable (client : Client)

theorem request (closed : Closed may about P) {method : String} {params : Json}
    (regards : Regards about method params) : P (client.request method params) :=
  closed.inquiry (fun id => closed.send id regards) _

/-- Nothing is made of a path that has no URI. -/
theorem bind_documentMember (closed : Closed may about P) {path : Path}
    {f : String × Json → Attempt α} (rest : ∀ uri, path.uri client.cwd = .ok uri →
      P (f ("textDocument", .ofMembers [("uri", .string uri.text)]))) :
    P (liftM (client.documentMember path) >>= f) := by
  refine closed.bind_result fun document eq => ?_
  obtain ⟨uri, named, eq⟩ := bind_eq_ok_iff.mp eq
  cases eq
  exact rest uri named

theorem requestAbout (closed : Closed may about P) {path : Path}
    (named : ∀ uri, path.uri client.cwd = .ok uri → about uri) (method : String)
    (more : List (String × Json)) : P (client.requestAbout path method more) :=
  closed.bind_documentMember client fun uri eq =>
    closed.request client (.document (named uri eq) method more)

/-- What is asked for a definition once the document is open. -/
theorem definitionOfOpen (closed : Closed may about P) {path : Path}
    (named : ∀ uri, path.uri client.cwd = .ok uri → about uri) (position : Position) :
    P (do
      let result ← client.requestAbout path "textDocument/definition" [("position", position.toJson)]
      let targets ← (readTargets result : Except ServerError (List UriLocation))
      liftM (localLocations targets)) :=
  closed.bind (closed.requestAbout client named _ _) fun result =>
    closed.bind (closed.result (readTargets result)) fun targets =>
      closed.result (localLocations targets)

theorem referencesOfOpen (closed : Closed may about P) {path : Path}
    (named : ∀ uri, path.uri client.cwd = .ok uri → about uri) (position : Position)
    (declaration : Bool) :
    P (do
      let result ← client.requestAbout path "textDocument/references"
        [("position", position.toJson),
          ("context", .ofMembers [("includeDeclaration", .bool declaration)])]
      let places ← (readReferences result : Except ServerError (List UriLocation))
      liftM (localLocations places)) :=
  closed.bind (closed.requestAbout client named _ _) fun result =>
    closed.bind (closed.result (readReferences result)) fun places =>
      closed.result (localLocations places)

theorem symbolsOfOpen (closed : Closed may about P) {path : Path}
    (named : ∀ uri, path.uri client.cwd = .ok uri → about uri) :
    P (do
      let result ← client.requestAbout path "textDocument/documentSymbol" []
      liftM (readDocumentSymbols result)) :=
  closed.bind (closed.requestAbout client named _ _) fun result =>
    closed.result (readDocumentSymbols result)

theorem workspaceSymbols (closed : Closed may about P) (query : String) :
    P (client.workspaceSymbols query) :=
  closed.bind (closed.require _ _) fun _ =>
    closed.bind (closed.request client (.symbols _)) fun result =>
      closed.result (readWorkspaceSymbols result)

theorem pullDiagnostics (closed : Closed may about P) {path : Path}
    (named : ∀ uri, path.uri client.cwd = .ok uri → about uri) :
    P (client.pullDiagnostics path) := by
  refine closed.bind_documentMember client fun uri eq => ?_
  have regards := Regards.document (named uri eq) "textDocument/diagnostic"
    [("identifier", .null), ("previousResultId", .null)]
  refine closed.bind (closed.run (closed.request client regards)) fun result => ?_
  cases result with
  | ok value => exact closed.result (readReport value)
  | error e =>
    change P (ite (Client.isUnknownMethod e = true) _ _ : Attempt _)
    split
    · exact closed.pure none
    · exact closed.throw e

theorem awaitPublished (closed : Closed may about P) (path : Path) (synced deadline rounds : Nat) :
    P (Client.awaitPublished path synced deadline rounds) := by
  induction rounds with
  | zero => exact closed.pure none
  | succ rounds ih =>
    unfold Client.awaitPublished
    refine closed.bind (closed.ask _ (closed.plain _ trivial)) fun seen => ?_
    refine closed.bind (closed.ask _ (closed.plain _ trivial)) fun latest => ?_
    split
    · exact closed.pure _
    · refine closed.bind (closed.ask _ (closed.plain _ trivial)) fun more => ?_
      cases more with
      | true => exact ih
      | false => exact closed.pure _

theorem publishedDiagnostics (closed : Closed may about P) {path : Path}
    (enters : may .enterDocuments) (leaves : may .leaveDocuments) (kept : may (.document path)) :
    P (client.publishedDiagnostics path) :=
  closed.bind (closed.withDocuments enters leaves (closed.ask _ kept)) fun _ =>
    closed.bind (closed.ask _ (closed.plain _ trivial)) fun _ => closed.awaitPublished path _ _ _

/-- What is asked for diagnostics once the document is open. -/
theorem diagnosticsOfOpen (closed : Closed may about P) {path : Path}
    (enters : may .enterDocuments) (leaves : may .leaveDocuments) (kept : may (.document path))
    (named : ∀ uri, path.uri client.cwd = .ok uri → about uri) :
    P (do
      let pulled ←
        if client.features.diagnostics then client.pullDiagnostics path else Pure.pure none
      match pulled with
      | some found => Pure.pure (some found)
      | none => client.publishedDiagnostics path) := by
  have later (pulled : Option (List Diagnostic)) : P (match pulled with
      | some found => Pure.pure (some found)
      | none => client.publishedDiagnostics path) := by
    cases pulled with
    | some found => exact closed.pure _
    | none => exact closed.publishedDiagnostics client enters leaves kept
  split
  · exact closed.bind (closed.pullDiagnostics client named) later
  · exact closed.bind (closed.pure none) later

theorem resolveLens (closed : Closed may about P) (lens : CodeLens) :
    P (client.resolveLens lens) := by
  refine closed.bind (closed.run (closed.request client (.lens lens))) fun result => ?_
  cases result with
  | ok value => exact closed.pure _
  | error e => exact closed.pure _

theorem resolveLenses (closed : Closed may about P) (canResolve : Bool) (lenses : List CodeLens) :
    P (client.resolveLenses canResolve lenses) := by
  induction lenses with
  | nil => exact closed.pure []
  | cons lens rest ih =>
    have later (lens : CodeLens) : P (client.resolveLenses canResolve rest >>= fun more =>
        Pure.pure (lens :: more) : Attempt (List CodeLens)) :=
      closed.bind ih fun more => closed.pure _
    simp only [Client.resolveLenses]
    split
    · exact closed.bind (closed.resolveLens client lens) later
    · exact later lens

/-- What is asked for lenses once the document is open. -/
theorem lensesOfOpen (closed : Closed may about P) {path : Path}
    (named : ∀ uri, path.uri client.cwd = .ok uri → about uri) (canResolve : Bool) :
    P (do
      let result ← client.requestAbout path "textDocument/codeLens" []
      let lenses ← (readLenses result : Except ServerError (List CodeLens))
      client.resolveLenses canResolve lenses) :=
  closed.bind (closed.requestAbout client named _ _) fun result =>
    closed.bind (closed.result (readLenses result)) fun lenses =>
      closed.resolveLenses client canResolve lenses

theorem execute (closed : Closed may about P) (command : Command) : P (client.execute command) :=
  closed.bind (closed.require _ _) fun _ =>
    closed.bind (closed.request client (.command _)) fun _ => closed.pure _

end Closed

end CodeIntel

import CodeIntel.Proofs.Client.Features
import CodeIntel.Proofs.Client.Requests
import CodeIntel.Proofs.Documents.Dialogue

namespace CodeIntel

/-- The bytes that a deed writes. -/
def Deed.message? : Deed → Option (List UInt8)
  | .write message => some message
  | _ => none

/-- The messages that are written in the course of some work. -/
def written (talk : Deeds) : List (List UInt8) := talk.filterMap fun turn => turn.1.message?

/-- Whether a file cannot be read or a message cannot be sent. -/
def Fails : (d : Deed) × d.Reply → Prop
  | ⟨.readText _, .error _⟩ => True
  | ⟨.writerOpen, false⟩ => True
  | ⟨.write _, .error _⟩ => True
  | _ => False

/-- Whether all that is read and sent in the course of some work succeeds. -/
def Succeeds (talk : Deeds) : Prop := ∀ turn ∈ talk, ¬ Fails turn

/-- Whether some work finds the documents as they are, and how it leaves them. -/
def WorksOn (before : PathTable Document) : Deeds → PathTable Document → Prop
  | [], after => after = before
  | ⟨.document path, found⟩ :: rest, after => found = before.get? path ∧ WorksOn before rest after
  | ⟨.setDocument path document, _⟩ :: rest, after => WorksOn (before.set path document) rest after
  | _ :: rest, after => WorksOn before rest after

section Talk

variable {talk talk' : Deeds} {before after : PathTable Document}

theorem written_append (talk talk' : Deeds) :
    written (talk ++ talk') = written talk ++ written talk' := List.filterMap_append

theorem succeeds_append : Succeeds (talk ++ talk') ↔ Succeeds talk ∧ Succeeds talk' :=
  List.forall_mem_append

theorem worksOn_append : WorksOn before (talk ++ talk') after ↔
    ∃ between, WorksOn before talk between ∧ WorksOn between talk' after := by
  induction talk generalizing before with
  | nil => simp [WorksOn]
  | cons turn talk ih =>
    obtain ⟨d, reply⟩ := turn
    cases d with
    | document path => simp [WorksOn, ih, and_assoc]
    | _ => exact ih

/-- Where no document is set they stay as they are. -/
theorem eq_of_worksOn (unset : ∀ turn ∈ talk, ∀ path document, turn.1 ≠ .setDocument path document)
    (keeps : WorksOn before talk after) : after = before := by
  induction talk with
  | nil => exact keeps
  | cons turn talk ih =>
    obtain ⟨d, reply⟩ := turn
    obtain ⟨here, later⟩ := List.forall_mem_cons.mp unset
    cases d with
    | document path => exact ih later keeps.2
    | setDocument path document => exact absurd rfl (here path document)
    | _ => exact ih later keeps

end Talk

/-- What may be written for a query after its request: the rest of lenses is asked for. -/
inductive Query.Follows : Query → List UInt8 → Prop
  | resolving (path : Path) (id : Nat) (lens : CodeLens) :
      Follows (.codeLenses path) (Outgoing.request id "codeLens/resolve" (some lens.toJson)).bytes

/-- Whether a deed may follow the request of a query. It leaves the documents alone. -/
def Deed.Follows (q : Query) : Deed → Prop
  | .write message => q.Follows message
  | .setDocument .. => False
  | _ => True

/-- How a document is open when it is asked about: nothing is to be done if it is open already or
there is none, or the server is told the text of its file. -/
inductive Query.Opens (q : Query) (client : Client) (before : PathTable Document) (talk : Deeds) :
    List (List UInt8) → PathTable Document → Prop
  | idle (none : q.path? = none) : Opens q client before talk [] before
  | known {path : Path} {document : Document} (about : q.path? = some path)
      (found : before.get? path = some document) : Opens q client before talk [] before
  | told {path : Path} {uri : Uri} {text : String} {arrivals : Nat} (about : q.path? = some path)
      (missing : before.get? path = none) (named : path.uri client.cwd = .ok uri)
      (read : ⟨.readText path, .ok text⟩ ∈ talk) :
      Opens q client before talk [openMessage uri (client.languageOf path) text]
        (before.set path ⟨1, text, arrivals⟩)

section Succeeding

variable {talk : Deeds} {before after : PathTable Document} {q : Query} {client : Client}
  {path : Path} {uri : Uri}

theorem Query.Opens.mono {talk' : Deeds} {opening : List (List UInt8)}
    (opens : q.Opens client before talk opening after) (more : talk ⊆ talk') :
    q.Opens client before talk' opening after := by
  cases opens with
  | idle none => exact .idle none
  | known about found => exact .known about found
  | told about missing named read => exact .told about missing named (more read)

theorem follows_of_mem_written (follow : ∀ turn ∈ talk, turn.1.Follows q) :
    ∀ message ∈ written talk, q.Follows message := by
  intro message mem
  obtain ⟨⟨d, reply⟩, here, wrote⟩ := List.mem_filterMap.mp mem
  cases d with
  | write message' =>
    cases wrote
    exact follow _ here
  | _ => cases wrote

theorem unset_of_follows (follow : ∀ turn ∈ talk, turn.1.Follows q) :
    ∀ turn ∈ talk, ∀ path document, turn.1 ≠ .setDocument path document := by
  rintro ⟨d, reply⟩ mem path document rfl
  exact follow _ mem

namespace Attempt

/-- A message that is sent with success is written. -/
theorem talk_of_sent {message : Outgoing} {result : Except ServerError Unit}
    (talks : (send message).run.Converses talk result) (fine : Succeeds talk) :
    result = .ok () ∧ talk = [⟨.enterWriter, ()⟩, ⟨.writerOpen, true⟩,
      ⟨.write message.bytes, .ok ()⟩, ⟨.leaveWriter, ()⟩] := by
  rcases sent_of_converses talks with ⟨rfl, _⟩ | rfl
  · exact absurd trivial (fine ⟨.writerOpen, false⟩ (by simp))
  · cases result with
    | ok _ => exact ⟨rfl, rfl⟩
    | error e => exact absurd trivial (fine ⟨.write message.bytes, .error e⟩ (by simp))

variable {method : String} {params : Json} {timeout : Nat} {result : Except ServerError Json}

/-- A request that is sent with success is all that is written. -/
theorem Requesting.asks_once (asks : Requesting method params timeout talk result)
    (fine : Succeeds talk) :
    ∃ id, written talk = [(Outgoing.request id method (some params)).bytes] := by
  cases asks with
  | closed => exact absurd trivial (fine ⟨.writerOpen, false⟩ (by simp))
  | unwritten id e =>
    let turn : (d : Deed) × d.Reply :=
      ⟨.write (Outgoing.request id method (some params)).bytes, .error e⟩
    exact absurd trivial (fine turn (by simp [turn]))
  | awaited id start awaited => exact ⟨id, rfl⟩

theorem Requesting.leaves (asks : Requesting method params timeout talk result)
    (keeps : WorksOn before talk after) : after = before := by
  cases asks <;> exact keeps

end Attempt

namespace Client

-- How a path becomes a URI does not matter to what is told.
attribute [local irreducible] Path.uri

theorem talk_of_sendOpen {text : String} {arrivals : Nat} {result : Except ServerError Unit}
    (talks : (client.sendOpen path uri text arrivals).run.Converses talk result)
    (fine : Succeeds talk) : result = .ok () ∧ talk =
      [⟨.enterWriter, ()⟩, ⟨.writerOpen, true⟩,
        ⟨.write (openMessage uri (client.languageOf path) text), .ok ()⟩, ⟨.leaveWriter, ()⟩,
        ⟨.setDocument path ⟨1, text, arrivals⟩, ()⟩] := by
  rcases Plan.converses_run_bind_iff.mp talks with ⟨e, sends, _⟩ | ⟨_, _, _, rfl, sends, keeps⟩
  · obtain ⟨⟨⟩, _⟩ := Attempt.talk_of_sent sends fine
  · obtain ⟨_, rfl⟩ := Attempt.talk_of_sent sends (succeeds_append.mp fine).1
    obtain ⟨⟨⟩, _, rfl, rfl, rfl⟩ := keeps
    exact ⟨rfl, rfl⟩

/-- The text of a file is told to a server that does not know the document. -/
theorem opens_of_sendText {text : String} {result : Except ServerError Unit}
    (named : path.uri client.cwd = .ok uri) (missing : before.get? path = none)
    (talks : (client.sendText path text).run.Converses talk result)
    (keeps : WorksOn before talk after) (fine : Succeeds talk) :
    result = .ok () ∧ written talk = [openMessage uri (client.languageOf path) text] ∧
      ∃ arrivals, after = before.set path ⟨1, text, arrivals⟩ := by
  rw [sendText, Attempt.run_withDocuments] at talks
  obtain ⟨⟨⟩, _, rfl, talks⟩ := talks
  obtain ⟨inside, _, _, rfl, tells, ⟨⟩, _, rfl, rfl, rfl⟩ := Plan.converses_bind_iff.mp talks
  obtain ⟨arrivals, _, rfl, tells⟩ := tells
  rcases Plan.converses_except_bind_iff.mp tells with ⟨_, failed, _⟩ | ⟨uri', named', tells⟩
  · cases named.symm.trans failed
  · cases named.symm.trans named'
    obtain ⟨known, later, rfl, opens⟩ := tells
    obtain ⟨same, kept⟩ : known = before.get? path ∧ WorksOn before (later ++ _) after := keeps
    obtain rfl : known = none := same.trans missing
    obtain ⟨rfl, rfl⟩ := talk_of_sendOpen opens fun turn mem => fine turn (by simp [mem])
    exact ⟨rfl, rfl, arrivals, kept⟩

theorem opens_of_ensureOpen {result : Except ServerError Unit} (about : q.path? = some path)
    (named : path.uri client.cwd = .ok uri)
    (talks : (client.ensureOpen path).run.Converses talk result)
    (keeps : WorksOn before talk after) (fine : Succeeds talk) :
    result = .ok () ∧ q.Opens client before talk (written talk) after := by
  obtain ⟨⟨⟩, _, rfl, known, _, rfl, ⟨⟩, later, rfl, rest⟩ := talks
  obtain ⟨same, kept⟩ : known = before.get? path ∧ WorksOn before later after := keeps
  cases known with
  | some known =>
    obtain ⟨rfl, rfl⟩ := rest
    obtain rfl : after = before := kept
    exact ⟨rfl, .known about same.symm⟩
  | none =>
    obtain ⟨read, telling, rfl, tells⟩ := rest
    cases read with
    | error e =>
      let turn : (d : Deed) × d.Reply := ⟨.readText path, .error e⟩
      exact absurd trivial (fine turn (by simp [turn]))
    | ok text =>
      obtain ⟨rfl, wrote, arrivals, rfl⟩ := opens_of_sendText named same.symm tells kept
        fun turn mem => fine turn (by simp [mem])
      change _ ∧ q.Opens client before _ (written telling) _
      rw [wrote]
      exact ⟨rfl, .told about same.symm named (by simp)⟩

/-- How a query is made: its request, behind a document that is opened if it is about one. -/
inductive Inquires (client : Client) (q : Query) (method : String) : Attempt Json → Prop
  | alone (none : q.path? = none) (params : Json) :
      Inquires client q method (client.request method params)
  | about {path : Path} (about : q.path? = some path) (more : List (String × Json)) :
      Inquires client q method (do
        client.ensureOpen path
        client.requestAbout path method more)

variable {method : String} {inquiry : Attempt Json} {result : Except ServerError Json}

/-- If all succeeds, a query asks once. -/
theorem Inquires.asks_once (inquires : client.Inquires q method inquiry)
    (named : ∀ path, q.path? = some path → ∃ uri, path.uri client.cwd = .ok uri)
    (talks : inquiry.run.Converses talk result) (keeps : WorksOn before talk after)
    (fine : Succeeds talk) :
    ∃ opening id params, q.Opens client before talk opening after ∧
      written talk = opening ++ [(Outgoing.request id method (some params)).bytes] := by
  cases inquires with
  | alone none params =>
    have asks := Attempt.converses_request_iff.mp talks
    obtain ⟨id, wrote⟩ := asks.asks_once fine
    obtain rfl := asks.leaves keeps
    exact ⟨[], id, params, .idle none, wrote⟩
  | @about path about more =>
    obtain ⟨uri, named⟩ := named path about
    rcases Plan.converses_run_bind_iff.mp talks with
      ⟨e, opens, _⟩ | ⟨opening, _, asking, rfl, opens, asks⟩
    · obtain ⟨⟨⟩, _⟩ := opens_of_ensureOpen about named opens keeps fine
    · obtain ⟨fineOpening, fineAsking⟩ := succeeds_append.mp fine
      obtain ⟨between, keepsOpening, keepsAsking⟩ := worksOn_append.mp keeps
      obtain ⟨_, opened⟩ := opens_of_ensureOpen about named opens keepsOpening fineOpening
      rcases Plan.converses_except_bind_iff.mp asks with ⟨_, failed, _⟩ | ⟨document, _, asks⟩
      · cases (documentMember_of_named named).symm.trans failed
      · have asks := Attempt.converses_request_iff.mp asks
        obtain ⟨id, wrote⟩ := asks.asks_once fineAsking
        obtain rfl := asks.leaves keepsAsking
        refine ⟨written opening, id, .ofMembers (document :: more),
          opened.mono (List.subset_append_left ..), ?_⟩
        rw [written_append, wrote]

/-- A document that has no URI is neither opened nor asked about. -/
theorem Inquires.written_eq_nil (inquires : client.Inquires q method inquiry)
    (about : q.path? = some path) (nameless : ∀ uri, path.uri client.cwd ≠ .ok uri)
    (talks : inquiry.run.Converses talk result) :
    (∃ e, result = .error e) ∧ written talk = [] := by
  cases inquires with
  | alone none => cases none.symm.trans about
  | @about path' about' more =>
    cases about.symm.trans about'
    have tell : MayTell (fun d => d.message? = none) path client.cwd :=
      ⟨rfl, rfl, rfl, rfl, rfl, fun _ => rfl, rfl, rfl, rfl, fun named => absurd named (nameless _),
        fun named => absurd named (nameless _)⟩
    have silent {talk : Deeds} {result : Except ServerError Unit}
        (opens : (client.ensureOpen path).run.Converses talk result) : written talk = [] :=
      List.filterMap_eq_nil_iff.mpr (tell.ensureOpen.of_converses opens)
    rcases Plan.converses_run_bind_iff.mp talks with
      ⟨e, opens, rfl⟩ | ⟨opening, _, asking, rfl, opens, asks⟩
    · exact ⟨⟨e, rfl⟩, silent opens⟩
    · rcases Plan.converses_except_bind_iff.mp asks with ⟨e, _, rfl, rfl⟩ | ⟨_, member, _⟩
      · exact ⟨⟨e, rfl⟩, by rw [List.append_nil, silent opens]⟩
      · obtain ⟨uri, named, _⟩ := bind_eq_ok_iff.mp member
        exact absurd named (nameless uri)

-- How replies are read does not matter to what is asked.
attribute [local irreducible] readLenses readTargets readReferences localLocations
  readDocumentSymbols readWorkspaceSymbols CodeLens.decode

/-- Nothing follows but readings of the answer. -/
theorem follows_of_asks {α : Type} {attempt : Attempt α} {result : Except ServerError α}
    (silent : attempt.run.Asks fun _ => False) (talks : attempt.run.Converses talk result) :
    ∀ turn ∈ talk, turn.1.Follows q :=
  fun turn mem => (silent.of_converses talks turn mem).elim

theorem Resolves.follows {canResolve : Bool} {lenses resolved : List CodeLens}
    (resolves : client.Resolves canResolve lenses talk resolved) :
    ∀ turn ∈ talk, turn.1.Follows (.codeLenses path) := by
  induction resolves with
  | nothing => exact nofun
  | kept _ _ ih => exact ih
  | @asked lens _ _ _ _ _ _ asks _ ih =>
    refine List.forall_mem_append.mpr ⟨?_, ih⟩
    cases asks <;> simp [Deed.Follows, Query.Follows.resolving path _ lens]

/-- All queries that need a feature are made alike: the feature is looked for, then it is asked, and
no documents are opened after that. -/
theorem exists_inquiry (client : Client) {need : Need} (needs : q.need? = some need) :
    ∃ (inquiry : Attempt Json) (finish : Json → Attempt q.Reply),
      client.answer q =
        (require (client.features.offers q) need.method >>= fun _ => inquiry >>= finish) ∧
      client.Inquires q need.method inquiry ∧ ∀ value talk result,
        (finish value).run.Converses talk result → ∀ turn ∈ talk, turn.1.Follows q := by
  have located (places : Except ServerError (List UriLocation)) : (do
      let places ← places
      liftM (localLocations places) : Attempt (List Location)).run.Asks fun _ => False :=
    Plan.asks_run_except_bind fun _ _ => Plan.asks_run_except _
  cases q with
  | workspaceSymbols query =>
    cases needs
    exact ⟨_, fun result => liftM (readWorkspaceSymbols result), rfl, .alone rfl _,
      fun _ _ _ => follows_of_asks (Plan.asks_run_except _)⟩
  | definition path position =>
    cases needs
    refine ⟨_, fun result => do
        let targets ← (readTargets result : Except ServerError (List UriLocation))
        liftM (localLocations targets), ?_, .about rfl [("position", position.toJson)],
      fun _ _ _ => follows_of_asks (located _)⟩
    simp only [bind_assoc]
    rfl
  | references path position declaration =>
    cases needs
    refine ⟨_, fun result => do
        let places ← (readReferences result : Except ServerError (List UriLocation))
        liftM (localLocations places), ?_, .about rfl [("position", position.toJson),
      ("context", .ofMembers [("includeDeclaration", .bool declaration)])],
      fun _ _ _ => follows_of_asks (located _)⟩
    simp only [bind_assoc]
    rfl
  | documentSymbols path =>
    cases needs
    refine ⟨_, fun result => liftM (readDocumentSymbols result), ?_, .about rfl [],
      fun _ _ _ => follows_of_asks (Plan.asks_run_except _)⟩
    simp only [bind_assoc]
    rfl
  | codeLenses path =>
    cases needs
    refine ⟨_, fun result => do
        let lenses ← (readLenses result : Except ServerError (List CodeLens))
        client.resolveLenses (client.features.lenses.getD false) lenses, ?_, .about rfl [],
      fun value talk result talks => ?_⟩
    · simp only [bind_assoc, Features.offers]
      change client.codeLenses path = _
      unfold codeLenses
      cases client.features.lenses <;> rfl
    · rcases Plan.converses_except_bind_iff.mp talks with ⟨_, _, rfl, _⟩ | ⟨_, _, talks⟩
      · exact nofun
      · obtain ⟨_, _, resolves⟩ := resolves_of_converses talks
        exact resolves.follows
  | execute command =>
    cases needs
    exact ⟨_, fun result => pure (if result.isNull then none else some result), rfl, .alone rfl _,
      fun _ _ _ => follows_of_asks trivial⟩
  | sync path => cases needs
  | changed path text => cases needs
  | diagnostics path => cases needs

end Client

/-- Neither the opening of a document nor what follows a request is a request of its method. -/
theorem Query.Opens.ne_request {opening : List (List UInt8)}
    (opens : q.Opens client before talk opening after) {id : Nat} {method : String} {params : Json} :
    ∀ message ∈ opening, message ≠ (Outgoing.request id method (some params)).bytes := by
  cases opens with
  | idle | known => exact nofun
  | told =>
    rintro _ mem rfl
    exact Outgoing.bytes_ne_notification (fun _ _ eq => Outgoing.noConfusion eq) _ _
      (List.mem_singleton.mp mem)

theorem Query.Follows.ne_request {need : Need} (needs : q.need? = some need)
    {message : List UInt8} (follows : q.Follows message) {id : Nat} {params : Json} :
    message ≠ (Outgoing.request id need.method (some params)).bytes := by
  cases follows
  cases needs
  intro same
  exact absurd (Outgoing.method_eq_of_request same) (by decide)

end Succeeding

section Offers

variable {client : Client} {q : Query} {need : Need} {told : Json} {talk : Deeds}
  {result : Except ServerError q.Reply} {before after : PathTable Document}

/-- One request of a method is written, behind the opening of the document and before what follows
the answer to it. -/
def Query.AsksOnce (q : Query) (client : Client) (method : String) (before : PathTable Document)
    (talk : Deeds) (after : PathTable Document) : Prop :=
  ∃ opening id params rest, q.Opens client before talk opening after ∧
    written talk = opening ++ (Outgoing.request id method (some params)).bytes :: rest ∧
    (∀ message ∈ rest, q.Follows message) ∧
    ∀ message ∈ opening ++ rest, ∀ id params,
      message ≠ (Outgoing.request id method (some params)).bytes

theorem asksOnce_of_inquires {inquiry : Attempt Json} {asking ending : Deeds}
    {outcome : Except ServerError Json} (needs : q.need? = some need)
    (inquires : client.Inquires q need.method inquiry)
    (named : ∀ path, q.path? = some path → ∃ uri, path.uri client.cwd = .ok uri)
    (asks : inquiry.run.Converses asking outcome) (keeps : WorksOn before asking after)
    (fine : Succeeds asking) (ends : ∀ turn ∈ ending, turn.1.Follows q) :
    q.AsksOnce client need.method before (asking ++ ending) after := by
  obtain ⟨opening, id, params, opens, wrote⟩ := inquires.asks_once named asks keeps fine
  refine ⟨opening, id, params, written ending, opens.mono (List.subset_append_left ..), ?_,
    follows_of_mem_written ends, fun message mem id params => ?_⟩
  · rw [written_append, wrote, List.append_assoc, List.singleton_append]
  · rcases List.mem_append.mp mem with mem | mem
    · exact opens.ne_request message mem
    · exact (follows_of_mem_written ends message mem).ne_request needs

/-- A feature that a server does not tell of is not asked for, and nothing is done. A feature that is
on is asked for once, behind the opening of the document if it is not open, provided that the
document has a URI; without one nothing is written. -/
theorem feature_is_asked_for_once (read : Features.decode told = .ok client.features)
    (needs : q.need? = some need) (talks : (client.answer q).run.Converses talk result)
    (keeps : WorksOn before talk after) :
    (¬ IsOn (told.fieldAt? need.feature need.place) →
      result = .error (.unsupported need.method) ∧ talk = [] ∧ after = before) ∧
    (IsOn (told.fieldAt? need.feature need.place) → Succeeds talk →
      (∀ path, q.path? = some path → ∃ uri, path.uri client.cwd = .ok uri) →
      q.AsksOnce client need.method before talk after) ∧
    ∀ path, q.path? = some path → (∀ uri, path.uri client.cwd ≠ .ok uri) → written talk = [] := by
  obtain ⟨inquiry, finish, made, inquires, follows⟩ := client.exists_inquiry needs
  rw [made] at talks
  rw [← offers_iff read needs]
  cases offered : client.features.offers q with
  | false =>
    rw [offered] at talks
    obtain ⟨rfl, rfl⟩ := talks
    exact ⟨fun _ => ⟨rfl, rfl, keeps⟩, nofun, fun _ _ _ => rfl⟩
  | true =>
    rw [offered] at talks
    replace talks : (inquiry >>= finish).run.Converses talk result := talks
    rcases Plan.converses_run_bind_iff.mp talks with
      ⟨e, asks, rfl⟩ | ⟨asking, value, ending, rfl, asks, ends⟩
    · refine ⟨fun off => absurd rfl off, fun _ fine named => ?_, fun path about nameless => ?_⟩
      · have once : q.AsksOnce client need.method before (talk ++ []) after :=
          asksOnce_of_inquires needs inquires named asks keeps fine nofun
        rwa [List.append_nil] at once
      · exact (inquires.written_eq_nil about nameless asks).2
    · refine ⟨fun off => absurd rfl off, fun _ fine named => ?_, fun path about nameless => ?_⟩
      · obtain ⟨between, keepsAsking, keepsEnding⟩ := worksOn_append.mp keeps
        have ends := follows value ending result ends
        obtain rfl := eq_of_worksOn (unset_of_follows ends) keepsEnding
        exact asksOnce_of_inquires needs inquires named asks keepsAsking (succeeds_append.mp fine).1
          ends
      · obtain ⟨⟨_, ⟨⟩⟩, _⟩ := inquires.written_eq_nil about nameless asks

def definitionsTold : Json := .object [("definitionProvider", .bool true)]

/-- The client of a server that tells of definitions only. -/
def definer : Client :=
  ⟨ServerConfig.ofCommand "gopls", { (default : Features) with definition := true }, .ofString "/"⟩

theorem decode_definitionsTold : Features.decode definitionsTold = .ok definer.features := rfl

theorem isOn_definitionsTold : IsOn (definitionsTold.fieldAt? "definitionProvider" 7) :=
  ⟨.bool true, rfl, nofun, nofun⟩

section Opening

attribute [local irreducible] Path.uri

variable {path : Path} {uri : Uri}

/-- What is done to open a document that the server does not know. -/
def openingTalk (client : Client) (path : Path) (uri : Uri) (text : String) : Deeds :=
  [⟨.enterDocuments, ()⟩, ⟨.document path, none⟩, ⟨.leaveDocuments, ()⟩,
    ⟨.readText path, .ok text⟩, ⟨.enterDocuments, ()⟩, ⟨.arrivals, (0 : Nat)⟩,
    ⟨.document path, none⟩, ⟨.enterWriter, ()⟩, ⟨.writerOpen, true⟩,
    ⟨.write (openMessage uri (client.languageOf path) text), .ok ()⟩, ⟨.leaveWriter, ()⟩,
    ⟨.setDocument path ⟨1, text, 0⟩, ()⟩, ⟨.leaveDocuments, ()⟩]

theorem converses_ensureOpen_of_missing (named : path.uri client.cwd = .ok uri) (text : String) :
    (client.ensureOpen path).run.Converses (openingTalk client path uri text) (.ok ()) := by
  have opens : (client.sendOpen path uri text 0).run.Converses
      [⟨.enterWriter, ()⟩, ⟨.writerOpen, true⟩,
        ⟨.write (openMessage uri (client.languageOf path) text), .ok ()⟩, ⟨.leaveWriter, ()⟩,
        ⟨.setDocument path ⟨1, text, 0⟩, ()⟩] (.ok ()) :=
    ⟨(), _, rfl, true, _, rfl, .ok (), _, rfl, (), _, rfl, (), _, rfl, rfl, rfl⟩
  have sends : (client.sendText path text).run.Converses
      ((openingTalk client path uri text).drop 4) (.ok ()) := by
    rw [Client.sendText, Attempt.run_withDocuments]
    refine ⟨(), _, rfl, Plan.converses_bind_iff.mpr
      ⟨((openingTalk client path uri text).drop 5).take 7, .ok (), _, rfl, ?_, (), _, rfl, rfl, rfl⟩⟩
    refine Plan.converses_run_bind_iff.mpr
      (.inr ⟨[⟨.arrivals, (0 : Nat)⟩], 0, _, rfl, ⟨0, _, rfl, rfl, rfl⟩, ?_⟩)
    exact Plan.converses_except_bind_iff.mpr (.inr ⟨uri, named, none, _, rfl, opens⟩)
  exact ⟨(), _, rfl, none, _, rfl, (), _, rfl, .ok text, _, rfl, sends⟩

/-- What is done to ask a server that has nothing to answer. -/
def askingTalk (client : Client) (method : String) (params : Json) : Deeds :=
  [⟨.register, (2 : Nat)⟩, ⟨.enterWriter, ()⟩, ⟨.writerOpen, true⟩,
    ⟨.write (Outgoing.request 2 method (some params)).bytes, .ok ()⟩, ⟨.leaveWriter, ()⟩,
    ⟨.now, (0 : Nat)⟩,
    ⟨.await 2 (0 + client.config.requestTimeoutSecs * 1000), .answered ⟨none, none⟩⟩,
    ⟨.forget 2, ()⟩]

/-- What is done to ask for a definition in a document that the server does not know. -/
def definingTalk (client : Client) (path : Path) (uri : Uri) (position : Position) (text : String) :
    Deeds :=
  openingTalk client path uri text ++ askingTalk client "textDocument/definition"
    (.ofMembers [("textDocument", .ofMembers [("uri", .string uri.text)]),
      ("position", position.toJson)])

variable (position : Position) (text : String)

theorem converses_definingTalk (offers : client.features.definition = true)
    (named : path.uri client.cwd = .ok uri) :
    (client.answer (.definition path position)).run.Converses
      (definingTalk client path uri position text) (.ok ([] : List Location)) := by
  refine Plan.converses_run_bind_iff.mpr (.inr ⟨[], (), _, rfl, ?_, ?_⟩)
  · rw [offers]
    exact ⟨rfl, rfl⟩
  refine Plan.converses_run_bind_iff.mpr
    (.inr ⟨_, (), _, rfl, converses_ensureOpen_of_missing named text, ?_⟩)
  refine Plan.converses_run_bind_iff.mpr
    (.inr ⟨_, .null, [], (List.append_nil _).symm, ?_, rfl, rfl⟩)
  exact Plan.converses_except_bind_iff.mpr (.inr ⟨_, Client.documentMember_of_named named,
    Attempt.converses_request_iff.mpr (.awaited 2 0 (.answered ⟨none, none⟩))⟩)

theorem succeeds_definingTalk : Succeeds (definingTalk client path uri position text) := by
  simp [Succeeds, definingTalk, openingTalk, askingTalk, Fails]

theorem worksOn_definingTalk : WorksOn .empty (definingTalk client path uri position text)
    (PathTable.empty.set path ⟨1, text, 0⟩) := ⟨rfl, rfl, rfl⟩

/-- A file without a URI is read all the same, but the server is not told of it. -/
def namelessTalk (path : Path) (text : String) : Deeds :=
  [⟨.enterDocuments, ()⟩, ⟨.document path, none⟩, ⟨.leaveDocuments, ()⟩,
    ⟨.readText path, .ok text⟩, ⟨.enterDocuments, ()⟩, ⟨.arrivals, (0 : Nat)⟩,
    ⟨.leaveDocuments, ()⟩]

theorem converses_namelessTalk {e : ServerError} (offers : client.features.definition = true)
    (failed : path.uri client.cwd = .error e) :
    (client.answer (.definition path position)).run.Converses (namelessTalk path text) (.error e) := by
  have sends : (client.sendText path text).run.Converses
      [⟨.enterDocuments, ()⟩, ⟨.arrivals, (0 : Nat)⟩, ⟨.leaveDocuments, ()⟩] (.error e) := by
    rw [Client.sendText, Attempt.run_withDocuments]
    refine ⟨(), _, rfl, Plan.converses_bind_iff.mpr
      ⟨[⟨.arrivals, (0 : Nat)⟩], .error e, _, rfl, ?_, (), _, rfl, rfl, rfl⟩⟩
    refine Plan.converses_run_bind_iff.mpr
      (.inr ⟨[⟨.arrivals, (0 : Nat)⟩], 0, _, rfl, ⟨0, _, rfl, rfl, rfl⟩, ?_⟩)
    exact Plan.converses_except_bind_iff.mpr (.inl ⟨e, failed, rfl, rfl⟩)
  have opens : (client.ensureOpen path).run.Converses (namelessTalk path text) (.error e) :=
    ⟨(), _, rfl, none, _, rfl, (), _, rfl, .ok text, _, rfl, sends⟩
  refine Plan.converses_run_bind_iff.mpr (.inr ⟨[], (), _, rfl, ?_, ?_⟩)
  · rw [offers]
    exact ⟨rfl, rfl⟩
  · exact Plan.converses_run_bind_iff.mpr (.inl ⟨e, opens, rfl⟩)

theorem succeeds_namelessTalk : Succeeds (namelessTalk path text) := by
  simp [Succeeds, namelessTalk, Fails]

end Opening

/-- A document is opened and then asked about. -/
theorem definition_is_asked_for : ∃ talk after,
    let q := Query.definition (.ofString "/f") .origin
    (definer.answer q).run.Converses talk (.ok ([] : List Location)) ∧ WorksOn .empty talk after ∧
      Succeeds talk ∧ q.AsksOnce definer "textDocument/definition" .empty talk after := by
  have found : ((Path.ofString "/f").uri definer.cwd).isOk = true := by decide +kernel
  obtain ⟨uri, named⟩ := isOk_iff.mp found
  generalize Path.ofString "/f" = path at named ⊢
  have talks := converses_definingTalk .origin "" rfl named
  have keeps : WorksOn .empty (definingTalk definer path uri .origin "") _ := worksOn_definingTalk ..
  have fine : Succeeds (definingTalk definer path uri .origin "") :=
    succeeds_definingTalk _ _
  have once := (feature_is_asked_for_once (q := .definition path .origin) decode_definitionsTold rfl
    talks keeps).2.1 isOn_definitionsTold fine
  have about : ∀ path', some path = some path' → ∃ uri, path'.uri definer.cwd = .ok uri := by
    rintro _ ⟨⟩
    exact ⟨uri, named⟩
  exact ⟨_, _, talks, keeps, fine, once about⟩

theorem exists_invalidUri {path cwd : Path} (refused : (path.uri cwd).isOk = false) :
    ∃ reason, path.uri cwd = .error (.invalidUri reason) := by
  unfold Path.uri at refused ⊢
  cases named : Uri.ofPath cwd path with
  | ok uri => simp [named, Except.isOk, Except.toBool] at refused
  | error e => exact ⟨_, rfl⟩

/-- A file whose name has brackets is not asked about, though it is read and nothing fails to be
sent. -/
theorem bracketed_file_is_not_asked_about : ∃ talk reason,
    IsOn (definitionsTold.fieldAt? "definitionProvider" 7) ∧
    (definer.answer (.definition (.ofString "/a[1].go") .origin)).run.Converses talk
      (.error (.invalidUri reason)) ∧
    ⟨.readText (.ofString "/a[1].go"), .ok "package a\n"⟩ ∈ talk ∧ WorksOn .empty talk .empty ∧
      Succeeds talk ∧ written talk = [] := by
  have refused : ((Path.ofString "/a[1].go").uri definer.cwd).isOk = false := by decide +kernel
  obtain ⟨reason, failed⟩ := exists_invalidUri refused
  generalize Path.ofString "/a[1].go" = path at failed ⊢
  have talks := converses_namelessTalk .origin "package a\n" rfl failed
  exact ⟨_, reason, isOn_definitionsTold, talks, by simp [namelessTalk], ⟨rfl, rfl⟩,
    succeeds_namelessTalk _, rfl⟩

end Offers

end CodeIntel

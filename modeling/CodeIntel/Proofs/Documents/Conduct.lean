import CodeIntel.Proofs.Client.Closed
import CodeIntel.Proofs.Documents.Dialogue
import CodeIntel.Proofs.Plan

namespace CodeIntel

/-- What is kept of a document is what the server was told of it. -/
inductive Agrees : Option Document → Option Copy → Prop
  | unopened : Agrees none none
  | opened {document : Document} {told : Copy}
      (version : document.version = versionAfter told.changes)
      (text : document.text = told.text) : Agrees (some document) (some told)

/-- How a query stands to a document: what is kept of it, what the server was told of it, and the
text that the query was given or has read. -/
structure Stand where
  known : Option Document
  told : Option Copy
  text? : Option String

namespace Stand

/-- What the work on a query may do that is about the document at `p`: it keeps to this document and
tells the server nothing that it may not take. Any message may fail to be sent. -/
def rule (p : Path) (uri : Uri) : Rule Deed Deed.Reply Stand
  | .readText _, goal, s =>
    (∀ cause, goal (.error cause) s) ∧ ∀ text, goal (.ok text) { s with text? := some text }
  | .document q, goal, s => q.same p = true ∧ goal s.known s
  | .setDocument q document, goal, s =>
    q.same p = true ∧ goal () { s with known := some document }
  | .writerOpen, goal, s =>
    goal true s ∧ ∃ told, Misses s.told told ∧ goal false { s with told := told }
  | .write message, goal, s =>
    (∃ told, Takes uri versionAfter s.told message told ∧ goal (.ok ()) { s with told := told }) ∧
      ∃ told, Misses s.told told ∧ ∀ e, goal (.error e) { s with told := told }
  | _, goal, s => ∀ reply, goal reply s

variable {p : Path} {uri : Uri} {s : Stand}

theorem rule_monotone : (rule p uri).Monotone := by
  intro d goal goal' weaker s h
  cases d with
  | readText q => exact ⟨fun e => weaker _ _ (h.1 e), fun text => weaker _ _ (h.2 text)⟩
  | document q => exact ⟨h.1, weaker _ _ h.2⟩
  | setDocument q document => exact ⟨h.1, weaker _ _ h.2⟩
  | writerOpen =>
    obtain ⟨isOpen, told, misses, closed⟩ := h
    exact ⟨weaker _ _ isOpen, told, misses, weaker _ _ closed⟩
  | write message =>
    obtain ⟨⟨told, takes, sent⟩, told', misses, failed⟩ := h
    exact ⟨⟨told, takes, weaker _ _ sent⟩, told', misses, fun e => weaker _ _ (failed e)⟩
  | _ => exact fun reply => weaker reply s (h reply)

/-- Anybody may enter and leave the documents. -/
theorem free (goal : Unit → Stand → Prop) (s : Stand) (h : goal () s) :
    rule p uri .enterDocuments goal s ∧ rule p uri .leaveDocuments goal s :=
  ⟨fun _ => h, fun _ => h⟩

end Stand

open Stand

variable {α β : Type} {p q : Path} {uri : Uri} {s : Stand} {client : Client} {text : String}

theorem meets_tell {method : String} {params : Json} {goal : Except ServerError Unit → Stand → Prop}
    {told told' : Option Copy}
    (takes : Takes uri versionAfter s.told (Outgoing.notification method (some params)).bytes told)
    (sent : goal (.ok ()) { s with told := told }) (misses : Misses s.told told')
    (failed : ∀ e, goal (.error e) { s with told := told' }) :
    (Attempt.notify method (some params)).run.Meets (rule p uri) goal s := by
  refine fun _ => ⟨?_, told', misses, fun _ => failed _⟩
  exact ⟨⟨told, takes, fun _ => sent⟩, told', misses, fun e _ => failed e⟩

/-- The work on a query ends with the document in agreement, and if it succeeds, the server has this
text. -/
def Settled (text : String) (s : Stand) (result : Except ServerError Unit) (s' : Stand) : Prop :=
  Agrees s'.known s'.told ∧ s'.text? = s.text? ∧
    (result = .ok () → ∃ told, s'.told = some told ∧ told.text = text)

theorem settled_sendChange {known : Document} {arrivals : Nat} {told : Copy}
    (same : q.same p = true) (kept : s.known = some known) (had : s.told = some told)
    (version : known.version = versionAfter told.changes) (texts : known.text = told.text) :
    (Client.sendChange q uri known text arrivals).run.Meets (rule p uri) (Settled text s) s := by
  unfold Client.sendChange
  split
  next equal =>
    refine ⟨?_, rfl, fun _ => ⟨told, had, texts.symm.trans equal⟩⟩
    rw [kept, had]
    exact .opened version texts
  next differs =>
    simp only [Attempt.meets_bind]
    have next : nextVersion known.version = versionAfter (told.changes + 1) := by
      rw [version]
      rfl
    have new : text ≠ told.text := fun eq => differs (texts.trans eq.symm)
    have takes : Takes uri versionAfter s.told
        (changeMessage uri (versionAfter (told.changes + 1)) text)
        (some ⟨told.changes + 1, text⟩) := had ▸ .changed new
    have misses : Misses s.told (some { told with changes := told.changes + 1 }) :=
      had ▸ .change told
    rw [next]
    refine ⟨same, meets_tell takes ⟨same, ?_⟩ misses fun e => ?_⟩
    · exact ⟨.opened rfl rfl, rfl, fun _ => ⟨_, rfl, rfl⟩⟩
    · exact ⟨.opened rfl texts, rfl, nofun⟩

theorem settled_sendOpen {arrivals : Nat} (same : q.same p = true) (unknown : s.known = none)
    (untold : s.told = none) :
    (client.sendOpen q uri text arrivals).run.Meets (rule p uri) (Settled text s) s := by
  unfold Client.sendOpen
  rw [Attempt.meets_bind]
  have takes : Takes uri versionAfter s.told (openMessage uri (client.languageOf q) text)
      (some ⟨0, text⟩) := untold ▸ .opened _ _
  refine meets_tell takes ⟨same, ?_⟩ (.still s.told) fun e => ?_
  · exact ⟨.opened rfl rfl, rfl, fun _ => ⟨_, rfl, rfl⟩⟩
  · refine ⟨?_, rfl, nofun⟩
    rw [unknown, untold]
    exact .unopened

theorem settled_sendText (same : q.same p = true) (named : q.uri client.cwd = .ok uri)
    (agrees : Agrees s.known s.told) (text : String) :
    (client.sendText q text).run.Meets (rule p uri) (Settled text s) s := by
  refine Attempt.meets_withDocuments Stand.rule_monotone free ?_
  rw [Attempt.meets_ask_bind]
  intro arrivals
  rw [Attempt.meets_bind, Attempt.meets_except, named]
  dsimp only
  rw [Attempt.meets_ask_bind]
  refine ⟨same, ?_⟩
  generalize kept : s.known = known at agrees
  generalize had : s.told = told at agrees
  cases agrees with
  | unopened => exact settled_sendOpen same kept had
  | opened version texts => exact settled_sendChange same kept had version texts

-- What it does to send a text does not matter to what follows.
attribute [local irreducible] Client.sendText

/-- Some work leaves the document in agreement, and open if it succeeds. -/
def Opens {α : Type} (result : Except ServerError α) (s : Stand) : Prop :=
  Agrees s.known s.told ∧ (∀ a, result = .ok a → ∃ told, s.told = some told)

/-- If the work succeeds, the server has the text that was given or read. -/
def Syncs (result : Except ServerError Unit) (s : Stand) : Prop :=
  Agrees s.known s.told ∧ (result = .ok () → ∃ told, s.told = some told ∧ s.text? = some told.text)

theorem syncs_sync (same : q.same p = true) (named : q.uri client.cwd = .ok uri)
    (agrees : Agrees s.known s.told) :
    (client.sync q).run.Meets (rule p uri) Syncs s := by
  unfold Client.sync
  rw [Attempt.meets_ask_bind]
  refine ⟨fun cause => ⟨agrees, nofun⟩, fun text => ?_⟩
  have sent := settled_sendText (s := { s with text? := some text }) same named agrees text
  refine sent.mono Stand.rule_monotone fun result s' settled => ?_
  obtain ⟨agrees', text?, ends⟩ := settled
  refine ⟨agrees', fun ok => ?_⟩
  obtain ⟨told, some, eq⟩ := ends ok
  exact ⟨told, some, text?.trans (congrArg _ eq.symm)⟩

theorem opens_ensureOpen (same : q.same p = true) (named : q.uri client.cwd = .ok uri)
    (agrees : Agrees s.known s.told) :
    (client.ensureOpen q).run.Meets (rule p uri) Opens s := by
  unfold Client.ensureOpen
  rw [Attempt.meets_bind]
  refine Attempt.meets_withDocuments Stand.rule_monotone free ⟨same, ?_⟩
  cases kept : s.known with
  | some known =>
    refine ⟨agrees, fun _ _ => ?_⟩
    rw [kept] at agrees
    cases had : s.told with
    | none => rw [had] at agrees; cases agrees
    | some told => exact ⟨told, rfl⟩
  | none =>
    have opens : (client.sync q).run.Meets (rule p uri) Opens s := by
      refine (syncs_sync same named agrees).mono Stand.rule_monotone fun result s' syncs => ?_
      refine ⟨syncs.1, fun a ok => ?_⟩
      obtain ⟨told, some, _⟩ := syncs.2 ok
      exact ⟨told, some⟩
    exact opens

/-- Whether a deed only makes requests of the server, and looks at no other document. -/
def Deed.Inquires (p : Path) : Deed → Prop
  | .document q => q.same p = true
  | .write message => ∃ id method params, message = (Outgoing.request id method params).bytes
  | .readText _ | .setDocument .. | .closeWriter => False
  | _ => True

theorem closed_inquires (p : Path) :
    Closed (Deed.Inquires p) (fun _ => True) fun x => x.run.Asks (Deed.Inquires p) := by
  have plain : ∀ d : Deed, d.IsPlain → d.Inquires p := fun d plain => by
    cases d <;> first | exact plain.elim | trivial
  exact closed_asks plain trivial trivial (fun id method params _ => ⟨id, method, _, rfl⟩) trivial

/-- An open document may be asked about. -/
theorem meets_of_inquires {work : Work α} {goal : α → Stand → Prop} {told : Copy}
    (asks : work.Asks (Deed.Inquires p)) (isOpen : s.told = some told) (h : ∀ a, goal a s) :
    work.Meets (rule p uri) goal s := by
  induction work with
  | done a => exact h a
  | ask d next ih =>
    obtain ⟨inquires, later⟩ := asks
    have rest (reply : d.Reply) := ih reply (later reply)
    cases d with
    | document q => exact ⟨inquires, rest _⟩
    | writerOpen => exact ⟨rest true, s.told, .still _, rest false⟩
    | write message =>
      obtain ⟨id, method, params, rfl⟩ := inquires
      refine ⟨⟨s.told, ?_, rest _⟩, s.told, .still _, fun e => rest _⟩
      rw [isOpen]
      exact .asked told id method params
    | readText | setDocument | closeWriter => exact inquires.elim
    | _ => exact rest

attribute [local irreducible] Client.ensureOpen Client.sync

theorem meets_require {supported : Bool} {method : String} {x : Attempt α}
    {goal : Except ServerError α → Stand → Prop} (h : x.run.Meets (rule p uri) goal s)
    (fails : ∀ e, goal (.error e) s) :
    (Client.require supported method >>= fun _ => x).run.Meets (rule p uri) goal s := by
  cases supported with
  | true => exact h
  | false => exact fails _

/-- Once the document is open, what only asks about it does no more to it. -/
theorem meets_opens_bind {x : Attempt α} {f : α → Attempt β}
    (opens : x.run.Meets (rule p uri) Opens s) (rest : ∀ a, (f a).run.Asks (Deed.Inquires p)) :
    (x >>= f).run.Meets (rule p uri) (fun _ s => Agrees s.known s.told) s := by
  rw [Attempt.meets_bind]
  refine opens.mono Stand.rule_monotone fun result s' opened => ?_
  cases result with
  | ok a =>
    obtain ⟨told, isOpen⟩ := opened.2 a rfl
    exact meets_of_inquires (rest a) isOpen fun _ => opened.1
  | error e => exact opened.1

-- How a path becomes a URI and how replies are read does not matter to what is asked.
attribute [local irreducible] Path.uri readReport readLenses readTargets readReferences
  localLocations readDocumentSymbols

/-- A query that is not there to tell the server a text tells it one only to open the document. -/
theorem meets_answer {query : Query} (about : query.path? = some q) (looks : ¬ query.Syncs)
    (same : q.same p = true) (named : q.uri client.cwd = .ok uri)
    (agrees : Agrees s.known s.told) :
    (client.answer query).run.Meets (rule p uri) (fun _ s => Agrees s.known s.told) s := by
  have opens : (client.ensureOpen q).run.Meets (rule p uri) Opens s :=
    opens_ensureOpen same named agrees
  have closed := closed_inquires p
  have everyUri : ∀ uri, q.uri client.cwd = .ok uri → True := fun _ _ => trivial
  cases query with
  | sync path => exact absurd trivial looks
  | changed path text => exact absurd trivial looks
  | workspaceSymbols query => cases about
  | execute command => cases about
  | definition path position =>
    cases about
    have rest (_ : Unit) := closed.definitionOfOpen client everyUri position
    exact meets_require (meets_opens_bind opens rest) fun _ => agrees
  | references path position declaration =>
    cases about
    have rest (_ : Unit) := closed.referencesOfOpen client everyUri position declaration
    exact meets_require (meets_opens_bind opens rest) fun _ => agrees
  | documentSymbols path =>
    cases about
    have rest (_ : Unit) := closed.symbolsOfOpen client everyUri
    exact meets_require (meets_opens_bind opens rest) fun _ => agrees
  | diagnostics path =>
    cases about
    have rest (_ : Unit) := closed.diagnosticsOfOpen client trivial trivial same everyUri
    exact meets_opens_bind opens rest
  | codeLenses path =>
    cases about
    change (client.codeLenses q).run.Meets _ _ _
    unfold Client.codeLenses
    split
    · exact agrees
    next canResolve _ =>
      have rest (_ : Unit) := closed.lensesOfOpen client everyUri canResolve
      exact meets_opens_bind opens rest

/-- How the work on a query leaves the document. -/
def Ends (query : Query) (result : Except ServerError Unit) (s : Stand) : Prop :=
  Agrees s.known s.told ∧ (query.Syncs → result = .ok () →
    ∃ told, s.told = some told ∧ s.text? = some told.text)

theorem meets_work {query : Query} (about : query.path? = some q) (same : q.same p = true)
    (named : q.uri client.cwd = .ok uri) (agrees : Agrees s.known s.told)
    (given : ∀ path text, query = .changed path text → s.text? = some text) :
    (Dialogue.work client query).Meets (rule p uri) (Ends query) s := by
  unfold Dialogue.work
  rw [Attempt.meets_bind]
  by_cases syncs : query.Syncs
  · cases query with
    | sync path =>
      cases about
      have synced : (client.sync q).run.Meets (rule p uri) Syncs s := syncs_sync same named agrees
      refine Plan.Meets.mono Stand.rule_monotone synced fun result s' ended => ?_
      cases result with
      | ok _ => exact ⟨ended.1, fun _ _ => ended.2 rfl⟩
      | error e => exact ⟨ended.1, nofun⟩
    | changed path text =>
      cases about
      have sent : (client.sendText q text).run.Meets (rule p uri) (Settled text s) s :=
        settled_sendText same named agrees text
      refine Plan.Meets.mono Stand.rule_monotone sent fun result s' ended => ?_
      cases result with
      | ok _ =>
        refine ⟨ended.1, fun _ _ => ?_⟩
        obtain ⟨told, some, eq⟩ := ended.2.2 rfl
        exact ⟨told, some, (ended.2.1.trans (given q text rfl)).trans (congrArg _ eq.symm)⟩
      | error e => exact ⟨ended.1, nofun⟩
    | _ => exact syncs.elim
  · have answered := meets_answer about syncs same named agrees
    refine answered.mono Stand.rule_monotone fun result s' agrees => ?_
    cases result with
    | ok _ => exact ⟨agrees, fun h => absurd h syncs⟩
    | error e => exact ⟨agrees, fun h => absurd h syncs⟩

end CodeIntel

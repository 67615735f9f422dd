import CodeIntel.Proofs.Client.Closed

namespace CodeIntel

/-- What is done and answered in the course of the work on a query. -/
abbrev Deeds := List ((d : Deed) × d.Reply)

/-- Whether all may be done that it takes to tell the server of a document. -/
structure MayTell (may : Deed → Prop) (p cwd : Path) : Prop where
  reads : may (.readText p)
  counts : may .arrivals
  enters : may .enterDocuments
  leaves : may .leaveDocuments
  looks : may (.document p)
  keeps : ∀ document, may (.setDocument p document)
  entersWriter : may .enterWriter
  looksAtWriter : may .writerOpen
  leavesWriter : may .leaveWriter
  opens : ∀ {uri : Uri}, p.uri cwd = .ok uri → ∀ language text : String,
    may (.write (Outgoing.notification "textDocument/didOpen"
      (some (Client.openParams uri language text))).bytes)
  changes : ∀ {uri : Uri}, p.uri cwd = .ok uri → ∀ (version : Int) (text : String),
    may (.write (Outgoing.notification "textDocument/didChange"
      (some (Client.changeParams uri version text))).bytes)

namespace MayTell

-- How a path becomes a URI does not matter to what is done.
attribute [local irreducible] Path.uri

variable {may : Deed → Prop} {client : Client} {p : Path} {uri : Uri}

theorem asks_ask {d : Deed} (allowed : may d) : (Attempt.ask d).run.Asks may :=
  ⟨allowed, fun _ => trivial⟩

theorem asks_withDocuments (tell : MayTell may p client.cwd) {α : Type} {x : Attempt α}
    (h : x.run.Asks may) : (Attempt.withDocuments x).run.Asks may := by
  rw [Attempt.run_withDocuments]
  exact ⟨tell.enters, fun _ => h.bind fun result => ⟨tell.leaves, fun _ => trivial⟩⟩

theorem sendChange (tell : MayTell may p client.cwd) (named : p.uri client.cwd = .ok uri)
    (known : Document) (text : String) (arrivals : Nat) :
    (Client.sendChange p uri known text arrivals).run.Asks may := by
  unfold Client.sendChange
  split
  · trivial
  · refine Plan.asks_run_bind (asks_ask (tell.keeps _)) fun _ => ?_
    refine Plan.asks_run_bind ?_ fun _ => asks_ask (tell.keeps _)
    exact Attempt.asks_send tell.entersWriter tell.looksAtWriter (tell.changes named _ text)
      tell.leavesWriter

theorem sendOpen (tell : MayTell may p client.cwd) (named : p.uri client.cwd = .ok uri)
    (text : String) (arrivals : Nat) : (client.sendOpen p uri text arrivals).run.Asks may := by
  refine Plan.asks_run_bind ?_ fun _ => asks_ask (tell.keeps _)
  exact Attempt.asks_send tell.entersWriter tell.looksAtWriter (tell.opens named _ text)
    tell.leavesWriter

theorem sendText (tell : MayTell may p client.cwd) (text : String) :
    (client.sendText p text).run.Asks may := by
  refine tell.asks_withDocuments ?_
  refine Plan.asks_run_bind (asks_ask tell.counts) fun arrivals => ?_
  refine Plan.asks_run_except_bind fun uri named => ?_
  refine Plan.asks_run_bind (asks_ask tell.looks) fun known => ?_
  cases known with
  | some known => exact tell.sendChange named known text arrivals
  | none => exact tell.sendOpen named text arrivals

theorem sync (tell : MayTell may p client.cwd) : (client.sync p).run.Asks may := by
  refine Plan.asks_run_bind (asks_ask tell.reads) fun text => ?_
  cases text with
  | ok text => exact tell.sendText text
  | error e => trivial

theorem ensureOpen (tell : MayTell may p client.cwd) : (client.ensureOpen p).run.Asks may := by
  refine Plan.asks_run_bind (tell.asks_withDocuments (asks_ask tell.looks)) fun known => ?_
  cases known with
  | some known => trivial
  | none => exact tell.sync

end MayTell

namespace Client

/-- A document that the server knows is not told to it again. -/
theorem converses_ensureOpen_of_known (client : Client) (path : Path) (known : Document) :
    (client.ensureOpen path).run.Converses
      [⟨.enterDocuments, ()⟩, ⟨.document path, some known⟩, ⟨.leaveDocuments, ()⟩] (.ok ()) :=
  ⟨(), _, rfl, some known, _, rfl, (), _, rfl, rfl, rfl⟩

/-- Nor is its text, if it is the one that the server knows. -/
theorem converses_sync_of_unchanged {client : Client} {path : Path} {uri : Uri}
    (named : path.uri client.cwd = .ok uri) (known : Document) (arrivals : Nat) :
    (client.sync path).run.Converses
      [⟨.readText path, .ok known.text⟩, ⟨.enterDocuments, ()⟩, ⟨.arrivals, arrivals⟩,
        ⟨.document path, some known⟩, ⟨.leaveDocuments, ()⟩] (.ok ()) := by
  have unchanged : (sendChange path uri known known.text arrivals).run.Converses [] (.ok ()) := by
    rw [sendChange, if_pos rfl]
    exact ⟨rfl, rfl⟩
  have sends : (client.sendText path known.text).run.Converses
      [⟨.enterDocuments, ()⟩, ⟨.arrivals, arrivals⟩, ⟨.document path, some known⟩,
        ⟨.leaveDocuments, ()⟩] (.ok ()) := by
    rw [sendText, Attempt.run_withDocuments]
    refine ⟨(), _, rfl, Plan.converses_bind_iff.mpr ⟨[⟨.arrivals, arrivals⟩,
      ⟨.document path, some known⟩], .ok (), _, rfl, ?_, (), _, rfl, rfl, rfl⟩⟩
    refine Plan.converses_run_bind_iff.mpr
      (.inr ⟨[⟨.arrivals, arrivals⟩], arrivals, _, rfl, ⟨arrivals, _, rfl, rfl, rfl⟩, ?_⟩)
    exact Plan.converses_except_bind_iff.mpr (.inr ⟨uri, named, some known, _, rfl, unchanged⟩)
  exact ⟨.ok known.text, _, rfl, sends⟩

end Client

end CodeIntel

namespace CodeIntel

namespace Attempt

/-- How a request goes: the stream to the server is closed, the request cannot be written, or
something becomes of the answer to it. -/
inductive Requesting (method : String) (params : Json) (timeout : Nat) :
    Deeds → Except ServerError Json → Prop
  | closed (id : Nat) :
      Requesting method params timeout
        [⟨.register, id⟩, ⟨.enterWriter, ()⟩, ⟨.writerOpen, false⟩, ⟨.leaveWriter, ()⟩,
          ⟨.forget id, ()⟩]
        (.error (.connectionLost "Transport closed"))
  | unwritten (id : Nat) (e : ServerError) :
      Requesting method params timeout
        [⟨.register, id⟩, ⟨.enterWriter, ()⟩, ⟨.writerOpen, true⟩,
          ⟨.write (Outgoing.request id method (some params)).bytes, .error e⟩, ⟨.leaveWriter, ()⟩,
          ⟨.forget id, ()⟩]
        (.error e)
  | awaited (id start : Nat) (awaited : Awaited) :
      Requesting method params timeout
        [⟨.register, id⟩, ⟨.enterWriter, ()⟩, ⟨.writerOpen, true⟩,
          ⟨.write (Outgoing.request id method (some params)).bytes, .ok ()⟩, ⟨.leaveWriter, ()⟩,
          ⟨.now, start⟩, ⟨.await id (start + timeout), awaited⟩, ⟨.forget id, ()⟩]
        (readAnswer method timeout awaited)

variable {method : String} {params : Json} {timeout : Nat} {talk : Deeds}

/-- What has become of a request decides how it ends. -/
theorem Requesting.of_awaited {id deadline : Nat} {awaited : Awaited}
    {result : Except ServerError Json} (asks : Requesting method params timeout talk result)
    (mem : ⟨.await id deadline, awaited⟩ ∈ talk) :
    ⟨.write (Outgoing.request id method (some params)).bytes, .ok ()⟩ ∈ talk ∧
      result = readAnswer method timeout awaited := by
  cases asks with
  | closed | unwritten => simp at mem
  | awaited number start awaited' =>
    obtain ⟨⟨rfl, -⟩, rfl⟩ : (id = number ∧ deadline = start + timeout) ∧ awaited = awaited' := by
      simpa using mem
    exact ⟨by simp, rfl⟩

/-- A message is written unless the stream is found closed. -/
theorem sent_of_converses {message : Outgoing} {result : Except ServerError Unit}
    (talks : (send message).run.Converses talk result) :
    (talk = [⟨.enterWriter, ()⟩, ⟨.writerOpen, false⟩, ⟨.leaveWriter, ()⟩] ∧
      result = .error (.connectionLost "Transport closed")) ∨
    talk = [⟨.enterWriter, ()⟩, ⟨.writerOpen, true⟩, ⟨.write message.bytes, result⟩,
      ⟨.leaveWriter, ()⟩] := by
  obtain ⟨⟨⟩, _, rfl, isOpen, _, rfl, rest⟩ := talks
  cases isOpen with
  | false =>
    obtain ⟨⟨⟩, _, rfl, rfl, rfl⟩ := rest
    exact .inl ⟨rfl, rfl⟩
  | true =>
    obtain ⟨wrote, _, rfl, ⟨⟩, _, rfl, ends⟩ := rest
    cases wrote <;> (obtain ⟨rfl, rfl⟩ := ends; exact .inr rfl)

theorem run_request (method : String) (params : Option Json) (timeout : Nat) :
    (request method params timeout).run = .ask .register fun number =>
      (exchange number method params timeout).run.bind fun result =>
        .ask (.forget number) fun _ => .done result :=
  congrArg (Plan.ask Deed.register) (funext fun _ => ExceptT.run_bind_lift _ _)

/-- A request goes in these ways only, and it may go in each. -/
theorem converses_request_iff {result : Except ServerError Json} :
    (request method (some params) timeout).run.Converses talk result ↔
      Requesting method params timeout talk result := by
  rw [run_request]
  constructor
  · intro talks
    obtain ⟨id, _, rfl, talks⟩ := talks
    obtain ⟨during, outcome, _, rfl, exchanges, ⟨⟩, _, rfl, rfl, rfl⟩ :=
      Plan.converses_bind_iff.mp talks
    rcases Plan.converses_run_bind_iff.mp exchanges with
      ⟨e, sends, rfl⟩ | ⟨_, ⟨⟩, _, rfl, sends, awaits⟩
    · rcases sent_of_converses sends with ⟨rfl, ⟨⟩⟩ | rfl
      · exact .closed id
      · exact .unwritten id e
    · rcases sent_of_converses sends with ⟨_, ⟨⟩⟩ | rfl
      obtain ⟨start, _, rfl, awaited, _, rfl, rfl, rfl⟩ := awaits
      exact .awaited id start awaited
  · intro asks
    cases asks with
    | closed id =>
      exact ⟨id, _, rfl, (), _, rfl, false, _, rfl, (), _, rfl, (), _, rfl, rfl, rfl⟩
    | unwritten id e =>
      exact ⟨id, _, rfl, (), _, rfl, true, _, rfl, .error e, _, rfl, (), _, rfl, (), _, rfl, rfl,
        rfl⟩
    | awaited id start awaited =>
      exact ⟨id, _, rfl, (), _, rfl, true, _, rfl, .ok (), _, rfl, (), _, rfl, start, _, rfl,
        awaited, _, rfl, (), _, rfl, rfl, rfl⟩

end Attempt

namespace Client

/-- How a request of a client goes. -/
abbrev Requesting (client : Client) (method : String) (params : Json) :
    Deeds → Except ServerError Json → Prop :=
  Attempt.Requesting method params (client.config.requestTimeoutSecs * 1000)

theorem documentMember_of_named {client : Client} {path : Path} {uri : Uri}
    (named : path.uri client.cwd = .ok uri) : client.documentMember path =
      .ok ("textDocument", .ofMembers [("uri", .string uri.text)]) := by
  rw [documentMember, named]
  rfl

end Client

end CodeIntel

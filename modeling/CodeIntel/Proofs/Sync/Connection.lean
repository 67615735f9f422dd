import CodeIntel.Proofs.Link.Table
import CodeIntel.Proofs.Sync.Queries

namespace CodeIntel

/-- Whether the reader tells the server nothing of a document while it answers. -/
def Reader.Silent (p cwd : Path) : Reader → Prop
  | replying work => work.Asks (Deed.Apart p cwd)
  | reading | ended => True

namespace Link

/-- The connection works, and only queries tell the server of a document. -/
structure Works (p cwd : Path) (link : Link) : Prop where
  taken : link.taken = true
  writable : link.writable = true
  silent : link.reader.Silent p cwd

/-- The documents stay as they are, and the connection goes on to work. -/
structure SameDocuments (link link' : Link) : Prop where
  documents : link'.documents = link.documents
  taken : link'.taken = link.taken
  writable : link'.writable = link.writable
  reader : link'.reader = link.reader

variable {α : Type} {p cwd : Path} {D : String → Prop} {link link' : Link} {m : Moment}
  {self : Holder} {sent : List (List UInt8)} {told : Option String}

theorem SameDocuments.refl (link : Link) : SameDocuments link link := ⟨rfl, rfl, rfl, rfl⟩

theorem Works.congr (works : link.Works p cwd) (same : SameDocuments link link') :
    link'.Works p cwd :=
  ⟨same.taken.trans works.taken, same.writable.trans works.writable, same.reader ▸ works.silent⟩

theorem sameDocuments_write (link : Link) (bytes : List UInt8) :
    SameDocuments link (link.write bytes).1 := by
  unfold write
  split <;> exact ⟨rfl, rfl, rfl, rfl⟩

theorem write_of_taken (taken : link.taken = true) (bytes : List UInt8) :
    (link.write bytes).2 = none ∨ (link.write bytes).2 = some (.ok ()) := by
  unfold write
  rw [taken]
  simp only [Bool.not_true, Bool.false_eq_true, ↓reduceIte]
  split
  · exact .inr rfl
  · exact .inl rfl

theorem sameDocuments_perform (link : Link) (m : Moment) (self : Holder) {d : Deed}
    (h : d.Apart p cwd) : SameDocuments link (link.perform m self d).1 := by
  cases d with
  | readText | setDocument | closeWriter => exact h.elim
  | write bytes => exact sameDocuments_write link bytes
  | await n deadline =>
    rw [perform_await]
    split
    · exact .refl link
    · split <;> exact .refl link
  | update seen deadline =>
    rw [perform_update]
    split <;> exact .refl link
  | _ => exact ⟨rfl, rfl, rfl, rfl⟩

theorem lastTold_sends {d : Deed} (apart : d.Apart p cwd) (next : d.Reply → Work α)
    (last : LastTold p cwd sent told) : LastTold p cwd (link.sends (.ask d next) ++ sent) told := by
  cases d with
  | write message =>
    simp only [sends]
    split
    · exact .other apart last
    · exact last
  | _ => exact last

section Advance

variable {goal : α → View → Prop} {rule : Rule Deed Deed.Reply View}

/-- Some work takes a step and goes on as it may. -/
structure Advances (p cwd : Path) (rule : Rule Deed Deed.Reply View) (goal : α → View → Prop)
    (link : Link) (m : Moment) (id : Holder) (work : Work α) (told : Option String) : Prop where
  works : (link.advance m id work).1.Works p cwd
  meets : (link.advance m id work).2.1.Meets rule goal
    ⟨(link.advance m id work).1.documents.get? p, told⟩

theorem advances_of_apart {d : Deed} {next : d.Reply → Work α} (works : link.Works p cwd)
    (apart : d.Apart p cwd)
    (waits : (Plan.ask d next).Meets rule goal ⟨link.documents.get? p, told⟩)
    (rest : ∀ reply, (link.perform m self d).2 = some reply →
      (next reply).Meets rule goal ⟨link.documents.get? p, told⟩) :
    Advances p cwd rule goal link m self (.ask d next) told := by
  have same := sameDocuments_perform link m self apart
  obtain ⟨after, work⟩ := advance_ask link m self d next
  refine ⟨after ▸ works.congr same, ?_⟩
  rw [after, work, same.documents]
  cases reply : (link.perform m self d).2 with
  | none => exact waits
  | some reply' => exact rest reply' reply

theorem advances_write {message : List UInt8} {next : Except ServerError Unit → Work α}
    (works : link.Works p cwd) (last : LastTold p cwd sent told)
    (meets : (Plan.ask (.write message) next : Work α).Meets (View.rule p cwd D) goal
      ⟨link.documents.get? p, told⟩) :
    ∃ told', LastTold p cwd (link.sends (.ask (.write message) next) ++ sent) told' ∧
      Advances p cwd (View.rule p cwd D) goal link m self (.ask (.write message) next) told' := by
  have same := sameDocuments_write link message
  obtain ⟨after, work⟩ := advance_ask link m self (.write message) next
  have works' : (link.advance m self (.ask (.write message) next)).1.Works p cwd :=
    after ▸ works.congr same
  have documents :
      (link.advance m self (.ask (.write message) next)).1.documents = link.documents :=
    (congrArg documents after).trans same.documents
  rw [sends_write]
  obtain unfinished | finished := write_of_taken works.taken message
  · rw [unfinished]
    refine ⟨told, last, works', ?_⟩
    have waits : (link.perform m self (.write message)).2 = none := unfinished
    rw [work, waits, documents]
    exact meets
  · rw [finished]
    have replies : (link.perform m self (.write message)).2 = some (.ok ()) := finished
    by_cases tells : ∃ text, Tells p cwd text message
    · obtain ⟨text, tells⟩ := tells
      refine ⟨some text, .told tells, works', ?_⟩
      rw [work, replies, documents]
      exact meets.1 text tells
    · have silent : ∀ text, ¬ Tells p cwd text message := fun text h => tells ⟨text, h⟩
      refine ⟨told, .other silent last, works', ?_⟩
      rw [work, replies, documents]
      exact meets.2 silent

/-- A step of the work on a query is one that the rule allows, and its messages go on record. -/
theorem advances_of_meets (m : Moment) (self : Holder) (works : link.Works p cwd)
    (reads : ∀ text, m.files.readText (m.cwd.join p) = .ok text → D text)
    (last : LastTold p cwd sent told) {work : Work α}
    (meets : work.Meets (View.rule p cwd D) goal ⟨link.documents.get? p, told⟩) :
    ∃ told', LastTold p cwd (link.sends work ++ sent) told' ∧
      Advances p cwd (View.rule p cwd D) goal link m self work told' := by
  cases work with
  | done a => exact ⟨told, last, works, meets⟩
  | ask d next =>
    cases d with
    | write message => exact advances_write works last meets
    | readText q =>
      obtain ⟨rfl, fails, holds⟩ := meets
      refine ⟨told, last, works, ?_⟩
      change (next (m.files.readText (m.cwd.join q))).Meets _ _ _
      cases read : m.files.readText (m.cwd.join q) with
      | error cause => exact fails cause
      | ok text => exact holds text (reads text read)
    | setDocument q document =>
      obtain ⟨rfl, rest⟩ := meets
      have kept : (link.documents.set q document).get? q = some document :=
        PathTable.get?_set_of_same _ (by simp [Path.same]) document
      refine ⟨told, last, ⟨works.taken, works.writable, works.silent⟩, ?_⟩
      change (next ()).Meets _ _ (View.mk ((link.documents.set q document).get? q) told)
      rw [kept]
      exact rest
    | document q =>
      obtain ⟨rfl, rest⟩ := meets
      exact ⟨told, last, works, rest⟩
    | writerOpen =>
      refine ⟨told, last, works, ?_⟩
      change (next link.writable).Meets _ _ _
      rw [works.writable]
      exact meets
    | closeWriter => exact meets.elim
    | _ => exact ⟨told, last, advances_of_apart works trivial meets fun reply _ => meets reply⟩

end Advance

theorem lastTold_readerSends (works : link.Works p cwd) (last : LastTold p cwd sent told) :
    LastTold p cwd (link.readerSends ++ sent) told := by
  have silent := works.silent
  unfold readerSends
  split
  next work replying =>
    rw [replying] at silent
    cases work with
    | done => exact last
    | ask d next => exact lastTold_sends silent.1 next last
  next => exact last

theorem sameDocuments_deliver (link : Link) (n : Nat) (answer : Answer) :
    SameDocuments link (link.deliver n answer) := by
  unfold deliver
  split <;> exact ⟨rfl, rfl, rfl, rfl⟩

/-- A request of the server is answered; the answer is no notification. -/
theorem receive_request (link : Link) (id : Json) (method : String) (params : Option Json) :
    ∃ reply : Outgoing, (∀ method params, reply ≠ .notification method params) ∧
      link.receive (.request id method params) =
        { link with reader := .replying (Attempt.send reply).run } := by
  cases replied : replyToServer method params with
  | ok value =>
    refine ⟨.result id value, fun _ _ eq => Outgoing.noConfusion eq, ?_⟩
    simp only [receive, replied]
  | error e =>
    refine ⟨.failure id e, fun _ _ eq => Outgoing.noConfusion eq, ?_⟩
    simp only [receive, replied]

theorem works_receive (works : link.Works p cwd) (message : Incoming) :
    (link.receive message).Works p cwd ∧ (link.receive message).documents = link.documents := by
  cases message with
  | answer id answer =>
    by_cases isNumber : ∃ n : Nat, id = .nat n
    · obtain ⟨n, rfl⟩ := isNumber
      have same := sameDocuments_deliver link n answer
      rw [receive_answer_nat]
      exact ⟨works.congr same, same.documents⟩
    · rw [receive_answer_other link answer fun n eq => isNumber ⟨n, eq⟩]
      exact ⟨works, rfl⟩
  | request id method params =>
    obtain ⟨reply, other, eq⟩ := receive_request link id method params
    have sends : (Attempt.send reply).run.Asks (Deed.Apart p cwd) :=
      Attempt.asks_send trivial trivial (not_tells other) trivial
    rw [eq]
    exact ⟨⟨works.taken, works.writable, sends⟩, rfl⟩
  | notification method params => exact ⟨⟨works.taken, works.writable, works.silent⟩, rfl⟩

/-- The reader leaves the documents alone. -/
theorem works_readerStep (works : link.Works p cwd) (m : Moment) :
    (link.readerStep m).1.Works p cwd ∧ (link.readerStep m).1.documents = link.documents := by
  have ⟨taken, writable, silent⟩ := works
  unfold readerStep
  split
  next => exact ⟨works, rfl⟩
  next => exact ⟨⟨taken, writable, trivial⟩, rfl⟩
  next work running replying =>
    rw [replying] at silent
    cases work with
    | done result => exact absurd rfl (running result)
    | ask d next =>
      have same := sameDocuments_perform link m readerHolder silent.1
      have after := (advance_ask link m readerHolder d next).1
      have documents := (congrArg documents after).trans same.documents
      refine ⟨⟨?_, ?_, asks_advance link m readerHolder silent⟩, documents⟩
      · exact (congrArg Link.taken after).trans (same.taken.trans taken)
      · exact (congrArg Link.writable after).trans (same.writable.trans writable)
  next reading =>
    split
    next => exact ⟨works, rfl⟩
    next => exact ⟨⟨taken, writable, trivial⟩, rfl⟩
    next => exact ⟨⟨taken, writable, trivial⟩, rfl⟩
    next value rest _ =>
      have works' : ({ link with incoming := rest } : Link).Works p cwd := ⟨taken, writable, silent⟩
      simp only
      split
      next message _ => exact works_receive works' message
      next => exact ⟨works', rfl⟩

end Link

end CodeIntel

import CodeIntel.Client.Sync
import CodeIntel.Link.Step
import CodeIntel.Proofs.Client.Closed
import CodeIntel.Proofs.Link.Fate
import CodeIntel.Proofs.Plan
import Mathlib.Logic.Function.Basic
import Mathlib.Logic.Relation

namespace CodeIntel

/-- What may be done to the stream to the server, where `has` tells whether one has it: it is
entered and left, and only whole messages are written meanwhile. -/
def Holding.rule : Rule Deed Deed.Reply Bool
  | .enterWriter, goal, has => has = false ∧ goal () true
  | .leaveWriter, goal, has => has = true ∧ goal () false
  | .write bytes, goal, has =>
    has = true ∧ (∃ message : Outgoing, bytes = message.bytes) ∧ ∀ reply, goal reply true
  | .closeWriter, goal, has => has = true ∧ goal () true
  | _, goal, has => ∀ reply, goal reply has

theorem Holding.rule_monotone : Holding.rule.Monotone := by
  intro d goal goal' weaker has h
  cases d with
  | enterWriter => exact ⟨h.1, weaker _ _ h.2⟩
  | leaveWriter => exact ⟨h.1, weaker _ _ h.2⟩
  | write bytes => exact ⟨h.1, h.2.1, fun reply => weaker _ _ (h.2.2 reply)⟩
  | closeWriter => exact ⟨h.1, weaker _ _ h.2⟩
  | _ => exact fun reply => weaker _ _ (h reply)

/-- Whether a deed has nothing to do with the stream to the server. -/
def Deed.IsDry : Deed → Prop
  | enterWriter | leaveWriter | writerOpen | write _ | closeWriter => False
  | _ => True

/-- Whether a message is one that this side sends of its own accord. -/
def Outgoing.IsCall : Outgoing → Prop
  | request .. | notification .. => True
  | result .. | failure .. => False

/-- Some work that writes whole messages, while it has the stream, and does not keep the stream. -/
def Plan.Orderly {α : Type} (work : Work α) (has : Bool) : Prop :=
  work.Meets Holding.rule (fun _ has => has = false) has

namespace Attempt

variable {α β : Type}

def Orderly (x : Attempt α) : Prop := x.run.Orderly false

theorem orderly_send (message : Outgoing) : (send message).Orderly := by
  refine ⟨rfl, fun isOpen => ?_⟩
  cases isOpen with
  | true => exact ⟨rfl, ⟨message, rfl⟩, fun result => ⟨rfl, rfl⟩⟩
  | false => exact ⟨rfl, rfl⟩

/-- If dry deeds may be done outside of the stream and leave one there, so may whatever is made of
them and of messages that are written as the rule has it. -/
theorem closed_outside {rule : Rule Deed Deed.Reply Bool} (monotone : rule.Monotone)
    (dry : ∀ d : Deed, d.IsDry → ∀ goal : d.Reply → Bool → Prop,
      (∀ reply, goal reply false) → rule d goal false)
    (sends : ∀ message : Outgoing, message.IsCall →
      (send message).run.Meets rule (fun _ has => has = false) false) :
    Closed Deed.IsDry (fun _ => True) fun x => x.run.Meets rule (fun _ has => has = false) false where
  plain d plain := by
    cases d <;> first | exact plain.elim | trivial
  ask d isDry := dry d isDry _ fun _ => rfl
  send _ _ _ _ := sends _ trivial
  result _ := rfl
  bind {_ _ x f} first rest := by
    rw [meets_bind]
    refine Plan.Meets.mono monotone first fun result has left => ?_
    subst left
    cases result with
    | ok a => exact rest a
    | error e => rfl
  run h := by
    rw [meets_work]
    exact h

theorem closed_orderly : Closed Deed.IsDry (fun _ => True) Orderly := by
  refine closed_outside Holding.rule_monotone ?_ fun message _ => orderly_send message
  intro d dry goal all
  cases d <;> first | exact dry.elim | exact all

end Attempt

namespace Closed

variable {P : {α : Type} → Attempt α → Prop}

section

variable (closed : Closed Deed.IsDry (fun _ => True) P)
  (calls : ∀ message : Outgoing, message.IsCall → P (Attempt.send message)) (client : Client)

include closed calls

-- How a path becomes a URI and how replies are read does not matter to what is written.
attribute [local irreducible] Path.uri readLenses readTargets readReferences localLocations
  readDocumentSymbols

theorem anyRequest (method : String) (params : Option Json) (timeout : Nat) :
    P (Attempt.request method params timeout) :=
  closed.inquiry (fun _ => calls _ trivial) timeout

theorem sendChange (path : Path) (uri : Uri) (known : Document) (text : String) (arrivals : Nat) :
    P (Client.sendChange path uri known text arrivals) := by
  unfold Client.sendChange
  split
  · exact closed.pure ()
  · refine closed.bind (closed.ask _ trivial) fun _ => ?_
    exact closed.bind (calls _ trivial) fun _ => closed.ask _ trivial

theorem sendText (path : Path) (text : String) : P (client.sendText path text) := by
  refine closed.withDocuments trivial trivial ?_
  refine closed.bind (closed.ask _ trivial) fun arrivals => ?_
  refine closed.bind (closed.result (path.uri client.cwd)) fun uri => ?_
  refine closed.bind (closed.ask _ trivial) fun known => ?_
  cases known with
  | some known => exact closed.sendChange calls path uri known text arrivals
  | none => exact closed.bind (calls _ trivial) fun _ => closed.ask _ trivial

theorem sync (path : Path) : P (client.sync path) := by
  refine closed.bind (closed.ask _ trivial) fun text => ?_
  cases text with
  | ok text => exact closed.sendText calls client path text
  | error e => exact closed.throw _

theorem ensureOpen (path : Path) : P (client.ensureOpen path) := by
  refine closed.bind ?_ fun known => ?_
  · exact closed.withDocuments trivial trivial (closed.ask _ trivial)
  cases known with
  | some known => exact closed.pure ()
  | none => exact closed.sync calls client path

/-- What holds of dry deeds, of the calls that are sent, and of what is made of them, holds of the
work on every query. -/
theorem answer (q : Query) : P (client.answer q) := by
  cases q with
  | workspaceSymbols query => exact closed.workspaceSymbols client query
  | definition path position =>
    exact closed.bind (closed.require _ _) fun _ =>
      closed.bind (closed.ensureOpen calls client path) fun _ =>
        closed.definitionOfOpen client (fun _ _ => trivial) position
  | references path position declaration =>
    exact closed.bind (closed.require _ _) fun _ =>
      closed.bind (closed.ensureOpen calls client path) fun _ =>
        closed.referencesOfOpen client (fun _ _ => trivial) position declaration
  | documentSymbols path =>
    exact closed.bind (closed.require _ _) fun _ =>
      closed.bind (closed.ensureOpen calls client path) fun _ =>
        closed.symbolsOfOpen client fun _ _ => trivial
  | sync path => exact closed.sync calls client path
  | changed path text => exact closed.sendText calls client path text
  | diagnostics path =>
    exact closed.bind (closed.ensureOpen calls client path) fun _ =>
      closed.diagnosticsOfOpen client trivial trivial trivial fun _ _ => trivial
  | codeLenses path =>
    change P (client.codeLenses path)
    unfold Client.codeLenses
    split
    · exact closed.throw _
    · exact closed.bind (closed.ensureOpen calls client path) fun _ =>
        closed.lensesOfOpen client (fun _ _ => trivial) _
  | execute command => exact closed.execute client command

theorem start (config : ServerConfig) (root cwd : Path) (process : Json) :
    P (Client.start config root cwd process) := by
  refine closed.bind (closed.result (root.uri cwd)) fun uri => ?_
  refine closed.bind (closed.run (closed.anyRequest calls _ _ _)) fun answered => ?_
  cases answered with
  | error e => exact closed.throw _
  | ok value =>
    dsimp only
    split
    · exact closed.throw _
    · exact closed.bind (calls _ trivial) fun _ => closed.pure _

/-- What is done before the stream to the server is closed. -/
theorem shutdown (closes : P (do
      Attempt.ask .enterWriter
      Attempt.ask .closeWriter
      Attempt.ask .leaveWriter)) : P Client.shutdown :=
  closed.bind (closed.run (closed.anyRequest calls _ _ _)) fun _ =>
    closed.bind (closed.run (calls _ trivial)) fun _ => closes

end

end Closed

abbrev Task := Work (Except ServerError Unit)

/-- What may be done over a connection. -/
inductive Transaction
  | request (inquiry : Inquiry)
  | notification (method : String) (params : Option Json)
  | query (client : Client) (query : Query)
  | start (config : ServerConfig) (root cwd : Path) (process : Json)
  | shutdown

namespace Transaction

def attempt : Transaction → Attempt Unit
  | request q => do let _ ← Attempt.request q.method q.params q.timeout
  | notification method params => Attempt.notify method params
  | query client q => do let _ ← client.answer q
  | start config root cwd process => do let _ ← Client.start config root cwd process
  | shutdown => Client.shutdown

def task (transaction : Transaction) : Task := transaction.attempt.run

end Transaction

namespace Closed

/-- What holds of dry deeds, of calls, of closing the stream, and of what is made of them, holds of
all that may be done over a connection. -/
theorem attempt {P : {α : Type} → Attempt α → Prop}
    (closed : Closed Deed.IsDry (fun _ => True) P)
    (calls : ∀ message : Outgoing, message.IsCall → P (Attempt.send message))
    (closes : P (do
      Attempt.ask .enterWriter
      Attempt.ask .closeWriter
      Attempt.ask .leaveWriter)) (transaction : Transaction) : P transaction.attempt := by
  cases transaction with
  | request q => exact closed.bind (closed.anyRequest calls _ _ _) fun _ => closed.pure ()
  | notification method params => exact calls _ trivial
  | query client q => exact closed.bind (closed.answer calls client q) fun _ => closed.pure ()
  | start config root cwd process =>
    exact closed.bind (closed.start calls config root cwd process) fun _ => closed.pure ()
  | shutdown => exact closed.shutdown calls closes

end Closed

theorem Transaction.orderly_task (transaction : Transaction) : transaction.task.Orderly false :=
  Attempt.closed_orderly.attempt (fun message _ => Attempt.orderly_send message)
    ⟨rfl, rfl, rfl, rfl⟩ transaction

namespace Link

/-- Whether a write was under way and is not any more, although nothing was written. -/
def givesUp (link link' : Link) : Bool :=
  link.unwritten.isSome && link'.unwritten.isNone && link'.outgoing.length = link.outgoing.length

/-- Nobody on this side does anything to the stream to the server. -/
structure SameStream (link link' : Link) : Prop where
  writer : link'.writer = link.writer
  unwritten : link'.unwritten = link.unwritten
  reader : link'.reader = link.reader

end Link

def Reader.task? : Reader → Option Task
  | replying work => some work
  | reading | ended => none

/-- A connection with what is done over it, and all that was written to the server. -/
structure Wire where
  link : Link
  tasks : Holder → Option Task
  written : List UInt8
  /-- How many writes were given up before their end. -/
  cuts : Nat

namespace Wire

def fresh (room : Nat) : Wire := ⟨.fresh room, fun _ => none, [], 0⟩

def put (w : Wire) (h : Holder) (task? : Option Task) : Wire :=
  { w with tasks := Function.update w.tasks h task? }

/-- The connection goes on, and perhaps more is written. -/
def go (w : Wire) (link : Link) : Wire :=
  { w with
    link := link
    written := w.written ++ link.outgoing.drop w.link.outgoing.length
    cuts := w.cuts + (w.link.givesUp link).toNat }

def advance (w : Wire) (m : Moment) (h : Holder) (task : Task) : Wire :=
  (w.go (w.link.advance m h task).1).put h (some (w.link.advance m h task).2.1)

/-- What may happen next: a transaction begins, takes a step, comes to its end or is dropped, the
reader takes a step, or the server or someone else does something to the connection. -/
inductive Step : Wire → Wire → Prop
  | begin {w : Wire} {h : Holder} (other : h ≠ Link.readerHolder) (idle : w.tasks h = none)
      (transaction : Transaction) : Step w (w.put h (some transaction.task))
  | advance {w : Wire} {h : Holder} {task : Task} (under : w.tasks h = some task) (m : Moment) :
      Step w (w.advance m h task)
  | finish {w : Wire} {h : Holder} {result : Except ServerError Unit}
      (under : w.tasks h = some (.done result)) : Step w (w.put h none)
  | drop {w : Wire} {h : Holder} {task : Task} (under : w.tasks h = some task) :
      Step w ((w.go (w.link.abandon h)).put h none)
  | read {w : Wire} (m : Moment) : Step w (w.go (w.link.readerStep m).1)
  | other {w : Wire} {link : Link} (same : Link.SameStream w.link link) :
      Step w { w with link := link }

/-- What may come of a new connection that has room for so many bytes under way. -/
def Run (w : Wire) (room : Nat) : Prop := Relation.ReflTransGen Step (fresh room) w

/-- All that is at work, the reader among them. -/
def crew (w : Wire) : Holder → Option Task :=
  Function.update w.tasks Link.readerHolder w.link.reader.task?

/-- Someone is at work on the rest of a message of which this much is written. -/
def Writes (w : Wire) (part : List UInt8) : Prop :=
  ∃ h message next rest,
    w.crew h = some (.ask (.write (Outgoing.bytes message)) next) ∧ part ++ rest = message.bytes

/-- What was written is one whole message after the other, and then at most the beginning of one
that is being written. -/
def IsFramed (w : Wire) : Prop :=
  ∃ (messages : List Outgoing) (part : List UInt8),
    w.written = messages.flatMap Outgoing.bytes ++ part ∧ (part = [] ∨ w.Writes part)

end Wire

/-- A message as it was written, or the beginning of one that was given up. -/
inductive Piece
  | whole (message : Outgoing)
  | front (message : Outgoing) (bytes : List UInt8) (short : bytes <+: message.bytes)
      (ne : bytes ≠ message.bytes)

namespace Piece

def bytes : Piece → List UInt8
  | whole message => message.bytes
  | front _ bytes _ _ => bytes

def isFront : Piece → Bool
  | whole _ => false
  | front .. => true

end Piece

end CodeIntel

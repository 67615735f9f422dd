import CodeIntel.Client.Connection
import CodeIntel.Files.Tree
import CodeIntel.Link.Basic

namespace CodeIntel

/-- What deeds meet outside their connection: the time in milliseconds and the files. -/
structure Moment where
  now : Nat
  files : Tree
  /-- Where relative paths are taken from. -/
  cwd : Path

/-- When a deed ends by itself. -/
def Deed.deadline? : Deed → Option Nat
  | await _ deadline => some deadline
  | update _ deadline => some deadline
  | _ => none

namespace Link

/-- Tries to do a deed; there is no reply as long as it has to wait. -/
def perform (link : Link) (m : Moment) (self : Holder) : (d : Deed) → Link × Option d.Reply
  | .readText path => (link, some (m.files.readText (m.cwd.join path)))
  | .enterDocuments =>
    let lock := link.documentsLock.request self
    ({ link with documentsLock := lock }, if lock.holder = some self then some () else none)
  | .leaveDocuments => ({ link with documentsLock := link.documentsLock.withdraw self }, some ())
  | .document path => (link, some (link.documents.get? path))
  | .setDocument path d => ({ link with documents := link.documents.set path d }, some ())
  | .register => (link.expect self, some (link.lastId + 1))
  | .await id deadline =>
    match link.mailFor? id with
    | some answer => (link, some (.answered answer))
    | none =>
      if !link.isPending id then (link, some .lost)
      else (link, if deadline ≤ m.now then some .late else none)
  | .forget id => (link.forget id, some ())
  | .enterWriter =>
    let lock := link.writer.request self
    ({ link with writer := lock }, if lock.holder = some self then some () else none)
  | .leaveWriter => (link.leaveWriter self, some ())
  | .writerOpen => (link, some link.writable)
  | .write bytes => link.write bytes
  | .closeWriter => ({ link with writable := false }, some ())
  | .now => (link, some m.now)
  | .arrivals => (link, some link.publications.count)
  | .published path => (link, some (link.publications.latest.get? path))
  | .update seen deadline =>
    if seen < link.publications.count then (link, some true)
    else (link, if deadline ≤ m.now then some false else none)

/-- Takes one step of some work; the answer tells whether anything moved. -/
def advance {α : Type} (link : Link) (m : Moment) (self : Holder) : Work α → Link × Work α × Bool
  | .done a => (link, .done a, false)
  | .ask d next =>
    match link.perform m self d with
    | (after, some reply) => (after, next reply, true)
    | (after, none) => (after, .ask d next, after.outgoing.length ≠ link.outgoing.length)

/-- What the reader does with a message: answers are delivered, notifications kept for later,
requests answered at once. -/
def receive (link : Link) : Incoming → Link
  | .answer (.number (.int id)) answer =>
    if 0 ≤ id then link.deliver id.toNat answer else link
  | .answer .. => link
  | .request id method params =>
    let reply :=
      match replyToServer method params with
      | .ok value => Outgoing.result id value
      | .error e => Outgoing.failure id e
    { link with reader := .replying (Attempt.send reply).run }
  | .notification method params =>
    { link with notices := link.notices ++ [(method, .ofOption params)] }

/-- The end of the reader: no answer can come any more. -/
def endReading (link : Link) : Link := { link with reader := .ended, pending := [] }

def readerStep (link : Link) (m : Moment) : Link × Bool :=
  match link.reader with
  | .ended => (link, false)
  | .replying (.done _) => ({ link with reader := .reading }, true)
  | .replying work =>
    let (link, work, moved) := link.advance m readerHolder work
    ({ link with reader := .replying work }, moved)
  | .reading =>
    match Frame.read link.finished link.incoming with
    | .waiting => (link, false)
    | .failed _ | .ended => (link.endReading, true)
    | .message value rest =>
      let link := { link with incoming := rest }
      match Incoming.ofJson? value with
      | some message => (link.receive message, true)
      | none => (link, true)

/-- Looks at the notification that has waited longest. -/
def noticeStep (link : Link) : Link × Bool :=
  match link.notices with
  | [] => (link, false)
  | (method, params) :: rest =>
    ({ link with notices := rest, publications := link.publications.receive method params }, true)

end Link

end CodeIntel

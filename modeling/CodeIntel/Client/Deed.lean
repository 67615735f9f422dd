import CodeIntel.Files.Tree
import CodeIntel.Json.Basic
import CodeIntel.Path.Basic
import CodeIntel.Plan
import CodeIntel.Server.Diagnostic
import CodeIntel.Server.Error
import CodeIntel.Server.Reply

namespace CodeIntel

/-- A document as the server was told of it last. -/
structure Document where
  version : Int
  text : String
  /-- How many publications had arrived when the text was sent. -/
  arrivals : Nat
deriving Repr, Inhabited

/-- The version after a given one, in 32 bits with a sign. -/
def nextVersion (version : Int) : Int :=
  if version = 0x7FFFFFFF then -0x80000000 else version + 1

/-- The diagnostics that the server has published, each list with its number in the order of
arrival. -/
structure Publications where
  count : Nat
  latest : PathTable (Nat × List Diagnostic)
deriving Inhabited

namespace Publications

def none : Publications := ⟨0, .empty⟩

/-- Takes in a publication; it replaces an earlier one for the same path. -/
def publish (p : Publications) (path : Path) (diagnostics : List Diagnostic) : Publications :=
  ⟨p.count + 1, p.latest.set path (p.count + 1, diagnostics)⟩

/-- Takes in a notification, if it is a publication for a file of this machine. -/
def receive (p : Publications) (method : String) (params : Json) : Publications :=
  if method = "textDocument/publishDiagnostics" then
    match PublishedDiagnostics.decode params with
    | .error _ => p
    | .ok published =>
      match published.uri.filePath with
      | .error _ => p
      | .ok path => p.publish path published.diagnostics
  else p

end Publications

/-- The answer of a server to a request. -/
structure Answer where
  result : Option Json
  error : Option RemoteError

/-- What becomes of a request that was sent. -/
inductive Awaited
  | answered (answer : Answer)
  /-- No more answers can come. -/
  | lost
  | late

/-- What the work on a query asks of its connection to a server. -/
inductive Deed
  | readText (path : Path)
  /-- Wait for the lock of the documents. -/
  | enterDocuments
  | leaveDocuments
  | document (path : Path)
  | setDocument (path : Path) (document : Document)
  /-- Take a number for a request and expect its answer. -/
  | register
  /-- Wait for an answer, at the longest up to a moment. -/
  | await (id : Nat) (deadline : Nat)
  /-- Expect an answer no longer. -/
  | forget (id : Nat)
  /-- Wait for the lock of the stream to the server. -/
  | enterWriter
  | leaveWriter
  | writerOpen
  | write (bytes : List UInt8)
  | closeWriter
  | now
  /-- How many publications have arrived. -/
  | arrivals
  | published (path : Path)
  /-- Wait until more than `seen` publications have arrived, at the longest up to a moment; tells
  whether they have. -/
  | update (seen : Nat) (deadline : Nat)

abbrev Deed.Reply : Deed → Type
  | readText _ => Except FileError String
  | enterDocuments => Unit
  | leaveDocuments => Unit
  | document _ => Option Document
  | setDocument .. => Unit
  | register => Nat
  | await .. => Awaited
  | forget _ => Unit
  | enterWriter => Unit
  | leaveWriter => Unit
  | writerOpen => Bool
  | write _ => Except ServerError Unit
  | closeWriter => Unit
  | now => Nat
  | arrivals => Nat
  | published _ => Option (Nat × List Diagnostic)
  | update .. => Bool

/-- The steps of the work on a query. -/
abbrev Work := Plan Deed Deed.Reply

/-- The steps of work that may fail. -/
abbrev Attempt := ExceptT ServerError Work

namespace Attempt

def ask (d : Deed) : Attempt d.Reply := liftM (m := Work) (Plan.query d)

/-- Does something while nobody else does anything to the documents. -/
def withDocuments {α : Type} (attempt : Attempt α) : Attempt α := do
  ask .enterDocuments
  let result ← liftM (m := Work) attempt.run
  ask .leaveDocuments
  liftM result

/-- Writes bytes that no other bytes come in between. -/
def writeWhole (bytes : List UInt8) : Attempt Unit := do
  ask .enterWriter
  let result ←
    if ← ask .writerOpen then ask (.write bytes)
    else pure (.error (.connectionLost "Transport closed"))
  ask .leaveWriter
  liftM result

end Attempt

end CodeIntel

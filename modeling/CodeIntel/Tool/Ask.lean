import CodeIntel.Files.Tree
import CodeIntel.Path.Normal
import CodeIntel.Plan
import CodeIntel.Server.Query
import CodeIntel.Text.Basic
import CodeIntel.Tool.Error

namespace CodeIntel

/-- Where relative paths are taken from: first the working directory, then the root. -/
structure Surroundings where
  root : Path
  cwd : Path

namespace Path

def blankPath : ToolError := .validation "File path must not be empty"

/-- The ways to read a path argument: an absolute one has one, a relative one is tried in the
working directory and then below the root, and counts for the first if it is in neither. -/
def readings (raw : String) (s : Surroundings) : Except ToolError (Path × Option Path) :=
  if isBlankText raw.toList then .error blankPath
  else
    let p := ofString raw
    if p.isAbsolute then .ok (p.normal, none)
    else .ok ((s.cwd.join p).normal, some (s.root.join p).normal)

/-- The absolute path that an argument means, where `present` tells which paths exist. -/
def resolve (present : Path → Bool) (raw : String) (s : Surroundings) : Except ToolError Path := do
  match ← readings raw s with
  | (first, none) => pure first
  | (first, some second) => pure (if !present first && present second then second else first)

end Path

/-- Why a query brings no answer. -/
inductive QueryFailure
  | cancelled
  | server (error : ServerError)

def QueryFailure.toolError : QueryFailure → ToolError
  | cancelled => .cancelled
  | server error => .backend error

/-- What a call asks of its surroundings. -/
inductive Ask
  | present (path : Path)
  | realPath (path : Path)
  | readText (path : Path)
  | write (path : Path) (text : String)
  | mode (path : Path)
  | setMode (path : Path) (mode : Nat)
  | remove (path : Path)
  | rename (source destination : Path)
  /-- Wait for the lock of a file; the answer tells whether it was given or the call cancelled. -/
  | enterFile (path : Path)
  | leaveFile (path : Path)
  /-- Whether the call is cancelled by now. -/
  | cancelled
  | untilCancelled
  /-- A name that no other call is given. -/
  | freshName
  /-- Wait for the gate to the server and ask it, both until the call is cancelled. -/
  | query (query : Query)

abbrev Ask.Reply : Ask → Type
  | present _ => Bool
  | realPath _ => Except FileError Path
  | readText _ => Except FileError String
  | write .. => Except FileError Unit
  | mode _ => Except FileError Nat
  | setMode .. => Except FileError Unit
  | remove _ => Except FileError Unit
  | rename .. => Except FileError Unit
  | enterFile _ => Bool
  | leaveFile _ => Unit
  | cancelled => Bool
  | untilCancelled => Unit
  | freshName => String
  | query q => Except QueryFailure q.Reply

abbrev CallPlan := Plan Ask Ask.Reply

/-- The steps of a call that may fail. -/
abbrev Action := ExceptT ToolError CallPlan

namespace Action

def ask (q : Ask) : Action q.Reply := liftM (m := CallPlan) (Plan.query q)

def request (q : Query) : Action q.Reply := do
  match ← ask (.query q) with
  | .ok reply => pure reply
  | .error failure => throw failure.toolError

/-- Fails if the call is cancelled by now. -/
def checkCancelled : Action Unit := do
  if ← ask .cancelled then throw .cancelled

def readText (path : Path) : Action String := do
  match ← ask (.readText path) with
  | .ok text => pure text
  | .error e => throw (.fileIo path e.message)

/-- The absolute path that an argument means. The second way to read it is looked at only if the
first leads nowhere. -/
def resolvePath (raw : String) (s : Surroundings) : Action Path := do
  match ← (Path.readings raw s : Except ToolError _) with
  | (first, none) => pure first
  | (first, some second) =>
    if ← ask (.present first) then pure first
    else if ← ask (.present second) then pure second
    else pure first

end Action

end CodeIntel

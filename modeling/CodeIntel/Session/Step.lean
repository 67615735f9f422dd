import CodeIntel.Session.World

namespace CodeIntel.World

variable {ρ : Type}

/-- How far a call came in a step: nowhere, on, or through an operation on files, during which
others get their turn. -/
inductive Progress
  | blocked
  | moved
  | yielded
deriving DecidableEq, Repr

/-- What a step makes of a call. -/
abbrev Stepped (ρ : Type) := World ρ × Activity ρ × Progress

/-- The greatest number of hexadecimal digits at the end of a fresh name. -/
def freshDigits : Nat := 12

/-- A name of 36 characters that no other call is given. -/
def nameOf (n : Nat) : String :=
  let digits := Nat.toDigits 16 n
  let zeros := List.replicate (freshDigits - digits.length) '0'
  "00000000-0000-4000-8000-" ++ String.ofList (zeros ++ digits)

/-- Changes the files, if the operation succeeds. -/
def changeFiles (w : World ρ) (change : Tree → Except FileError Tree) :
    World ρ × Except FileError Unit :=
  match change w.files with
  | .ok files => ({ w with files := files }, .ok ())
  | .error e => (w, .error e)

/-- Ends a query: the gate goes to the next call. -/
def leaveGate (w : World ρ) (gated : Bool) (self : Holder) : World ρ :=
  if gated then { w with gate := w.gate.withdraw self } else w

/-- Gives up a query wherever its work stands. -/
def abandon (w : World ρ) (gated : Bool) (self : Holder) : World ρ :=
  let w :=
    match w.backend with
    | .linked client link => w.setLink client (link.abandon self)
    | .standIn _ => w
  w.leaveGate gated self

/-- The reply to a question about the files alone. -/
def fileReply (w : World ρ) : (q : Ask) → Option (World ρ × q.Reply)
  | .realPath path => some (w, w.files.realPath (w.cwd.join path))
  | .readText path => some (w, w.files.readText (w.cwd.join path))
  | .write path text => some (w.changeFiles fun t => t.write (w.cwd.join path) (utf8Bytes text))
  | .mode path => some (w, w.files.mode (w.cwd.join path))
  | .setMode path mode => some (w.changeFiles fun t => t.setMode (w.cwd.join path) mode)
  | .remove path => some (w.changeFiles fun t => t.remove (w.cwd.join path))
  | .rename source destination =>
    some (w.changeFiles fun t => t.rename (w.cwd.join source) (w.cwd.join destination))
  | _ => none

/-- Waits for the lock of a file, or until the call is cancelled. If both have come about,
`abortFirst` decides. -/
def enterFile (w : World ρ) (abortFirst : Bool) (c : Call ρ) (path : Path) :
    World ρ × Option Bool :=
  let gone := ({ w with fileLocks := w.fileLocks.withdraw path c.id }, some false)
  if c.cancelled && abortFirst then gone
  else
    let locks := w.fileLocks.request path c.id
    if locks.isHeldBy path c.id then ({ w with fileLocks := locks }, some true)
    else if c.cancelled then gone
    else ({ w with fileLocks := locks }, none)

/-- The reply to a question that is answered at once, or that waits for something. -/
def otherReply (w : World ρ) (abortFirst : Bool) (c : Call ρ) :
    (q : Ask) → World ρ × Option q.Reply
  | .present path => (w, some (w.files.contains (w.cwd.join path)))
  | .enterFile path => w.enterFile abortFirst c path
  | .leaveFile path => ({ w with fileLocks := w.fileLocks.withdraw path c.id }, some ())
  | .cancelled => (w, some c.cancelled)
  | .untilCancelled => (w, if c.cancelled then some () else none)
  | .freshName => ({ w with names := w.names + 1 }, some (nameOf (w.names + 1)))
  | _ => (w, none)

def giveUp (w : World ρ) {α : Type} (next : Except QueryFailure α → CallPlan ρ) : Stepped ρ :=
  (w, .calling (next (.error .cancelled)), .moved)

/-- Waits for the gate to the server, or until the call is cancelled. -/
def enterGate (w : World ρ) (abortFirst : Bool) (c : Call ρ) (q : Query)
    (next : Except QueryFailure q.Reply → CallPlan ρ) : Stepped ρ :=
  if c.cancelled && abortFirst then giveUp { w with gate := w.gate.withdraw c.id } next
  else
    let gate := w.gate.request c.id
    let w := { w with gate := gate }
    if gate.holder = some c.id then
      let (w, activity) := w.serve true q next
      (w, activity, .moved)
    else if c.cancelled then giveUp { w with gate := w.gate.withdraw c.id } next
    else (w, .calling (.ask (.query q) next), .blocked)

/-- A step of a call that asks, but not the server. -/
def stepAsking (w : World ρ) (abortFirst : Bool) (c : Call ρ) (q : Ask)
    (next : q.Reply → CallPlan ρ) : Stepped ρ :=
  match w.fileReply q with
  | some (w, reply) => (w, .calling (next reply), .yielded)
  | none =>
    match w.otherReply abortFirst c q with
    | (w, some reply) => (w, .calling (next reply), .moved)
    | (w, none) => (w, .calling (.ask q next), .blocked)

def stepCalling (w : World ρ) (abortFirst : Bool) (c : Call ρ) : CallPlan ρ → Stepped ρ
  | .done r => (w, .calling (.done r), .blocked)
  | .ask (.query q) next => w.enterGate abortFirst c q next
  | .ask q next => w.stepAsking abortFirst c q next

/-- Whether a deed is an operation on files. -/
def isFileDeed : Deed → Bool
  | .readText _ => true
  | _ => false

def workYields {α : Type} : Work α → Bool
  | .done _ => false
  | .ask d _ => isFileDeed d

def stepServing (w : World ρ) (abortFirst gated : Bool) (c : Call ρ) (work : Work (CallPlan ρ))
    (aborted : CallPlan ρ) : Stepped ρ :=
  if c.cancelled && abortFirst then (w.abandon gated c.id, .calling aborted, .moved)
  else
    match work, w.backend with
    | .done plan, _ => (w.leaveGate gated c.id, .calling plan, .moved)
    | work, .linked client link =>
      let (link, after, moved) := link.advance w.moment c.id work
      let progress :=
        if workYields work then .yielded else if moved then Progress.moved else .blocked
      if c.cancelled && !moved then (w.abandon gated c.id, .calling aborted, .moved)
      else (w.setLink client link, .serving gated after aborted, progress)
    | work, .standIn _ => (w, .serving gated work aborted, .blocked)

def stepStanding (w : World ρ) (abortFirst gated : Bool) (c : Call ρ) (wake : Nat) (q : Query)
    (next : Except QueryFailure q.Reply → CallPlan ρ) : Stepped ρ :=
  if c.cancelled && abortFirst then giveUp (w.abandon gated c.id) next
  else
    match w.backend with
    | .standIn s =>
      if wake ≤ w.now then
        (w.leaveGate gated c.id, .calling (next ((s.reply q).mapError .server)), .moved)
      else if c.cancelled then giveUp (w.abandon gated c.id) next
      else (w, .standing gated wake q next, .blocked)
    | .linked .. => (w, .standing gated wake q next, .blocked)

/-- A step of a call. `abortFirst` decides between a cancellation and something else that has come
about as well. -/
def stepActivity (w : World ρ) (abortFirst : Bool) (c : Call ρ) : Stepped ρ :=
  match c.activity with
  | .calling plan => w.stepCalling abortFirst c plan
  | .serving gated work aborted => w.stepServing abortFirst gated c work aborted
  | .standing gated wake q next => w.stepStanding abortFirst gated c wake q next

/-- Notes the end of a call, if it has come. -/
def settleCall (w : World ρ) (c : Call ρ) : World ρ :=
  match c.activity with
  | .calling (.done result) =>
    { w.removeCall c.id with finished := w.finished ++ [⟨c.id, c.cancelled, result⟩] }
  | _ => w.replaceCall c

/-- A step of the call with a number. -/
def step (w : World ρ) (abortFirst : Bool) (id : Holder) : World ρ × Progress :=
  match w.call? id with
  | none => (w, .blocked)
  | some c =>
    let (w, activity, progress) := w.stepActivity abortFirst c
    (w.settleCall { c with activity := activity }, progress)

end CodeIntel.World

namespace CodeIntel

/-- When a call goes on by itself, if it waits for a moment. -/
def Call.wake? {ρ : Type} (c : Call ρ) : Option Nat :=
  match c.activity with
  | .serving _ (.ask d _) _ => d.deadline?
  | .standing _ wake _ _ => some wake
  | _ => none

end CodeIntel

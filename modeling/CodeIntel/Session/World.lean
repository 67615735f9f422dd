import CodeIntel.Client.Query
import CodeIntel.Link.Step
import CodeIntel.Session.FileLocks
import CodeIntel.Tool.Ask

namespace CodeIntel

/-- A stand-in for a server: it answers each query by itself, some time after it was asked. -/
structure StandIn where
  delay : Nat
  reply : (q : Query) → Except ServerError q.Reply
  /-- The queries so far, in their order. -/
  asked : List Query

/-- What queries go to. -/
inductive Backend
  | linked (client : Client) (link : Link)
  | standIn (s : StandIn)

/-- What a call is at: its own steps, or a query, which ends in the steps that follow. A query of
a tool holds the gate (`gated`) and is given up for `aborted` if the call is cancelled. -/
inductive Activity (ρ : Type)
  | calling (plan : CallPlan ρ)
  | serving (gated : Bool) (work : Work (CallPlan ρ)) (aborted : CallPlan ρ)
  | standing (gated : Bool) (wake : Nat) (query : Query)
      (next : Except QueryFailure query.Reply → CallPlan ρ)

/-- A call under way. -/
structure Call (ρ : Type) where
  id : Holder
  cancelled : Bool
  activity : Activity ρ

/-- A call that has come to its end. -/
structure Finished (ρ : Type) where
  id : Holder
  cancelled : Bool
  result : ρ

/-- Calls with all that they share. -/
structure World (ρ : Type) where
  /-- The time in milliseconds. -/
  now : Nat
  files : Tree
  /-- Where relative paths are taken from. -/
  cwd : Path
  fileLocks : FileLocks
  /-- The gate to the server: one query at a time. -/
  gate : Lock
  backend : Backend
  /-- How many names were given that no other call is given. -/
  names : Nat
  lastCall : Holder
  calls : List (Call ρ)
  /-- The calls that have ended, in the order of their ends. -/
  finished : List (Finished ρ)

namespace World

variable {ρ : Type}

def new (files : Tree) (cwd : Path) (backend : Backend) : World ρ where
  now := 0
  files := files
  cwd := cwd
  fileLocks := .empty
  gate := .free
  backend := backend
  names := 0
  lastCall := 0
  calls := []
  finished := []

def moment (w : World ρ) : Moment := ⟨w.now, w.files, w.cwd⟩

def setLink (w : World ρ) (client : Client) (link : Link) : World ρ :=
  { w with backend := .linked client link }

/-- The work on a query, which ends in the steps that follow its answer. -/
def workOn (client : Client) (q : Query) (next : Except QueryFailure q.Reply → CallPlan ρ) :
    Work (CallPlan ρ) :=
  (client.answer q).run.bind fun result => .done (next (result.mapError .server))

/-- Hands a query to the server. -/
def serve (w : World ρ) (gated : Bool) (q : Query)
    (next : Except QueryFailure q.Reply → CallPlan ρ) : World ρ × Activity ρ :=
  match w.backend with
  | .linked client _ => (w, .serving gated (workOn client q next) (next (.error .cancelled)))
  | .standIn s =>
    ({ w with backend := .standIn { s with asked := s.asked ++ [q] } },
      .standing gated (w.now + s.delay) q next)

def replaceCall (w : World ρ) (c : Call ρ) : World ρ :=
  { w with calls := w.calls.map fun other => if other.id = c.id then c else other }

def removeCall (w : World ρ) (id : Holder) : World ρ :=
  { w with calls := w.calls.eraseP fun c => c.id = id }

def call? (w : World ρ) (id : Holder) : Option (Call ρ) := w.calls.find? fun c => c.id = id

def start (w : World ρ) (activity : Activity ρ) (cancelled : Bool) : World ρ × Holder :=
  let id := w.lastCall + 1
  ({ w with lastCall := id, calls := w.calls ++ [⟨id, cancelled, activity⟩] }, id)

def cancel (w : World ρ) (id : Holder) : World ρ :=
  { w with
    calls := w.calls.map fun c => if c.id = id then { c with cancelled := true } else c }

end World

end CodeIntel

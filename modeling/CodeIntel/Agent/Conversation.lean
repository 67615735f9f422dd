import CodeIntel.Agent.Error
import CodeIntel.Agent.Lines
import CodeIntel.Json.Writer
import CodeIntel.Session.Lock

namespace CodeIntel.Agent

/-- A response as it is written: its text on a line of its own. -/
def Response.line (r : Response) : List UInt8 := utf8Bytes r.toJson.text ++ [0x0A]

/-- The state of a conversation with an agent. Each request is a job with a number of its own. -/
structure Conversation where
  /-- Bytes that have come and were not read yet. -/
  unread : List UInt8
  /-- Whether no more bytes will come. -/
  closed : Bool
  /-- Whether lines are still read. -/
  listening : Bool
  /-- The job that a cancellation of an identifier reaches. -/
  inFlight : List (RequestId × Holder)
  jobs : List (Holder × RequestId)
  /-- The responses given so far. -/
  written : List Response
  fault : Option ServeError

/-- What is to be done about a line that was read. -/
inductive Duty
  | nothing
  | start (id : RequestId) (method : String) (params : Option Json)
  | cancel (job : Holder)

namespace Conversation

def fresh : Conversation := ⟨[], false, true, [], [], [], none⟩

def write (c : Conversation) (response : Response) : Conversation :=
  { c with written := c.written ++ [response] }

def jobOf? (c : Conversation) (id : RequestId) : Option Holder :=
  (c.inFlight.find? fun e => e.1 = id).map (·.2)

/-- What a line is taken for, and what is to be done about it. -/
def takeLine (c : Conversation) (line : String) : Conversation × Duty :=
  match lineMeaning line with
  | .nothing => (c, .nothing)
  | .refused response => (c.write response, .nothing)
  | .request id method params => (c, .start id method params)
  | .cancellation id =>
    match c.jobOf? id with
    | some job => (c, .cancel job)
    | none => (c, .nothing)

/-- Reads the next line, if there is one. A line that is too long is refused and ends the reading,
and so does one that is no text, as a fault. -/
def readLine? (c : Conversation) : Option (Conversation × Duty) :=
  if !c.listening then none
  else
    match Agent.readLine c.closed c.unread with
    | .waiting => none
    | .ended => some ({ c with listening := false }, .nothing)
    | .tooLong =>
      let response := Response.failure none ErrorObject.invalidRequest "Message too long"
      some ({ c.write response with listening := false }, .nothing)
    | .notText =>
      let fault := ServeError.io "Unable to decode input as UTF8"
      some ({ c with listening := false, fault := some fault }, .nothing)
    | .line text rest => some ({ c with unread := rest }.takeLine text)

/-- Takes up a job for a request. An earlier job with the same identifier can no longer be
cancelled. -/
def started (c : Conversation) (id : RequestId) (job : Holder) : Conversation :=
  { c with
    inFlight := (id, job) :: c.inFlight.filter fun e => e.1 ≠ id
    jobs := c.jobs ++ [(job, id)] }

/-- Lets go of the identifier of a job that has come to its response. -/
def released (c : Conversation) (job : Holder) : Conversation :=
  match c.jobs.find? fun j => j.1 = job with
  | none => c
  | some (_, id) => { c with inFlight := c.inFlight.eraseP fun e => e.1 = id }

/-- Ends a job, with its response unless it was cancelled. -/
def answered (c : Conversation) (job : Holder) (cancelled : Bool) (response : Response) :
    Conversation :=
  if c.jobs.any fun j => j.1 = job then
    let c := { c with jobs := c.jobs.eraseP fun j => j.1 = job }
    if cancelled then c else c.write response
  else c

def ended (c : Conversation) (job : Holder) (cancelled : Bool) (response : Response) :
    Conversation :=
  (c.released job).answered job cancelled response

/-- Whether no more lines are read and all jobs have ended. -/
def isOver (c : Conversation) : Bool := !c.listening && c.jobs.isEmpty

end Conversation

end CodeIntel.Agent

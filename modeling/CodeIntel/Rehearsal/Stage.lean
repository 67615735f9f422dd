import CodeIntel.Agent.Conversation
import CodeIntel.Agent.Message
import CodeIntel.Agent.Server
import CodeIntel.Client.Sync
import CodeIntel.Rehearsal.Actor
import CodeIntel.Rehearsal.Remarks
import CodeIntel.Session.Step
import CodeIntel.Session.World
import CodeIntel.Tool.Basic
import CodeIntel.Tool.Error

namespace CodeIntel.Rehearsal

/-- What comes of a call. -/
inductive Outcome
  | output (result : Except CallError Output)
  | message (result : Except CallError String)
  | reply (query : Query) (result : Except QueryFailure query.Reply)
  | started (result : Except ServerError Client)
  | shutDown (result : Except ServerError Unit)
  | response (response : Agent.Response)

/-- The response to an agent, if a call ends with one. -/
def Outcome.response? : Outcome → Option Agent.Response
  | response r => some r
  | _ => none

structure Begun where
  activity : Activity Outcome
  cancelled : Bool
  /-- After how many milliseconds it is cancelled. -/
  cancelAfter : Option Nat

/-- The call of steps that may be cancelled. -/
def Begun.plan (plan : CallPlan Outcome) : Begun := ⟨.calling plan, false, none⟩

/-- The call that does some work on the connection to the server. -/
def Begun.work {α : Type} (attempt : Attempt α) (outcome : Except ServerError α → Outcome) :
    Begun where
  activity :=
    .serving false (attempt.run.bind fun r => .done (.done (outcome r)))
      (.done (outcome (.error (.connectionLost ""))))
  cancelled := false
  cancelAfter := none

/-- All that takes part in a rehearsal. -/
structure Stage where
  world : World Outcome
  /-- The server that a connection leads to. -/
  actor : Option Actor
  host : Agent.Server
  conversation : Option Agent.Conversation
  /-- The calls that are cancelled at a moment. -/
  alarms : List (Nat × Holder)
  /-- What the program has remarked on so far, if anybody listens. -/
  remarks : Option (List Remark)

/-- A step of a stage; the answer tells whether anything moved. -/
abbrev Moving := Stage → Stage × Bool

/-- Repeats a step as long as something moves, at most `fuel` times. -/
def whileMoving (step : Moving) : Nat → Moving
  | 0, s => (s, true)
  | fuel + 1, s =>
    match step s with
    | (s, false) => (s, false)
    | (s, true) => ((whileMoving step fuel s).1, true)

/-- Does one step after the other; something moves if it does in one of them. -/
def inTurn (steps : List Moving) (s : Stage) : Stage × Bool :=
  steps.foldl (fun (s, moved) step => let (s, more) := step s; (s, moved || more)) (s, false)

namespace Stage

/-- More steps than any rehearsal takes without a pause. -/
def greatestSteps : Nat := Nat.pow 2 40

/-- More milliseconds than any wait takes. -/
def greatestTime : Nat := Nat.pow 2 128

/-- Notes remarks that were not noted before. -/
def note (s : Stage) (more : Stage → List Remark) : Stage :=
  match s.remarks with
  | none => s
  | some remarks =>
    { s with remarks := some (remarks ++ (more s).filter fun r => !remarks.contains r) }

def cancelDue (s : Stage) : Stage × Bool :=
  let due := s.alarms.filter fun a => a.1 ≤ s.world.now
  let world := due.foldl (fun w a => w.cancel a.2) s.world
  ({ s with world := world, alarms := s.alarms.filter fun a => s.world.now < a.1 },
    !due.isEmpty)

def begin (s : Stage) (b : Begun) : Stage × Holder :=
  let (world, id) := s.world.start b.activity b.cancelled
  let alarms := (b.cancelAfter.map fun ms => (s.world.now + ms, id)).toList
  ({ s with world := world, alarms := s.alarms ++ alarms }, id)

/-- Does what a line of an agent asks for. -/
def fulfil (s : Stage) (c : Agent.Conversation) : Agent.Duty → Stage
  | .nothing => { s with conversation := some c }
  | .start id method params =>
    let (s, job) := s.begin (.plan (Outcome.response <$> s.host.handle id method params))
    { s with conversation := some (c.started id job) }
  | .cancel job => { s with world := s.world.cancel job, conversation := some c }

/-- Takes the next line of the agent. -/
def lineStep (s : Stage) : Stage × Bool :=
  let s := s.note fun s => (s.conversation.map Remark.ofConversation).getD []
  match s.conversation.bind Agent.Conversation.readLine? with
  | none => (s, false)
  | some (c, duty) => (s.fulfil c duty, true)

/-- The messages that went to the actor, read or not. -/
def sent (s : Stage) (link : Link) : List Json :=
  match s.actor with
  | some actor => actor.received ++ (Frame.readAll (actor.unread ++ link.outgoing)).1
  | none => []

def callRemarks (id : Holder) (s : Stage) : List Remark :=
  match s.world.call? id, s.world.backend with
  | some ⟨_, _, .serving _ (.ask d _) _⟩, .linked _ link =>
    match (link.perform s.world.moment id d).2 with
    | some reply => Remark.ofDeed (s.sent link) d reply
    | none => []
  | _, _ => []

/-- Lets a call go on until it waits, or up to the next operation on files. If it is cancelled and
something else has come about as well, it goes on by that. -/
def runCall (id : Holder) : Nat → Moving
  | 0, s => (s, true)
  | fuel + 1, s =>
    let s := s.note (callRemarks id)
    match s.world.step false id with
    | (world, .blocked) => ({ s with world := world }, false)
    | (world, .yielded) => ({ s with world := world }, true)
    | (world, .moved) => ((runCall id fuel { s with world := world }).1, true)

/-- Lets each call go on once, in the order in which they began. -/
def runCalls : Moving :=
  fun s => inTurn ((s.world.calls.map fun c => c.id).map fun id => runCall id greatestSteps) s

/-- Hands the responses that calls have ended with to the agent, in the order of their ends. -/
def deliverResponses (s : Stage) : Stage × Bool :=
  let (answered, others) := s.world.finished.partition fun f => f.result.response?.isSome
  if answered.isEmpty || s.conversation.isNone then (s, false)
  else
    let s := { s with world := { s.world with finished := others } }
    (answered.foldl (fun s f =>
      match f.result.response?, s.conversation with
      | some r, some c =>
        let s := s.note fun _ => Remark.ofResponse r
        { s with conversation := some (c.ended f.id f.cancelled r) }
      | _, _ => s) s, true)

/-- The remarks on something that has to do with the connection. -/
def linkRemarks (remarks : Link → List Remark) (s : Stage) : List Remark :=
  match s.world.backend with
  | .linked _ link => remarks link
  | .standIn _ => []

/-- A step of something that has to do with the connection. -/
def linkStep (step : Link → Link × Bool) : Moving :=
  fun s =>
    match s.world.backend with
    | .linked client link =>
      let (link, moved) := step link
      ({ s with world := s.world.setLink client link }, moved)
    | .standIn _ => (s, false)

def actorStep : Moving :=
  fun s =>
    match s.actor, s.world.backend with
    | some actor, .linked client link =>
      let (actor, link, moved) := actor.step link s.world.now
      ({ s with actor := some actor, world := s.world.setLink client link }, moved)
    | _, _ => (s, false)

def readerStep : Moving := fun s =>
  linkStep (fun link => link.readerStep s.world.moment) (s.note (linkRemarks Remark.ofReader))

def noticeStep : Moving := fun s =>
  let remarks (link : Link) := (link.notices.head?.map fun n => Remark.ofNotice n.1 n.2).getD []
  linkStep Link.noticeStep (s.note (linkRemarks remarks))

/-- Gives everything that can go on a turn. -/
def round : Moving :=
  inTurn
    [cancelDue, whileMoving lineStep greatestSteps, runCalls, deliverResponses,
      whileMoving actorStep greatestSteps, whileMoving readerStep greatestSteps,
      whileMoving noticeStep greatestSteps]

/-- Lets everything go on until all wait. -/
def settle (s : Stage) : Stage := (whileMoving round greatestSteps s).1

/-- The next moment at which something goes on by itself. -/
def nextMoment? (s : Stage) : Option Nat :=
  let calls := s.world.calls.filterMap Call.wake?
  let actor := (s.actor.bind fun a => a.wake? s.world.now).toList
  ((s.alarms.map fun a => a.1) ++ calls ++ actor).min?

def setNow (s : Stage) (now : Nat) : Stage := { s with world := { s.world with now := now } }

/-- Lets time pass up to a moment; the moments before it at which something goes on are lived
through one by one. What falls due at the moment itself is left to come. -/
def passUntil (moment : Nat) : Nat → Stage → Stage
  | 0, s => s
  | fuel + 1, s =>
    let s := s.settle
    match s.nextMoment? with
    | some next =>
      if next < moment then passUntil moment fuel (s.setNow (max s.world.now next))
      else s.setNow moment
    | none => s.setNow moment

def pass (s : Stage) (milliseconds : Nat) : Stage :=
  passUntil (s.world.now + milliseconds) greatestSteps s

/-- Lets time pass until something has come about, at the longest up to a moment. -/
def passWhile (waiting : Stage → Bool) (moment : Nat) : Nat → Stage → Stage
  | 0, s => s
  | fuel + 1, s =>
    let s := s.settle
    if !waiting s then s
    else
      match s.nextMoment? with
      | some next =>
        if next ≤ moment then passWhile waiting moment fuel (s.setNow (max s.world.now next))
        else s.setNow moment
      | none => s.setNow moment

def isUnderWay (ids : List Holder) (s : Stage) : Bool :=
  s.world.calls.any fun c => ids.contains c.id

/-- What a call has ended with. -/
def outcome? (s : Stage) (id : Holder) : Option Outcome :=
  (s.world.finished.find? fun f => f.id = id).map (·.result)

/-- Begins calls and lets time pass until all have ended. -/
def perform (s : Stage) (calls : List Begun) : Stage × List (Option Outcome) :=
  let (s, ids) := calls.foldl (fun (s, ids) b =>
    let (s, id) := s.begin b
    (s, ids ++ [id])) (s, [])
  let s := passWhile (isUnderWay ids) greatestTime greatestSteps s
  let outcomes := ids.map s.outcome?
  let finished := s.world.finished.filter fun f => !ids.contains f.id
  ({ s with world := { s.world with finished := finished } }, outcomes)

end Stage

end CodeIntel.Rehearsal

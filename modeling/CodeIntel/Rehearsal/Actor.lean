import CodeIntel.Json.Basic
import CodeIntel.Json.Writer
import CodeIntel.Link.Basic
import CodeIntel.Server.Frame

namespace CodeIntel.Rehearsal

/-- A thing that the server of a rehearsal does by its script. -/
inductive Cue
  | message (value : Json)
  /-- Bytes that need not be a message. -/
  | bytes (bytes : List UInt8)
  | pause (milliseconds : Nat)

/-- What a script answers to a request with. -/
inductive Response
  | result (value : Json)
  | error (value : Json)
  | silence

/-- How a request is met: after a delay some cues, the response, and more cues. -/
structure Reply where
  delay : Nat
  before : List Cue
  response : Response
  after : List Cue
  /-- Whether the connection ends there. -/
  closing : Bool

/-- What a server does by its script: the replies to the requests of each method, of which the last
repeats, and the cues that follow each text it is sent. -/
structure Script where
  handlers : List (String × List Reply)
  /-- The reply to all other requests. -/
  otherwise : Reply
  onText : List (List Cue)
  /-- Whether it writes to its error stream. -/
  complaining : Bool
  /-- Whether it says all that it is told, in the stead of anything else. -/
  echoing : Bool

/-- The script of a program that ends as soon as it is asked something. -/
def Script.leaving : Script := ⟨[], ⟨0, [], .silence, [], true⟩, [], false, false⟩

/-- The script of a program that says what it is told. -/
def Script.echo : Script := { Script.leaving with echoing := true }

/-- What stands in cues for the identifier of the request. -/
def idMark : String := "$ID"

/-- Puts the identifier of the request in the stead of its mark. -/
def withId (id : Json) : Json → Json
  | .string s => if s = idMark then id else .string s
  | .array items => .array (items.attach.map fun ⟨item, _⟩ => withId id item)
  | .object members => .object (members.attach.map fun ⟨m, _⟩ => (m.1, withId id m.2))
  | other => other
termination_by value => value
decreasing_by
  all_goals simp_wf
  · have := List.sizeOf_lt_of_mem ‹_ ∈ items›
    omega
  · have := List.sizeOf_lt_of_mem ‹_ ∈ members›
    cases m
    simp at *
    omega

def Cue.withId (id : Json) : Cue → Cue
  | message value => message (Rehearsal.withId id value)
  | other => other

/-- The message that holds the response to a request, if there is one. -/
def Response.message? (id : Json) : Response → Option Json
  | result value =>
    some (.ofMembers [("jsonrpc", .string "2.0"), ("id", id), ("result", value)])
  | error value => some (.ofMembers [("jsonrpc", .string "2.0"), ("id", id), ("error", value)])
  | silence => none

/-- The reply to the request of a method that comes after `earlier` others of it. -/
def Script.reply (script : Script) (method : String) (earlier : Nat) : Reply :=
  match script.handlers.find? fun h => h.1 = method with
  | some (_, replies) => ((replies[earlier]?).or replies.getLast?).getD script.otherwise
  | none => script.otherwise

/-- A single thing that an actor does. -/
inductive Act
  | send (bytes : List UInt8)
  | pause (milliseconds : Nat)
  /-- End the connection in both directions. -/
  | leave

/-- A server that follows a script. -/
structure Actor where
  script : Script
  /-- The methods of the requests so far. -/
  asked : List String
  /-- How many texts it was sent so far. -/
  texts : Nat
  /-- The bytes that it took and did not read yet. -/
  unread : List UInt8
  agenda : List Act
  /-- It does nothing before this moment. -/
  wake : Nat
  /-- The messages it got so far. -/
  received : List Json
  gone : Bool

namespace Actor

def new (script : Script) : Actor := ⟨script, [], 0, [], [], 0, [], false⟩

def sending (value : Json) : Act := .send (Frame.encode (utf8Bytes value.text))

def actOf : Cue → Act
  | .message value => sending value
  | .bytes bytes => .send bytes
  | .pause ms => .pause ms

/-- What a reply to the request with an identifier comes to. -/
def actsOf (reply : Reply) (id : Json) : List Act :=
  let response := ((reply.response.message? id).map sending).toList
  let leaving := if reply.closing then [Act.leave] else []
  Act.pause reply.delay :: (reply.before.map fun c => actOf (c.withId id)) ++ response ++
    (reply.after.map fun c => actOf (c.withId id)) ++ leaving

def schedule (actor : Actor) (acts : List Act) : Actor :=
  { actor with agenda := actor.agenda ++ acts }

def isText (method : String) : Bool :=
  method = "textDocument/didOpen" || method = "textDocument/didChange"

/-- What a message makes the actor do. -/
def heed (actor : Actor) (value : Json) : Actor :=
  match (value.member? "method").bind Json.string?, value.member? "id" with
  | some method, some id =>
    let reply := actor.script.reply method (actor.asked.count method)
    { actor with asked := method :: actor.asked }.schedule (actsOf reply id)
  | some method, none =>
    if isText method then
      let cues := (actor.script.onText[actor.texts]?).getD []
      { actor with texts := actor.texts + 1 }.schedule (cues.map actOf)
    else actor
  | none, _ => actor

/-- Does the next thing on the agenda. -/
def act (actor : Actor) (link : Link) (now : Nat) : Act → Actor × Link
  | .send bytes => (actor, { link with incoming := link.incoming ++ bytes })
  | .pause ms => ({ actor with wake := now + ms }, link)
  | .leave => ({ actor with gone := true }, { link with taken := false, finished := true })

/-- One step of the actor; the answer tells whether anything moved. -/
def step (actor : Actor) (link : Link) (now : Nat) : Actor × Link × Bool :=
  if actor.gone || now < actor.wake then (actor, link, false)
  else
    match actor.agenda with
    | next :: rest =>
      let (actor, link) := { actor with agenda := rest }.act link now next
      (actor, link, true)
    | [] =>
      let took := !link.outgoing.isEmpty
      if actor.script.echoing then
        let said := link.incoming ++ link.outgoing
        (actor, { link with outgoing := [], incoming := said }, took)
      else
        let actor := { actor with unread := actor.unread ++ link.outgoing }
        let link := { link with outgoing := [] }
        match Frame.read false actor.unread with
        | .message value rest =>
          let actor := { actor with unread := rest, received := actor.received ++ [value] }
          (actor.heed value, link, true)
        | _ => (actor, link, took)

/-- When the actor goes on by itself, if it waits for a moment. -/
def wake? (actor : Actor) (now : Nat) : Option Nat :=
  if !actor.gone && now < actor.wake then some actor.wake else none

end Actor

end CodeIntel.Rehearsal

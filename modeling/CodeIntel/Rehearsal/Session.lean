import CodeIntel.Agent.Offer
import CodeIntel.Path.Basic
import CodeIntel.Rehearsal.Stage
import CodeIntel.Session.World

namespace CodeIntel

def Query.method : Query → String
  | workspaceSymbols _ => "workspace/symbol"
  | definition .. => "textDocument/definition"
  | references .. => "textDocument/references"
  | documentSymbols _ => "textDocument/documentSymbol"
  | sync _ => "sync"
  | changed .. => "textDocument/didChange"
  | diagnostics _ => "textDocument/diagnostic"
  | codeLenses _ => "textDocument/codeLens"
  | execute _ => "workspace/executeCommand"

namespace Rehearsal

/-- What a stand-in answers. The entries of one key that come later count. -/
structure Answers where
  symbols : List (String × List WorkspaceSymbol)
  definitions : List (Path × Position × List Location)
  references : List (Path × Position × List Location)
  documentSymbols : PathTable (List DocumentSymbol)
  diagnostics : PathTable (List Diagnostic)
  lenses : PathTable (List CodeLens)
  commands : List (String × Json)
  /-- The reasons for which the queries of some methods fail. -/
  failures : List (String × String)

namespace Answers

def locationsAt? (entries : List (Path × Position × List Location)) (path : Path)
    (position : Position) : Option (List Location) :=
  (entries.findRev? fun e => e.1.same path && e.2.1 = position).map (·.2.2)

def lastOf? {α : Type} (entries : List (String × α)) (key : String) : Option α :=
  (entries.findRev? fun e => e.1 = key).map (·.2)

/-- The answer to a query that does not fail. A definition that is not listed is where it was asked
for; for other queries nothing is found. -/
def answer (a : Answers) : (q : Query) → q.Reply
  | .workspaceSymbols query => (lastOf? a.symbols query).getD []
  | .definition path position =>
    (locationsAt? a.definitions path position).getD [⟨path, ⟨position, position⟩⟩]
  | .references path position _ => (locationsAt? a.references path position).getD []
  | .documentSymbols path => (a.documentSymbols.get? path).getD []
  | .sync _ => ()
  | .changed .. => ()
  | .diagnostics path => a.diagnostics.get? path
  | .codeLenses path => (a.lenses.get? path).getD []
  | .execute command => lastOf? a.commands command.command

def reply (a : Answers) (q : Query) : Except ServerError q.Reply :=
  match lastOf? a.failures q.method with
  | some reason => .error (.requestFailed reason)
  | none => .ok (a.answer q)

/-- The stand-in that gives these answers, each after so many milliseconds. -/
def standIn (a : Answers) (delay : Nat) : StandIn := ⟨delay, a.reply, []⟩

end Answers

/-- What calls a tool or a prompt by its name. -/
inductive Called
  | tool (name : String) (args : Json)
  | prompt (name : String) (args : Json)

def Called.plan (caller : Caller) : Called → CallPlan Outcome
  | tool name args => Outcome.output <$> callTool name caller args
  | prompt name args => Outcome.message <$> renderPrompt name caller args

/-- How a conversation comes to its end. -/
inductive Ending
  | over (fault : Option Agent.ServeError)
  /-- A call goes on and on. -/
  | stuck

namespace Stage

def withStandIn (files : Tree) (cwd : Path) (host : Agent.Server) (s : StandIn) : Stage where
  world := .new files cwd (.standIn s)
  actor := none
  host := host
  conversation := none
  alarms := []
  remarks := none

/-- How many bytes may be under way to an actor. -/
def roomOfLink : Nat := 65536

def unstarted (config : ServerConfig) (cwd : Path) : Client where
  config := config
  features := default
  cwd := cwd

/-- A stage with a connection to an actor, before the first message. -/
def withActor (files : Tree) (cwd : Path) (host : Agent.Server) (config : ServerConfig)
    (script : Script) : Stage where
  world := .new files cwd (.linked (unstarted config cwd) (.fresh roomOfLink))
  actor := some (.new script)
  host := host
  conversation := none
  alarms := []
  remarks := none

def listen (s : Stage) : Stage := { s with remarks := some [] }

/-- Takes a client in use. -/
def setClient (s : Stage) (client : Client) : Stage :=
  match s.world.backend with
  | .linked _ link => { s with world := s.world.setLink client link }
  | .standIn _ => s

/-- Makes the server at the other end of the connection ready. -/
def connect (s : Stage) (config : ServerConfig) (root : Path) (process : Json) :
    Stage × Option ServerError :=
  let work := Client.start config root s.world.cwd process
  match s.perform [.work work .started] with
  | (s, [some (.started (.ok client))]) => (s.setClient client, none)
  | (s, [some (.started (.error e))]) => (s, some e)
  | (s, _) => (s, some (.connectionLost ""))

/-- Takes another stand-in, which has been asked what the one before was asked. -/
def setStandIn (s : Stage) (other : StandIn) : Stage :=
  match s.world.backend with
  | .linked .. => s
  | .standIn before =>
    { s with world := { s.world with backend := .standIn { other with asked := before.asked } } }

def queryCall (s : Stage) (q : Query) : Stage × Begun :=
  let (world, activity) := s.world.serve false q fun r => .done (.reply q r)
  ({ s with world := world }, ⟨activity, false, none⟩)

def ask (s : Stage) (q : Query) : Stage × Option Outcome :=
  let (s, call) := s.queryCall q
  let (s, outcomes) := s.perform [call]
  (s, outcomes.head?.join)

/-- Ends the work of the server. -/
def shutDown (s : Stage) : Stage × Option Outcome :=
  let (s, outcomes) := s.perform [.work Client.shutdown .shutDown]
  (s, outcomes.head?.join)

/-- Has the actor do something out of turn. -/
def cue (s : Stage) (cues : List Cue) : Stage :=
  { s with actor := s.actor.map fun a => a.schedule (cues.map Actor.actOf) }

/-- Ends what the actor sends; it still reads. -/
def endSending (s : Stage) : Stage :=
  (linkStep (fun link => ({ link with finished := true }, true)) s).1

/-- Gives bytes to the conversation with an agent, which is begun if there is none. Nothing comes
of it if the conversation is over. -/
def tell (s : Stage) (bytes : List UInt8) : Option Stage :=
  let c := s.conversation.getD .fresh
  if c.isOver then none
  else some { s with conversation := some { c with unread := c.unread ++ bytes } }.settle

/-- After so many milliseconds nobody waits for the end of a conversation any more. -/
def longestEnd : Nat := 1000000

def isTalking (s : Stage) : Bool :=
  match s.conversation with
  | some c => !c.isOver
  | none => false

/-- Takes the responses that were given to the agent and not taken yet. -/
def takeResponses (s : Stage) : Stage × List Agent.Response :=
  match s.conversation with
  | some c => ({ s with conversation := some { c with written := [] } }, c.written)
  | none => (s, [])

/-- Closes the conversation with the agent and waits for its end. The responses that were not
taken yet come with it. -/
def endTalk (s : Stage) : Stage × Option (Ending × List Agent.Response) :=
  match s.conversation with
  | none => (s, none)
  | some c =>
    let s := { s with conversation := some { c with closed := true } }
    let s := passWhile isTalking (s.world.now + longestEnd) greatestSteps s
    let ending := if s.isTalking then .stuck else .over (s.conversation.bind fun c => c.fault)
    let (s, responses) := s.takeResponses
    ({ s with conversation := none }, some (ending, responses))

/-- The queries to the stand-in so far. -/
def queries (s : Stage) : List Query :=
  match s.world.backend with
  | .standIn s => s.asked
  | .linked .. => []

/-- The messages that the actor got so far. -/
def received (s : Stage) : List Json := (s.actor.map fun a => a.received).getD []

end Stage

end Rehearsal

end CodeIntel

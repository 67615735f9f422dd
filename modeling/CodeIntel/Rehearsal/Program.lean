import CodeIntel.CommandLine.Parse
import CodeIntel.Logging.Filter
import CodeIntel.Program.Failure
import CodeIntel.Program.Machine
import CodeIntel.Rehearsal.Session

namespace CodeIntel.Rehearsal

/-- A line for the program, and how many responses are waited for behind it. -/
structure Exchange where
  line : List UInt8
  expected : Nat

/-- What a run of the program shows. -/
structure Run where
  code : Nat
  /-- Lines of text that are printed in the stead of responses. -/
  notice : List String
  /-- The responses that came of each line. -/
  responses : List (List Agent.Response)
  rest : List Agent.Response
  failure : Option Failure
  started : Option StartedServer
  received : List Json
  files : Tree
  remarks : List Remark

namespace Run

/-- A run that ends before a server is started. -/
def early (code : Nat) (notice : List String) (failure : Option Failure) (files : Tree) : Run where
  code := code
  notice := notice
  responses := []
  rest := []
  failure := failure
  started := none
  received := []
  files := files
  remarks := []

def failed (f : Failure) (files : Tree) : Run := early 1 [] (some f) files

end Run

def Run.ofCommandLineError (e : CommandLineError) (files : Tree) : Run :=
  match e with
  | .help => .early 0 CommandLine.helpLines none files
  | .version => .early 0 [CommandLine.versionText] none files
  | _ => .early CommandLineError.exitCode.toNat [] none files

namespace Stage

/-- How long a response is waited for at most. -/
def longestAnswer : Nat := 1000000

def writtenCount (s : Stage) : Nat := (s.conversation.map fun c => c.written.length).getD 0

/-- Takes so many of the responses that were given first. -/
def takeFirst (s : Stage) (number : Nat) : Stage × List Agent.Response :=
  match s.conversation with
  | some c =>
    ({ s with conversation := some { c with written := c.written.drop number } },
      c.written.take number)
  | none => (s, [])

/-- Sends a line and waits for the responses that are expected behind it. -/
def exchange (s : Stage) (e : Exchange) : Stage × List Agent.Response :=
  let s := (s.tell e.line).getD s
  let s := passWhile (fun s => s.writtenCount < e.expected) (s.world.now + longestAnswer)
    greatestSteps s
  s.takeFirst e.expected

def exchangeAll (s : Stage) : List Exchange → Stage × List (List Agent.Response)
  | [] => (s, [])
  | e :: rest =>
    let (s, responses) := s.exchange e
    let (s, more) := s.exchangeAll rest
    (s, responses :: more)

/-- The failure that the end of a conversation stands for, if it does. -/
def endingFailure : Option (Ending × List Agent.Response) → Option Failure
  | some (.over fault, _) => fault.map .ofServe
  | _ => none

/-- Serves the agent until it has sent all its lines, and then ends the server. -/
def serve (s : Stage) (server : StartedServer) (exchanges : List Exchange) : Run :=
  let s := (s.tell []).getD s
  let (s, responses) := s.exchangeAll exchanges
  let (s, ending) := s.endTalk
  let (s, _) := s.shutDown
  let s := s.settle
  let failure := endingFailure ending
  { code := if failure.isSome then 1 else 0
    notice := []
    responses := responses
    rest := (ending.map (·.2)).getD []
    failure := failure
    started := some server
    received := s.received
    files := s.world.files
    remarks := Remark.serving ++ s.remarks.getD [] }

end Stage

/-- The server that a peer is, if it is one. -/
def serverOf? : Peer → Option StartedServer
  | .server server => some server
  | _ => none

def scriptOf (script : Script) : Peer → Script
  | .server _ => script
  | .echo => .echo
  | .silent => .leaving

/-- Runs the program with the peer that its server has turned out to be. -/
def runPeer (m : Machine) (settings : Settings) (script : Script) (processId : Json) (peer : Peer)
    (exchanges : List Exchange) : Run :=
  let host := Agent.offer CommandLine.programName CommandLine.programVersion settings.workspace
    settings.contextLines
  let stage := (Stage.withActor m.files m.cwd host settings.server (scriptOf script peer)).listen
  match stage.connect settings.server settings.workspace processId, serverOf? peer with
  | (s, none), some server => s.serve server exchanges
  | (s, e), server =>
    let failure := Failure.ofStart settings.server.command (e.getD (.connectionLost ""))
    { Run.failed failure s.world.files with
      started := server
      received := if server.isSome then s.received else []
      remarks := s.remarks.getD [] }

/-- Runs the program with a server that follows a script. -/
def runSettings (m : Machine) (settings : Settings) (script : Script) (processId : Json)
    (exchanges : List Exchange) : Run :=
  let launch := Launch.ofSettings settings
  match launch.start m with
  | .error obstacle => .failed (.ofStart launch.command (launch.error obstacle)) m.files
  | .ok peer =>
    let run := runPeer m settings script processId peer exchanges
    { run with remarks := Remark.started (scriptOf script peer).complaining ++ run.remarks }

def logLine : List UInt8 := utf8Bytes "remark\n"

/-- What a run leaves behind in its log: something if any remark is kept. -/
def Run.logged (run : Run) (m : Machine) (settings : Settings) (path : Path) : Run :=
  let directives := logDirectives (m.env.value? "RUST_LOG") settings.verbose settings.logLevel
  if (Remark.opening ++ run.remarks).any (keeps directives) then
    let written := { m with files := run.files }.append path logLine
    { run with files := (written.toOption).getD run.files }
  else run

def runProgram (m : Machine) (arguments : List String) (script : Script) (processId : Json)
    (exchanges : List Exchange) : Run :=
  match CommandLine.parse arguments with
  | .error e => .ofCommandLineError e m.files
  | .ok line =>
    match m.settings line with
    | .error e => .failed (.ofSettings e) m.files
    | .ok settings =>
      match settings.logFile with
      | none => runSettings m settings script processId exchanges
      | some path =>
        match m.openLog path with
        | .error e => .failed ⟨e.message, []⟩ m.files
        | .ok m => (runSettings m settings script processId exchanges).logged m settings path

end CodeIntel.Rehearsal

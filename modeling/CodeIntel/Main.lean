import CodeIntel.CommandLine.Parse
import CodeIntel.Program.Failure
import CodeIntel.Program.Machine

/-!
The program as it is called from a shell. It reads its command line and its settings where it runs,
but it cannot start another process: with settings that are in order it ends with the failure to
start their server. A whole run, with the server and the agent that talk to it, is
`Rehearsal.runProgram`, on a machine that is a value.
-/

namespace CodeIntel.Program

/-- The error of an operation of the machine. -/
def fileErrorOf : IO.Error → FileError
  | .noFileOrDirectory .. => .notFound
  | .permissionDenied .. => .accessDenied
  | .alreadyExists .. => .alreadyExists
  | .inappropriateType .. => .notDirectory
  | .invalidArgument .. => .invalidArgument
  | _ => .notFound

def attempt {α : Type} (act : IO α) : IO (Except FileError α) :=
  try Except.ok <$> act catch e => pure (.error (fileErrorOf e))

def readText (path : Path) : IO (Except FileError String) := do
  match ← attempt (IO.FS.readBinFile path.text) with
  | .error e => pure (.error e)
  | .ok content =>
    match ofUtf8? content.toList with
    | some text => pure (.ok text)
    | none => pure (.error .notText)

def realPath (path : Path) : IO (Except FileError Path) := do
  match ← attempt (IO.FS.realPath path.text) with
  | .error e => pure (.error e)
  | .ok real => pure (.ok (.ofString real.toString))

/-- Answers what the loading of settings asks. -/
def lookUp : (q : Lookup) → IO q.Reply
  | .realPath path => realPath path
  | .present path => Except.isOk <$> realPath path
  | .readText path => readText path
  | .envValue name => IO.getEnv name

def perform {α : Type} : Plan Lookup Lookup.Reply α → IO α
  | .done a => pure a
  | .ask q next => do perform (next (← lookUp q))

def fail (f : Failure) : IO UInt32 := do
  IO.eprintln f.text
  pure 1

/-- What follows settings that are in order. No server is ever started here, so the run fails, and
tells the server's command. -/
def begin (settings : Settings) : IO UInt32 :=
  let launch := Launch.ofSettings settings
  fail (.ofStart launch.command (launch.error "no server can be started here"))

/-- Help, version and what is wrong with the command line or the settings are told as in a run with
a server. -/
def run (arguments : List String) : IO UInt32 := do
  match CommandLine.parse arguments with
  | .error .help =>
    CommandLine.helpLines.forM IO.println
    pure 0
  | .error .version =>
    IO.println CommandLine.versionText
    pure 0
  | .error e =>
    IO.eprintln e.message
    pure CommandLineError.exitCode
  | .ok line =>
    match ← perform (Settings.load line).run with
    | .ok settings => begin settings
    | .error e => fail (.ofSettings e)

end CodeIntel.Program

def main (arguments : List String) : IO UInt32 := CodeIntel.Program.run arguments

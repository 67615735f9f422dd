import CodeIntel.Server.Error
import CodeIntel.Settings.Load
import CodeIntel.Shell.Run

namespace CodeIntel

/-- What the program finds where it runs. -/
structure Machine where
  files : Tree
  /-- The working directory. -/
  cwd : Path
  env : Environment
  /-- The files that hold programs. -/
  programs : List (Place × Executable)

namespace Machine

def lookUp (m : Machine) : (q : Lookup) → q.Reply
  | .realPath path => m.files.realPath (m.cwd.join path)
  | .present path => m.files.contains (m.cwd.join path)
  | .readText path => m.files.readText (m.cwd.join path)
  | .envValue name => m.env.value? name

def settings (m : Machine) (line : CommandLine) : Except SettingsError Settings :=
  ((Settings.load line).run.run (fun q m => (m.lookUp q, m)) m).1

/-- Puts bytes at the end of a file, which is made if there is none. -/
def append (m : Machine) (path : Path) (bytes : List UInt8) : Except FileError Tree :=
  let path := m.cwd.join path
  m.files.write path (((m.files.read path).toOption).getD [] ++ bytes)

/-- Makes ready the file that the log goes to, in directories that are made if need be. -/
def openLog (m : Machine) (path : Path) : Except FileError Machine := do
  let files ←
    match (m.cwd.join path).parent? with
    | some directory => m.files.makeDirectoriesOn directory
    | none => pure m.files
  let m := { m with files := files }
  pure { m with files := ← m.append path [] }

end Machine

/-- A server as it is started. -/
structure Launch where
  command : String
  args : List String
  env : Table String
  directory : Path

namespace Launch

def ofSettings (s : Settings) : Launch :=
  ⟨s.server.command, s.server.args, s.server.env, s.workspace⟩

/-- Whether some text of the launch holds a character that no argument can hold. -/
def hasNul (l : Launch) : Bool :=
  let texts := l.command :: l.args ++ l.env.entries.flatMap fun e => [e.1, e.2]
  texts.any fun text => text.toList.contains '\x00'

/-- Programs that start others are followed this far. -/
def greatestNesting : Nat := 64

/-- The site at which the machine starts the server, or why there are none. -/
def site (l : Launch) (m : Machine) : Except String Site :=
  if l.hasNul then .error "nul byte found in provided data"
  else
    match m.files.find l.directory true with
    | .error e => .error e.message
    | .ok (_, .directory _) => .ok ⟨m.files, m.programs, l.directory, m.env.extended l.env⟩
    | .ok _ => .error FileError.notDirectory.message

/-- Starts the server, or tells why the machine does not. What is started need not turn out to be a
server. A file of no known format is taken for a script only if the launch says where programs are. -/
def start (l : Launch) (m : Machine) : Except String Peer := do
  let around ← l.site m
  let loose := (l.env.get? "PATH").isSome && !l.command.toList.contains '/'
  match around.locate loose l.command l.args with
  | .ok (program, args) => pure (Shell.reach around greatestNesting program args)
  | .error e => throw e.message

def error (l : Launch) (obstacle : String) : ServerError :=
  .process s!"Failed to start {l.command}: {obstacle}"

end Launch

end CodeIntel

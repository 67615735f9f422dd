import CodeIntel.Path.Basic

namespace CodeIntel

structure CommandLine where
  workspace : Path
  server : Option String
  config : Option Path
  verbose : Bool
  logFile : Option Path
  requestTimeout : Option Nat
  contextLines : Option UInt32
  /-- The arguments for the server, which stand behind two dashes. -/
  serverArgs : List String

/-- Why a command line is not taken; help and version are asked for instead of the program. -/
inductive CommandLineError
  | help
  | version
  | unknownArgument
  | missingArgument
  /-- An option stands without its value. -/
  | missingValue
  /-- A switch stands with a value. -/
  | unneededValue
  | badValue
  /-- An argument stands twice. -/
  | repeated
deriving DecidableEq, Repr

namespace CommandLineError

/-- The exit code of a program that is not called as it should be. -/
def exitCode : UInt32 := 2

def message : CommandLineError → String
  | help => "help is asked for"
  | version => "the version is asked for"
  | unknownArgument => "error: an argument is not known"
  | missingArgument => "error: --workspace is missing"
  | missingValue => "error: an argument has no value"
  | unneededValue => "error: an argument takes no value"
  | badValue => "error: the value of an argument is not valid"
  | repeated => "error: an argument stands more than once"

end CommandLineError

namespace CommandLine

inductive ValueOption
  | workspace
  | server
  | config
  | logFile
  | requestTimeout
  | contextLines
deriving DecidableEq, Repr

/-- The arguments that take no value. -/
inductive Switch
  | verbose
  | help
  | version
deriving DecidableEq, Repr

inductive Named
  | option (o : ValueOption)
  | switch (s : Switch)
deriving DecidableEq, Repr

/-- The argument behind two dashes. -/
def long? : String → Option Named
  | "workspace" => some (.option .workspace)
  | "lsp" => some (.option .server)
  | "config" => some (.option .config)
  | "log-file" => some (.option .logFile)
  | "request-timeout" => some (.option .requestTimeout)
  | "context-lines" => some (.option .contextLines)
  | "verbose" => some (.switch .verbose)
  | "help" => some (.switch .help)
  | "version" => some (.switch .version)
  | _ => none

/-- The argument of one letter behind a dash. -/
def short? : Char → Option Named
  | 'w' => some (.option .workspace)
  | 'c' => some (.option .config)
  | 'v' => some (.switch .verbose)
  | 'h' => some (.switch .help)
  | 'V' => some (.switch .version)
  | _ => none

end CommandLine

end CodeIntel

import CodeIntel.CommandLine.Basic
import CodeIntel.Json.Number

namespace CodeIntel.CommandLine

def digits? (cs : List Char) : Option Nat :=
  if cs ≠ [] ∧ cs.all isDigit then some (cs.foldl (fun n c => n * 10 + digitValue c) 0) else none

/-- A number of 64 bits without a sign; a plus may stand before it. -/
def unsigned? (text : String) : Option Nat :=
  let n? :=
    match text.toList with
    | '+' :: rest => digits? rest
    | cs => digits? cs
  n?.filter fun n => n < UInt64.size

/-- A number of 32 bits; a plus may stand before it, and a minus before zero. -/
def word? (text : String) : Option UInt32 :=
  let n? :=
    match text.toList with
    | '+' :: rest => digits? rest
    | '-' :: rest => (digits? rest).filter fun n => n = 0
    | cs => digits? cs
  (n?.filter fun n => n < UInt32.size).map UInt32.ofNat

def path? (text : String) : Except CommandLineError Path :=
  if text = "" then .error .missingValue else .ok (.ofString text)

/-- The arguments met so far. -/
structure Draft where
  workspace : Option Path
  server : Option String
  config : Option Path
  verbose : Bool
  logFile : Option Path
  requestTimeout : Option Nat
  contextLines : Option UInt32
deriving Inhabited

namespace Draft

/-- Takes the value of an option that may not have one yet. -/
def fill {α : Type} (slot : Option α) (value : Except CommandLineError α) (put : α → Draft) :
    Except CommandLineError Draft :=
  if slot.isSome then .error .repeated else value.map put

def number {α : Type} (value : Option α) : Except CommandLineError α :=
  match value with
  | some n => .ok n
  | none => .error .badValue

def accept (d : Draft) (option : ValueOption) (text : String) : Except CommandLineError Draft :=
  match option with
  | .workspace => fill d.workspace (path? text) fun p => { d with workspace := some p }
  | .server => fill d.server (.ok text) fun s => { d with server := some s }
  | .config => fill d.config (path? text) fun p => { d with config := some p }
  | .logFile => fill d.logFile (path? text) fun p => { d with logFile := some p }
  | .requestTimeout =>
    fill d.requestTimeout (number (unsigned? text)) fun n => { d with requestTimeout := some n }
  | .contextLines =>
    fill d.contextLines (number (word? text)) fun n => { d with contextLines := some n }

def turn (d : Draft) : Switch → Except CommandLineError Draft
  | .help => .error .help
  | .version => .error .version
  | .verbose => if d.verbose then .error .repeated else .ok { d with verbose := true }

/-- The command line, if it has what it must have. -/
def complete (d : Draft) (serverArgs : List String) : Except CommandLineError CommandLine :=
  match d.workspace with
  | none => .error .missingArgument
  | some workspace =>
    .ok ⟨workspace, d.server, d.config, d.verbose, d.logFile, d.requestTimeout, d.contextLines,
      serverArgs⟩

end Draft

def programName : String := "lspbridge"

def programVersion : String := "0.1.0"

def versionText : String := s!"{programName} {programVersion}"

/-- The arguments with their uses. -/
def helpLines : List String :=
  ["MCP server exposing a language server to coding agents", "",
    "Usage: lspbridge [OPTIONS] --workspace <WORKSPACE> [-- <LSP_ARGS>...]", "",
    "Arguments:",
    "  [LSP_ARGS]...  Arguments passed to the language server", "",
    "Options:",
    "  -w, --workspace <WORKSPACE>",
    "          Workspace root the language server indexes",
    "      --lsp <LSP>",
    "          Language server command (e.g. gopls, rust-analyzer)",
    "  -c, --config <CONFIG>",
    "          Workspace config file (default: <workspace>/lspbridge.json)",
    "  -v, --verbose",
    "          Enable verbose logging",
    "      --log-file <LOG_FILE>",
    "          Append logs to this file instead of stderr",
    "      --request-timeout <REQUEST_TIMEOUT>",
    "          Seconds to wait for any language server request",
    "      --context-lines <CONTEXT_LINES>",
    "          Lines of source shown around diagnostics and references",
    "  -h, --help",
    "          Print help",
    "  -V, --version",
    "          Print version"]

/-- An option whose value is to come or has just come. -/
inductive Pending
  | none
  | open (option : ValueOption)
  | filled (option : ValueOption) (text : String)

structure Parser where
  draft : Draft
  pending : Pending

namespace Parser

def start : Parser := ⟨default, .none⟩

/-- Takes the option that was named before, now that its value must have come. -/
def settle (p : Parser) : Except CommandLineError Parser :=
  match p.pending with
  | .none => .ok p
  | .open _ => .error .missingValue
  | .filled option text => (p.draft.accept option text).map fun d => ⟨d, .none⟩

/-- Takes an option with the value that stands in the same argument, or waits for the next. -/
def takeOption (p : Parser) (option : ValueOption) (value : Option String) :
    Except CommandLineError Parser := do
  let p ← p.settle
  match value with
  | some text => pure { p with draft := ← p.draft.accept option text }
  | none => pure { p with pending := .open option }

def takeSwitch (p : Parser) (switch : Switch) : Except CommandLineError Parser := do
  let p ← p.settle
  pure { p with draft := ← p.draft.turn switch }

/-- Takes an argument behind two dashes; a value may follow an equals sign. -/
def takeLong (p : Parser) (text : List Char) : Except CommandLineError Parser :=
  let name := text.takeWhile (· ≠ '=')
  let value :=
    match text.dropWhile (· ≠ '=') with
    | _ :: rest => some (String.ofList rest)
    | [] => none
  match long? (String.ofList name), value with
  | some (.option option), value => p.takeOption option value
  | some (.switch switch), none => p.takeSwitch switch
  | some (.switch _), some _ => .error .unneededValue
  | none, _ => .error .unknownArgument

/-- What an option of one letter finds behind itself: its value, perhaps after an equals sign. -/
def attached : List Char → Option String
  | [] => none
  | '=' :: rest => some (String.ofList rest)
  | rest => some (String.ofList rest)

/-- Takes the letters behind one dash. -/
def takeShort (p : Parser) : List Char → Except CommandLineError Parser
  | [] => .ok p
  | c :: rest =>
    match short? c with
    | some (.option option) => p.takeOption option (attached rest)
    | some (.switch switch) => do (← p.takeSwitch switch).takeShort rest
    | none => .error .unknownArgument

/-- Takes an argument without dashes, which must be the value of an option. -/
def takeValue (p : Parser) (text : String) : Except CommandLineError Parser :=
  match p.pending with
  | .open option => .ok { p with pending := .filled option text }
  | _ => .error .unknownArgument

def finish (p : Parser) (serverArgs : List String) : Except CommandLineError CommandLine := do
  (← p.settle).draft.complete serverArgs

/-- Takes an argument by its dashes; a dash alone is a value. -/
def take (p : Parser) (text : String) : Except CommandLineError Parser :=
  match text.toList with
  | '-' :: '-' :: rest => p.takeLong rest
  | '-' :: c :: rest => p.takeShort (c :: rest)
  | _ => p.takeValue text

def run (p : Parser) : List String → Except CommandLineError CommandLine
  | [] => p.finish []
  | text :: rest =>
    if text = "--" then p.finish rest
    else do (← p.take text).run rest

end Parser

/-- Reads the arguments of the program. -/
def parse (arguments : List String) : Except CommandLineError CommandLine :=
  Parser.start.run arguments

end CodeIntel.CommandLine

import CodeIntel.CommandLine.Basic
import CodeIntel.Files.Tree
import CodeIntel.Json.Reader
import CodeIntel.Path.Basic
import CodeIntel.Path.Normal
import CodeIntel.Server.Config
import CodeIntel.Text.Basic

namespace CodeIntel

/-- What a file of settings says; it may leave out anything. -/
structure SettingsFile where
  command : Option String
  args : Option (List String)
  env : Table String
  languageIds : Table String
  requestTimeoutSecs : Option Nat
  diagnosticsWaitMs : Option Nat
  contextLines : Option UInt32
  logLevel : Option String

namespace SettingsFile

def empty : SettingsFile := ⟨none, none, .empty, .empty, none, none, none, none⟩

/-- What a file says about the server. -/
structure ServerPart where
  command : Option String
  args : Option (List String)
  env : Table String
  languageIds : Table String

namespace ServerPart

def empty : ServerPart := ⟨none, none, .empty, .empty⟩

def memberNames : List String := ["command", "args", "env", "languageIds"]

def decode : Decoder ServerPart :=
  Fields.decode "LspSection" <|
    ServerPart.mk <$> .omittable "command" .string
      <*> .omittable "args" (.list .string)
      <*> .defaulted "env" ServerConfig.stringTable .empty
      <*> .defaulted "languageIds" ServerConfig.stringTable .empty

end ServerPart

def serverName : String := "lsp"

def memberNames : List String :=
  [serverName, "requestTimeoutSecs", "diagnosticsWaitMs", "contextLines", "logLevel"]

def decode : Decoder SettingsFile :=
  Fields.decode "FileConfig" <|
    (fun server timeout wait lines level =>
      ⟨server.command, server.args, server.env, server.languageIds, timeout, wait, lines, level⟩)
      <$> .defaulted serverName ServerPart.decode .empty
      <*> .omittable "requestTimeoutSecs" .u64
      <*> .omittable "diagnosticsWaitMs" .u64
      <*> .omittable "contextLines" .u32
      <*> .omittable "logLevel" .string

/-- Whether a value, as it is written, has none of the names twice. -/
def eachOnce (names : List String) : Json → Bool
  | .object members => names.all fun name => (members.filter fun m => m.1 == name).length ≤ 1
  | _ => true

def writtenServer : Json → Json
  | .object members => .ofOption (findEntry serverName members)
  | .array (first :: _) => first
  | _ => .null

/-- What is read in the stead of something without a value. No known name takes a boolean, so it
passes only where nothing is looked for. -/
def valueless : Json := .bool false

/-- Reads the text of a file. A known name may not stand twice in one place; in the tables the
last entry of a name counts. -/
def ofText? (text : String) : Option SettingsFile := do
  let written ← Json.Loose.ofChars? valueless text.toList
  if eachOnce memberNames written && eachOnce ServerPart.memberNames (writtenServer written) then
    (decode written.normalize).toOption
  else none

/-- Both files together; what the second says counts before the first. -/
def merge (first second : SettingsFile) : SettingsFile where
  command := second.command.or first.command
  args := second.args.or first.args
  env := first.env.merge second.env
  languageIds := first.languageIds.merge second.languageIds
  requestTimeoutSecs := second.requestTimeoutSecs.or first.requestTimeoutSecs
  diagnosticsWaitMs := second.diagnosticsWaitMs.or first.diagnosticsWaitMs
  contextLines := second.contextLines.or first.contextLines
  logLevel := second.logLevel.or first.logLevel

end SettingsFile

/-- Why there are no settings. -/
inductive SettingsError
  | workspaceNotFound (path : Path) (cause : FileError)
  | unreadable (path : Path) (cause : FileError)
  | malformed (path : Path)
  | variableNotFound (name : String)
  | noServer
deriving DecidableEq, Repr

namespace SettingsError

def message : SettingsError → String
  | workspaceNotFound path cause => s!"Workspace not found: {path.text}: {cause.message}"
  | unreadable path cause => s!"Failed to read config file {path.text}: {cause.message}"
  | malformed path => s!"Invalid JSON in {path.text}"
  | variableNotFound name => s!"Environment variable not found: {name}"
  | noServer => "No language server configured: pass --lsp or set lsp.command in lspbridge.json"

/-- What lies behind the error. -/
def causes : SettingsError → List String
  | workspaceNotFound _ cause => [cause.message]
  | unreadable _ cause => [cause.message]
  | _ => []

end SettingsError

/-- All that the program goes by. -/
structure Settings where
  /-- The root of the workspace, without links. -/
  workspace : Path
  server : ServerConfig
  contextLines : UInt32
  verbose : Bool
  logLevel : Option String
  logFile : Option Path
  /-- The files that were read, those that count less first. -/
  files : List Path

namespace Settings

/-- So many lines are shown around a place unless something else is asked for. -/
def defaultContextLines : UInt32 := 3

def knownServer (command : String) : ServerConfig :=
  let name := ((Path.ofString command).fileName?.bind ofUtf8?).getD command
  match ServerConfig.preset? name with
  | some config => { config with command := command }
  | none => .ofCommand command

/-- The arguments of the server: those of the command line, if there are any, else those of the
file, else those it is known to need. -/
def serverArgs (line : CommandLine) (file : SettingsFile) (known : ServerConfig) : List String :=
  if line.serverArgs.isEmpty then file.args.getD known.args else line.serverArgs

def serverConfig (line : CommandLine) (file : SettingsFile) (command : String) : ServerConfig :=
  let known := knownServer command
  { known with
    args := serverArgs line file known
    env := known.env.merge file.env
    languageIds := known.languageIds.merge file.languageIds
    requestTimeoutSecs :=
      (line.requestTimeout.or file.requestTimeoutSecs).getD known.requestTimeoutSecs
    diagnosticsWaitMs := file.diagnosticsWaitMs.getD known.diagnosticsWaitMs }

/-- The settings by the command line and the files; the command line counts first. -/
def resolve (line : CommandLine) (file : SettingsFile) (workspace : Path) (files : List Path) :
    Except SettingsError Settings :=
  match (line.server.or file.command).filter fun command => !isBlankText command.toList with
  | none => .error .noServer
  | some command =>
    .ok
      { workspace := workspace
        server := serverConfig line file command
        contextLines := (line.contextLines.or file.contextLines).getD defaultContextLines
        verbose := line.verbose
        logLevel := file.logLevel
        logFile := line.logFile
        files := files }

end Settings

end CodeIntel

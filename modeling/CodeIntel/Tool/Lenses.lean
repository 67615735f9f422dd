import CodeIntel.Json.Writer
import CodeIntel.Tool.Basic

namespace CodeIntel.Lenses

/-- Brings the server up to date and fetches the lenses of a file. -/
def fetch (path : Path) : Action (List CodeLens) := do
  Action.request (.sync path)
  Action.request (.codeLenses path)

/-- A lens in a list, numbered from one. -/
def entry (number : Nat) (lens : CodeLens) : String :=
  let (title, command) :=
    match lens.command with
    | some command => (command.title, command.command)
    | none => ("(unresolved)", "(none)")
  s!"[{number}] {title} (L{lens.range.start.line + 1}-L{lens.range.stop.line + 1}) " ++
    s!"command: {command}"

/-- The lenses one below the other; `number` is that of the first. -/
def entries : Nat → List CodeLens → String
  | _, [] => ""
  | number, lens :: rest => s!"{entry number lens}\n" ++ entries (number + 1) rest

def numbered? (lenses : List CodeLens) (index : Int) : Option CodeLens :=
  if index < 1 then none else lenses[(index - 1).toNat]?

def metadata (count : Nat) : Json := .ofMembers [("count", .nat count)]

namespace Listing

def schema : ToolSchema where
  name := "get_codelens"
  description :=
    "Get code lens hints for a given file from the language server. Use the returned index with " ++
      "execute_codelens."
  fields :=
    [{ name := "filePath"
       kind := .string
       description := "The path to the file to get code lens information for"
       required := true }]

def run (caller : Caller) (args : Json) : Action Output := do
  let filePath ← Tool.arguments "FileArgs" (.required "filePath" .string) args
  let path ← Action.resolvePath filePath caller.surroundings
  let file := path.shown caller.surroundings.root
  let lenses ← fetch path
  if lenses.isEmpty then
    pure ⟨file, s!"No code lens found for {file}", metadata 0⟩
  else
    let text := s!"Code lenses for {file} ({lenses.length}):\n" ++ entries 1 lenses
    pure ⟨file, text, metadata lenses.length⟩

def tool : Tool := ⟨schema, run⟩

end Listing

namespace Execution

def schema : ToolSchema where
  name := "execute_codelens"
  description :=
    "Execute a code lens command for a given file and lens index. Indices come from get_codelens."
  fields :=
    [{ name := "filePath"
       kind := .string
       description := "The path to the file containing the code lens"
       required := true },
      { name := "index"
        kind := .integer
        description := "The 1-based index of the code lens to execute"
        required := true }]

structure Arguments where
  filePath : String
  index : Int

def fields : Fields Arguments :=
  Arguments.mk <$> .required "filePath" .string <*> .required "index" .i64

/-- The command to run: that of the lens with the given number in a list. -/
def choose (lenses : List CodeLens) (index : Int) (file : String) : Except ToolError Command :=
  match numbered? lenses index with
  | none => .error (.indexOutOfRange index lenses.length)
  | some lens =>
    match lens.command with
    | some command => .ok command
    | none =>
      .error <| .backend <| .requestFailed
        s!"code lens {index} in {file} has no command, even after resolving"

/-- The result of a command, unless there is none. -/
def resultText : Option Json → String
  | none => ""
  | some .null => ""
  | some result => s!"\nResult: {result.text}"

def run (caller : Caller) (args : Json) : Action Output := do
  let args ← Tool.arguments "ExecuteArgs" fields args
  let path ← Action.resolvePath args.filePath caller.surroundings
  let file := path.shown caller.surroundings.root
  let lenses ← fetch path
  let command ← (choose lenses args.index file : Except ToolError Command)
  let result ← Action.request (.execute command)
  let text := s!"Successfully executed code lens {args.index} ({command.title}) in {file}"
  let facts : Json := .ofMembers [("command", .string command.command), ("result", .ofOption result)]
  pure ⟨file, text ++ resultText result, facts⟩

def tool : Tool := ⟨schema, run⟩

end Execution

end CodeIntel.Lenses

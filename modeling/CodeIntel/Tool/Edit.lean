import CodeIntel.Diff.Hunk
import CodeIntel.Edit.Request
import CodeIntel.Path.Normal
import CodeIntel.Tool.Ask
import CodeIntel.Tool.Basic

namespace CodeIntel

/-- The name of the file that is filled before it takes the place of another one. -/
def temporaryPath (path : Path) (fresh : String) : Path :=
  let name := lossyText ((path.fileName?).getD [])
  ((path.parent?).getD (.ofString ".")).join (.ofString s!".{name}.{fresh}.tmp")

namespace Action

def fill (temporary path : Path) (text : String) : CallPlan (Except FileError Unit) := do
  match ← Plan.query (Ask.write temporary text) with
  | .error e => pure (.error e)
  | .ok () =>
    match ← Plan.query (Ask.mode path) with
    | .error e => pure (.error e)
    | .ok mode => Plan.query (Ask.setMode temporary mode)

/-- Removes a temporary file, as far as that can be done, and fails. -/
def giveUp (temporary : Path) (cause : ToolError) : Action Unit := do
  let _ ← ask (.remove temporary)
  throw cause

/-- Replaces what a file holds in one step: another file is filled and takes its name. -/
def replace (path : Path) (text : String) : Action Unit := do
  let temporary := temporaryPath path (← ask .freshName)
  match ← liftM (m := CallPlan) (fill temporary path text) with
  | .error e => giveUp temporary (.fileIo path e.message)
  | .ok () =>
    if ← ask .cancelled then giveUp temporary .cancelled
    else
      match ← ask (.rename temporary path) with
      | .error e => giveUp temporary (.fileIo path e.message)
      | .ok () => pure ()

/-- Does something while no other call does anything to the same file. -/
def exclusively {α : Type} (path : Path) (action : Action α) : Action α := do
  if ← ask (.enterFile path) then
    let result ← liftM (m := CallPlan) action.run
    ask (.leaveFile path)
    liftM result
  else throw .cancelled

end Action

end CodeIntel

namespace CodeIntel.EditFile

def typed (kind : FieldKind) (more : List (String × Json)) : Json :=
  .ofMembers (("type", .string kind.name) :: more)

def objectSchema (more : List (String × Json)) : Json :=
  .ofMembers (("type", .string "object") :: more)

def positionSchema : Json :=
  objectSchema
    [("properties", .ofMembers [("line", typed .integer []), ("character", typed .integer [])])]

def editSchema : Json :=
  objectSchema
    [("description",
        .string <|
          "Either \x7brange, newText\x7d with a 0-based LSP range, or " ++
            "\x7bstartLine, endLine, newText\x7d with 1-based inclusive lines"),
      ("properties", .ofMembers
        [("range",
            objectSchema
              [("properties", .ofMembers [("start", positionSchema), ("end", positionSchema)])]),
          ("startLine", typed .integer [("description", .string "First line to replace, 1-based")]),
          ("endLine",
            typed .integer [("description", .string "Last line to replace, 1-based, inclusive")]),
          ("newText",
            typed .string [("description", .string "Replacement text; empty to delete")])]),
      ("required", .array [.string "newText"])]

def schema : ToolSchema where
  name := "apply_text_edit"
  description :=
    "Apply multiple text edits to a file. All edits are validated against the current content " ++
      "before any is applied; overlapping edits are rejected."
  fields :=
    [{ name := "filePath", kind := .string, description := "Path to the file to edit"
       required := true },
      { name := "edits", kind := .array, description := "List of edits to apply"
        required := true, items := some editSchema }]

structure Arguments where
  filePath : String
  edits : List Json

def fields : Fields Arguments :=
  Arguments.mk <$> .required "filePath" .string <*> .required "edits" (.list .json)

/-- Reads edits numbered from `number`; the first that is none is reported. -/
def readEdits : Nat → List Json → Except ToolError (List EditRequest)
  | _, [] => pure []
  | number, value :: rest => do
    let request ← (EditRequest.ofJson value).mapError fun e =>
      .validation s!"Invalid edit {number}: {e.message}"
    let more ← readEdits (number + 1) rest
    pure (request :: more)

/-- The range edits that requests numbered from `number` mean in a text. -/
def resolveEdits (text : List Char) : Nat → List EditRequest → Except ToolError (List TextEdit)
  | _, [] => pure []
  | number, request :: rest => do
    let edit ← (request.resolve text).mapError fun e =>
      .invalidEditRange s!"edit {number}: {e.message}"
    let more ← resolveEdits text (number + 1) rest
    pure (edit :: more)

/-- The text after range edits; where they cannot be applied, their ranges are at fault. -/
def applied (text : List Char) (edits : List TextEdit) : Except ToolError (List Char) :=
  (applyEdits text edits).mapError fun e => .invalidEditRange e.message

/-- The text after all edits, each resolved in the text before any. -/
def updated (text : List Char) (requests : List EditRequest) : Except ToolError (List Char) := do
  let edits ← resolveEdits text 1 requests
  applied text edits

def descriptions : Nat → List EditRequest → String
  | _, [] => ""
  | number, request :: rest =>
    s!"  {number}. {request.describe}\n" ++ descriptions (number + 1) rest

/-- What is told of the edits before the changes. -/
def heading (requests : List EditRequest) (file : String) : String :=
  s!"Successfully applied {requests.length} edit(s) to {file}\n" ++ descriptions 1 requests

/-- The line in which a failure to tell the server of the new text is told. -/
def warningStart : String := "\nWarning: the language server was not notified of the change: "

/-- What is told if the server could not be told of the new text. -/
def warning : Except QueryFailure Unit → String
  | .ok () => ""
  | .error failure => warningStart ++ s!"{failure.toolError.message}\n"

def metadata (path : Path) (edits : Nat) (changed : Bool) : Json :=
  .ofMembers [("path", .string path.text), ("edits", .nat edits), ("changed", .bool changed)]

/-- Edits a file by its real path, read and written without another call in between; `file` is its
name as it is shown. -/
def editReal (path : Path) (requests : List EditRequest) (file : String) : Action Output := do
  let before ← Action.readText path
  let after ← (updated before.toList requests : Except ToolError (List Char))
  Action.checkCancelled
  if after = before.toList then
    let text := heading requests file ++ "\n(no changes)\n"
    pure ⟨file, text, metadata path requests.length false⟩
  else
    let content := String.ofList after
    let changes := String.ofList (Diff.render before.toList after file)
    Action.replace path content
    let told ← Action.ask (.query (.changed path content))
    let text := heading requests file ++ warning told ++ s!"\n{changes}"
    pure ⟨file, text, metadata path requests.length true⟩

def run (caller : Caller) (args : Json) : Action Output := do
  let args ← Tool.arguments "ApplyArgs" fields args
  let requested ← Action.resolvePath args.filePath caller.surroundings
  if args.edits.isEmpty then throw (.validation "No edits provided")
  let requests ← (readEdits 1 args.edits : Except ToolError (List EditRequest))
  match ← Action.ask (.realPath requested) with
  | .error e => throw (.fileIo requested e.message)
  | .ok path =>
    Action.exclusively path (editReal path requests (requested.shown caller.surroundings.root))

def tool : Tool := ⟨schema, run⟩

end CodeIntel.EditFile

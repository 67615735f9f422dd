import CodeIntel.Excerpt
import CodeIntel.Tool.Basic

namespace CodeIntel.Diagnostics

def schema : ToolSchema where
  name := "get_diagnostics"
  description :=
    "Get diagnostic information (errors, warnings, hints) for a specific file from the language " ++
      "server."
  fields :=
    [{ name := "filePath"
       kind := .string
       description := "The path to the file to get diagnostics for"
       required := true },
      { name := "includeContext"
        kind := .boolean
        description := "Include source lines around each diagnostic"
        default := some (.bool false) },
      { name := "showLineNumbers"
        kind := .boolean
        description := "Show line numbers in the source excerpts"
        default := some (.bool true) }]

structure Arguments where
  filePath : String
  includeContext : Bool
  showLineNumbers : Bool

def fields : Fields Arguments :=
  Arguments.mk <$> .required "filePath" .string <*> .required "includeContext" .bool
    <*> .required "showLineNumbers" .bool

/-- Ranks first, then lines, then columns. -/
def le (a b : Diagnostic) : Bool :=
  a.rank < b.rank || (a.rank = b.rank && a.range.start.le b.range.start)

/-- The severities in the order of their ranks. -/
def rankNames : List String := ["error", "warning", "information", "hint", "unspecified"]

def counted (count : Nat) (name : String) : String :=
  if count = 1 || name == "information" then s!"{count} {name}" else s!"{count} {name}s"

def countRank (diagnostics : List Diagnostic) (rank : Nat) : Nat :=
  diagnostics.countP fun d => d.rank = rank

/-- How many there are of each severity that occurs. -/
def summary (diagnostics : List Diagnostic) : String :=
  ", ".intercalate <| rankNames.zipIdx.filterMap fun (name, rank) =>
    let count := countRank diagnostics rank
    if count = 0 then none else some (counted count name)

/-- Where a diagnostic comes from, as it stands behind its message. -/
def originText (source : Option String) (code : Option DiagnosticCode) : String :=
  match source, code with
  | some source, some code => s!" [{source} {code.display}]"
  | some source, none => s!" [{source}]"
  | none, some code => s!" [{code.display}]"
  | none, none => ""

def headline (d : Diagnostic) : String :=
  s!"{severityName d.severity} at {d.range.start.text}: {d.message}" ++ originText d.source d.code

def entry (lines : List (List Char)) (context : UInt32) (numbers : Bool) (d : Diagnostic) : String :=
  let span := (LineSpan.ofRange d.range).widen context lines.length
  s!"\n{headline d}\n" ++ String.ofList (excerpt lines span numbers)

def report (file text : String) (context : UInt32) (numbers : Bool) (sorted : List Diagnostic) :
    String :=
  let lines := splitLines text.toList
  s!"Diagnostics for {file}: {summary sorted}\n" ++
    String.join (sorted.map (entry lines context numbers))

def metadata (count : Nat) : Json := .ofMembers [("count", .nat count)]

def run (caller : Caller) (args : Json) : Action Output := do
  let args ← Tool.arguments "DiagnosticsArgs" fields args
  let path ← Action.resolvePath args.filePath caller.surroundings
  let file := path.shown caller.surroundings.root
  Action.request (.sync path)
  match ← Action.request (.diagnostics path) with
  | none => throw (.diagnosticsUnavailable path)
  | some [] => pure ⟨file, s!"No diagnostics found for {file}", metadata 0⟩
  | some found =>
    let text ← Action.readText path
    let context := if args.includeContext then caller.contextLines else 0
    let sorted := sortBy le found
    pure ⟨file, report file text context args.showLineNumbers sorted, metadata found.length⟩

def tool : Tool := ⟨schema, run⟩

end CodeIntel.Diagnostics

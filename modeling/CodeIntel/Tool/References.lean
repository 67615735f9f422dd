import CodeIntel.Excerpt
import CodeIntel.Tool.Basic

namespace CodeIntel.References

def schema : ToolSchema where
  name := "find_references"
  description :=
    "Find all usages and references of a symbol throughout the codebase. Returns each reference " ++
      "with surrounding lines, grouped by file."
  fields :=
    [{ name := "symbolName"
       kind := .string
       description := "The name of the symbol to search for"
       required := true },
      { name := "showLineNumbers"
        kind := .boolean
        description := "Include line numbers when showing where the symbol is used"
        default := some (.bool true) }]

/-- A file with the ranges found in it. -/
abbrev Group := Path × List Range

/-- Adds a location to the group of its path. Groups are in ascending order, and one keeps the path
as it was written first. -/
def addLocation (location : Location) : List Group → List Group
  | [] => [(location.path, [location.range])]
  | (path, ranges) :: rest =>
    if path.same location.path then (path, ranges ++ [location.range]) :: rest
    else if path.le location.path then (path, ranges) :: addLocation location rest
    else (location.path, [location.range]) :: (path, ranges) :: rest

/-- Of equal neighbours one stays. -/
def withoutRepeats : List Range → List Range
  | a :: b :: rest => if a = b then withoutRepeats (b :: rest) else a :: withoutRepeats (b :: rest)
  | ranges => ranges

/-- Locations by file, each with its ranges in ascending order and each range once. -/
def groupByFile (locations : List Location) : List Group :=
  (locations.foldl (fun groups location => addLocation location groups) []).map
    fun (path, ranges) => (path, withoutRepeats (sortBy Range.le ranges))

def count (groups : List Group) : Nat := groups.foldl (fun n group => n + group.2.length) 0

/-- The lines around the ranges, those that overlap or touch shown as one. -/
def windows (context : UInt32) (lines : Nat) (ranges : List Range) : List LineSpan :=
  LineSpan.merge <| ranges.map fun r => LineSpan.widen ⟨r.start.line, r.stop.line⟩ context lines

def snippet (text : String) (ranges : List Range) (context : UInt32) (numbers : Bool) : String :=
  let lines := splitLines text.toList
  String.ofList (excerpts lines (windows context lines.length ranges) numbers)

/-- The lines that stand before a file's source. -/
def heading (group : Group) (root : Path) : String :=
  let places := ", ".intercalate (group.2.map fun r => r.start.text)
  s!"\n{group.1.shown root}\nReferences: {places}\n"

/-- The part of the report on one file; a file that cannot be read is told of in its place. -/
def fileReport (group : Group) (root : Path) (context : UInt32) (numbers : Bool) :
    Except FileError String → String
  | .ok text => heading group root ++ snippet text group.2 context numbers
  | .error e => heading group root ++ s!"(source unavailable: {e.message})\n"

/-- The parts of the report on all files. -/
def reports (caller : Caller) (numbers : Bool) : List Group → Action String
  | [] => pure ""
  | group :: rest => do
    Action.checkCancelled
    let text ← Action.ask (.readText group.1)
    let more ← reports caller numbers rest
    pure (fileReport group caller.surroundings.root caller.contextLines numbers text ++ more)

def metadata (count files : Nat) : Json := .ofMembers [("count", .nat count), ("files", .nat files)]

def run (caller : Caller) (args : Json) : Action Output := do
  let args ← Tool.arguments "ReferencesArgs" SymbolArguments.fields args
  let s ← resolveSymbol args.symbolName caller.surroundings.root
  let declared ← s.declaration
  let found ← Action.request (.references declared.path declared.range.start false)
  let title := s.qualifiedName
  if found.isEmpty then
    pure ⟨title, s!"No references found for {title}", metadata 0 0⟩
  else
    let groups := groupByFile found
    let total := count groups
    let text ← reports caller args.showLineNumbers groups
    let first := s!"Found {total} reference(s) to {title} in {groups.length} file(s)\n"
    pure ⟨title, first ++ text, metadata total groups.length⟩

def tool : Tool := ⟨schema, run⟩

end CodeIntel.References

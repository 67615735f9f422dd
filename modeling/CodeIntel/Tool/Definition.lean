import CodeIntel.Excerpt
import CodeIntel.Tool.Basic

namespace CodeIntel.Definition

def schema : ToolSchema where
  name := "read_definition"
  description :=
    "Read the source code definition of a symbol (function, type, constant, etc.) from the " ++
      "codebase. Qualify names with their container (e.g. Server.Run) to disambiguate."
  fields :=
    [{ name := "symbolName"
       kind := .string
       description := "The name of the symbol whose definition you want to find"
       required := true },
      { name := "showLineNumbers"
        kind := .boolean
        description := "Include line numbers in the returned source code"
        default := some (.bool true) }]

/-- The range of the innermost symbol around a declaration, or that of the declaration alone. -/
def fullRange (symbols : List DocumentSymbol) (declared : Range) : Range :=
  match DocumentSymbol.innermost declared.start symbols with
  | some s => s.range
  | none => declared

/-- What is told about a symbol before its source. -/
def heading (s : WorkspaceSymbol) (file : String) (range : Range) : String :=
  let container :=
    match s.container with
    | some container => if container.isEmpty then "" else s!"Container: {container}\n"
    | none => ""
  s!"Symbol: {s.name}\nKind: {symbolKindName s.kind}\n" ++ container ++
    s!"File: {file}\nRange: {range.text}\n\n"

/-- The lines that a range covers. -/
def source (text : String) (range : Range) (numbers : Bool) : String :=
  String.ofList (excerpt (splitLines text.toList) (LineSpan.ofRange range) numbers)

def metadata (path : Path) (range : Range) : Json :=
  .ofMembers
    [("path", .string path.text), ("startLine", .nat (range.start.line + 1).toNat),
      ("endLine", .nat (range.stop.line + 1).toNat)]

def run (caller : Caller) (args : Json) : Action Output := do
  let args ← Tool.arguments "DefinitionArgs" SymbolArguments.fields args
  let root := caller.surroundings.root
  let s ← resolveSymbol args.symbolName root
  let declared ← s.declaration
  let symbols ← Action.request (.documentSymbols declared.path)
  let range := fullRange symbols declared.range
  let text ← Action.readText declared.path
  pure
    { title := s.qualifiedName
      text := heading s (declared.path.shown root) range ++ source text range args.showLineNumbers
      metadata := metadata declared.path range }

def tool : Tool := ⟨schema, run⟩

end CodeIntel.Definition

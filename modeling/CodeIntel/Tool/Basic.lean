import CodeIntel.Shape.Fields
import CodeIntel.Symbol.Query
import CodeIntel.Tool.Ask
import CodeIntel.Tool.Schema

namespace CodeIntel

/-- What a tool gives back: a title, the text to read, and facts about it. -/
structure Output where
  title : String
  text : String
  metadata : Json

/-- Where a call comes from, and how many lines it is shown around a place. -/
structure Caller where
  surroundings : Surroundings
  contextLines : UInt32

/-- A tool on offer. It is run on arguments that its schema has accepted. -/
structure Tool where
  schema : ToolSchema
  run : Caller → Json → Action Output

namespace Tool

/-- Reads arguments that a schema has accepted. -/
def arguments {α : Type} (name : String) (fields : Fields α) (args : Json) : Action α :=
  match fields.decode name args with
  | .ok a => pure a
  | .error e => throw (.validation s!"Invalid arguments: {e.message}")

/-- Checks arguments against the schema of the tool and runs it on them. -/
def call (tool : Tool) (caller : Caller) (args : Json) : Action Output :=
  match tool.schema.validate args with
  | .ok members => tool.run caller (.object members)
  | .error e => throw (.validation e.message)

end Tool

/-- The symbol that a query names. A qualified name that brings no candidates is looked up once
more without its container. -/
def SymbolQuery.resolve (q : SymbolQuery) (root : Path) : Action WorkspaceSymbol := do
  let found ← Action.request (.workspaceSymbols (String.ofList q.normalized))
  let candidates ←
    if found.isEmpty && q.isQualified then
      Action.request (.workspaceSymbols (String.ofList q.last))
    else pure found
  liftM (q.select candidates root)

def resolveSymbol (name : String) (root : Path) : Action WorkspaceSymbol :=
  match SymbolQuery.parse? name with
  | some query => query.resolve root
  | none => throw SymbolQuery.emptyName

/-- Where a symbol is declared: the first place the server names, or where it was found. -/
def WorkspaceSymbol.declaration (s : WorkspaceSymbol) : Action Location := do
  match ← Action.request (.definition s.path s.range.start) with
  | first :: _ => pure first
  | [] => pure ⟨s.path, s.range⟩

/-- The arguments of a tool that looks up a symbol. -/
structure SymbolArguments where
  symbolName : String
  showLineNumbers : Bool

def SymbolArguments.fields : Fields SymbolArguments :=
  SymbolArguments.mk <$> .required "symbolName" .string <*> .required "showLineNumbers" .bool

end CodeIntel

import CodeIntel.Position
import CodeIntel.Server.Diagnostic
import CodeIntel.Server.Error
import CodeIntel.Symbol.Basic

namespace CodeIntel

/-- A command that a server can run. -/
structure Command where
  title : String
  command : String
  arguments : Option (List Json)

namespace Command

def decode : Decoder Command :=
  Fields.decode "Command" <|
    Command.mk <$> .required "title" .string
      <*> .required "command" .string
      <*> .optional "arguments" (.list .json)

def toJson (c : Command) : Json :=
  .ofOptionalMembers
    [("title", some (.string c.title)), ("command", some (.string c.command)),
      ("arguments", c.arguments.map .array)]

end Command

/-- A range of a document with a command on offer; one without a command has to be resolved. -/
structure CodeLens where
  range : Range
  command : Option Command
  data : Option Json

namespace CodeLens

def decode : Decoder CodeLens :=
  Fields.decode "CodeLens" <|
    CodeLens.mk <$> .required "range" Range.decode
      <*> .optional "command" Command.decode
      <*> .optional "data" .json

def toJson (lens : CodeLens) : Json :=
  .ofOptionalMembers
    [("range", some lens.range.toJson), ("command", lens.command.map Command.toJson),
      ("data", lens.data)]

end CodeLens

/-- What tools ask of a language server. -/
inductive Query
  | workspaceSymbols (query : String)
  | definition (path : Path) (position : Position)
  | references (path : Path) (position : Position) (declaration : Bool)
  | documentSymbols (path : Path)
  /-- Bring the server's view of a file up to what is on disk. -/
  | sync (path : Path)
  /-- Tell the server what a file holds now. -/
  | changed (path : Path) (text : String)
  | diagnostics (path : Path)
  | codeLenses (path : Path)
  | execute (command : Command)

/-- What a query is answered with. Diagnostics are missing if the server never reported any. -/
abbrev Query.Reply : Query → Type
  | .workspaceSymbols _ => List WorkspaceSymbol
  | .definition .. => List Location
  | .references .. => List Location
  | .documentSymbols _ => List DocumentSymbol
  | .sync _ => Unit
  | .changed .. => Unit
  | .diagnostics _ => Option (List Diagnostic)
  | .codeLenses _ => List CodeLens
  | .execute _ => Option Json

end CodeIntel

import CodeIntel.Server.Diagnostic
import CodeIntel.Server.Error
import CodeIntel.Server.Query
import CodeIntel.Symbol.Basic

namespace CodeIntel

/-- What a URI names on this machine. -/
def Uri.localPath (uri : Uri) : Except ServerError Path :=
  uri.filePath.mapError fun e =>
    .invalidUri <|
      match e with
      | .unresolved cause => s!"{uri.text}: {cause.message}"
      | .notLocal => uri.text

/-- A path as servers are told of it; a relative one is taken from `cwd`. -/
def Path.uri (p cwd : Path) : Except ServerError Uri :=
  (Uri.ofPath cwd p).mapError fun (shown, e) =>
    .invalidUri s!"{shown.text}: {e.message}"

/-- Reads a result of a shape that a server owes. -/
def decodeResult {α : Type} (decode : Decoder α) (value : Json) : Except ServerError α :=
  (decode value).mapError fun e => .json (.shape e)

/-- A symbol of a search result; one without a range of its own names a whole file. -/
structure FoundSymbol where
  name : String
  kind : Int
  container : Option String
  uri : Uri
  range : Range

namespace FoundSymbol

def located : Decoder FoundSymbol :=
  Fields.decode "SymbolInformation" <|
    (fun name kind _ _ place container => ⟨name, kind, container, place.uri, place.range⟩)
      <$> .required "name" .string
      <*> .required "kind" .i32
      <*> .optional "tags" (.list .i32)
      <*> .optional "deprecated" .bool
      <*> .required "location" UriLocation.decode
      <*> .optional "containerName" .string

/-- A place that may lack its range. -/
def looseLocation : Decoder UriLocation :=
  .firstOf "OneOf"
    [UriLocation.decode,
      Fields.decode "WorkspaceLocation" <|
        (fun uri => ⟨uri, .origin⟩) <$> .required "uri" Uri.decode]

/-- A symbol whose place may lack its range. -/
def loose : Decoder FoundSymbol :=
  Fields.decode "WorkspaceSymbol" <|
    (fun name kind _ container place _ => ⟨name, kind, container, place.uri, place.range⟩)
      <$> .required "name" .string
      <*> .required "kind" .i32
      <*> .optional "tags" (.list .i32)
      <*> .optional "containerName" .string
      <*> .required "location" looseLocation
      <*> .optional "data" .json

/-- The symbol in a file of this machine; others are of no use. -/
def here? (s : FoundSymbol) : Option WorkspaceSymbol :=
  match s.uri.localPath with
  | .ok path => some ⟨s.name, s.kind, s.container, path, s.range⟩
  | .error _ => none

end FoundSymbol

/-- The symbols that a search found, all with their ranges or all read loosely. -/
def readWorkspaceSymbols : Json → Except ServerError (List WorkspaceSymbol)
  | .null => .ok []
  | value => do
    let found ← decodeResult
      (.firstOf "WorkspaceSymbolResponse" [.list FoundSymbol.located, .list FoundSymbol.loose]) value
    pure (found.filterMap FoundSymbol.here?)

/-- Locations in files of this machine. -/
def localLocations (places : List UriLocation) : Except ServerError (List Location) :=
  places.mapM fun place => do
    let path ← place.uri.localPath
    pure ⟨path, place.range⟩

/-- The targets of a definition: one location, several, or links, of which the name counts. -/
def readTargets : Json → Except ServerError (List UriLocation)
  | .null => .ok []
  | value =>
    match UriLocation.decode value with
    | .ok place => .ok [place]
    | .error _ =>
      match Decoder.list UriLocation.decode value with
      | .ok places => .ok places
      | .error _ =>
        match Decoder.list LocationLink.decode value with
        | .ok links => .ok (links.map fun link => ⟨link.target, link.selectionRange⟩)
        | .error e => .error (.protocol s!"Invalid definition result: {e.message}")

def readReferences : Json → Except ServerError (List UriLocation)
  | .null => .ok []
  | value => decodeResult (.list UriLocation.decode) value

def readLenses : Json → Except ServerError (List CodeLens)
  | .null => .ok []
  | value => decodeResult (.list CodeLens.decode) value

/-- The diagnostics of a report, or nothing if the server says that none are new. -/
def readReport (value : Json) : Except ServerError (Option (List Diagnostic)) :=
  if value.isNull then .ok (some [])
  else if (value.member? "kind").bind Json.string? = some "unchanged" then .ok none
  else
    match value.member? "items" with
    | none => .ok (some [])
    | some items => some <$> decodeResult (.list Diagnostic.decode) items

namespace Json

mutual

/-- How deep arrays and objects stand in one another, the innermost values included. -/
def depth : Json → Nat
  | array items => depthOfItems items + 1
  | object members => depthOfMembers members + 1
  | _ => 1

def depthOfItems : List Json → Nat
  | [] => 0
  | item :: rest => max (depth item) (depthOfItems rest)

def depthOfMembers : List (String × Json) → Nat
  | [] => 0
  | (_, value) :: rest => max (depth value) (depthOfMembers rest)

end

end Json

namespace DocumentSymbol

/-- Reads a symbol with the symbols inside it, down to a given depth. -/
def decodeTo : Nat → Decoder DocumentSymbol
  | 0 => fun _ => .error (.refused "too deep")
  | depth + 1 =>
    Fields.decode "DocumentSymbol" <|
      (fun name detail kind _ _ range selection children =>
        .mk name kind detail range selection (children.getD []))
        <$> .required "name" .string
        <*> .optional "detail" .string
        <*> .required "kind" .i32
        <*> .optional "tags" (.list .i32)
        <*> .optional "deprecated" .bool
        <*> .required "range" Range.decode
        <*> .required "selectionRange" Range.decode
        <*> .optional "children" (.list (decodeTo depth))

/-- Reads symbols that are given as trees. No symbol stands deeper than the value is. -/
def decodeForest : Decoder (List DocumentSymbol) := fun value =>
  Decoder.list (decodeTo value.depth) value

/-- A symbol without others inside it, from one given with its place. -/
def leaf (s : FoundSymbol) : DocumentSymbol := .mk s.name s.kind s.container s.range s.range []

end DocumentSymbol

/-- The symbols of a document, given as trees or as a plain list. -/
def readDocumentSymbols : Json → Except ServerError (List DocumentSymbol)
  | .null => .ok []
  | value =>
    match DocumentSymbol.decodeForest value with
    | .ok symbols => .ok symbols
    | .error _ =>
      match Decoder.list FoundSymbol.located value with
      | .ok found => .ok (found.map DocumentSymbol.leaf)
      | .error e => .error (.protocol s!"Invalid documentSymbol result: {e.message}")

end CodeIntel

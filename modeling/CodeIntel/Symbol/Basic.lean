import CodeIntel.Path.Normal
import CodeIntel.Position

namespace CodeIntel

structure WorkspaceSymbol where
  name : String
  kind : Int
  container : Option String
  path : Path
  range : Range
deriving Repr, Inhabited

/-- A range of a file. -/
structure Location where
  path : Path
  range : Range
deriving DecidableEq, Repr, Inhabited

/-- The names of symbol kinds, the first of them numbered one. -/
def symbolKindNames : List String :=
  ["File", "Module", "Namespace", "Package", "Class", "Method", "Property", "Field", "Constructor",
    "Enum", "Interface", "Function", "Variable", "Constant", "String", "Number", "Boolean", "Array",
    "Object", "Key", "Null", "EnumMember", "Struct", "Event", "Operator", "TypeParameter"]

def symbolKindName (kind : Int) : String :=
  if kind ≤ 0 then "Unknown" else symbolKindNames[kind.toNat - 1]?.getD "Unknown"

def severityName : Option Int → String
  | some 1 => "Error"
  | some 2 => "Warning"
  | some 3 => "Information"
  | some 4 => "Hint"
  | _ => "Unspecified"

namespace WorkspaceSymbol

/-- The name behind its container, if there is one. -/
def qualifiedName (s : WorkspaceSymbol) : String :=
  match s.container with
  | some container => if container.isEmpty then s.name else s!"{container}.{s.name}"
  | none => s.name

/-- How a symbol is told from others: name, kind and place, line and column counted from one. -/
def describe (s : WorkspaceSymbol) (root : Path) : String :=
  s!"{s.qualifiedName} ({symbolKindName s.kind}) at " ++
    s!"{s.path.shown root}:{s.range.start.line + 1}:{s.range.start.character + 1}"

end WorkspaceSymbol

inductive DocumentSymbol
  | mk (name : String) (kind : Int) (detail : Option String) (range selection : Range)
      (children : List DocumentSymbol)
deriving Inhabited, Repr

namespace DocumentSymbol

def name : DocumentSymbol → String
  | mk name .. => name

def range : DocumentSymbol → Range
  | mk _ _ _ range _ _ => range

def children : DocumentSymbol → List DocumentSymbol
  | mk _ _ _ _ _ children => children

mutual

/-- The symbol or the innermost symbol inside it, if it contains the position. -/
def innermostIn (p : Position) : DocumentSymbol → Option DocumentSymbol
  | mk name kind detail range selection children =>
    if range.contains p then
      match innermost p children with
      | some inner => some inner
      | none => some (mk name kind detail range selection children)
    else none

/-- The innermost symbol that contains a position. Of symbols side by side the first counts. -/
def innermost (p : Position) : List DocumentSymbol → Option DocumentSymbol
  | [] => none
  | s :: rest =>
    match innermostIn p s with
    | some found => some found
    | none => innermost p rest

end

end DocumentSymbol

end CodeIntel

import CodeIntel.Symbol.Basic
import CodeIntel.Text.Basic
import CodeIntel.Tool.Error

namespace CodeIntel

/-- A symbol name taken apart. -/
structure SymbolQuery where
  raw : String
  segments : List (List Char)
deriving DecidableEq, Repr

namespace SymbolQuery

/-- Double colons become dots, from the left. -/
def dotted : List Char → List Char
  | ':' :: ':' :: rest => '.' :: dotted rest
  | c :: rest => c :: dotted rest
  | [] => []

/-- A name without blanks around it and without receiver marks, its parts joined with dots. -/
def plain (name : List Char) : List Char :=
  (dotted (trimBlank name)).filter fun c => c ≠ '(' && c ≠ ')' && c ≠ '*'

/-- The parts of a text between separators that are not empty. -/
def parts (isSeparator : Char → Bool) (cs : List Char) : List (List Char) :=
  (cs.splitOnP isSeparator).filter (· ≠ [])

def isDot (c : Char) : Bool := c = '.'

def isDotOrSlash (c : Char) : Bool := c = '.' || c = '/'

/-- Takes a name apart; one without any part is refused. -/
def parse? (raw : String) : Option SymbolQuery :=
  let segments := parts isDot (plain raw.toList)
  if segments = [] then none else some ⟨String.ofList (trimBlank raw.toList), segments⟩

def emptyName : ToolError := .validation "Symbol name must not be empty"

/-- The segments joined with dots. -/
def normalized (q : SymbolQuery) : List Char := ['.'].intercalate q.segments

def isQualified (q : SymbolQuery) : Bool := 1 < q.segments.length

/-- The unqualified name. -/
def last (q : SymbolQuery) : List Char := q.segments.getLast?.getD []

def symbolSegments (s : WorkspaceSymbol) : List (List Char) :=
  (match s.container with
    | some container => parts isDotOrSlash (plain container.toList)
    | none => []) ++ parts isDot (plain s.name.toList)

/-- Whether the query is the symbol's name, alone or behind its container. -/
def isExact (q : SymbolQuery) (s : WorkspaceSymbol) : Bool :=
  let name := plain s.name.toList
  name = q.normalized ||
    match s.container with
    | some container =>
      !container.isEmpty && plain container.toList ++ '.' :: name = q.normalized
    | none => false

def isSuffix (q : SymbolQuery) (s : WorkspaceSymbol) : Bool :=
  q.segments.isSuffixOf (symbolSegments s)

/-- The candidates that decide: exact matches, or if there are none those that end alike. -/
def deciding (q : SymbolQuery) (candidates : List WorkspaceSymbol) : List WorkspaceSymbol :=
  match candidates.filter q.isExact with
  | [] => candidates.filter q.isSuffix
  | exact => exact

/-- The one candidate the query names; none or several are an error, never a guess. -/
def select (q : SymbolQuery) (candidates : List WorkspaceSymbol) (root : Path) :
    Except ToolError WorkspaceSymbol :=
  match q.deciding candidates with
  | [] => .error (.symbolNotFound q.raw)
  | [one] => .ok one
  | many => .error (.ambiguousSymbol q.raw (many.map fun s => s.describe root))

end SymbolQuery

end CodeIntel

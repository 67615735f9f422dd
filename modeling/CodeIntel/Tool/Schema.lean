import CodeIntel.Json.Basic
import CodeIntel.Text.Basic
import CodeIntel.Tool.Error

namespace CodeIntel

/-- The JSON type of an argument. -/
inductive FieldKind
  | string
  | boolean
  | integer
  | array
deriving DecidableEq, Repr

namespace FieldKind

def name : FieldKind → String
  | string => "string"
  | boolean => "boolean"
  | integer => "integer"
  | array => "array"

def article : FieldKind → String
  | string | boolean => "a"
  | integer | array => "an"

def accepts : FieldKind → Json → Bool
  | string, .string _ => true
  | boolean, .bool _ => true
  | integer, .number (.int _) => true
  | array, .array _ => true
  | _, _ => false

end FieldKind

/-- A named argument of a tool or a prompt. -/
structure FieldSpec where
  name : String
  kind : FieldKind
  description : String
  required : Bool := false
  default : Option Json := none
  items : Option Json := none

/-- A tool or prompt as it is offered: its name, what it does and its arguments. -/
structure ToolSchema where
  name : String
  description : String
  fields : List FieldSpec

/-- Why arguments do not fit a schema. -/
inductive ArgumentError
  | notObject
  | missing (name : String)
  | wrongKind (name : String) (kind : FieldKind)
  | blank (name : String)

def ArgumentError.message : ArgumentError → String
  | notObject => "Arguments must be an object"
  | missing name => s!"Missing required argument: {name}"
  | wrongKind name kind => s!"Argument {name} must be {kind.article} {kind.name}"
  | blank name => s!"Argument {name} must not be empty"

namespace FieldSpec

def toJsonSchema (field : FieldSpec) : Json :=
  .ofOptionalMembers
    [("type", some (.string field.kind.name)), ("description", some (.string field.description)),
      ("default", field.default), ("items", field.items)]

def isBlankString : Json → Bool
  | .string s => isBlankText s.toList
  | _ => false

/-- The value of an argument after checking: as given, or its default, or nothing. -/
def resolve (field : FieldSpec) (given : Option Json) : Except ArgumentError (Option Json) :=
  match given with
  | none | some .null => if field.required then .error (.missing field.name) else .ok field.default
  | some value =>
    if !field.kind.accepts value then .error (.wrongKind field.name field.kind)
    else if field.required && isBlankString value then .error (.blank field.name)
    else .ok (some value)

end FieldSpec

namespace ToolSchema

def toJsonSchema (schema : ToolSchema) : Json :=
  .ofMembers
    [("type", .string "object"),
      ("properties", .ofMembers (schema.fields.map fun field => (field.name, field.toJsonSchema))),
      ("required",
        .array ((schema.fields.filter FieldSpec.required).map fun field => .string field.name))]

def toPromptArguments (schema : ToolSchema) : Json :=
  .array <| schema.fields.map fun field =>
    .ofMembers
      [("name", .string field.name), ("description", .string field.description),
        ("required", .bool field.required)]

/-- Checks fields in order and collects their values; `acc` holds those before. -/
def resolveFields (given : List (String × Json)) :
    List FieldSpec → List (String × Json) → Except ArgumentError (List (String × Json))
  | [], acc => .ok acc
  | field :: rest, acc =>
    match field.resolve (findEntry field.name given) with
    | .error e => .error e
    | .ok none => resolveFields given rest acc
    | .ok (some value) => resolveFields given rest (insertEntry field.name value acc)

/-- Checks arguments and fills in defaults. Arguments that are not declared fall away. -/
def validate (schema : ToolSchema) (args : Json) : Except ArgumentError (List (String × Json)) :=
  match args with
  | .object members => resolveFields members schema.fields []
  | .null => resolveFields [] schema.fields []
  | _ => .error .notObject

end ToolSchema

end CodeIntel

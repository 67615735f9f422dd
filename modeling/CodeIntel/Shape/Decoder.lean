import CodeIntel.Json.Number
import CodeIntel.Text.Quoted

namespace CodeIntel

/-- What stands where something else was expected. -/
inductive Found
  | null
  | bool (value : Bool)
  | number (value : Number)
  | string (value : String)
  | sequence
  | map
deriving Repr

/-- Why a JSON value does not have the shape of a type. -/
inductive ShapeError
  | invalidType (found : Found) (expected : String)
  | invalidValue (found : Found) (expected : String)
  | invalidLength (length : Nat) (expected : String)
  | unknownVariant (name : String) (expected : List String)
  | missingField (name : String)
  | noVariant (union : String)
  | refused (reason : String)
deriving Repr

def Found.of : Json → Found
  | .null => null
  | .bool b => bool b
  | .number n => number n
  | .string s => string s
  | .array _ => sequence
  | .object _ => map

def Found.text : Found → String
  | null => "null"
  | bool b => s!"boolean `{b}`"
  | number (.int n) => s!"integer `{n}`"
  | number (.float d) => "floating point `" ++ Number.text (.float d) ++ "`"
  | string s => "string " ++ quoted s
  | sequence => "sequence"
  | map => "map"

def backquoted (name : String) : String := s!"`{name}`"

/-- The alternatives as they are offered to a reader. -/
def alternatives : List String → String
  | [] => "there are no variants"
  | [a] => "expected " ++ backquoted a
  | [a, b] => "expected " ++ backquoted a ++ " or " ++ backquoted b
  | names => "expected one of " ++ ", ".intercalate (names.map backquoted)

def ShapeError.message : ShapeError → String
  | invalidType found expected => s!"invalid type: {found.text}, expected {expected}"
  | invalidValue found expected => s!"invalid value: {found.text}, expected {expected}"
  | invalidLength length expected => s!"invalid length {length}, expected {expected}"
  | unknownVariant name expected => s!"unknown variant `{name}`, {alternatives expected}"
  | missingField name => s!"missing field `{name}`"
  | noVariant union => s!"data did not match any variant of untagged enum {union}"
  | refused reason => reason

/-- Reads a value of a type off a JSON value. -/
abbrev Decoder (α : Type) := Json → Except ShapeError α

namespace Decoder

def wrongType {α : Type} (value : Json) (expected : String) : Except ShapeError α :=
  .error (.invalidType (Found.of value) expected)

def json : Decoder Json := pure

def string : Decoder String
  | .string s => pure s
  | value => wrongType value "a string"

def bool : Decoder Bool
  | .bool b => pure b
  | value => wrongType value "a boolean"

/-- An integer from `low` to `high`, both included. -/
def integer (low high : Int) (expected : String) : Decoder Int
  | .number (.int n) =>
    if low ≤ n ∧ n ≤ high then pure n
    else .error (.invalidValue (.number (.int n)) expected)
  | value => wrongType value expected

def u32 : Decoder UInt32 := fun value => do
  let n ← integer 0 0xFFFFFFFF "u32" value
  pure (UInt32.ofNat n.toNat)

def u64 : Decoder Nat := fun value => do
  let n ← integer 0 0xFFFFFFFFFFFFFFFF "u64" value
  pure n.toNat

def i32 : Decoder Int := integer (-0x80000000) 0x7FFFFFFF "i32"

def i64 : Decoder Int := integer (-0x8000000000000000) 0x7FFFFFFFFFFFFFFF "i64"

/-- A value or null. -/
def nullable {α : Type} (decode : Decoder α) : Decoder (Option α)
  | .null => pure none
  | value => some <$> decode value

def list {α : Type} (decode : Decoder α) : Decoder (List α)
  | .array items => items.mapM decode
  | value => wrongType value "a sequence"

/-- An object read as a table from keys to values. -/
def table {α : Type} (decode : Decoder α) : Decoder (List (String × α))
  | .object members => members.mapM fun (key, value) => (key, ·) <$> decode value
  | value => wrongType value "a map"

def firstOf {α : Type} (union : String) (decoders : List (Decoder α)) : Decoder α := fun value =>
  match decoders.findSome? (fun decode => (decode value).toOption) with
  | some a => pure a
  | none => .error (.noVariant union)

def alternative {α : Type} (alternatives : List (String × α)) (name : String) :
    Except ShapeError α :=
  match alternatives.find? fun entry => entry.1 = name with
  | some (_, a) => pure a
  | none => .error (.unknownVariant name (alternatives.map Prod.fst))

/-- An alternative by its name, or as an object with the name as its only key and null as its
value. -/
def choice {α : Type} (alternatives : List (String × α)) : Decoder α
  | .string name => alternative alternatives name
  | .object [(name, value)] => do
    let a ← alternative alternatives name
    if value.isNull then pure a else wrongType value "unit"
  | .object members => .error (.invalidValue (Found.of (.object members)) "map with a single key")
  | value => wrongType value "string or map"

def map {α β : Type} (f : α → β) (decode : Decoder α) : Decoder β := fun value => f <$> decode value

/-- Accepts what `decode` accepts and forgets what it reads. -/
def check {α : Type} (decode : Decoder α) : Decoder Unit := map (fun _ => ()) decode

end Decoder

end CodeIntel

import CodeIntel.Shape.Decoder

namespace CodeIntel

/-- Where the fields of a record come from: the members of an object or the elements of an
array. -/
inductive FieldSource
  | members (members : List (String × Json))
  | elements (items : List Json)

/-- Why a field of a record could not be read. -/
inductive FieldProblem
  | bad (name : String) (error : ShapeError)
  | missing (name : String) (index : Nat)

/-- The fields of a record in the order of their declaration: how many there are, and how to read
them from a source, the first of them standing at a given index. -/
structure Fields (α : Type) where
  count : Nat
  read : FieldSource → Nat → List FieldProblem × Option α

namespace Fields

variable {α β : Type}

def pure (a : α) : Fields α := ⟨0, fun _ _ => ([], some a)⟩

def seq (f : Fields (α → β)) (x : Unit → Fields α) : Fields β where
  count := f.count + (x ()).count
  read source index :=
    let (problems, f?) := f.read source index
    let (more, a?) := (x ()).read source (index + f.count)
    (problems ++ more, f?.bind fun f => a?.map f)

instance : Applicative Fields where
  pure := pure
  seq := seq

def valueAt? (source : FieldSource) (name : String) (index : Nat) : Option Json :=
  match source with
  | .members members => findEntry name members
  | .elements items => items[index]?

/-- A field with its decoder; `inObject` and `inArray` stand in for it where it is absent. -/
def field (name : String) (decode : Decoder α) (inObject inArray : Option α) : Fields α where
  count := 1
  read source index :=
    match valueAt? source name index with
    | some value =>
      match decode value with
      | .ok a => ([], some a)
      | .error e => ([.bad name e], none)
    | none =>
      let absent :=
        match source with
        | .members _ => inObject
        | .elements _ => inArray
      match absent with
      | some a => ([], some a)
      | none => ([.missing name index], none)

def required (name : String) (decode : Decoder α) : Fields α := field name decode none none

/-- A field that an object may leave out; an array must have an element for it. -/
def optional (name : String) (decode : Decoder α) : Fields (Option α) :=
  field name (.nullable decode) (some none) none

/-- A field that stands for `value` where it is left out. -/
def defaulted (name : String) (decode : Decoder α) (value : α) : Fields α :=
  field name decode (some value) (some value)

/-- An optional field that arrays may leave out as well. -/
def omittable (name : String) (decode : Decoder α) : Fields (Option α) :=
  defaulted name (.nullable decode) none

/-- The problem with the least name; of an object's members that one is met first. -/
def leastBad : List FieldProblem → Option (String × ShapeError)
  | [] => none
  | .missing .. :: rest => leastBad rest
  | .bad name error :: rest =>
    match leastBad rest with
    | none => some (name, error)
    | some (other, found) => if other < name then some (other, found) else some (name, error)

def firstMissing : List FieldProblem → Option String
  | [] => none
  | .missing name _ :: _ => some name
  | .bad .. :: rest => firstMissing rest

/-- The record and its number of fields, as an array that is too short is told. -/
def expectation (name : String) (count : Nat) : String :=
  s!"struct {name} with {count} element" ++ (if count = 1 then "" else "s")

/-- Reads the members of an object: bad members come before missing ones. -/
def ofMembers (fields : Fields α) (members : List (String × Json)) : Except ShapeError α :=
  match fields.read (.members members) 0 with
  | (_, some a) => .ok a
  | (problems, none) =>
    match leastBad problems, firstMissing problems with
    | some (_, error), _ => .error error
    | none, some name => .error (.missingField name)
    | none, none => .error (.missingField "")

/-- Reads the elements of an array, one for each field. -/
def ofElements (name : String) (fields : Fields α) (items : List Json) : Except ShapeError α :=
  match fields.read (.elements items) 0 with
  | (.bad _ error :: _, _) => .error error
  | (.missing _ index :: _, _) => .error (.invalidLength index (expectation name fields.count))
  | ([], none) => .error (.missingField "")
  | ([], some a) =>
    if fields.count < items.length then .error (.invalidLength items.length "fewer elements in array")
    else .ok a

/-- Reads a record from an object or, field by field, from an array. -/
def decode (name : String) (fields : Fields α) : Decoder α
  | .object members => fields.ofMembers members
  | .array items => fields.ofElements name items
  | value => Decoder.wrongType value s!"struct {name}"

/-- Reads a record from an object only. -/
def decodeObject (name : String) (fields : Fields α) : Decoder α
  | .object members => fields.ofMembers members
  | value => Decoder.wrongType value s!"struct {name}"

variable {members : List (String × Json)} {index : Nat}

theorem read_seq (f : Fields (α → β)) (x : Fields α) (source : FieldSource) :
    ((f <*> x).read source index).2 =
      (f.read source index).2.bind fun g => (x.read source (index + f.count)).2.map g := rfl

theorem read_map (g : α → β) (x : Fields α) (source : FieldSource) :
    ((g <$> x).read source index).2 = (x.read source index).2.map g := rfl

theorem read_required (name : String) (decode : Decoder α) :
    ((required name decode).read (.members members) index).2 =
      (findEntry name members).bind fun value => (decode value).toOption := by
  unfold required field valueAt?
  simp only
  cases findEntry name members with
  | none => rfl
  | some value => cases decoded : decode value <;> simp [decoded, Except.toOption]

theorem read_optional (name : String) (decode : Decoder α) :
    ((optional name decode).read (.members members) index).2 =
      match findEntry name members with
      | some value => (Decoder.nullable decode value).toOption
      | none => some none := by
  unfold optional field valueAt?
  simp only
  split
  next value _ => cases Decoder.nullable decode value <;> rfl
  next => rfl

/-- An object is read as a record just where all its fields are. -/
theorem toOption_decode (fields : Fields α) (name : String) :
    (fields.decode name (.object members)).toOption = (fields.read (.members members) 0).2 := by
  unfold decode ofMembers
  simp only
  split
  next read => rw [read]; rfl
  next read =>
    rw [read]
    split <;> rfl

end Fields

end CodeIntel

import CodeIntel.Decimal
import CodeIntel.Table

namespace CodeIntel

/-- A JSON number: a whole number of 64 bits, signed or not, or any other as a float, held as the
shortest decimal that reads back to it. -/
inductive Number
  | int (value : Int)
  | float (value : Decimal)
deriving DecidableEq, Repr, Inhabited

/-- A JSON value. The members of an object are in ascending order of their keys, each key once. -/
inductive Json
  | null
  | bool (value : Bool)
  | number (value : Number)
  | string (value : String)
  | array (items : List Json)
  | object (members : List (String × Json))
deriving Repr, Inhabited

namespace Json

/-- The members in the order of objects; of several with one key the last stays. -/
def sortMembers (members : List (String × Json)) : List (String × Json) :=
  members.foldl (fun acc member => insertEntry member.1 member.2 acc) []

def ofMembers (members : List (String × Json)) : Json := object (sortMembers members)

/-- The object of the members that have a value. -/
def ofOptionalMembers (members : List (String × Option Json)) : Json :=
  ofMembers (members.filterMap fun (key, value?) => value?.map fun value => (key, value))

def nat (n : Nat) : Json := number (.int n)

def int (n : Int) : Json := number (.int n)

def ofOption : Option Json → Json
  | none => null
  | some value => value

/-- The member of an object; no other value has members. -/
def member? (value : Json) (key : String) : Option Json :=
  match value with
  | object members => findEntry key members
  | _ => none

def isNull : Json → Bool
  | null => true
  | _ => false

def string? : Json → Option String
  | string s => some s
  | _ => none

def bool? : Json → Option Bool
  | bool b => some b
  | _ => none

def array? : Json → Option (List Json)
  | array items => some items
  | _ => none

def int? : Json → Option Int
  | number (.int n) => some n
  | _ => none

end Json

end CodeIntel

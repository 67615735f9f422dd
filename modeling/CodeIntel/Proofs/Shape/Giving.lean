import CodeIntel.Position
import CodeIntel.Proofs.Shape.Reading
import Mathlib.Data.List.Forall2

namespace CodeIntel

open Fields

variable {α : Type} {value : Json} {values : List Json}

namespace Json

variable {key : String} {P : Json → Prop} {items : List Json} {members : List (String × Json)}

/-- Whether an object has a member that is as said. -/
def Gives (value : Json) (key : String) (P : Json → Prop) : Prop :=
  ∃ given, value.member? key = some given ∧ P given

/-- Whether a member gives what may be missing: where it is, the member is left out or null. -/
def Tells (value : Json) (key : String) (gives : α → Json → Prop) : Option α → Prop
  | none => ∀ given ∈ value.member? key, given = .null
  | some a => value.Gives key (gives a)

theorem Gives.exists_members (gives : value.Gives key P) : ∃ members, value = .object members := by
  obtain ⟨given, found, _⟩ := gives
  cases value with
  | object members => exact ⟨members, rfl⟩
  | _ => cases found

/-- The fields of a value with a member are its members. -/
theorem fieldAt?_of_member? {given : Json} (found : value.member? key = some given) (name : String)
    (index : Nat) : value.fieldAt? name index = value.member? name := by
  cases value with
  | object members => rfl
  | _ => cases found

theorem Gives.ne_null (gives : value.Gives key P) : value ≠ .null := by
  obtain ⟨members, rfl⟩ := gives.exists_members
  nofun

end Json

namespace Decoder

variable {decode : Decoder α} {R : α → Json → Prop}

theorem u32_nat (n : UInt32) : u32 (.nat n.toNat) = .ok n := by
  have small : integer 0 0xFFFFFFFF "u32" (.nat n.toNat) = .ok n.toNat :=
    integer_eq_ok_iff.mpr ⟨rfl, by omega, by have := n.toNat_lt; omega⟩
  rw [u32, small, ok_bind, Int.toNat_natCast, UInt32.ofNat_toNat]
  rfl

/-- A list of what can be read is read element by element. -/
theorem list_of_given {as : List α} (given : List.Forall₂ R as values)
    (read : ∀ a value, R a value → decode value = .ok a) :
    list decode (.array values) = .ok as := by
  induction given with
  | nil => rfl
  | cons first _ ih => exact list_cons_eq_ok_iff.mpr ⟨_, _, read _ _ first, ih, rfl⟩

end Decoder

open Decoder

namespace Fields

variable {members : List (String × Json)} {name : String} {decoder : Decoder α} {P : Json → Prop}
  {a : α} {a? : Option α} {gives : α → Json → Prop}

theorem reads_given (given : (Json.object members).Gives name P)
    (read : ∀ value, P value → decoder value = .ok a) : (required name decoder).Reads members a := by
  obtain ⟨value, found, given⟩ := given
  exact reads_required found (read value given)

theorem reads_told (told : (Json.object members).Tells name gives a?)
    (read : ∀ a value, gives a value → decoder value = .ok a ∧ value ≠ .null) :
    (optional name decoder).Reads members a? := by
  cases a? with
  | none =>
    cases found : findEntry name members with
    | none => exact reads_optional_none found
    | some value =>
      cases told value found
      exact reads_optional found rfl
  | some a =>
    obtain ⟨value, found, given⟩ := told
    obtain ⟨read, some⟩ := read a value given
    refine reads_optional found ?_
    rw [nullable_of_ne_null some, read]
    rfl

theorem reads_told_text {text? : Option String}
    (told : (Json.object members).Tells name (fun text given => given = .string text) text?) :
    (optional name .string).Reads members text? :=
  reads_told told fun _ _ given => given ▸ ⟨rfl, nofun⟩

/-- What is of any shape can be read. -/
theorem exists_reads_json (members : List (String × Json)) (name : String) :
    ∃ payload, (optional name .json).Reads members payload := by
  cases found : findEntry name members with
  | none => exact ⟨none, reads_optional_none found⟩
  | some value =>
    by_cases null : value = .null
    · exact ⟨none, reads_optional found (null ▸ rfl)⟩
    · exact ⟨some value, reads_optional found (nullable_of_ne_null null)⟩

end Fields

/-- How a place in a text is given. -/
def Position.GivenBy (p : Position) (value : Json) : Prop :=
  value.Gives "line" (· = .nat p.line.toNat) ∧ value.Gives "character" (· = .nat p.character.toNat)

theorem Position.decode_of_given {p : Position} (given : p.GivenBy value) : decode value = .ok p := by
  obtain ⟨line, character⟩ := given
  obtain ⟨members, rfl⟩ := line.exists_members
  have number (n : UInt32) : ∀ value, value = .nat n.toNat → u32 value = .ok n := by
    rintro _ rfl
    exact u32_nat n
  exact (((reads_given line (number _)).map Position.mk).seq
    (reads_given character (number _))).decode _

def Range.GivenBy (r : Range) (value : Json) : Prop :=
  value.Gives "start" r.start.GivenBy ∧ value.Gives "end" r.stop.GivenBy

theorem Range.decode_of_given {r : Range} (given : r.GivenBy value) : decode value = .ok r := by
  obtain ⟨start, stop⟩ := given
  obtain ⟨members, rfl⟩ := start.exists_members
  exact (((reads_given start fun _ => Position.decode_of_given).map Range.mk).seq
    (reads_given stop fun _ => Position.decode_of_given)).decode _

end CodeIntel

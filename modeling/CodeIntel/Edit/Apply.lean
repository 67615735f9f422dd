import CodeIntel.Edit.Lines
import CodeIntel.Sorting

namespace CodeIntel

/-- The text of a range replaced by another text. -/
structure TextEdit where
  range : Range
  newText : List Char
deriving DecidableEq, Repr

/-- Why a list of edits cannot be applied. Edits are numbered from one. -/
inductive EditError
  | start (number : Nat) (cause : OffsetError)
  | stop (number : Nat) (cause : OffsetError)
  | reversed (number : Nat) (start stop : Position)
  | overlap (first second : Nat)
deriving DecidableEq, Repr

def EditError.message : EditError → String
  | start number cause => s!"edit {number}: start {cause.message}"
  | stop number cause => s!"edit {number}: end {cause.message}"
  | reversed number first last => s!"edit {number}: start {first.text} is after end {last.text}"
  | overlap first second => s!"edits {first} and {second} overlap"

/-- An edit with its place in the text, from `start` up to but not including `stop`, and its
number in the list it comes from. -/
structure PlacedEdit where
  start : Nat
  stop : Nat
  number : Nat
  newText : List Char
deriving DecidableEq, Repr

namespace PlacedEdit

/-- Starts first, then ends. -/
def le (a b : PlacedEdit) : Bool := a.start < b.start || (a.start = b.start && a.stop ≤ b.stop)

def isInsertion (e : PlacedEdit) : Bool := e.start = e.stop

/-- Whether an edit starts inside the one before it, or both insert at one place. -/
def conflicts (prev next : PlacedEdit) : Bool :=
  next.start < prev.stop ||
    (prev.isInsertion && next.isInsertion && prev.start = next.start)

/-- The text with the edit's place filled by its new text. -/
def splice (text : List Char) (e : PlacedEdit) : List Char :=
  text.take e.start ++ e.newText ++ text.drop e.stop

end PlacedEdit

def place (text : List Char) (number : Nat) (edit : TextEdit) : Except EditError PlacedEdit := do
  let start ← (offset text edit.range.start).mapError (.start number)
  let stop ← (offset text edit.range.stop).mapError (.stop number)
  if stop < start then throw (.reversed number edit.range.start edit.range.stop)
  pure ⟨start, stop, number, edit.newText⟩

/-- Places edits in order; the first that has no place is reported. -/
def placeFrom (text : List Char) : Nat → List TextEdit → Except EditError (List PlacedEdit)
  | _, [] => pure []
  | number, edit :: rest => do
    let placed ← place text number edit
    let more ← placeFrom text (number + 1) rest
    pure (placed :: more)

def firstConflict : List PlacedEdit → Option (PlacedEdit × PlacedEdit)
  | prev :: next :: rest =>
    if prev.conflicts next then some (prev, next) else firstConflict (next :: rest)
  | _ => none

/-- Applies placed edits in ascending order to a text, the last first, so that the places of
those before it still hold. -/
def spliceAll (text : List Char) : List PlacedEdit → List Char
  | [] => text
  | e :: rest => PlacedEdit.splice (spliceAll text rest) e

/-- Applies edits to a text. All are checked against the text as it is, and two that overlap are
refused, so their order does not matter. -/
def applyEdits (text : List Char) (edits : List TextEdit) : Except EditError (List Char) := do
  let placed ← placeFrom text 1 edits
  let sorted := sortBy PlacedEdit.le placed
  match firstConflict sorted with
  | some (prev, next) =>
    throw (.overlap (min prev.number next.number) (max prev.number next.number))
  | none => pure (spliceAll text sorted)

end CodeIntel

import CodeIntel.Edit.Apply

namespace CodeIntel

/-- An edit as a caller writes it: a range, or whole lines counted from one, both included. -/
inductive EditRequest
  | range (range : Range) (newText : String)
  | lines (first last : UInt32) (newText : String)
deriving DecidableEq, Repr

namespace EditRequest

/-- Why a value is no edit. -/
inductive Error
  | noTarget
  | shape (cause : ShapeError)

def Error.message : Error → String
  | noTarget => "expected either range or startLine/endLine"
  | shape cause => cause.message

def rangeForm : Decoder EditRequest :=
  Fields.decode "RangeForm" <|
    EditRequest.range <$> .required "range" Range.decode <*> .required "newText" .string

def linesForm : Decoder EditRequest :=
  Fields.decode "LinesForm" <|
    EditRequest.lines <$> .required "startLine" .u32 <*> .required "endLine" .u32
      <*> .required "newText" .string

/-- Reads an edit; a member `range` decides for the range form. -/
def ofJson (value : Json) : Except Error EditRequest :=
  if (value.member? "range").isSome then (rangeForm value).mapError .shape
  else if (value.member? "startLine").isSome then (linesForm value).mapError .shape
  else .error .noTarget

def newText : EditRequest → String
  | range _ newText => newText
  | lines _ _ newText => newText

/-- One line that tells what the edit does. -/
def describe (request : EditRequest) : String :=
  let action := if request.newText.isEmpty then "Deleted" else "Replaced"
  match request with
  | lines first last _ => s!"{action} lines {first}-{last}"
  | range r _ =>
    if r.start = r.stop then s!"Inserted text at {r.start.text}" else s!"{action} {r.text}"

/-- Why lines cannot be replaced. -/
structure LinesError where
  first : UInt32
  last : UInt32
  count : UInt32
deriving DecidableEq, Repr

def LinesError.message (e : LinesError) : String :=
  s!"lines {e.first}-{e.last} are outside the file's {e.count} line(s)"

/-- The length of a line's body in UTF-16 units, lines counted from zero. -/
def bodyLength16 (text : List Char) (line : Nat) : UInt32 :=
  match (addressLines text)[line]? with
  | some line => UInt32.ofNat (length16 (lineBody line))
  | none => 0

/-- The range edit that replaces whole lines. The terminator of the last line is replaced with
them and put back behind a new text that does not end its line itself. Where the last line has no
terminator, deleting takes the one before the first line instead. -/
def linesEdit (text : List Char) (first last : UInt32) (newText : List Char) :
    Except LinesError TextEdit :=
  let count := visibleLines text
  if first = 0 ∨ last < first ∨ count < last then .error ⟨first, last, count⟩
  else
    let lines := addressLines text
    if last.toNat < lines.length then
      let terminator :=
        if newText = [] ∨ newText.getLast? = some '\n' then []
        else lineTerminator (lines[last.toNat - 1]?.getD [])
      .ok ⟨⟨⟨first - 1, 0⟩, ⟨last, 0⟩⟩, newText ++ terminator⟩
    else
      let stop : Position := ⟨last - 1, bodyLength16 text (last.toNat - 1)⟩
      let start : Position :=
        if newText = [] ∧ 1 < first then ⟨first - 2, bodyLength16 text (first.toNat - 2)⟩
        else ⟨first - 1, 0⟩
      .ok ⟨⟨start, stop⟩, newText⟩

def resolve (text : List Char) : EditRequest → Except LinesError TextEdit
  | range r newText => .ok ⟨r, newText.toList⟩
  | lines first last newText => linesEdit text first last newText.toList

end EditRequest

end CodeIntel

import CodeIntel.Shape.Fields

namespace CodeIntel

/-- A place in a text: a line and a column in UTF-16 units, both counted from zero. -/
structure Position where
  line : UInt32
  character : UInt32
deriving DecidableEq, Repr, Inhabited

/-- A part of a text, from its first position up to but not including its last. -/
structure Range where
  start : Position
  stop : Position
deriving DecidableEq, Repr, Inhabited

namespace Position

def origin : Position := ⟨0, 0⟩

/-- Lines first, then columns. -/
def le (a b : Position) : Bool := a.line < b.line || (a.line = b.line && a.character ≤ b.character)

def lt (a b : Position) : Bool := a.line < b.line || (a.line = b.line && a.character < b.character)

def decode : Decoder Position :=
  Fields.decode "Position" <|
    Position.mk <$> .required "line" .u32 <*> .required "character" .u32

def toJson (p : Position) : Json :=
  .ofMembers [("line", .nat p.line.toNat), ("character", .nat p.character.toNat)]

/-- Line and column counted from one. -/
def text (p : Position) : String := s!"L{p.line + 1}:C{p.character + 1}"

section Order

variable {a b c : Position}

theorem le_iff : a.le b = true ↔ a.line.toNat < b.line.toNat ∨
    a.line.toNat = b.line.toNat ∧ a.character.toNat ≤ b.character.toNat := by
  simp [le, UInt32.lt_iff_toNat_lt, UInt32.le_iff_toNat_le, ← UInt32.toNat_inj]

theorem le_trans (hab : a.le b = true) (hbc : b.le c = true) : a.le c = true := by
  rw [le_iff] at *
  omega

theorem le_antisymm (hab : a.le b = true) (hba : b.le a = true) : a = b := by
  rw [le_iff] at *
  obtain ⟨line, character⟩ := a
  obtain ⟨line', character'⟩ := b
  simp only [mk.injEq, ← UInt32.toNat_inj] at *
  omega

theorem lt_iff : a.lt b = true ↔
    a.line.toNat < b.line.toNat ∨ (a.line = b.line ∧ a.character.toNat < b.character.toNat) := by
  simp [lt, UInt32.lt_iff_toNat_lt]

theorem lt_iff_le_and_ne : a.lt b = true ↔ a.le b = true ∧ a ≠ b := by
  obtain ⟨line, character⟩ := a
  obtain ⟨line', character'⟩ := b
  simp only [le_iff, lt_iff, ← UInt32.toNat_inj, ne_eq, mk.injEq]
  omega

end Order

end Position

namespace Range

/-- The empty range at the start of a text. -/
def origin : Range := ⟨.origin, .origin⟩

def decode : Decoder Range :=
  Fields.decode "Range" <|
    Range.mk <$> .required "start" Position.decode <*> .required "end" Position.decode

def toJson (r : Range) : Json :=
  .ofMembers [("start", r.start.toJson), ("end", r.stop.toJson)]

def text (r : Range) : String := s!"{r.start.text}-{r.stop.text}"

/-- Starts first, then ends. -/
def le (a b : Range) : Bool := a.start.lt b.start || (a.start = b.start && a.stop.le b.stop)

/-- Whether a position lies in the range, its end included. -/
def contains (r : Range) (p : Position) : Bool := r.start.le p && p.le r.stop

end Range

end CodeIntel

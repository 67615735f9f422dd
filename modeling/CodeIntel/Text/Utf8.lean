namespace CodeIntel

def utf8Bytes (s : String) : List UInt8 := s.toList.flatMap String.utf8EncodeChar

/-- The text whose UTF-8 form the bytes are. -/
def ofUtf8? (bytes : List UInt8) : Option String := String.fromUTF8? bytes.toByteArray

/-- What a lead byte announces: its payload, how many bytes follow, and the bounds of the first of
them. -/
structure Utf8Lead where
  payload : Nat
  following : Nat
  low : UInt8
  high : UInt8

def Utf8Lead.of? (b : UInt8) : Option Utf8Lead :=
  let payload (base : Nat) := b.toNat - base
  if b < 0x80 then some ⟨b.toNat, 0, 0x80, 0xBF⟩
  else if 0xC2 ≤ b && b ≤ 0xDF then some ⟨payload 0xC0, 1, 0x80, 0xBF⟩
  else if b = 0xE0 then some ⟨0, 2, 0xA0, 0xBF⟩
  else if b = 0xED then some ⟨0xD, 2, 0x80, 0x9F⟩
  else if 0xE1 ≤ b && b ≤ 0xEF then some ⟨payload 0xE0, 2, 0x80, 0xBF⟩
  else if b = 0xF0 then some ⟨0, 3, 0x90, 0xBF⟩
  else if 0xF1 ≤ b && b ≤ 0xF3 then some ⟨payload 0xF0, 3, 0x80, 0xBF⟩
  else if b = 0xF4 then some ⟨4, 3, 0x80, 0x8F⟩
  else none

/-- The sign that stands for bytes that are no text. -/
def replacementSign : Char := '\uFFFD'

/-- Reads bytes as UTF-8 with `wanted` bytes of a character outstanding, the next of them between
`low` and `high`. A sequence that breaks off counts as one error. -/
def lossyFrom (payload wanted : Nat) (low high : UInt8) : List UInt8 → List Char
  | [] => if wanted = 0 then [] else [replacementSign]
  | b :: rest =>
    if wanted ≠ 0 ∧ low ≤ b ∧ b ≤ high then
      let payload := payload * 0x40 + (b.toNat - 0x80)
      if wanted = 1 then Char.ofNat payload :: lossyFrom 0 0 0x80 0xBF rest
      else lossyFrom payload (wanted - 1) 0x80 0xBF rest
    else
      let broken := if wanted = 0 then [] else [replacementSign]
      match Utf8Lead.of? b with
      | none => broken ++ replacementSign :: lossyFrom 0 0 0x80 0xBF rest
      | some lead =>
        if lead.following = 0 then broken ++ Char.ofNat lead.payload :: lossyFrom 0 0 0x80 0xBF rest
        else broken ++ lossyFrom lead.payload lead.following lead.low lead.high rest

/-- The text of the bytes, with a replacement sign for each sequence that is no character. -/
def lossyText (bytes : List UInt8) : String := String.ofList (lossyFrom 0 0 0x80 0xBF bytes)

/-- The first bytes that are no text: where they start and, unless the bytes just end too early,
how many they are. -/
structure Utf8Fault where
  index : Nat
  length : Option Nat
deriving DecidableEq, Repr

def Utf8Fault.message (fault : Utf8Fault) : String :=
  match fault.length with
  | some length => s!"invalid utf-8 sequence of {length} bytes from index {fault.index}"
  | none => s!"incomplete utf-8 byte sequence from index {fault.index}"

/-- Looks for the first fault; the character under way started at `start`, and `wanted` of its
bytes are outstanding. -/
def utf8FaultFrom (start index wanted : Nat) (low high : UInt8) : List UInt8 → Option Utf8Fault
  | [] => if wanted = 0 then none else some ⟨start, none⟩
  | b :: rest =>
    if wanted = 0 then
      match Utf8Lead.of? b with
      | none => some ⟨index, some 1⟩
      | some lead => utf8FaultFrom index (index + 1) lead.following lead.low lead.high rest
    else if low ≤ b ∧ b ≤ high then utf8FaultFrom start (index + 1) (wanted - 1) 0x80 0xBF rest
    else some ⟨start, some (index - start)⟩

def utf8Fault? (bytes : List UInt8) : Option Utf8Fault := utf8FaultFrom 0 0 0 0x80 0xBF bytes

end CodeIntel

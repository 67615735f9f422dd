import CodeIntel.Position
import CodeIntel.Sorting
import CodeIntel.Text.Basic

namespace CodeIntel

/-- Consecutive lines counted from zero, the first and the last included. -/
structure LineSpan where
  first : UInt32
  last : UInt32
deriving DecidableEq, Repr, Inhabited

/-- The sum of two words, or the greatest word where it does not fit. -/
def addSaturating (a b : UInt32) : UInt32 :=
  if a.toNat + b.toNat < UInt32.size then a + b else UInt32.ofNat (UInt32.size - 1)

/-- The difference of two words, or zero where it is negative. -/
def subSaturating (a b : UInt32) : UInt32 := if b ≤ a then a - b else 0

namespace LineSpan

/-- The lines a range covers. An end at column zero of a later line does not cover that line. -/
def ofRange (r : Range) : LineSpan :=
  if r.start.line < r.stop.line ∧ r.stop.character = 0 then ⟨r.start.line, r.stop.line - 1⟩
  else ⟨r.start.line, max r.stop.line r.start.line⟩

/-- The span with `context` more lines on either side, clamped to a file of `lines` lines. -/
def widen (span : LineSpan) (context : UInt32) (lines : Nat) : LineSpan :=
  let last := UInt32.ofNat (lines - 1)
  ⟨min (subSaturating span.first context) last, min (addSaturating span.last context) last⟩

/-- First lines first, then last lines. -/
def le (a b : LineSpan) : Bool := a.first < b.first || (a.first = b.first && a.last ≤ b.last)

/-- Merges neighbours of a sorted list that overlap or touch; `current` is the span at hand. -/
def mergeFrom (current : LineSpan) : List LineSpan → List LineSpan
  | [] => [current]
  | next :: rest =>
    if next.first ≤ addSaturating current.last 1 then
      mergeFrom ⟨current.first, max current.last next.last⟩ rest
    else current :: mergeFrom next rest

/-- The spans in ascending order, those that overlap or touch merged. -/
def merge (spans : List LineSpan) : List LineSpan :=
  match sortBy le spans with
  | [] => []
  | first :: rest => mergeFrom first rest

end LineSpan

/-- Lines of a file with a last line inside it, both counted from zero. -/
structure Passage where
  first : Nat
  last : Nat
deriving DecidableEq, Repr

namespace Passage

/-- The part of a span that lies in a file of `lines` lines, if any. -/
def ofSpan? (lines : Nat) (span : LineSpan) : Option Passage :=
  let last := min span.last.toNat (lines - 1)
  if lines = 0 ∨ last < span.first.toNat then none else some ⟨span.first.toNat, last⟩

/-- The digits of the greatest line number shown. -/
def numberWidth (passages : List Passage) : Nat :=
  match passages with
  | [] => 1
  | _ => passages.foldl (fun width p => max width (p.last + 1).repr.length) 0

def padded (width number : Nat) : List Char :=
  let digits := number.repr.toList
  List.replicate (width - digits.length) ' ' ++ digits

/-- One line as it is shown, after its number if numbers are wanted. -/
def shownLine (width? : Option Nat) (number : Nat) (line : List Char) : List Char :=
  match width? with
  | some width => padded width number ++ '|' :: line ++ ['\n']
  | none => line ++ ['\n']

/-- Consecutive lines; `number` is the number of the first. -/
def shownLines (width? : Option Nat) : Nat → List (List Char) → List Char
  | _, [] => []
  | number, line :: rest => shownLine width? number line ++ shownLines width? (number + 1) rest

def shown (lines : List (List Char)) (width? : Option Nat) (p : Passage) : List Char :=
  shownLines width? (p.first + 1) ((lines.drop p.first).take (p.last + 1 - p.first))

end Passage

/-- What stands between two parts of a file. -/
def gapMark : List Char := "...\n".toList

/-- The lines of several spans. Spans are clipped to the file, and those left empty are skipped. -/
def excerpts (lines : List (List Char)) (spans : List LineSpan) (numbers : Bool) : List Char :=
  let passages := spans.filterMap (Passage.ofSpan? lines.length)
  let width? := if numbers then some (Passage.numberWidth passages) else none
  gapMark.intercalate (passages.map (Passage.shown lines width?))

def excerpt (lines : List (List Char)) (span : LineSpan) (numbers : Bool) : List Char :=
  excerpts lines [span] numbers

end CodeIntel

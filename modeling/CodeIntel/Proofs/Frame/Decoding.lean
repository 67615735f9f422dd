import CodeIntel.Proofs.Text.Slash
import CodeIntel.Server.Frame
import Mathlib.Data.List.DropRight
import Mathlib.Data.List.TakeWhile

namespace CodeIntel

theorem isDigit_of_mem_repr {n : Nat} {c : Char} (mem : c ∈ n.repr.toList) : c.isDigit = true := by
  rw [Nat.toList_repr] at mem
  exact Nat.isDigit_of_mem_toDigits (by decide) (by decide) mem

theorem toNat_of_isDigit {c : Char} (h : c.isDigit = true) : 0x30 ≤ c.toNat ∧ c.toNat ≤ 0x39 := by
  simp only [Char.isDigit, Bool.and_eq_true, decide_eq_true_eq] at h
  exact ⟨UInt32.le_iff_toNat_le.mp h.1, UInt32.le_iff_toNat_le.mp h.2⟩

theorem isBlank_of_isDigit {c : Char} (h : c.isDigit = true) : isBlank c = false := by
  have others : ∀ n < 0x3A, 0x30 ≤ n → blankCodes.contains n = false := by decide
  obtain ⟨least, greatest⟩ := toNat_of_isDigit h
  exact others c.toNat (by omega) least

/-- A text without blanks comes out of the blanks before it. -/
theorem trimBlank_cons {c : Char} {cs : List Char} (blank : isBlank c = true)
    (others : ∀ d ∈ cs, isBlank d = false) : trimBlank (c :: cs) = cs := by
  have left : trimBlankLeft (c :: cs) = cs := by
    cases cs with
    | nil => simp [trimBlankLeft, blank]
    | cons d cs => simp [trimBlankLeft, blank, others d List.mem_cons_self]
  rw [trimBlank, left]
  refine List.rdropWhile_eq_self_iff.mpr fun nonempty => ?_
  simp [others _ (List.getLast_mem nonempty)]

namespace Frame

/-- A number is read as it is written. -/
theorem parseLength?_repr {n : Nat} (small : n < UInt64.size) :
    parseLength? n.repr.toList = some n := by
  have nonempty : n.repr.toList ≠ [] := by
    rw [Nat.toList_repr]
    exact Nat.toDigits_ne_nil
  have unsigned : n.repr.toList.head? ≠ some '+' := by
    intro plus
    exact absurd (isDigit_of_mem_repr (List.mem_of_head? plus)) (by decide)
  have digits : n.repr.toList.all isDigit = true := by
    refine List.all_eq_true.mpr fun c mem => ?_
    have digit := isDigit_of_mem_repr mem
    simp only [Char.isDigit, Bool.and_eq_true, decide_eq_true_eq] at digit
    simp only [isDigit, Bool.and_eq_true, decide_eq_true_eq]
    exact digit
  have value : n.repr.toList.foldl (fun n c => n * 10 + digitValue c) 0 = n := by
    have told := Nat.ofDigitChars_ten_toDigits (n := n)
    rw [Nat.ofDigitChars_eq_foldl] at told
    simpa only [Nat.toList_repr, digitValue, Nat.mul_comm] using told
  simp only [parseLength?, if_neg unsigned, nonempty, ne_eq, not_false_eq_true, digits, and_self,
    ↓reduceIte, value, small]

/-- The line that tells a length, up to its line feed. -/
def lengthLine (n : Nat) : List Char := lengthName ++ (' ' :: n.repr.toList ++ ['\r'])

/-- A line that tells nothing of a length and does not end the header. -/
structure IsExtra (line : List Char) : Prop where
  whole : '\n' ∉ line
  filled : ∃ c ∈ line, c ≠ '\r'
  other : ¬ lengthName <+: line

def lineBytes (line : List Char) : List UInt8 := utf8 line ++ [lineFeed]

def linesBytes (lines : List (List Char)) : List UInt8 := lines.flatMap lineBytes

theorem lineFeed_not_mem {line : List Char} (whole : '\n' ∉ line) : lineFeed ∉ utf8 line := by
  intro mem
  exact whole (mem_of_mem_flatMap_utf8 (by decide) rfl mem)

theorem encode_eq_lines (content : List UInt8) :
    encode content = lineBytes (lengthLine content.length) ++ (lineBytes ['\r'] ++ content) := by
  have header : s!"Content-Length: {content.length}\r\n\r\n".toList =
      lengthLine content.length ++ ['\n', '\r', '\n'] := by
    have name : "Content-Length: ".toList = lengthName ++ [' '] := by decide
    rw [String.toList_append, String.toList_append]
    change "Content-Length: ".toList ++ content.length.repr.toList ++ "\r\n\r\n".toList = _
    rw [name, lengthLine]
    simp
  rw [encode, utf8Bytes_eq, header, utf8_append, lineBytes, List.append_assoc, List.append_assoc]
  rfl

theorem trimLine_concat_feed (line : List Char) : trimLine (line ++ ['\n']) = trimLine line :=
  List.rdropWhile_concat_pos _ _ _ rfl

theorem trimLine_concat_return (line : List Char) : trimLine (line ++ ['\r']) = trimLine line :=
  List.rdropWhile_concat_pos _ _ _ rfl

theorem trimLine_isPrefix (line : List Char) : trimLine line <+: line := List.rdropWhile_prefix _ _

theorem readHeaderLine_feed (header : Header) (line : List Char) :
    readHeaderLine header (lineBytes line) =
      if trimLine line = [] then
        match header.length with
        | some n => .body n
        | none => .failed (.protocol "Missing Content-Length header")
      else if lengthName.isPrefixOf (trimLine line) then
        match parseLength? (trimBlank ((trimLine line).drop lengthName.length)) with
        | some n => .more ⟨some n, true⟩
        | none => .failed (.protocol "Invalid Content-Length")
      else .more ⟨header.length, true⟩ := by
  have text : ofUtf8? (lineBytes line) = some (String.ofList (line ++ ['\n'])) := by
    rw [← ofUtf8?_utf8Bytes, utf8Bytes_ofList, utf8_append]
    rfl
  have trimmed : trimLine (String.ofList (line ++ ['\n'])).toList = trimLine line := by
    rw [String.toList_ofList, trimLine_concat_feed]
  rewrite [readHeaderLine, text, ← trimmed]
  rfl

theorem readHeaderLine_extra {line : List Char} (extra : IsExtra line) (header : Header) :
    readHeaderLine header (lineBytes line) = .more ⟨header.length, true⟩ := by
  obtain ⟨c, mem, ne⟩ := extra.filled
  have filled : trimLine line ≠ [] := by
    intro empty
    have blank := List.rdropWhile_eq_nil_iff.mp empty c mem
    simp only [ne, decide_false, Bool.false_or, decide_eq_true_eq] at blank
    exact extra.whole (blank ▸ mem)
  have other : ¬ lengthName.isPrefixOf (trimLine line) := fun named =>
    extra.other ((List.isPrefixOf_iff_prefix.mp named).trans (trimLine_isPrefix line))
  rw [readHeaderLine_feed, if_neg filled, if_neg other]

theorem readHeaderLine_length {n : Nat} (small : n < UInt64.size) (header : Header) :
    readHeaderLine header (lineBytes (lengthLine n)) = .more ⟨some n, true⟩ := by
  have nonempty : lengthName ++ ' ' :: n.repr.toList ≠ [] := by simp
  have trimmed : trimLine (lengthLine n) = lengthName ++ ' ' :: n.repr.toList := by
    rw [lengthLine, ← List.append_assoc, trimLine_concat_return]
    refine List.rdropWhile_eq_self_iff.mpr fun _ => ?_
    rw [List.getLast_append_of_ne_nil _ (List.cons_ne_nil _ _)]
    rcases List.mem_cons.mp (List.getLast_mem (List.cons_ne_nil ' ' n.repr.toList)) with eq | mem
    · rw [eq]
      decide
    · have digit := isDigit_of_mem_repr mem
      generalize List.getLast _ _ = c at digit ⊢
      simp only [Bool.or_eq_true, decide_eq_true_eq, not_or]
      constructor <;> rintro rfl <;> exact absurd digit (by decide)
  have named : lengthName.isPrefixOf (lengthName ++ ' ' :: n.repr.toList) = true :=
    List.isPrefixOf_iff_prefix.mpr (List.prefix_append _ _)
  have told : trimBlank (' ' :: n.repr.toList) = n.repr.toList :=
    trimBlank_cons (by decide) fun c mem => isBlank_of_isDigit (isDigit_of_mem_repr mem)
  rw [readHeaderLine_feed, trimmed, if_neg nonempty, if_pos named, List.drop_left, told,
    parseLength?_repr small]

theorem readHeaderLine_end {header : Header} {n : Nat} (told : header.length = some n) :
    readHeaderLine header (lineBytes ['\r']) = .body n := by
  rw [readHeaderLine_feed, if_pos (by decide), told]

section Header

variable {closed : Bool} {header : Header} {rest : List UInt8}

/-- What comes of a whole line. -/
theorem readFrom_line {line : List UInt8} (whole : lineFeed ∉ line) (done : List UInt8) :
    readFrom closed header done (line ++ lineFeed :: rest) =
      match readHeaderLine header (done.reverse ++ (line ++ [lineFeed])) with
      | .more header => readFrom closed header [] rest
      | .body length => bodyOutcome closed length rest
      | .failed e => .failed e := by
  induction line generalizing done with
  | nil =>
    rewrite [List.nil_append, List.nil_append, readFrom, if_pos rfl, List.reverse_cons]
    rfl
  | cons b line ih =>
    have ne : b ≠ lineFeed := fun eq => whole (eq ▸ List.mem_cons_self)
    rw [List.cons_append, readFrom, if_neg ne, ih (fun mem => whole (List.mem_cons_of_mem b mem))]
    simp

end Header

/-- The bytes of a JSON text. There are not more of them than a header can tell. -/
structure JsonText where
  content : List UInt8
  value : Json
  accepted : readContent content = .ok value
  told : content.length < UInt64.size

/-- A message as it may come: in its header, more lines may stand before and behind the one that
tells the length. -/
structure Packet extends JsonText where
  before : List (List Char)
  behind : List (List Char)
  extra : ∀ line ∈ before ++ behind, IsExtra line

def Packet.bytes (p : Packet) : List UInt8 :=
  linesBytes p.before ++ (lineBytes (lengthLine p.content.length) ++
    (linesBytes p.behind ++ (lineBytes ['\r'] ++ p.content)))

/-- A message as it is written. -/
def JsonText.packet (text : JsonText) : Packet := ⟨text, [], [], nofun⟩

theorem JsonText.bytes_packet (text : JsonText) : text.packet.bytes = encode text.content :=
  (encode_eq_lines text.content).symm

/-- Reads so many messages; then, or when one cannot be read, it tells what comes next. -/
def readNext (closed : Bool) : Nat → List UInt8 → List Json × Outcome
  | 0, bytes => ([], read closed bytes)
  | n + 1, bytes =>
    match read closed bytes with
    | .message value rest =>
      let (values, outcome) := readNext closed n rest
      (value :: values, outcome)
    | outcome => ([], outcome)

variable {closed : Bool} {header : Header} {bytes rest : List UInt8} {value : Json}

theorem readFrom_lineBytes {line : List Char} (whole : '\n' ∉ line) :
    readFrom closed header [] (lineBytes line ++ rest) =
      match readHeaderLine header (lineBytes line) with
      | .more header => readFrom closed header [] rest
      | .body length => bodyOutcome closed length rest
      | .failed e => .failed e := by
  rw [lineBytes, List.append_assoc]
  exact readFrom_line (lineFeed_not_mem whole) []

/-- Lines that tell nothing of the length leave it as it is. -/
theorem readFrom_extra (closed : Bool) {lines : List (List Char)}
    (extra : ∀ line ∈ lines, IsExtra line) (header : Header) :
    ∃ started, readFrom closed header [] (linesBytes lines ++ rest) =
      readFrom closed ⟨header.length, started⟩ [] rest := by
  induction lines generalizing header with
  | nil => exact ⟨header.started, rfl⟩
  | cons line lines ih =>
    have first := extra line List.mem_cons_self
    obtain ⟨started, later⟩ := ih (fun line mem => extra line (List.mem_cons_of_mem _ mem))
      ⟨header.length, true⟩
    refine ⟨started, ?_⟩
    rw [linesBytes, List.flatMap_cons, List.append_assoc, readFrom_lineBytes first.whole,
      readHeaderLine_extra first]
    exact later

theorem bodyOutcome_content (text : JsonText) :
    bodyOutcome closed text.content.length (text.content ++ rest) = .message text.value rest := by
  simp only [bodyOutcome, List.take_left, ↓reduceIte, text.accepted, List.drop_left]

theorem whole_lengthLine (n : Nat) : '\n' ∉ lengthLine n := by
  intro mem
  rcases List.mem_append.mp mem with name | mem
  · exact absurd name (by decide)
  · rcases List.mem_cons.mp mem with blank | mem
    · exact absurd blank (by decide)
    · rcases List.mem_append.mp mem with digit | last
      · exact absurd (isDigit_of_mem_repr digit) (by decide)
      · exact absurd last (by decide)

/-- Whatever the content is, the header of a frame tells its length. -/
theorem read_frame {before behind : List (List Char)} {content : List UInt8}
    (extra : ∀ line ∈ before ++ behind, IsExtra line) (told : content.length < UInt64.size) :
    read closed (linesBytes before ++ (lineBytes (lengthLine content.length) ++
      (linesBytes behind ++ (lineBytes ['\r'] ++ (content ++ rest))))) =
      bodyOutcome closed content.length (content ++ rest) := by
  obtain ⟨extraBefore, extraBehind⟩ := List.forall_mem_append.mp extra
  obtain ⟨_, skipped⟩ := readFrom_extra closed extraBefore ⟨none, false⟩
  obtain ⟨_, skipped'⟩ :=
    readFrom_extra closed extraBehind ⟨some content.length, true⟩
  rw [read, skipped, readFrom_lineBytes (whole_lengthLine _), readHeaderLine_length told]
  dsimp only
  rw [skipped', readFrom_lineBytes (by decide), readHeaderLine_end rfl]

theorem read_encode {content : List UInt8} (told : content.length < UInt64.size) :
    read closed (encode content ++ rest) = bodyOutcome closed content.length (content ++ rest) := by
  have none : ∀ line ∈ ([] ++ [] : List (List Char)), IsExtra line := nofun
  rw [encode_eq_lines, List.append_assoc, List.append_assoc]
  exact read_frame none told

/-- A whole frame needs no more bytes. -/
theorem read_encode_ne_waiting {content : List UInt8} (told : content.length < UInt64.size) :
    read closed (encode content ++ rest) ≠ .waiting := by
  rw [read_encode told, bodyOutcome, List.take_left, if_pos rfl]
  cases readContent content <;> nofun

theorem read_packet (p : Packet) : read closed (p.bytes ++ rest) = .message p.value rest := by
  simp only [Packet.bytes, List.append_assoc]
  rw [read_frame p.extra p.told]
  exact bodyOutcome_content p.toJsonText

/-- What is read, with more bytes behind it. -/
def Outcome.before (more : List UInt8) : Outcome → Outcome
  | .message value rest => .message value (rest ++ more)
  | outcome => outcome

theorem bodyOutcome_append {length : Nat} (settled : bodyOutcome false length bytes ≠ .waiting)
    (more : List UInt8) :
    bodyOutcome closed length (bytes ++ more) = (bodyOutcome false length bytes).before more := by
  have enough : length ≤ bytes.length := by
    refine Decidable.byContradiction fun short => settled ?_
    have short : ¬ (bytes.take length).length = length := by
      rw [List.length_take]
      omega
    simp only [bodyOutcome, if_neg short]
    rfl
  have whole : (bytes.take length).length = length := by
    rw [List.length_take]
    omega
  simp only [bodyOutcome, List.take_append_of_le_length enough, List.drop_append_of_le_length enough,
    whole, ↓reduceIte]
  cases readContent (bytes.take length) <;> rfl

/-- What is read off some bytes does not change when more come. -/
theorem readFrom_append {line : List UInt8}
    (settled : readFrom false header line bytes ≠ .waiting) (more : List UInt8) :
    readFrom closed header line (bytes ++ more) = (readFrom false header line bytes).before more := by
  induction bytes generalizing header line with
  | nil => exact absurd rfl settled
  | cons b bytes ih =>
    rw [readFrom] at settled
    rw [List.cons_append, readFrom, readFrom]
    by_cases feed : b = lineFeed
    · rw [if_pos feed] at settled
      rw [if_pos feed, if_pos feed]
      cases told : readHeaderLine header (b :: line).reverse with
      | more header =>
        rw [told] at settled
        exact ih settled
      | body length =>
        rw [told] at settled
        exact bodyOutcome_append settled more
      | failed e => rfl
    · rw [if_neg feed] at settled
      rw [if_neg feed, if_neg feed]
      exact ih settled

theorem read_append (settled : read false bytes ≠ .waiting) (more : List UInt8) :
    read closed (bytes ++ more) = (read false bytes).before more :=
  readFrom_append settled more

/-- Of some messages, as far as their bytes have come, the first is read or waited for. -/
theorem read_false_of_packets {packets : List Packet} {coming : List UInt8}
    (all : bytes ++ coming = packets.flatMap Packet.bytes) :
    read false bytes = .waiting ∨ ∃ p others, packets = p :: others ∧
      ∃ rest, read false bytes = .message p.value rest ∧
        rest ++ coming = others.flatMap Packet.bytes := by
  by_cases waits : read false bytes = .waiting
  · exact .inl waits
  refine .inr ?_
  have whole : read false (bytes ++ coming) = (read false bytes).before coming :=
    read_append waits coming
  cases packets with
  | nil =>
    obtain ⟨rfl, rfl⟩ := List.append_eq_nil_iff.mp all
    exact absurd rfl waits
  | cons p others =>
    rw [all, List.flatMap_cons, read_packet] at whole
    refine ⟨p, others, rfl, ?_⟩
    cases found : read false bytes with
    | message value rest =>
      rw [found] at whole
      obtain ⟨rfl, eq⟩ := Outcome.message.inj whole
      exact ⟨rest, rfl, eq.symm⟩
    | failed e =>
      rw [found] at whole
      cases whole
    | ended =>
      rw [found] at whole
      cases whole
    | waiting => exact absurd found waits

theorem readNext_packets (packets : List Packet) (n : Nat) :
    readNext closed (packets.length + n) (packets.flatMap Packet.bytes ++ rest) =
      (packets.map (·.value) ++ (readNext closed n rest).1, (readNext closed n rest).2) := by
  induction packets with
  | nil => simp
  | cons p packets ih =>
    rw [List.length_cons, Nat.succ_add, List.flatMap_cons, List.append_assoc, readNext,
      read_packet]
    simp only [ih]
    rfl

theorem length_le_of_bodyOutcome {length : Nat}
    (h : bodyOutcome closed length bytes = .message value rest) : rest.length ≤ bytes.length := by
  unfold bodyOutcome at h
  simp only at h
  split at h
  · split at h
    · cases h
      simp
    · cases h
  · split at h <;> cases h

theorem length_le_of_readFrom {line : List UInt8}
    (h : readFrom closed header line bytes = .message value rest) : rest.length ≤ bytes.length := by
  induction bytes generalizing header line with
  | nil =>
    simp only [readFrom, lastLineOutcome] at h
    split at h
    · split at h
      · split at h <;> cases h
      · split at h
        · cases h
        · exact length_le_of_bodyOutcome h
        · cases h
    · cases h
  | cons b bytes ih =>
    refine Nat.le_succ_of_le ?_
    rw [readFrom] at h
    split at h
    · split at h
      · exact ih h
      · exact length_le_of_bodyOutcome h
      · cases h
    · exact ih h

/-- A message takes something of what there is. -/
theorem length_lt_of_read (h : read closed bytes = .message value rest) :
    rest.length < bytes.length := by
  cases bytes with
  | nil => cases closed <;> cases h
  | cons b bytes =>
    refine Nat.lt_succ_of_le ?_
    rw [read, readFrom] at h
    split at h
    · split at h
      · exact length_le_of_readFrom h
      · exact length_le_of_bodyOutcome h
      · cases h
    · exact length_le_of_readFrom h

theorem readAllFrom_acc (fuel : Nat) (bytes : List UInt8) (acc : List Json) :
    readAllFrom fuel bytes acc =
      (acc.reverse ++ (readAllFrom fuel bytes []).1, (readAllFrom fuel bytes []).2) := by
  induction fuel generalizing bytes acc with
  | zero => simp [readAllFrom]
  | succ fuel ih =>
    simp only [readAllFrom]
    split
    next value rest _ =>
      rw [ih rest (value :: acc), ih rest [value]]
      simp
    all_goals simp

/-- As every message takes something, there is no need of more steps than bytes. -/
theorem readAllFrom_eq_readAll {fuel : Nat} (enough : bytes.length < fuel) :
    readAllFrom fuel bytes [] = readAll bytes := by
  have steps : ∀ fuel' bytes, bytes.length < fuel' → ∀ fuel, bytes.length < fuel →
      readAllFrom fuel bytes [] = readAllFrom fuel' bytes [] := by
    intro fuel'
    induction fuel' with
    | zero => exact nofun
    | succ fuel' ih =>
      rintro bytes enough' (_ | fuel) enough
      · cases enough
      · simp only [readAllFrom]
        split
        next value rest eq =>
          have less := length_lt_of_read eq
          rw [readAllFrom_acc fuel, readAllFrom_acc fuel', ih rest (by omega) fuel (by omega)]
        all_goals rfl
  exact steps _ bytes (Nat.lt_succ_self _) fuel enough

theorem readAll_packet (p : Packet) :
    readAll (p.bytes ++ rest) = (p.value :: (readAll rest).1, (readAll rest).2) := by
  have first : read true (p.bytes ++ rest) = .message p.value rest := read_packet p
  have less := length_lt_of_read first
  rw [readAll, readAllFrom, read_packet]
  dsimp only
  rw [readAllFrom_acc, readAllFrom_eq_readAll less]
  rfl

theorem readAll_packets (packets : List Packet) :
    readAll (packets.flatMap Packet.bytes ++ rest) =
      (packets.map (·.value) ++ (readAll rest).1, (readAll rest).2) := by
  induction packets with
  | nil => rfl
  | cons p packets ih =>
    rw [List.flatMap_cons, List.append_assoc, readAll_packet, ih]
    rfl

/-- From the bytes come these values, one after the other, and then whatever comes of the rest
alone. -/
structure ReadsAs (bytes : List UInt8) (values : List Json) (rest : List UInt8) : Prop where
  next : ∀ closed n, readNext closed (values.length + n) bytes =
    (values ++ (readNext closed n rest).1, (readNext closed n rest).2)
  all : readAll bytes = (values ++ (readAll rest).1, (readAll rest).2)

theorem readsAs_packets (packets : List Packet) (rest : List UInt8) :
    ReadsAs (packets.flatMap Packet.bytes ++ rest) (packets.map (·.value)) rest := by
  refine ⟨fun closed n => ?_, readAll_packets packets⟩
  rw [List.length_map]
  exact readNext_packets packets n

/-- JSON texts as they are written, one after the other. -/
def written (texts : List JsonText) : List UInt8 := texts.flatMap fun text => encode text.content

theorem written_eq (texts : List JsonText) :
    written texts = (texts.map JsonText.packet).flatMap Packet.bytes := by
  rw [written, List.flatMap_map]
  exact congrArg texts.flatMap (funext fun text => text.bytes_packet.symm)

/-- Whatever the texts hold and whatever stands behind them. Nor does it matter which lines stand
beside the one that tells the length. -/
theorem reading_undoes_writing (texts : List JsonText) (rest : List UInt8) :
    ReadsAs (written texts ++ rest) (texts.map (·.value)) rest ∧
    readNext true texts.length (written texts) = (texts.map (·.value), .ended) ∧
    ∀ packets : List Packet,
      ReadsAs (packets.flatMap Packet.bytes ++ rest) (packets.map (·.value)) rest := by
  have plain : ∀ rest, ReadsAs (written texts ++ rest) (texts.map (·.value)) rest := by
    intro rest
    have reads := readsAs_packets (texts.map JsonText.packet) rest
    rwa [← written_eq, List.map_map] at reads
  refine ⟨plain rest, ?_, fun packets => readsAs_packets packets rest⟩
  have reads := (plain []).next true 0
  simpa [readNext, read, readFrom, lastLineOutcome] using reads

/-- A text with line ends and a string that looks like a header. -/
example : readContent (utf8Bytes "[\r\n\r\n\"Content-Length: 1\"]") =
    .ok (.array [.string "Content-Length: 1"]) := by cbv

end Frame

end CodeIntel

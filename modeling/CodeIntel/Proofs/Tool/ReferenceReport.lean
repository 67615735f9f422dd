import CodeIntel.Proofs.Excerpt.Windows
import CodeIntel.Proofs.Tool.Grouping
import CodeIntel.Proofs.Tool.Interview
import CodeIntel.Tool.References

namespace CodeIntel.References

open List (Forall₂)

section Snippets

variable {text : String} {ranges : List Range} {context : UInt32} {count n : Nat}

/-- The lines of a file that lie in the window of at least one range. Windows reach down to the line
`bottom`. -/
def windowLines (context bottom count : Nat) (ranges : List Range) : List Nat :=
  (List.range count).filter fun n =>
    ∃ r ∈ ranges, InWindow context bottom r.start.line.toNat r.stop.line.toNat n

theorem mem_windowLines_iff {context bottom : Nat} : n ∈ windowLines context bottom count ranges ↔
    n < count ∧ ∃ r ∈ ranges, InWindow context bottom r.start.line.toNat r.stop.line.toNat n := by
  rw [windowLines, List.mem_filter, List.mem_range, decide_eq_true_iff]

theorem has_windows_iff (ordered : ∀ r ∈ ranges, r.start.line ≤ r.stop.line) (context : UInt32)
    (count : Nat) :
    (∀ n, (∃ s ∈ windows context count ranges, s.Has n) ↔ ∃ r ∈ ranges,
      InWindow context.toNat (lastLine count) r.start.line.toNat r.stop.line.toNat n) ∧
    (∀ s ∈ windows context count ranges, s.Upright) ∧
    LineSpan.Apart (windows context count ranges) := by
  have upright : ∀ s ∈ ranges.map fun r => LineSpan.widen ⟨r.start.line, r.stop.line⟩ context count,
      s.Upright := by
    intro s mem
    obtain ⟨r, chosen, rfl⟩ := List.mem_map.mp mem
    exact LineSpan.Upright.widen (UInt32.le_iff_toNat_le.mp (ordered r chosen)) context count
  have merged := LineSpan.merge_spec upright
  refine ⟨fun n => (merged.1 n).trans ?_, merged.2⟩
  simp [LineSpan.has_widen_iff]

/-- The windows around ranges show each line in one of them once. -/
theorem excerpts_windows (ordered : ∀ r ∈ ranges, r.start.line ≤ r.stop.line) (context : UInt32)
    (lines : List (List Char)) (numbers : Bool) :
    excerpts lines (windows context lines.length ranges) numbers = printedLines lines numbers
      (windowLines context.toNat (lastLine lines.length) lines.length ranges) := by
  obtain ⟨has, upright, apart⟩ := has_windows_iff ordered context lines.length
  by_cases empty : lines = []
  · subst empty
    have none : (windows context 0 ranges).filterMap (Passage.ofSpan? 0) = [] :=
      List.filterMap_eq_nil_iff.mpr fun s _ => by simp [Passage.ofSpan?]
    simp [excerpts, none, printedLines, windowLines, withGaps]
  · have bottom : lastLine lines.length < lines.length :=
      lastLine_lt (List.length_pos_iff.mpr empty)
    refine LineSpan.excerpts_of_apart upright (fun s mem => ?_) apart
      (List.pairwise_lt_range.filter _) (fun n => ?_) numbers
    · have last : s.Has s.last.toNat := ⟨upright s mem, Nat.le_refl _⟩
      obtain ⟨r, _, window⟩ := (has _).mp ⟨s, mem, last⟩
      have := window.2
      omega
    · rw [has]
      refine mem_windowLines_iff.trans (and_iff_right_of_imp ?_)
      rintro ⟨r, _, window⟩
      have := window.2
      omega

/-- The window of a range in one line has that line, or the last line if that comes before it. -/
theorem windowLines_of_line {bottom count n : Nat} {r : Range} (start : r.start.line.toNat = n)
    (stop : r.stop.line.toNat = n) (inside : bottom < count) :
    windowLines 0 bottom count [r] = [min n bottom] := by
  rw [← filter_inWindow_line inside]
  refine List.filter_congr fun m _ => decide_eq_decide.mpr ?_
  simp [start, stop]

theorem printedLines_blank (count n : Nat) :
    printedLines (List.replicate count []) true [n] = lineDigits n ++ ['|', '\n'] :=
  printedLine_blank count n

/-- Below its heading, a file is shown with just the lines that lie in the window of one range at
least. The window of a range has `context` more lines on either side, and its ends are clamped to
the lines of the file that 32 bits count. -/
theorem windows_are_shown (group : Group)
    (ordered : ∀ r ∈ group.2, r.start.line ≤ r.stop.line) (root : Path) (context : UInt32)
    (numbers : Bool) (text : String) :
    let lines := splitLines text.toList
    fileReport group root context numbers (.ok text) = heading group root ++
        String.ofList (printedLines lines numbers
          (windowLines context.toNat (lastLine lines.length) lines.length group.2)) ∧
      (lastLine lines.length = lines.length - 1 ↔ lines.length ≤ UInt32.size) := by
  intro lines
  refine ⟨?_, lastLine_eq_iff⟩
  rw [← excerpts_windows ordered context lines numbers]
  rfl

theorem touching_windows_are_shown :
    let group : Group := (.ofString "/w/a", [⟨⟨0, 0⟩, ⟨0, 1⟩⟩, ⟨⟨3, 0⟩, ⟨3, 1⟩⟩, ⟨⟨9, 0⟩, ⟨12, 1⟩⟩])
    (∀ r ∈ group.2, r.start.line ≤ r.stop.line) ∧
      fileReport group (.ofString "/w") 1 false (.ok "a\nb\nc\nd\ne\nf\ng\nh\n") =
        "\na\nReferences: L1:C1, L4:C1, L10:C1\na\nb\nc\nd\ne\n...\nh\n" := by
  intro group
  have ordered : ∀ r ∈ group.2, r.start.line ≤ r.stop.line := by decide
  refine ⟨ordered, (windows_are_shown group ordered _ _ _ _).1.trans ?_⟩
  rfl

/-- In a file with more lines than 32 bits count, the window around a line is clamped to the first
line. -/
theorem window_is_lost_beyond_32_bits :
    let text := String.ofList (List.replicate (UInt32.size + 1) '\n')
    let lines := splitLines text.toList
    let group : Group := (.ofString "/w/a", [⟨⟨5, 0⟩, ⟨5, 1⟩⟩])
    lines.length = UInt32.size + 1 ∧
      fileReport group (.ofString "/w") 0 true (.ok text) =
        heading group (.ofString "/w") ++ "1|\n" ∧
      printedLines lines true (windowLines 0 (lines.length - 1) lines.length group.2) =
        "6|\n".toList := by
  intro text lines group
  have blank : lines = List.replicate (UInt32.size + 1) [] := by
    rw [← splitLines_feeds, ← String.toList_ofList (l := List.replicate (UInt32.size + 1) '\n')]
  have length : lines.length = UInt32.size + 1 := by rw [blank, List.length_replicate]
  have bottom : lastLine lines.length = 0 := by
    rw [length]
    decide
  have window {bottom : Nat} (inside : bottom < lines.length) :
      windowLines 0 bottom lines.length group.2 = [min 5 bottom] :=
    windowLines_of_line rfl rfl inside
  refine ⟨length, ?_, ?_⟩
  · have first : windowLines 0 (lastLine lines.length) lines.length group.2 = [0] := by
      rw [bottom]
      exact window (by omega)
    show heading group _ ++ String.ofList (excerpts lines (windows 0 lines.length group.2) true) = _
    rw [excerpts_windows (by decide)]
    show heading group _ ++ String.ofList
      (printedLines lines true (windowLines 0 (lastLine lines.length) lines.length group.2)) = _
    rw [first, blank, printedLines_blank]
    rfl
  · have least : min 5 (lines.length - 1) = 5 := by
      rw [length]
      decide
    rw [window (by omega), least, blank, printedLines_blank]
    rfl

end Snippets

/-- What a call does before it asks for references: it finds the symbol and its declaration. -/
def locate (caller : Caller) (args : Json) :
    Action (SymbolArguments × WorkspaceSymbol × Location) := do
  let a ← Tool.arguments "ReferencesArgs" SymbolArguments.fields args
  let s ← resolveSymbol a.symbolName caller.surroundings.root
  let declared ← s.declaration
  pure (a, s, declared)

/-- What a call does with the locations that it is given. -/
def tell (caller : Caller) (numbers : Bool) (title : String) (found : List Location) :
    Action Output :=
  if found.isEmpty then pure ⟨title, s!"No references found for {title}", metadata 0 0⟩
  else do
    let groups := groupByFile found
    let text ← reports caller numbers groups
    let first := s!"Found {count groups} reference(s) to {title} in {groups.length} file(s)\n"
    pure ⟨title, first ++ text, metadata (count groups) groups.length⟩

/-- A group and what came of reading its file. -/
abbrev Reading := Group × Except FileError String

/-- What is asked for groups, and answered. -/
def readingTurns (readings : List Reading) : Interview :=
  readings.flatMap fun (group, text) => [⟨.cancelled, false⟩, ⟨.readText group.1, text⟩]

/-- Where ranges start, lines and columns counted from one. -/
def startsText (ranges : List Range) : String :=
  ", ".intercalate <| ranges.map fun r => s!"L{r.start.line + 1}:C{r.start.character + 1}"

/-- What a report says of a group: behind an empty line, one with the path of the file and one with
where its ranges start, and then the lines around them, or why the file cannot be read. -/
inductive TellsOf (caller : Caller) (numbers : Bool) : Reading → String → Prop
  | shown (path : Path) (ranges : List Range) (text : String) :
      TellsOf caller numbers ((path, ranges), .ok text) <|
        "\n" ++ path.shown caller.surroundings.root ++ "\n" ++
          "References: " ++ startsText ranges ++ "\n" ++
          snippet text ranges caller.contextLines numbers
  | unavailable (path : Path) (ranges : List Range) (e : FileError) :
      TellsOf caller numbers ((path, ranges), .error e) <|
        "\n" ++ path.shown caller.surroundings.root ++ "\n" ++
          "References: " ++ startsText ranges ++ "\n" ++
          s!"(source unavailable: {e.message})\n"

variable {caller : Caller} {args : Json} {numbers : Bool} {title : String} {groups : List Group}
  {found found' : List Location} {talk before after : Interview}

theorem heading_eq (group : Group) (root : Path) : heading group root =
    "\n" ++ group.1.shown root ++ "\n" ++ "References: " ++ startsText group.2 ++ "\n" := by
  have lead : "\nReferences: " = "\n" ++ "References: " := rfl
  show "\n" ++ group.1.shown root ++ "\nReferences: " ++ startsText group.2 ++ "\n" = _
  rw [lead, ← String.append_assoc]

theorem tellsOf_fileReport (caller : Caller) (numbers : Bool) (group : Group)
    (text : Except FileError String) :
    TellsOf caller numbers (group, text)
      (fileReport group caller.surroundings.root caller.contextLines numbers text) := by
  cases text with
  | ok text =>
    rw [fileReport, heading_eq]
    exact .shown group.1 group.2 text
  | error e =>
    rw [fileReport, heading_eq]
    exact .unavailable group.1 group.2 e

theorem run_eq (caller : Caller) (args : Json) :
    run caller args = locate caller args >>= fun located =>
      Action.request (.references located.2.2.path located.2.2.range.start false) >>=
        tell caller located.1.showLineNumbers located.2.1.qualifiedName := by
  simp only [run, locate, bind_assoc, pure_bind]
  rfl

theorem converses_reports {result : Except ToolError String}
    (h : (reports caller numbers groups).run.Converses talk result) :
    (⟨.cancelled, true⟩ ∈ talk ∧ result = .error .cancelled) ∨
      ∃ (readings : List Reading) (parts : List String), readings.map Prod.fst = groups ∧
        Forall₂ (TellsOf caller numbers) readings parts ∧ talk = readingTurns readings ∧
        result = .ok (String.join parts) := by
  induction groups generalizing talk result with
  | nil =>
    obtain ⟨rfl, rfl⟩ := h
    exact .inr ⟨[], [], rfl, .nil, rfl, rfl⟩
  | cons group rest ih =>
    obtain ⟨tripped, later, rfl, h⟩ := h
    cases tripped with
    | true =>
      obtain ⟨rfl, rfl⟩ := h
      exact .inl ⟨List.mem_cons_self, rfl⟩
    | false =>
      obtain ⟨text, later, rfl, h⟩ := h
      rcases Plan.converses_run_bind_iff.mp h with
        ⟨e, read, rfl⟩ | ⟨talk, more, after, rfl, read, rest⟩
      · rcases ih read with ⟨tripped, failed⟩ | ⟨_, _, _, _, _, ended⟩
        · obtain rfl := Except.error.inj failed
          exact .inl ⟨by simp [tripped], rfl⟩
        · cases ended
      · rcases ih read with ⟨_, failed⟩ | ⟨readings, parts, rfl, each, rfl, ended⟩
        · cases failed
        · obtain rfl := Except.ok.inj ended
          obtain ⟨rfl, rfl⟩ := rest
          have here := tellsOf_fileReport caller numbers group text
          refine .inr ⟨(group, text) :: readings, _, rfl, .cons here each, ?_, ?_⟩
          · simp [readingTurns]
          · rw [String.join_cons]

/-- What a call comes to with the locations that it is given: nothing is found, it is cancelled
before all files are read, or all groups are told of, one after the other. -/
inductive Told (caller : Caller) (numbers : Bool) (title : String) (groups : List Group) :
    Interview → Except ToolError Output → Prop
  | nothing (none : groups = []) : Told caller numbers title groups []
      (.ok ⟨title, s!"No references found for {title}", metadata 0 0⟩)
  | cancelled {talk : Interview} (tripped : ⟨.cancelled, true⟩ ∈ talk) :
      Told caller numbers title groups talk (.error .cancelled)
  | listed (some : groups ≠ []) {readings : List Reading} (all : readings.map Prod.fst = groups)
      {parts : List String} (each : Forall₂ (TellsOf caller numbers) readings parts) :
      Told caller numbers title groups (readingTurns readings)
        (.ok
          { title
            text :=
              s!"Found {count groups} reference(s) to {title} in {groups.length} file(s)\n" ++
                String.join parts
            metadata := metadata (count groups) groups.length })

theorem addLocation_ne_nil (l : Location) (groups : List Group) : addLocation l groups ≠ [] := by
  cases groups with
  | nil => simp [addLocation]
  | cons group rest =>
    unfold addLocation
    split
    · simp
    · split <;> simp

theorem groupByFile_eq_nil_iff : groupByFile found = [] ↔ found = [] := by
  rw [groupByFile, List.map_eq_nil_iff]
  rcases List.eq_nil_or_concat found with rfl | ⟨front, l, rfl⟩
  · simp
  · simp [addLocation_ne_nil]

theorem converses_tell {result : Except ToolError Output}
    (h : (tell caller numbers title found).run.Converses talk result) :
    Told caller numbers title (groupByFile found) talk result := by
  unfold tell at h
  split at h
  next none =>
    obtain rfl := List.isEmpty_iff.mp none
    obtain ⟨rfl, rfl⟩ := h
    exact .nothing rfl
  next some =>
    have some : groupByFile found ≠ [] := by simpa [groupByFile_eq_nil_iff] using some
    rcases Plan.converses_run_bind_iff.mp h with ⟨e, read, rfl⟩ | ⟨talk, text, after, rfl, read, rest⟩
    · rcases converses_reports read with ⟨tripped, failed⟩ | ⟨_, _, _, _, _, ended⟩
      · obtain rfl := Except.error.inj failed
        exact .cancelled tripped
      · cases ended
    · rcases converses_reports read with ⟨_, failed⟩ | ⟨readings, parts, all, each, rfl, ended⟩
      · cases failed
      · obtain rfl := Except.ok.inj ended
        obtain ⟨rfl, rfl⟩ := rest
        rw [List.append_nil]
        exact .listed some all each

/-- A search for references is the only one in its call. -/
def IsSearch : Ask → Prop
  | .query (.references ..) => True
  | _ => False

theorem asks_locate (caller : Caller) (args : Json) :
    (locate caller args).run.Asks fun q => ¬ IsSearch q := by
  refine Plan.asks_run_bind (Action.asks_arguments ..) fun a => ?_
  refine Plan.asks_run_bind (Action.asks_resolveSymbol (fun _ => id) ..) fun s => ?_
  exact Plan.asks_run_bind (Action.asks_declaration (fun _ _ => id) s) fun _ => trivial

theorem asks_tell (caller : Caller) (numbers : Bool) (title : String) (found : List Location) :
    (tell caller numbers title found).run.Asks fun q => ¬ IsSearch q := by
  unfold tell
  split
  · trivial
  · exact Plan.asks_run_bind (asks_reports id (fun _ => id) ..) fun _ => trivial

/-- The search for the references of what is declared at a place, and its answer. -/
abbrev searched (path : Path) (place : Position) (found : List Location) :
    (a : Ask) × a.Reply := Action.answered ⟨.references path place false, found⟩

theorem run_converses_iff {path : Path} {place : Position} {result : Except ToolError Output} :
    (run caller args).run.Converses (before ++ searched path place found :: after) result ↔
      ∃ a s declared, (locate caller args).run.Converses before (.ok (a, s, declared)) ∧
        path = declared.path ∧ place = declared.range.start ∧
          (tell caller a.showLineNumbers s.qualifiedName found).run.Converses after result := by
  have here : IsSearch (.query (.references path place false)) := trivial
  rw [run_eq, searched, Action.converses_around_iff (P := IsSearch) (asks_locate caller args)
    (fun _ _ => asks_tell ..) here]
  constructor
  · rintro ⟨⟨a, s, declared⟩, reply, same, first, rest⟩
    cases same
    exact ⟨a, s, declared, first, rfl, rfl, rest⟩
  · rintro ⟨a, s, declared, first, rfl, rfl, rest⟩
    exact ⟨(a, s, declared), found, rfl, first, rest⟩

theorem decode_of_locate {a : SymbolArguments} {s : WorkspaceSymbol} {declared : Location}
    (h : (locate caller args).run.Converses before (.ok (a, s, declared))) :
    SymbolArguments.fields.decode "ReferencesArgs" args = .ok a := by
  obtain ⟨_, decoded, resolves⟩ := Action.converses_arguments_bind_ok_iff.mp h
  obtain ⟨_, _, _, _, _, declares⟩ := Plan.converses_run_bind_ok_iff.mp resolves
  obtain ⟨_, _, _, _, _, ends⟩ := Plan.converses_run_bind_ok_iff.mp declares
  cases ends.2
  exact decoded

theorem tell_eq_of_same (alike : SpelledAlike found) (same : ∀ l, l ∈ found' ↔ l ∈ found) :
    tell caller numbers title found = tell caller numbers title found' := by
  have empty : found.isEmpty = found'.isEmpty := by
    rw [Bool.eq_iff_iff, List.isEmpty_iff, List.isEmpty_iff, List.eq_nil_iff_forall_not_mem,
      List.eq_nil_iff_forall_not_mem]
    exact forall_congr' fun l => not_congr (same l).symm
  unfold tell
  rw [empty, groupByFile_eq_of_same alike same]

/-- Where no path is spelled in two ways, each location that the server names is told of once, by
files and in ascending order, and the totals are those of different locations and of different
paths. The outcome of a call, with the same answers to all else, does not depend on the order of the
locations nor on how often each occurs. -/
theorem references_are_told_once {found : List Location} (alike : SpelledAlike found) :
    ReportsOnce found (groupByFile found) ∧
    count (groupByFile found) = found.toFinset.card ∧
    (groupByFile found).length = (found.map Location.path).toFinset.card ∧
    ∀ (caller : Caller) (args : Json) (before after : Interview) (path : Path) (place : Position)
      (result : Except ToolError Output),
      ((run caller args).run.Converses (before ++ searched path place found :: after) result →
        ∃ a s, SymbolArguments.fields.decode "ReferencesArgs" args = .ok a ∧
          Told caller a.showLineNumbers (WorkspaceSymbol.qualifiedName s) (groupByFile found) after
            result) ∧
      ∀ found' : List Location, (∀ l, l ∈ found' ↔ l ∈ found) →
        ((run caller args).run.Converses (before ++ searched path place found :: after) result ↔
          (run caller args).run.Converses (before ++ searched path place found' :: after)
            result) := by
  have once := reportsOnce_groupByFile alike
  refine ⟨once, once.count_eq, once.length_eq, fun caller args before after path place result => ?_⟩
  refine ⟨fun talks => ?_, fun found' same => ?_⟩
  · obtain ⟨a, s, declared, located, _, _, rest⟩ := run_converses_iff.mp talks
    exact ⟨a, s, decode_of_locate located, converses_tell rest⟩
  · simp only [run_converses_iff, tell_eq_of_same alike same]

theorem repeated_references_are_told_once :
    let place (path : String) (line column : UInt32) : Location :=
      ⟨.ofString path, ⟨⟨line, column⟩, ⟨line, column + 1⟩⟩⟩
    let found :=
      [place "/w/b.go" 9 1, place "/w/a.go" 3 7, place "/w/a.go" 3 2, place "/w/a.go" 3 2]
    SpelledAlike found ∧ ReportsOnce found (groupByFile found) ∧
      count (groupByFile found) = 3 ∧ (groupByFile found).length = 2 := by
  intro place found
  have alike : SpelledAlike found := by
    unfold SpelledAlike
    decide
  obtain ⟨once, total, files, _⟩ := references_are_told_once alike
  exact ⟨alike, once, total.trans (by decide), files.trans (by decide)⟩

end CodeIntel.References

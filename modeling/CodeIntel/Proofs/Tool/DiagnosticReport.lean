import CodeIntel.Proofs.Excerpt.Windows
import CodeIntel.Proofs.Symbol.Innermost
import CodeIntel.Proofs.Tool.Interview
import CodeIntel.Tool.Diagnostics
import Mathlib.Data.Prod.Lex

namespace CodeIntel

namespace Diagnostics

variable {d : Diagnostic} {diagnostics found : List Diagnostic}

/-- The severities as entries name them, in the order of the report. Behind each stands how one and
how several are counted. -/
def severities : List (String × String × String) :=
  [("Error", "error", "errors"), ("Warning", "warning", "warnings"),
    ("Information", "information", "information"), ("Hint", "hint", "hints"),
    ("Unspecified", "unspecified", "unspecifieds")]

/-- How many entries name a severity. -/
def entriesOf (diagnostics : List Diagnostic) (severity : String) : Nat :=
  diagnostics.countP fun d => severityName d.severity = severity

/-- The counts of some severities added up. -/
def sumOfCounts (diagnostics : List Diagnostic) : List String → Nat
  | [] => 0
  | severity :: rest => entriesOf diagnostics severity + sumOfCounts diagnostics rest

/-- The summary of a report: how many entries name each severity, where any does. -/
def countsText (diagnostics : List Diagnostic) : String :=
  ", ".intercalate <| severities.filterMap fun (severity, one, several) =>
    let n := entriesOf diagnostics severity
    if n = 0 then none else some (if n = 1 then s!"{n} {one}" else s!"{n} {several}")

/-- What orders entries: the place of the severity that they name, then line, then column. -/
def key (d : Diagnostic) : Nat ×ₗ Nat ×ₗ Nat :=
  toLex ((severities.map Prod.fst).idxOf (severityName d.severity),
    toLex (d.range.start.line.toNat, d.range.start.character.toNat))

/-- An entry names the severity that its rank stands for. -/
theorem getElem?_rank (d : Diagnostic) :
    (severities.map Prod.fst)[d.rank]? = some (severityName d.severity) := by
  unfold Diagnostic.rank
  generalize d.severity = severity
  split
  · rfl
  · rfl
  · rfl
  · rfl
  next other =>
    have unknown : severityName severity = "Unspecified" := by
      unfold severityName
      split <;> simp_all
    rw [unknown]
    rfl

theorem idxOf_severityName (d : Diagnostic) :
    (severities.map Prod.fst).idxOf (severityName d.severity) = d.rank := by
  obtain ⟨bound, found⟩ := List.getElem?_eq_some_iff.mp (getElem?_rank d)
  rw [← found]
  exact List.Nodup.idxOf_getElem (by decide) _ bound

theorem le_iff {a b : Diagnostic} : le a b = true ↔ key a ≤ key b := by
  simp only [le, key, Prod.Lex.toLex_le_toLex, idxOf_severityName, Bool.or_eq_true,
    Bool.and_eq_true, decide_eq_true_eq, Position.le_iff]

theorem le_total' (a b : Diagnostic) : le a b = true ∨ le b a = true := by
  simp only [le_iff]
  exact le_total _ _

theorem le_trans' (a b c : Diagnostic) (hab : le a b = true) (hbc : le b c = true) :
    le a c = true := by
  rw [le_iff] at *
  exact hab.trans hbc

/-- How a list of diagnostics is put in order. -/
structure Sorted (found sorted : List Diagnostic) : Prop where
  all : sorted.Perm found
  ascending : sorted.Pairwise fun a b => key a ≤ key b
  stable : ∀ k, (sorted.filter fun d => key d = k) = found.filter fun d => key d = k

theorem sorted_sortBy (found : List Diagnostic) : Sorted found (sortBy le found) where
  all := sortBy_perm le found
  ascending := (sortBy_pairwise le_total' le_trans' found).imp le_iff.mp
  stable k := by
    apply filter_sortBy
    intro a b ha hb
    simp only [decide_eq_true_eq] at ha hb
    rw [le_iff, ha, hb]

/-- As many have a rank as name the severity that it stands for. -/
theorem countRank_eq {rank : Nat} {severity : String}
    (found : (severities.map Prod.fst)[rank]? = some severity) (diagnostics : List Diagnostic) :
    countRank diagnostics rank = entriesOf diagnostics severity := by
  obtain ⟨bound, rfl⟩ := List.getElem?_eq_some_iff.mp found
  refine List.countP_congr fun d _ => ?_
  simp only [decide_eq_true_eq]
  constructor
  · rintro rfl
    exact (Option.some.inj (List.getElem?_eq_getElem bound ▸ getElem?_rank d)).symm
  · intro named
    rw [← idxOf_severityName, named]
    exact List.Nodup.idxOf_getElem (by decide) _ bound

theorem counted_eq {severity one several : String} (mem : (severity, one, several) ∈ severities)
    (n : Nat) : counted n one = if n = 1 then s!"{n} {one}" else s!"{n} {several}" := by
  have words : ∀ s ∈ severities,
      if s.2.1 = "information" then s.2.2 = s.2.1 else s.2.2 = s.2.1 ++ "s" := by decide
  have word := words _ mem
  unfold counted
  by_cases single : n = 1
  · simp [single]
  · split at word
    next same =>
      obtain rfl : one = "information" := same
      obtain rfl : several = "information" := word
      simp
    next plural =>
      have word : several = one ++ "s" := word
      have ends : s!"{n} {one}s" = s!"{n} {several}" := by
        show (toString n ++ " " ++ one) ++ "s" = toString n ++ " " ++ several
        rw [word, String.append_assoc]
      rw [if_neg single, if_neg (by simpa [single] using plural), ends]

theorem summary_eq (diagnostics : List Diagnostic) :
    summary diagnostics = countsText diagnostics := by
  have names : rankNames.zipIdx = severities.zipIdx.map fun (s, rank) => (s.2.1, rank) := rfl
  rw [summary, countsText, names, List.filterMap_map]
  conv_rhs => rw [← List.zipIdx_map_fst 0 severities, List.filterMap_map]
  refine congrArg _ (List.filterMap_congr ?_)
  rintro ⟨⟨severity, one, several⟩, rank⟩ mem
  have place : severities[rank]? = some (severity, one, several) :=
    List.mk_mem_zipIdx_iff_getElem?.mp mem
  have named : (severities.map Prod.fst)[rank]? = some severity := by
    rw [List.getElem?_map, place]
    rfl
  simp only [Function.comp_apply, countRank_eq named, counted_eq (List.mem_of_getElem? place)]

theorem sumOfCounts_cons (d : Diagnostic) (rest : List Diagnostic) (names : List String) :
    sumOfCounts (d :: rest) names =
      sumOfCounts rest names + names.count (severityName d.severity) := by
  induction names with
  | nil => rfl
  | cons name names ih =>
    simp only [sumOfCounts, ih, List.count_cons, entriesOf, List.countP_cons, decide_eq_true_eq,
      beq_iff_eq, eq_comm (a := name)]
    omega

/-- Each diagnostic is counted under one severity. -/
theorem sumOfCounts_eq (diagnostics : List Diagnostic) :
    sumOfCounts diagnostics (severities.map Prod.fst) = diagnostics.length := by
  induction diagnostics with
  | nil => rfl
  | cons d rest ih =>
    have once : (severities.map Prod.fst).count (severityName d.severity) = 1 :=
      List.count_eq_one_of_mem (by decide) (List.mem_of_getElem? (getElem?_rank d))
    rw [sumOfCounts_cons, ih, once, List.length_cons]

/-- The lines of a file in the window around the lines that a range covers. -/
def windowLines (context bottom count : Nat) (r : Range) : List Nat :=
  let covered := LineSpan.ofRange r
  (List.range count).filter (InWindow context bottom covered.first.toNat covered.last.toNat)

/-- An entry with the lines of the file below its headline. -/
def entryText (lines : List (List Char)) (context : Nat) (numbers : Bool) (d : Diagnostic) :
    String :=
  s!"\n{headline d}\n" ++ String.ofList
    (printed lines numbers [windowLines context (lastLine lines.length) lines.length d.range])

theorem entry_eq (lines : List (List Char)) (context : UInt32) (numbers : Bool) (d : Diagnostic) :
    entry lines context numbers d = entryText lines context.toNat numbers d := by
  have window : ((LineSpan.ofRange d.range).widen context lines.length).linesIn lines.length =
      windowLines context.toNat (lastLine lines.length) lines.length d.range := by
    refine List.filter_congr fun n _ => decide_eq_decide.mpr ?_
    exact LineSpan.has_widen_iff
  rw [entry, excerpt_eq_printed, window, entryText]

theorem report_eq (file text : String) (context : UInt32) (numbers : Bool)
    (sorted : List Diagnostic) :
    report file text context numbers sorted = s!"Diagnostics for {file}: {countsText sorted}\n" ++
      String.join (sorted.map (entryText (splitLines text.toList) context.toNat numbers)) := by
  have parts : entry (splitLines text.toList) context numbers =
      entryText (splitLines text.toList) context.toNat numbers :=
    funext (entry_eq (splitLines text.toList) context numbers)
  unfold report
  dsimp only
  rw [parts, summary_eq]

variable {caller : Caller} {args : Json} {a : Arguments} {path : Path} {before after : Interview}
  {result : Except ToolError Output}

/-- What a call does before it asks for diagnostics. -/
def prepare (caller : Caller) (args : Json) : Action (Arguments × Path) := do
  let a ← Tool.arguments "DiagnosticsArgs" fields args
  let path ← Action.resolvePath a.filePath caller.surroundings
  Action.request (.sync path)
  pure (a, path)

/-- How many lines are shown around those of a diagnostic. -/
def context (caller : Caller) (a : Arguments) : UInt32 :=
  if a.includeContext then caller.contextLines else 0

/-- What a call does with the diagnostics that it is given. -/
def tell (caller : Caller) (a : Arguments) (path : Path) : Option (List Diagnostic) → Action Output
  | none => throw (.diagnosticsUnavailable path)
  | some [] =>
    let file := path.shown caller.surroundings.root
    pure ⟨file, s!"No diagnostics found for {file}", metadata 0⟩
  | some found => do
    let file := path.shown caller.surroundings.root
    let text ← Action.readText path
    pure ⟨file, report file text (context caller a) a.showLineNumbers (sortBy le found),
      metadata found.length⟩

theorem run_eq (caller : Caller) (args : Json) :
    run caller args = prepare caller args >>= fun prepared =>
      Action.request (.diagnostics prepared.2) >>= tell caller prepared.1 prepared.2 := by
  simp only [run, prepare, bind_assoc, pure_bind]
  refine bind_congr fun a => bind_congr fun path => bind_congr fun _ => bind_congr fun found => ?_
  rcases found with _ | _ | _ <;> rfl

/-- A query for diagnostics is the only one in its call. -/
def IsLook : Ask → Prop
  | .query (.diagnostics _) => True
  | _ => False

theorem asks_prepare (caller : Caller) (args : Json) :
    (prepare caller args).run.Asks fun q => ¬ IsLook q := by
  refine Plan.asks_run_bind (Action.asks_arguments ..) fun a => ?_
  refine Plan.asks_run_bind (Action.asks_resolvePath (fun _ => id) ..) fun path => ?_
  exact Plan.asks_run_bind (Action.asks_request id) fun _ => trivial

theorem asks_tell (caller : Caller) (a : Arguments) (path : Path)
    (found : Option (List Diagnostic)) :
    (tell caller a path found).run.Asks fun q => ¬ IsLook q := by
  rcases found with _ | _ | _
  · trivial
  · trivial
  · exact Plan.asks_run_bind (Action.asks_readText id) fun _ => trivial

/-- The query for the diagnostics of a file, and its answer. -/
abbrev reported (path : Path) (found : List Diagnostic) : (a : Ask) × a.Reply :=
  Action.answered ⟨.diagnostics path, some found⟩

theorem run_converses_iff {found : List Diagnostic} :
    (run caller args).run.Converses (before ++ reported path found :: after) result ↔
      ∃ a, (prepare caller args).run.Converses before (.ok (a, path)) ∧
        (tell caller a path (some found)).run.Converses after result := by
  have here : IsLook (.query (.diagnostics path)) := trivial
  rw [run_eq, reported, Action.converses_around_iff (P := IsLook) (asks_prepare caller args)
    (fun _ _ => asks_tell ..) here]
  constructor
  · rintro ⟨⟨a, path⟩, reply, same, first, rest⟩
    cases same
    exact ⟨a, first, rest⟩
  · rintro ⟨a, first, rest⟩
    exact ⟨(a, path), some found, rfl, first, rest⟩

theorem decode_of_prepare (h : (prepare caller args).run.Converses before (.ok (a, path))) :
    fields.decode "DiagnosticsArgs" args = .ok a := by
  obtain ⟨_, decoded, resolves⟩ := Action.converses_arguments_bind_ok_iff.mp h
  obtain ⟨_, _, _, _, _, syncs⟩ := Plan.converses_run_bind_ok_iff.mp resolves
  obtain ⟨_, _, _, _, _, ends⟩ := Plan.converses_run_bind_ok_iff.mp syncs
  cases ends.2
  exact decoded

/-- What a call comes to with diagnostics that it is given: the file cannot be read, or all of them
are told of in order, each with its lines. -/
inductive Told (caller : Caller) (a : Arguments) (path : Path) (found : List Diagnostic) :
    Interview → Except ToolError Output → Prop
  | unread (e : FileError) : Told caller a path found [⟨.readText path, .error e⟩]
      (.error (.fileIo path e.message))
  | told (text : String) {sorted : List Diagnostic} (order : Sorted found sorted) :
      Told caller a path found [⟨.readText path, .ok text⟩]
        (.ok
          { title := path.shown caller.surroundings.root
            text :=
              s!"Diagnostics for {path.shown caller.surroundings.root}: {countsText sorted}\n" ++
                String.join (sorted.map (entryText (splitLines text.toList)
                  (context caller a).toNat a.showLineNumbers))
            metadata := metadata found.length })

theorem converses_tell {found : List Diagnostic} (some : found ≠ [])
    (h : (tell caller a path (.some found)).run.Converses after result) :
    Told caller a path found after result := by
  obtain ⟨first, rest, rfl⟩ := List.exists_cons_of_ne_nil some
  rcases Action.converses_readText_bind_iff.mp h with ⟨e, rfl, rfl⟩ | ⟨text, _, rfl, ends⟩
  · exact .unread e
  · obtain ⟨rfl, rfl⟩ := ends
    rw [report_eq]
    exact .told text (sorted_sortBy _)

/-- The window of a range in one line has that line, or the last line if that comes before it. -/
theorem windowLines_of_line {bottom count n : Nat} {r : Range}
    (first : (LineSpan.ofRange r).first.toNat = n) (last : (LineSpan.ofRange r).last.toNat = n)
    (inside : bottom < count) : windowLines 0 bottom count r = [min n bottom] := by
  have line := filter_inWindow_line (n := n) inside
  simpa only [windowLines, first, last] using line

theorem printed_blank (count n : Nat) :
    printed (List.replicate count []) true [[n]] = lineDigits n ++ ['|', '\n'] := by
  have line := printedLine_blank count n
  simpa [printed, List.intercalate] using line

/-- All diagnostics that the server names are told of, each once and in order, and each is counted
under the severity that its entry names. Below an entry stand just the lines that its range covers
and those of the context, clamped to the lines of the file that 32 bits count. -/
theorem diagnostics_are_told {found : List Diagnostic} (some : found ≠ [])
    (talks : (run caller args).run.Converses (before ++ reported path found :: after) result) :
    (∃ a, fields.decode "DiagnosticsArgs" args = .ok a ∧ Told caller a path found after result) ∧
      (∀ sorted, Sorted found sorted →
        sumOfCounts sorted (severities.map Prod.fst) = found.length) ∧
      (∀ (r : Range) n, r.Covers n ↔
        (LineSpan.ofRange r).first.toNat ≤ n ∧ n ≤ (LineSpan.ofRange r).last.toNat) ∧
      ∀ count, lastLine count = count - 1 ↔ count ≤ UInt32.size := by
  obtain ⟨a, first, rest⟩ := run_converses_iff.mp talks
  refine ⟨⟨a, decode_of_prepare first, converses_tell some rest⟩, fun sorted order => ?_,
    fun _ _ => Range.covers_iff, fun _ => lastLine_eq_iff⟩
  rw [sumOfCounts_eq, order.all.length_eq]

theorem one_diagnostic_is_told :
    let caller : Caller := ⟨⟨.ofString "/w", .ofString "/w"⟩, 1⟩
    let args := Json.ofMembers
      [("filePath", .string "/w/a"), ("includeContext", .bool true),
        ("showLineNumbers", .bool true)]
    let path := Path.ofString "/w/a"
    let d : Diagnostic := ⟨⟨⟨1, 2⟩, ⟨2, 0⟩⟩, some 1, none, none, "x"⟩
    let before : Interview := [⟨.query (.sync path), .ok ()⟩]
    let after : Interview := [⟨.readText path, .ok "a\nb\nc\nd\n"⟩]
    let result : Except ToolError Output := .ok
      ⟨"a", "Diagnostics for a: 1 error\n\nError at L2:C3: x\n1|a\n2|b\n3|c\n", metadata 1⟩
    [d] ≠ [] ∧ (run caller args).run.Converses (before ++ reported path [d] :: after) result ∧
      ∃ a, fields.decode "DiagnosticsArgs" args = .ok a ∧ Told caller a path [d] after result := by
  intro caller args path d before after result
  have shown : path.shown caller.surroundings.root = "a" := by decide +kernel
  have text : report "a" "a\nb\nc\nd\n" 1 true [d] =
      "Diagnostics for a: 1 error\n\nError at L2:C3: x\n1|a\n2|b\n3|c\n" := by decide +kernel
  have ends : result = .ok ⟨path.shown caller.surroundings.root,
      report (path.shown caller.surroundings.root) "a\nb\nc\nd\n" 1 true [d], metadata 1⟩ := by
    rw [shown, text]
  have talks : (run caller args).run.Converses (before ++ reported path [d] :: after) result :=
    run_converses_iff.mpr
      ⟨⟨"/w/a", true, true⟩, ⟨.ok (), [], rfl, rfl, rfl⟩, ⟨.ok _, [], rfl, rfl, ends⟩⟩
  have some : [d] ≠ [] := List.cons_ne_nil d []
  exact ⟨some, talks, (diagnostics_are_told some talks).1⟩

/-- In a file with more lines than 32 bits count, the window around a line is clamped to the first
line. -/
theorem diagnostic_is_lost_beyond_32_bits :
    let text := String.ofList (List.replicate (UInt32.size + 1) '\n')
    let lines := splitLines text.toList
    let d : Diagnostic := ⟨⟨⟨5, 0⟩, ⟨5, 1⟩⟩, some 1, none, none, "x"⟩
    lines.length = UInt32.size + 1 ∧
      report "a" text 0 true [d] = "Diagnostics for a: 1 error\n\nError at L6:C1: x\n1|\n" ∧
      printed lines true [windowLines 0 (lines.length - 1) lines.length d.range] =
        "6|\n".toList := by
  intro text lines d
  have blank : lines = List.replicate (UInt32.size + 1) [] := by
    rw [← splitLines_feeds, ← String.toList_ofList (l := List.replicate (UInt32.size + 1) '\n')]
  have length : lines.length = UInt32.size + 1 := by rw [blank, List.length_replicate]
  have bottom : lastLine lines.length = 0 := by
    rw [length]
    decide
  have window {bottom : Nat} (inside : bottom < lines.length) :
      windowLines 0 bottom lines.length d.range = [min 5 bottom] :=
    windowLines_of_line rfl rfl inside
  refine ⟨length, ?_, ?_⟩
  · have first : windowLines 0 (lastLine lines.length) lines.length d.range = [0] := by
      rw [bottom]
      exact window (by omega)
    have below : entryText lines 0 true d = "\nError at L6:C1: x\n" ++ "1|\n" := by
      rw [entryText, first, blank, printed_blank]
      decide +kernel
    calc report "a" text 0 true [d]
        = s!"Diagnostics for a: {countsText [d]}\n" ++ String.join [entryText lines 0 true d] :=
          report_eq ..
      _ = _ := by
        rw [below]
        decide +kernel
  · have least : min 5 (lines.length - 1) = 5 := by
      rw [length]
      decide
    rw [window (by omega), least, blank, printed_blank]
    rfl

end Diagnostics

end CodeIntel

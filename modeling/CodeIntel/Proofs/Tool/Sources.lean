import CodeIntel.Proofs.Symbol.Selection
import CodeIntel.Proofs.Tool.DiagnosticReport
import CodeIntel.Proofs.Tool.ReferenceReport
import CodeIntel.Tool.Definition

namespace CodeIntel

/-- Whether a text shows lines of a file and nothing else: parts of the file, the lines of each in
ascending order. -/
def ShowsLines (text : String) (numbers : Bool) (shown : String) : Prop :=
  ∃ parts : List (List Nat),
    (∀ ns ∈ parts, ns.Pairwise (· < ·) ∧ ∀ n ∈ ns, n < (splitLines text.toList).length) ∧
      shown = String.ofList (printed (splitLines text.toList) numbers parts)

section Shown

variable {text : String} {numbers : Bool} {count : Nat}

theorem ascending_filter_range (p : Nat → Bool) :
    ((List.range count).filter p).Pairwise (· < ·) ∧ ∀ n ∈ (List.range count).filter p, n < count :=
  ⟨List.pairwise_lt_range.filter p, fun _ mem => List.mem_range.mp (List.mem_filter.mp mem).1⟩

theorem showsLines_filter_range (p : Nat → Bool) :
    ShowsLines text numbers (String.ofList (printed (splitLines text.toList) numbers
      [(List.range (splitLines text.toList).length).filter p])) :=
  ⟨_, by simpa only [List.forall_mem_singleton] using ascending_filter_range p, rfl⟩

theorem showsLines_excerpts (text : String) (spans : List LineSpan) (numbers : Bool) :
    ShowsLines text numbers
      (String.ofList (excerpts (splitLines text.toList) spans numbers)) := by
  refine ⟨_, fun ns mem => ?_, congrArg String.ofList (excerpts_eq_printed ..)⟩
  obtain ⟨span, _, rfl⟩ := List.mem_map.mp (List.mem_of_mem_filter mem)
  exact ascending_filter_range _

end Shown

/-- Reading a file. -/
def Ask.IsReading : Ask → Prop
  | .readText _ => True
  | _ => False

namespace Definition

variable {caller : Caller} {args : Json} {talk : Interview} {result : Except ToolError Output}

/-- What a call does before it reads the file of a definition. -/
def find (caller : Caller) (args : Json) :
    Action (SymbolArguments × WorkspaceSymbol × Location × List DocumentSymbol) := do
  let a ← Tool.arguments "DefinitionArgs" SymbolArguments.fields args
  let s ← resolveSymbol a.symbolName caller.surroundings.root
  let declared ← s.declaration
  let symbols ← Action.request (.documentSymbols declared.path)
  pure (a, s, declared, symbols)

/-- What is told of a definition when its file has been read. -/
def output (caller : Caller) (a : SymbolArguments) (s : WorkspaceSymbol) (declared : Location)
    (range : Range) (text : String) : Output where
  title := s.qualifiedName
  text := heading s (declared.path.shown caller.surroundings.root) range ++
    String.ofList (printed (splitLines text.toList) a.showLineNumbers
      [(List.range (splitLines text.toList).length).filter range.Covers])
  metadata := metadata declared.path range

theorem source_eq (text : String) (range : Range) (numbers : Bool) :
    source text range numbers = String.ofList (printed (splitLines text.toList) numbers
      [(List.range (splitLines text.toList).length).filter range.Covers]) := by
  have covered : (LineSpan.ofRange range).linesIn (splitLines text.toList).length =
      (List.range (splitLines text.toList).length).filter range.Covers :=
    List.filter_congr fun n _ => decide_eq_decide.mpr Range.covers_iff.symm
  rw [source, excerpt_eq_printed, covered]

theorem run_eq (caller : Caller) (args : Json) :
    run caller args = find caller args >>= fun (a, s, declared, symbols) =>
      Action.readText declared.path >>= fun text =>
        pure (output caller a s declared (fullRange symbols declared.range) text) := by
  simp only [run, find, output, source_eq, bind_assoc, pure_bind]

theorem asks_find (caller : Caller) (args : Json) :
    (find caller args).run.Asks fun q => ¬ q.IsReading := by
  refine Plan.asks_run_bind (Action.asks_arguments ..) fun a => ?_
  refine Plan.asks_run_bind (Action.asks_resolveSymbol (fun _ => id) ..) fun s => ?_
  refine Plan.asks_run_bind (Action.asks_declaration (fun _ _ => id) s) fun declared => ?_
  exact Plan.asks_run_bind (Action.asks_request id) fun _ => trivial

theorem not_read_of_asks {α : Type} {x : Action α} (quiet : x.run.Asks fun q => ¬ q.IsReading)
    {outcome : Except ToolError α} (talks : x.run.Converses talk outcome) (path : Path)
    (text : String) : ⟨.readText path, .ok text⟩ ∉ talk :=
  fun mem => quiet.of_converses talks _ mem trivial

theorem found {a : SymbolArguments} {s : WorkspaceSymbol} {declared : Location}
    {symbols : List DocumentSymbol}
    (h : (find caller args).run.Converses talk (.ok (a, s, declared, symbols))) :
    SymbolArguments.fields.decode "DefinitionArgs" args = .ok a ∧
      ⟨.query (.documentSymbols declared.path), .ok symbols⟩ ∈ talk := by
  obtain ⟨_, decoded, resolves⟩ := Action.converses_arguments_bind_ok_iff.mp h
  obtain ⟨_, _, _, rfl, _, declares⟩ := Plan.converses_run_bind_ok_iff.mp resolves
  obtain ⟨_, _, _, rfl, _, asks⟩ := Plan.converses_run_bind_ok_iff.mp declares
  rcases Action.converses_request_bind_iff.mp asks with ⟨_, _, failed⟩ | ⟨_, _, rfl, ends⟩
  · cases failed
  · cases ends.2
    exact ⟨decoded, by simp⟩

/-- What a call comes to: its file is not read, or the lines are shown that the range of the
innermost symbol around the declaration covers. -/
inductive Told (caller : Caller) (args : Json) (talk : Interview) : Except ToolError Output → Prop
  | unread (e : ToolError) (none : ∀ path text, ⟨.readText path, .ok text⟩ ∉ talk) :
      Told caller args talk (.error e)
  | read {a : SymbolArguments} (s : WorkspaceSymbol) {declared : Location}
      {symbols : List DocumentSymbol} {text : String}
      (decoded : SymbolArguments.fields.decode "DefinitionArgs" args = .ok a)
      (outlined : ⟨.query (.documentSymbols declared.path), .ok symbols⟩ ∈ talk)
      (text_read : ⟨.readText declared.path, .ok text⟩ ∈ talk) :
      Told caller args talk
        (.ok (output caller a s declared (fullRange symbols declared.range) text))

theorem told_of_run (talks : (run caller args).run.Converses talk result) :
    Told caller args talk result := by
  rw [run_eq] at talks
  rcases Plan.converses_run_bind_iff.mp talks with
    ⟨e, first, rfl⟩ | ⟨before, ⟨a, s, declared, symbols⟩, after, rfl, first, rest⟩
  · exact .unread e (not_read_of_asks (asks_find caller args) first)
  · rcases Action.converses_readText_bind_iff.mp rest with ⟨e, rfl, rfl⟩ | ⟨text, _, rfl, ends⟩
    · refine .unread _ fun path text mem => ?_
      rcases List.mem_append.mp mem with mem | mem
      · exact not_read_of_asks (asks_find caller args) first path text mem
      · simp at mem
    · cases ends.2
      obtain ⟨decoded, outlined⟩ := found first
      exact .read s decoded (List.mem_append_left _ outlined) (by simp)

end Definition

namespace Diagnostics

variable {caller : Caller} {args : Json} {talk : Interview} {result : Output}

/-- A report in which lines of the file that was read stand below the headlines. -/
def Sourced (root : Path) (talk : Interview) (path : Path) (numbers : Bool) (output : Output) :
    Prop :=
  output.text = s!"No diagnostics found for {path.shown root}" ∨
    ∃ (text : String) (entries : List (Diagnostic × String)),
      ⟨.readText path, .ok text⟩ ∈ talk ∧ (∀ entry ∈ entries, ShowsLines text numbers entry.2) ∧
        output.text =
          s!"Diagnostics for {path.shown root}: {countsText (entries.map Prod.fst)}\n" ++
            String.join (entries.map fun (d, shown) => s!"\n{headline d}\n" ++ shown)

theorem sourced_of_run (talks : (run caller args).run.Converses talk (.ok result)) :
    ∃ a path, fields.decode "DiagnosticsArgs" args = .ok a ∧
      Sourced caller.surroundings.root talk path a.showLineNumbers result := by
  rw [run_eq] at talks
  obtain ⟨before, ⟨a, path⟩, after, rfl, first, rest⟩ := Plan.converses_run_bind_ok_iff.mp talks
  refine ⟨a, path, decode_of_prepare first, ?_⟩
  rcases Action.converses_request_bind_iff.mp rest with ⟨_, _, failed⟩ | ⟨reply, later, rfl, tells⟩
  · cases failed
  rcases reply with _ | _ | ⟨d, found⟩
  · cases tells.2
  · cases tells.2
    exact .inl rfl
  · cases converses_tell (List.cons_ne_nil d found) tells with
    | @told text sorted order =>
      let lines := splitLines text.toList
      let shown (d : Diagnostic) : String := String.ofList (printed lines a.showLineNumbers
        [windowLines (context caller a).toNat (lastLine lines.length) lines.length d.range])
      refine .inr ⟨text, sorted.map fun d => (d, shown d), by simp, fun entry mem => ?_, ?_⟩
      · obtain ⟨d, _, rfl⟩ := List.mem_map.mp mem
        exact showsLines_filter_range _
      · simp only [List.map_map, Function.comp_def, List.map_id']
        rfl

end Diagnostics

namespace References

variable {caller : Caller} {args : Json} {talk : Interview} {result : Output}

/-- A report in which lines of each file that could be read stand below its heading. -/
def Sourced (root : Path) (talk : Interview) (numbers : Bool) (title : String) (output : Output) :
    Prop :=
  output.text = s!"No references found for {title}" ∨
    ∃ parts : List (Group × String),
      (∀ part ∈ parts,
        (∃ text, ⟨.readText part.1.1, .ok text⟩ ∈ talk ∧ ShowsLines text numbers part.2) ∨
          ∃ e : FileError, ⟨.readText part.1.1, .error e⟩ ∈ talk ∧
            part.2 = s!"(source unavailable: {e.message})\n") ∧
        output.text =
          s!"Found {count (parts.map Prod.fst)} reference(s) to {title} in {parts.length} file(s)\n" ++
            String.join (parts.map fun (group, shown) => heading group root ++ shown)

/-- What stands below the heading of a file. -/
def below (caller : Caller) (numbers : Bool) : Reading → String
  | (group, .ok text) => snippet text group.2 caller.contextLines numbers
  | (_, .error e) => s!"(source unavailable: {e.message})\n"

theorem parts_eq {numbers : Bool} {readings : List Reading} {parts : List String}
    (each : List.Forall₂ (TellsOf caller numbers) readings parts) :
    parts = readings.map fun reading =>
      heading reading.1 caller.surroundings.root ++ below caller numbers reading := by
  induction each with
  | nil => rfl
  | cons told _ ih =>
    rw [List.map_cons, ← ih, heading_eq]
    cases told <;> rfl

theorem mem_readingTurns {readings : List Reading} {reading : Reading} (mem : reading ∈ readings) :
    ⟨.readText reading.1.1, reading.2⟩ ∈ readingTurns readings :=
  List.mem_flatMap.mpr ⟨reading, mem, by simp⟩

theorem sourced_of_run (talks : (run caller args).run.Converses talk (.ok result)) :
    ∃ a s, SymbolArguments.fields.decode "ReferencesArgs" args = .ok a ∧
      Sourced caller.surroundings.root talk a.showLineNumbers (WorkspaceSymbol.qualifiedName s)
        result := by
  rw [run_eq] at talks
  obtain ⟨before, ⟨a, s, declared⟩, after, rfl, first, rest⟩ :=
    Plan.converses_run_bind_ok_iff.mp talks
  refine ⟨a, s, decode_of_locate first, ?_⟩
  rcases Action.converses_request_bind_iff.mp rest with ⟨_, _, failed⟩ | ⟨found, later, rfl, tells⟩
  · cases failed
  cases converses_tell tells with
  | nothing => exact .inl rfl
  | @listed some readings all parts each =>
    refine .inr ⟨readings.map fun reading => (reading.1, below caller a.showLineNumbers reading),
      ?_, ?_⟩
    · intro part mem
      obtain ⟨⟨group, text | e⟩, chosen, rfl⟩ := List.mem_map.mp mem
      · exact .inr ⟨_, by simp [mem_readingTurns chosen], rfl⟩
      · exact .inl ⟨_, by simp [mem_readingTurns chosen], showsLines_excerpts ..⟩
    · simp only [parts_eq each, ← all, List.map_map, List.length_map, Function.comp_def]

end References

/-- Excerpts show, for each span with a line in the file, just the lines of the file in it, in
order. A number that is shown is that of its line and ends where all others end. What
`read_definition`, `get_diagnostics` and `find_references` show of a file is made of such lines of
the text that was read, and `read_definition` shows those that its range covers. -/
theorem excerpts_show_own_lines :
    (∀ (text : List Char) (spans : List LineSpan) (numbers : Bool),
      excerpts (splitLines text) spans numbers = printed (splitLines text) numbers
        ((spans.map (LineSpan.linesIn (splitLines text).length)).filter (· ≠ []))) ∧
    (∀ (ns : List Nat), ∀ n ∈ ns,
      ((lineDigits n).leftpad (numberColumn ns) ' ').length = numberColumn ns) ∧
    ∀ (caller : Caller) (args : Json) (talk : Interview),
      (∀ result, (Definition.run caller args).run.Converses talk result →
        Definition.Told caller args talk result) ∧
      (∀ output, (Diagnostics.run caller args).run.Converses talk (.ok output) →
        ∃ a path, Diagnostics.fields.decode "DiagnosticsArgs" args = .ok a ∧
          Diagnostics.Sourced caller.surroundings.root talk path a.showLineNumbers output) ∧
      ∀ output, (References.run caller args).run.Converses talk (.ok output) →
        ∃ a s, SymbolArguments.fields.decode "ReferencesArgs" args = .ok a ∧
          References.Sourced caller.surroundings.root talk a.showLineNumbers
            (WorkspaceSymbol.qualifiedName s) output :=
  ⟨fun _ => excerpts_eq_printed _, fun _ _ => length_leftpad_lineDigits, fun _ _ _ =>
    ⟨fun _ => Definition.told_of_run, fun _ => Diagnostics.sourced_of_run,
      fun _ => References.sourced_of_run⟩⟩

theorem one_definition_is_shown :
    let caller : Caller := ⟨⟨.ofString "/w", .ofString "/w"⟩, 1⟩
    let args := Json.ofMembers [("symbolName", .string "g"), ("showLineNumbers", .bool true)]
    let path := Path.ofString "/w/a"
    let s : WorkspaceSymbol := ⟨"g", 12, none, path, ⟨⟨1, 5⟩, ⟨1, 6⟩⟩⟩
    let around : DocumentSymbol := .mk "g" 12 none ⟨⟨1, 0⟩, ⟨3, 0⟩⟩ s.range []
    let talk : Interview :=
      [⟨.query (.workspaceSymbols "g"), .ok [s]⟩, ⟨.query (.definition path ⟨1, 5⟩), .ok []⟩,
        ⟨.query (.documentSymbols path), .ok [around]⟩, ⟨.readText path, .ok "a\nb\nc\nd\n"⟩]
    let result : Except ToolError Output := .ok
      { title := "g"
        text := "Symbol: g\nKind: Function\nFile: a\nRange: L2:C1-L4:C1\n\n2|b\n3|c\n"
        metadata := Definition.metadata path around.range }
    (Definition.run caller args).run.Converses talk result ∧
      Definition.Told caller args talk result := by
  intro caller args path s around talk result
  have parsed : SymbolQuery.parse? "g" = some ⟨"g", [['g']]⟩ := rfl
  have selected : (SymbolQuery.mk "g" [['g']]).select [s] caller.surroundings.root = .ok s :=
    SymbolQuery.select_eq_iff.mpr (.one (List.filter_cons_of_pos (by decide)))
  have resolved : (resolveSymbol "g" caller.surroundings.root).run.Converses
      [⟨.query (.workspaceSymbols "g"), .ok [s]⟩] (.ok s) := by
    rw [resolveSymbol, parsed, ← selected]
    exact SymbolQuery.resolve_converses_iff.mpr (.found [s] fun none => nomatch none)
  have finds : (Definition.find caller args).run.Converses
      [⟨.query (.workspaceSymbols "g"), .ok [s]⟩, ⟨.query (.definition path ⟨1, 5⟩), .ok []⟩,
        ⟨.query (.documentSymbols path), .ok [around]⟩]
      (.ok (⟨"g", true⟩, s, ⟨path, s.range⟩, [around])) :=
    Action.converses_arguments_bind_ok_iff.mpr ⟨_, rfl,
      Plan.converses_run_bind_ok_iff.mpr ⟨_, s, _, rfl, resolved,
        ⟨.ok [], _, rfl, .ok [around], _, rfl, rfl, rfl⟩⟩⟩
  have text : (Definition.output caller ⟨"g", true⟩ s ⟨path, s.range⟩ around.range
      "a\nb\nc\nd\n").text =
        "Symbol: g\nKind: Function\nFile: a\nRange: L2:C1-L4:C1\n\n2|b\n3|c\n" := by
    decide +kernel
  have talks : (Definition.run caller args).run.Converses talk result := by
    rw [Definition.run_eq]
    refine Plan.converses_run_bind_ok_iff.mpr ⟨_, _, _, rfl, finds, ⟨.ok _, _, rfl, rfl, ?_⟩⟩
    exact congrArg (fun text => Except.ok (Output.mk "g" text _)) text.symm
  exact ⟨talks, (excerpts_show_own_lines.2.2 caller args talk).1 result talks⟩

end CodeIntel

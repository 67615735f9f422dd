import CodeIntel.Proofs.Client.Requests
import CodeIntel.Proofs.Tool.Serving
import CodeIntel.Tool.Lenses

namespace CodeIntel

namespace Lenses

theorem entries_eq (lenses : List CodeLens) (number : Nat) :
    entries number lenses =
      String.join ((lenses.zipIdx number).map fun (lens, n) => entry n lens ++ "\n") := by
  induction lenses generalizing number with
  | nil => rfl
  | cons lens rest ih =>
    have first : s!"{entry number lens}\n" = entry number lens ++ "\n" := rfl
    rw [entries, ih, List.zipIdx_cons, List.map_cons, String.join_cons, first]

/-- The lens that stands under a number in a list. -/
def Numbered (lenses : List CodeLens) (i : Int) (lens : CodeLens) : Prop :=
  1 ≤ i ∧ lenses[(i - 1).toNat]? = some lens

variable {lenses : List CodeLens} {lens : CodeLens} {i : Int}

/-- The numbers are those of the listing. -/
theorem mem_zipIdx_iff {n : Nat} : (lens, n) ∈ lenses.zipIdx 1 ↔ Numbered lenses n lens := by
  rw [List.mk_mem_zipIdx_iff_le_and_getElem?_sub, Numbered]
  have index : ((n : Int) - 1).toNat = n - 1 := by omega
  rw [index]
  exact and_congr_left fun _ => by omega

theorem numbered?_eq_some_iff : numbered? lenses i = some lens ↔ Numbered lenses i lens := by
  unfold numbered? Numbered
  split
  next small => simp [Int.not_le.mpr small]
  next large => simp [Int.not_lt.mp large]

theorem numbered?_eq_none_iff : numbered? lenses i = none ↔ i < 1 ∨ lenses.length < i := by
  unfold numbered?
  split
  next small => simp [small]
  next large =>
    rw [List.getElem?_eq_none_iff]
    omega

/-- Whether a question is asked before the lenses of a file are asked for. -/
def Preparing : Ask → Prop
  | .query (.sync _) => True
  | .query _ => False
  | _ => True

/-- The part of a call in which no lenses come. -/
inductive Unfetched : Interview → Prop
  | unasked {talk : Interview} (prepares : ∀ turn ∈ talk, Preparing turn.1) : Unfetched talk
  | refused {before : Interview} (prepares : ∀ turn ∈ before, Preparing turn.1) (path : Path)
      (failure : QueryFailure) : Unfetched (before ++ [⟨.query (.codeLenses path), .error failure⟩])

theorem Unfetched.each {talk : Interview} (unfetched : Unfetched talk) : ∀ turn ∈ talk,
    Preparing turn.1 ∨ ∃ path, turn.1 = .query (.codeLenses path) := by
  cases unfetched with
  | unasked prepares => exact fun turn mem => .inl (prepares turn mem)
  | refused prepares path failure =>
    refine List.forall_mem_append.mpr ⟨fun turn mem => .inl (prepares turn mem), ?_⟩
    exact List.forall_mem_singleton.mpr (.inr ⟨path, rfl⟩)

/-- Lenses are fetched once for what is made of them, or nothing comes of it. -/
theorem fetched_of_converses {β : Type} {raw : String} {s : Surroundings}
    {f : Path → List CodeLens → Action β} {talk : Interview} {result : Except ToolError β}
    (talks : (do
      let path ← Action.resolvePath raw s
      let lenses ← fetch path
      f path lenses).run.Converses talk result) :
    (Unfetched talk ∧ ∃ e, result = .error e) ∨
    ∃ path lenses before after, talk = before ++ ⟨.query (.codeLenses path), .ok lenses⟩ :: after ∧
      (∀ turn ∈ before, Preparing turn.1) ∧ (f path lenses).run.Converses after result := by
  have looks : (Action.resolvePath raw s).run.Asks Preparing :=
    Action.asks_resolvePath (fun _ => trivial) raw s
  rcases Plan.converses_run_bind_iff.mp talks with
    ⟨e, first, rfl⟩ | ⟨before, path, _, rfl, first, rest⟩
  · exact .inl ⟨.unasked (looks.of_converses first), e, rfl⟩
  have prepares (reply : Except QueryFailure Unit) :
      ∀ turn ∈ before ++ [⟨.query (.sync path), reply⟩], Preparing turn.1 :=
    List.forall_mem_append.mpr
      ⟨looks.of_converses first, List.forall_mem_singleton.mpr trivial⟩
  rw [fetch, bind_assoc] at rest
  rcases Action.converses_request_bind_iff.mp rest with
    ⟨failure, rfl, rfl⟩ | ⟨⟨⟩, _, rfl, lists⟩
  · exact .inl ⟨.unasked (prepares _), _, rfl⟩
  rw [List.append_cons]
  rcases Action.converses_request_bind_iff.mp lists with
    ⟨failure, rfl, rfl⟩ | ⟨lenses, after, rfl, goes⟩
  · exact .inl ⟨.refused (prepares _) path failure, _, rfl⟩
  · exact .inr ⟨path, lenses, _, after, rfl, prepares _, goes⟩

/-- What is told of the lenses of a file. -/
def Listing.output (file : String) (lenses : List CodeLens) : Output where
  title := file
  text :=
    if lenses.isEmpty then s!"No code lens found for {file}"
    else s!"Code lenses for {file} ({lenses.length}):\n" ++
      String.join ((lenses.zipIdx 1).map fun (lens, n) => entry n lens ++ "\n")
  metadata := metadata lenses.length

namespace Listing

variable {caller : Caller} {args : Json} {talk : Interview} {output : Output}

theorem run_eq (caller : Caller) (args : Json) :
    run caller args = (do
      let filePath ← Tool.arguments "FileArgs" (.required "filePath" .string) args
      let path ← Action.resolvePath filePath caller.surroundings
      let lenses ← fetch path
      pure (Listing.output (path.shown caller.surroundings.root) lenses)) := by
  have tell (file : String) (lenses : List CodeLens) : (if lenses.isEmpty then
        pure ⟨file, s!"No code lens found for {file}", metadata 0⟩
      else
        let text := s!"Code lenses for {file} ({lenses.length}):\n" ++ entries 1 lenses
        pure ⟨file, text, metadata lenses.length⟩ : Action Output) =
      pure (Listing.output file lenses) := by
    cases lenses with
    | nil => rfl
    | cons lens rest =>
      rw [Listing.output, ← entries_eq]
      rfl
  unfold run
  simp only [tell]

/-- The lenses that are fetched are told in their order, numbered from one. -/
theorem told_of_run (talks : (run caller args).run.Converses talk (.ok output)) :
    ∃ path lenses before, talk = before ++ [⟨.query (.codeLenses path), .ok lenses⟩] ∧
      (∀ turn ∈ before, Preparing turn.1) ∧
      output = Listing.output (path.shown caller.surroundings.root) lenses := by
  rw [run_eq] at talks
  obtain ⟨filePath, _, goes⟩ := Action.converses_arguments_bind_ok_iff.mp talks
  rcases fetched_of_converses goes with
    ⟨_, _, ⟨⟩⟩ | ⟨path, lenses, before, after, rfl, prepares, rfl, told⟩
  exact ⟨path, lenses, before, rfl, prepares, Except.ok.inj told⟩

end Listing

namespace Execution

/-- What is told of a command that was run. -/
def success (file : String) (i : Int) (command : Command) (reply : Option Json) : Output where
  title := file
  text := s!"Successfully executed code lens {i} ({command.title}) in {file}" ++ resultText reply
  metadata := .ofMembers [("command", .string command.command), ("result", .ofOption reply)]

/-- What comes of running the command of the lens with a number in a list, and the parameters of the
requests that are written to have commands run. -/
inductive Runs (client : Client) (file : String) (lenses : List CodeLens) (i : Int)
    (deeds : Deeds) : List Json → Except ToolError Output → Prop
  | outside (out : i < 1 ∨ lenses.length < i) :
      Runs client file lenses i deeds [] (.error (.indexOutOfRange i lenses.length))
  | bare {lens : CodeLens} (numbered : Numbered lenses i lens) (none : lens.command = none) :
      Runs client file lenses i deeds []
        (.error (.backend (.requestFailed
          s!"code lens {i} in {file} has no command, even after resolving")))
  | unsupported {lens : CodeLens} {command : Command} (numbered : Numbered lenses i lens)
      (some : lens.command = some command) (off : client.features.execution = false) :
      Runs client file lenses i deeds []
        (.error (.backend (.unsupported "workspace/executeCommand")))
  | ran {lens : CodeLens} {command : Command} (reply : Except ServerError (Option Json))
      (numbered : Numbered lenses i lens) (some : lens.command = some command)
      (on : client.features.execution = true) :
      Runs client file lenses i deeds [command.parameters]
        ((reply.map (success file i command)).mapError .backend)
  | unsent {lens : CodeLens} {command : Command} (numbered : Numbered lenses i lens)
      (some : lens.command = some command) (on : client.features.execution = true)
      (shut : ⟨.writerOpen, false⟩ ∈ deeds) :
      Runs client file lenses i deeds [] (.error (.backend (.connectionLost "Transport closed")))
  | cancelled {lens : CodeLens} {command : Command} {asked : List Json}
      (numbered : Numbered lenses i lens) (some : lens.command = some command)
      (atMost : asked <+: [command.parameters]) :
      Runs client file lenses i deeds asked (.error .cancelled)

variable {client : Client} {caller : Caller} {args : Json} {talk : Interview} {deeds : Deeds}
  {result : Except ToolError Output}

/-- No command is run to fetch lenses. -/
theorem quiet_of_unfetched (served : Served client talk deeds) (unfetched : ∀ turn ∈ talk,
    Preparing turn.1 ∨ ∃ path, turn.1 = .query (.codeLenses path)) :
    ∀ turn ∈ deeds, ¬ turn.1.Requests "workspace/executeCommand" := by
  refine served.quiet (¬ ·.Requests _) fun turn mem q asked work outcome works => ?_
  have kind := unfetched turn mem
  rw [asked] at kind
  rcases kind with prepares | ⟨path, lists⟩
  · cases q with
    | sync path => exact (mayTell_notRequests _ path client.cwd).sync.of_converses works
    | _ => exact prepares.elim
  · cases lists
    exact Client.quiet_codeLenses (by decide) (by decide) works

theorem choose_cases (lenses : List CodeLens) (i : Int) (file : String) :
    ((i < 1 ∨ lenses.length < i) ∧
      choose lenses i file = .error (.indexOutOfRange i lenses.length)) ∨
    ∃ lens, Numbered lenses i lens ∧
      ((lens.command = none ∧ choose lenses i file = .error (.backend (.requestFailed
        s!"code lens {i} in {file} has no command, even after resolving"))) ∨
      ∃ command, lens.command = some command ∧ choose lenses i file = .ok command) := by
  unfold choose
  split
  next none => exact .inl ⟨numbered?_eq_none_iff.mp none, rfl⟩
  next lens there =>
    refine .inr ⟨lens, numbered?_eq_some_iff.mp there, ?_⟩
    split
    next command has => exact .inr ⟨command, has, rfl⟩
    next bare => exact .inl ⟨bare, rfl⟩

/-- The request to run a command that was chosen. -/
theorem runs_of_served {file : String} {lenses : List CodeLens} {i : Int} {lens : CodeLens}
    {command : Command} {reply : Except QueryFailure (Option Json)}
    (numbered : Numbered lenses i lens) (has : lens.command = some command)
    (served : Served client [⟨.query (.execute command), reply⟩] deeds) :
    ∃ asked, Requests "workspace/executeCommand" deeds asked ∧
      Runs client file lenses i deeds asked
        ((reply.map (success file i command)).mapError QueryFailure.toolError) := by
  rcases served.of_singleton with ⟨outcome, works, rfl⟩ | ⟨undone, outcome, works, rfl⟩
  · rcases Client.converses_execute works with ⟨off, rfl, rfl⟩ | ⟨on, answer, asks, rfl⟩
    · exact ⟨[], .nothing, .unsupported numbered has off⟩
    · rcases asks.requests with wrote | ⟨quiet, shut, rfl⟩
      · refine ⟨_, wrote, ?_⟩
        cases answer with
        | ok value => exact .ran (.ok _) numbered has on
        | error e => exact .ran (.error e) numbered has on
      · exact ⟨[], quiet, .unsent numbered has on shut⟩
  · have whole : ∃ asked, asked <+: [command.parameters] ∧
        Requests "workspace/executeCommand" (deeds ++ undone) asked := by
      rcases Client.converses_execute works with ⟨_, none, _⟩ | ⟨_, _, asks, _⟩
      · exact ⟨[], List.nil_prefix, none ▸ .nothing⟩
      · rcases asks.requests with wrote | ⟨quiet, _⟩
        · exact ⟨_, List.prefix_rfl, wrote⟩
        · exact ⟨[], List.nil_prefix, quiet⟩
    obtain ⟨most, atMost, both⟩ := whole
    obtain ⟨asked, le, wrote⟩ := both.prefix_of_append
    exact ⟨asked, wrote, .cancelled numbered has (le.trans atMost)⟩

/-- What is done about a number once the lenses are there. -/
def runNumbered (lenses : List CodeLens) (i : Int) (file : String) : Action Output := do
  let command ← (choose lenses i file : Except ToolError Command)
  let reply ← Action.request (.execute command)
  pure (success file i command reply)

theorem run_eq (caller : Caller) (args : Json) :
    run caller args = (do
      let a ← Tool.arguments "ExecuteArgs" fields args
      let path ← Action.resolvePath a.filePath caller.surroundings
      let lenses ← fetch path
      runNumbered lenses a.index (path.shown caller.surroundings.root)) := rfl

theorem asks_runNumbered (lenses : List CodeLens) (i : Int) (file : String) :
    (runNumbered lenses i file).run.Asks fun a => ∃ command, a = .query (.execute command) :=
  Plan.asks_run_except_bind fun command _ =>
    Plan.asks_run_bind (Action.asks_request ⟨command, rfl⟩) fun _ => trivial

theorem runs_of_converses {file : String} {lenses : List CodeLens} {i : Int}
    (talks : (runNumbered lenses i file).run.Converses talk result)
    (served : Served client talk deeds) :
    ∃ asked, Requests "workspace/executeCommand" deeds asked ∧
      Runs client file lenses i deeds asked result := by
  rcases Plan.converses_except_bind_iff.mp talks with
    ⟨e, chosen, rfl, rfl⟩ | ⟨command, chosen, runs⟩
  · cases served
    rcases choose_cases lenses i file with ⟨out, eq⟩ | ⟨lens, numbered, ⟨bare, eq⟩ | ⟨_, _, eq⟩⟩
    · cases chosen.symm.trans eq
      exact ⟨[], .nothing, .outside out⟩
    · cases chosen.symm.trans eq
      exact ⟨[], .nothing, .bare numbered bare⟩
    · cases chosen.symm.trans eq
  · rcases choose_cases lenses i file with ⟨_, eq⟩ | ⟨lens, numbered, ⟨_, eq⟩ | ⟨_, has, eq⟩⟩
    · cases chosen.symm.trans eq
    · cases chosen.symm.trans eq
    · cases chosen.symm.trans eq
      rcases Action.converses_request_bind_iff.mp runs with
        ⟨failure, rfl, rfl⟩ | ⟨reply, _, rfl, rfl, rfl⟩
      · exact runs_of_served numbered has served
      · exact runs_of_served numbered has served

/-- What a call to run a command comes to. -/
inductive Told (client : Client) (caller : Caller) (args : Json) :
    Interview → Deeds → List Json → Except ToolError Output → Prop
  | unfetched {talk : Interview} {deeds : Deeds} (e : ToolError) (none : Unfetched talk) :
      Told client caller args talk deeds [] (.error e)
  | fetched {a : Arguments} {path : Path} {lenses : List CodeLens} {before after : Interview}
      {fetching running : Deeds} {asked : List Json} {result : Except ToolError Output}
      (decoded : fields.decode "ExecuteArgs" args = .ok a)
      (prepares : ∀ turn ∈ before, Preparing turn.1)
      (executes : ∀ turn ∈ after, ∃ command, turn.1 = .query (.execute command))
      (runs : Runs client (path.shown caller.surroundings.root) lenses a.index running asked
        result) :
      Told client caller args (before ++ ⟨.query (.codeLenses path), .ok lenses⟩ :: after)
        (fetching ++ running) asked result

theorem told_of_run (talks : (run caller args).run.Converses talk result)
    (served : Served client talk deeds) :
    ∃ asked, Requests "workspace/executeCommand" deeds asked ∧
      Told client caller args talk deeds asked result := by
  rw [run_eq] at talks
  unfold Tool.arguments at talks
  split at talks
  next a decoded =>
    rcases fetched_of_converses talks with
      ⟨none, e, rfl⟩ | ⟨path, lenses, before, after, rfl, prepares, runs⟩
    · exact ⟨[], .of_quiet (quiet_of_unfetched served none.each), .unfetched e none⟩
    have executes := (asks_runNumbered ..).of_converses runs
    rw [List.append_cons] at served
    obtain ⟨fetching, running, rfl, first, rest⟩ := served.of_append
    have quiet : Requests "workspace/executeCommand" fetching [] := by
      refine .of_quiet (quiet_of_unfetched first ?_)
      refine List.forall_mem_append.mpr ⟨fun turn mem => .inl (prepares turn mem), ?_⟩
      exact List.forall_mem_singleton.mpr (.inr ⟨path, rfl⟩)
    obtain ⟨asked, wrote, ends⟩ := runs_of_converses runs rest
    exact ⟨asked, quiet.append wrote, .fetched decoded prepares executes ends⟩
  next e failed =>
    obtain ⟨rfl, rfl⟩ := talks
    cases served
    exact ⟨[], .nothing, .unfetched _ (.unasked (List.forall_mem_nil _))⟩

end Execution

/-- The lenses of a file have the numbers in its listing by which their commands are run, and a
command is asked for at most once. -/
theorem listed_lenses_are_run (client : Client) (caller : Caller) :
    (∀ path talk result, (client.codeLenses path).run.Converses talk result →
      ∃ asked, Requests "codeLens/resolve" talk asked ∧ client.Lists path talk asked result) ∧
    (∀ args talk output, (Listing.run caller args).run.Converses talk (.ok output) →
      ∃ path lenses before, talk = before ++ [⟨.query (.codeLenses path), .ok lenses⟩] ∧
        (∀ turn ∈ before, Preparing turn.1) ∧
        output = Listing.output (path.shown caller.surroundings.root) lenses) ∧
    (∀ lenses lens (n : Nat), (lens, n) ∈ lenses.zipIdx 1 ↔ Numbered lenses n lens) ∧
    ∀ args talk deeds result, (Execution.run caller args).run.Converses talk result →
      Served client talk deeds →
      ∃ asked, Requests "workspace/executeCommand" deeds asked ∧
        Execution.Told client caller args talk deeds asked result :=
  ⟨fun _ _ _ => Client.lists_of_converses, fun _ _ _ => Listing.told_of_run,
    fun _ _ _ => mem_zipIdx_iff, fun _ _ _ _ => Execution.told_of_run⟩

section OneLens

-- How a path becomes a URI does not matter to how it is named to the server.
attribute [local irreducible] Path.uri

def aPath : Path := .ofString "/f"

def aCommand : Command := ⟨"run test", "test.run", none⟩

def aLens : CodeLens := ⟨⟨⟨0, 0⟩, ⟨1, 0⟩⟩, some aCommand, none⟩

/-- A server that has a lens for every file, and runs commands or not. -/
def lensClient (execution : Bool) : Client :=
  ⟨ServerConfig.ofCommand "gopls",
    { (default : Features) with lenses := some false, execution := execution }, .ofString "/"⟩

def fetchingTalk : Interview :=
  [⟨.query (.sync aPath), .ok ()⟩, ⟨.query (.codeLenses aPath), .ok [aLens]⟩]

theorem exists_fetching_run (execution : Bool) :
    ∃ deeds, Served (lensClient execution) fetchingTalk deeds := by
  have found : (aPath.uri (.ofString "/")).isOk = true := by decide +kernel
  obtain ⟨uri, named⟩ := isOk_iff.mp found
  let known : Document := ⟨1, "", 0⟩
  have syncs : ((lensClient execution).answer (.sync aPath)).run.Converses _ (.ok ()) :=
    Client.converses_sync_of_unchanged named known 0
  have reads : readLenses (.array [aLens.toJson]) = .ok [aLens] := by rfl
  have asks : (lensClient execution).Requesting "textDocument/codeLens"
      (.ofMembers [("textDocument", .ofMembers [("uri", .string uri.text)])]) _
      (.ok (.array [aLens.toJson])) :=
    .awaited 1 0 (.answered ⟨some (.array [aLens.toJson]), none⟩)
  have lists := Client.lists_of_asked known named asks reads
  have tells {deeds : Deeds}
      (lists : ((lensClient execution).listLenses aPath).run.Converses deeds (.ok [aLens])) :
      ((lensClient execution).answer (.codeLenses aPath)).run.Converses deeds (.ok [aLens]) := by
    have offered : (lensClient execution).features.lenses = some false := rfl
    rw [Client.answer, Client.codeLenses_eq offered]
    exact Plan.converses_run_bind_iff.mpr
      (.inr ⟨deeds, [aLens], [], (List.append_nil _).symm, lists, rfl, rfl⟩)
  exact ⟨_, .answered syncs (.answered (tells lists) .nothing)⟩

def aCaller : Caller := ⟨⟨.ofString "/", .ofString "/"⟩, 1⟩

def firstOfFile : Json := .ofMembers [("filePath", .string "/f"), ("index", .nat 1)]

/-- The command of the first lens is run, if the server runs commands. -/
theorem first_lens_is_run : ∃ talk deeds output,
    (Execution.run aCaller firstOfFile).run.Converses talk (.ok output) ∧
      Served (lensClient true) talk deeds ∧
      ∃ asked, Requests "workspace/executeCommand" deeds asked ∧
        Execution.Told (lensClient true) aCaller firstOfFile talk deeds asked (.ok output) := by
  obtain ⟨fetching, fetched⟩ := exists_fetching_run true
  have asks : (lensClient true).Requesting "workspace/executeCommand" aCommand.parameters _
      (.ok .null) :=
    .awaited 2 0 (.answered ⟨none, none⟩)
  have runs {deeds : Deeds} (asks : (lensClient true).Requesting "workspace/executeCommand"
      aCommand.parameters deeds (.ok .null)) :
      ((lensClient true).answer (.execute aCommand)).run.Converses deeds (.ok none) :=
    (Client.converses_execute_of_offered rfl).mpr ⟨_, asks, rfl⟩
  have talks : (Execution.run aCaller firstOfFile).run.Converses
      (fetchingTalk ++ [⟨.query (.execute aCommand), .ok none⟩])
      (.ok (Execution.success (aPath.shown aCaller.surroundings.root) 1 aCommand none)) :=
    ⟨.ok (), _, rfl, .ok [aLens], _, rfl, .ok none, _, rfl, rfl, rfl⟩
  have served := fetched.append (.answered (runs asks) .nothing)
  have told :=
    (listed_lenses_are_run (lensClient true) aCaller).2.2.2 firstOfFile _ _ _ talks served
  exact ⟨_, _, _, talks, served, told⟩

/-- It is not, if the server offers no commands to run. -/
theorem numbered_command_is_not_run : ∃ talk deeds e,
    Execution.fields.decode "ExecuteArgs" firstOfFile = .ok ⟨"/f", 1⟩ ∧
      (Execution.run aCaller firstOfFile).run.Converses talk (.error e) ∧
      Served (lensClient false) talk deeds ∧ ⟨.query (.codeLenses aPath), .ok [aLens]⟩ ∈ talk ∧
      Numbered [aLens] 1 aLens ∧ aLens.command = some aCommand ∧
      ∀ asked, Requests "workspace/executeCommand" deeds asked → asked.length ≠ 1 := by
  obtain ⟨fetching, fetched⟩ := exists_fetching_run false
  have runs : ((lensClient false).answer (.execute aCommand)).run.Converses []
      (.error (.unsupported "workspace/executeCommand")) := ⟨rfl, rfl⟩
  have talks : (Execution.run aCaller firstOfFile).run.Converses (fetchingTalk ++
      [⟨.query (.execute aCommand), .error (.server (.unsupported "workspace/executeCommand"))⟩])
      (.error (.backend (.unsupported "workspace/executeCommand"))) :=
    ⟨.ok (), _, rfl, .ok [aLens], _, rfl, _, _, rfl, rfl, rfl⟩
  have served := fetched.append (.answered runs .nothing)
  have none : Requests "workspace/executeCommand" (fetching ++ ([] ++ [])) [] := by
    refine .of_quiet ?_
    rw [List.append_nil, List.append_nil]
    refine Execution.quiet_of_unfetched fetched ?_
    exact List.forall_mem_cons.mpr ⟨.inl trivial, List.forall_mem_singleton.mpr (.inr ⟨aPath, rfl⟩)⟩
  refine ⟨_, _, _, rfl, talks, served, by simp [fetchingTalk], ⟨by decide, rfl⟩, rfl,
    fun asked wrote one => ?_⟩
  cases (none.length_unique wrote).trans one

end OneLens

end Lenses

end CodeIntel

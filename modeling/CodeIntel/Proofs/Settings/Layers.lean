import CodeIntel.Proofs.Table
import CodeIntel.Settings.Basic
import Mathlib.Data.List.Induction

namespace CodeIntel

namespace SettingsFile

theorem merge_assoc (a b c : SettingsFile) : (a.merge b).merge c = a.merge (b.merge c) := by
  simp [merge, Option.or_assoc, Table.merge_assoc]

theorem empty_merge (a : SettingsFile) : empty.merge a = a := by
  simp [merge, empty]

theorem merge_empty (a : SettingsFile) : a.merge empty = a := by
  simp [merge, empty]

end SettingsFile

/-- What one source of settings says. What it leaves open is up to the sources below it. -/
structure Layer where
  command : Option String := none
  args : Option (List String) := none
  env : String → Option String := fun _ => none
  languageIds : String → Option String := fun _ => none
  requestTimeoutSecs : Option Nat := none
  initializeTimeoutSecs : Option Nat := none
  diagnosticsWaitMs : Option Nat := none
  contextLines : Option UInt32 := none
  logLevel : Option String := none

namespace Layer

/-- A command line says what the arguments of the server are only if it has some. -/
def ofLine (line : CommandLine) : Layer where
  command := line.server
  args := if line.serverArgs = [] then none else some line.serverArgs
  requestTimeoutSecs := line.requestTimeout
  contextLines := line.contextLines

def ofFile (file : SettingsFile) : Layer where
  command := file.command
  args := file.args
  env := file.env.get?
  languageIds := file.languageIds.get?
  requestTimeoutSecs := file.requestTimeoutSecs
  diagnosticsWaitMs := file.diagnosticsWaitMs
  contextLines := file.contextLines
  logLevel := file.logLevel

/-- What is known of some servers by their names. -/
def ofServer : String → Layer
  | "typescript-language-server" | "pyright-langserver" => { args := some ["--stdio"] }
  | "clangd" => { languageIds := fun extension => if extension = "h" then some "cpp" else none }
  | _ => {}

/-- What is known of the server that a command starts, by the last name in its path. -/
def ofCommand (command : String) : Layer :=
  match (Path.ofString command).fileName?.bind ofUtf8? with
  | some name => ofServer name
  | none => {}

def builtin : Layer where
  args := some []
  requestTimeoutSecs := some 30
  initializeTimeoutSecs := some 60
  diagnosticsWaitMs := some 3000
  contextLines := some 3

/-- What a command line alone decides, and the files, is not known of servers. -/
theorem ofCommand_open (command : String) : (ofCommand command).command = none ∧
    (ofCommand command).contextLines = none ∧ (ofCommand command).logLevel = none := by
  unfold ofCommand
  split
  · unfold ofServer
    split <;> exact ⟨rfl, rfl, rfl⟩
  · exact ⟨rfl, rfl, rfl⟩

variable {α : Type}

/-- What the highest layer says that does not leave it open; the highest layer is the first. -/
def top (layers : List Layer) (what : Layer → Option α) : Option α := layers.findSome? what

theorem top_cons (layer : Layer) (layers : List Layer) (what : Layer → Option α) :
    top (layer :: layers) what = (what layer).or (top layers what) := by
  unfold top
  rw [List.findSome?_cons]
  cases what layer <;> rfl

/-- What the command line and the files say. The files are given with those first that count
least. -/
def said (line : CommandLine) (files : List SettingsFile) : List Layer :=
  ofLine line :: (files.map ofFile).reverse

/-- All layers for a server that a command starts. -/
def all (line : CommandLine) (files : List SettingsFile) (command : String) : List Layer :=
  said line files ++ [ofCommand command, builtin]

section Merged

/-- Whether something is left open by a file that says nothing, and of two files the second decides
it, if it does not leave it open. -/
structure IsSetting (what : Layer → Option α) : Prop where
  empty : what (ofFile .empty) = none
  merge : ∀ a b, what (ofFile (a.merge b)) = (what (ofFile b)).or (what (ofFile a))

/-- Files put together say what the last of them says that does not leave it open. -/
theorem IsSetting.top_merged {what : Layer → Option α} (setting : IsSetting what)
    (files : List SettingsFile) (below : List Layer) :
    top (ofFile (files.foldl .merge .empty) :: below) what =
      top ((files.map ofFile).reverse ++ below) what := by
  induction files using List.reverseRecOn generalizing below with
  | nil => rw [top_cons, List.foldl_nil, setting.empty, Option.none_or]; rfl
  | append_singleton files file ih =>
    have rest := ih below
    rw [top_cons] at rest
    rw [top_cons, List.foldl_append, List.foldl_cons, List.foldl_nil, setting.merge,
      Option.or_assoc, rest, ← top_cons]
    simp

theorem IsSetting.top_said {what : Layer → Option α} (setting : IsSetting what) (line : CommandLine)
    (files : List SettingsFile) (below : List Layer) :
    top (said line files ++ below) what =
      top (ofLine line :: ofFile (files.foldl .merge .empty) :: below) what := by
  rw [top_cons, setting.top_merged, said, List.cons_append, top_cons]

end Merged

end Layer

open Layer

/-- Whether a server is started and waited for as the highest layers say. -/
structure ServerConfig.Follows (config : ServerConfig) (layers : List Layer) : Prop where
  args : top layers Layer.args = some config.args
  env : ∀ name, top layers (·.env name) = config.env.get? name
  languageIds : ∀ extension,
    top layers (·.languageIds extension) = config.languageIds.get? extension
  requestTimeoutSecs : top layers Layer.requestTimeoutSecs = some config.requestTimeoutSecs
  initializeTimeoutSecs : top layers Layer.initializeTimeoutSecs = some config.initializeTimeoutSecs
  diagnosticsWaitMs : top layers Layer.diagnosticsWaitMs = some config.diagnosticsWaitMs

/-- Whether all settings are as the highest layers say. -/
structure Settings.Follows (s : Settings) (layers : List Layer) : Prop where
  command : top layers Layer.command = some s.server.command
  server : s.server.Follows layers
  contextLines : top layers Layer.contextLines = some s.contextLines
  logLevel : top layers Layer.logLevel = s.logLevel

namespace Settings

/-- The names of the servers of which something is known. -/
def knownNames : List String :=
  ["rust-analyzer", "gopls", "typescript-language-server", "pyright-langserver", "clangd"]

theorem fileName?_of_known :
    ∀ name ∈ knownNames, (Path.ofString name).fileName?.bind ofUtf8? = some name := by
  decide +kernel

theorem preset?_of_unknown {name : String} (unknown : name ∉ knownNames) :
    ServerConfig.preset? name = none ∧ ofServer name = {} := by
  simp only [knownNames, List.mem_cons, List.not_mem_nil, or_false, not_or] at unknown
  simp [ServerConfig.preset?, ofServer, unknown]

theorem preset?_of_known {name : String} (known : name ∈ knownNames) :
    ∃ config, ServerConfig.preset? name = some config ∧
      config.Follows [ofServer name, builtin] := by
  simp only [knownNames, List.mem_cons, List.not_mem_nil, or_false] at known
  obtain rfl | rfl | rfl | rfl | rfl := known
  · exact ⟨_, rfl, rfl, fun _ => rfl, fun _ => rfl, rfl, rfl, rfl⟩
  · exact ⟨_, rfl, rfl, fun _ => rfl, fun _ => rfl, rfl, rfl, rfl⟩
  · exact ⟨_, rfl, rfl, fun _ => rfl, fun _ => rfl, rfl, rfl, rfl⟩
  · exact ⟨_, rfl, rfl, fun _ => rfl, fun _ => rfl, rfl, rfl, rfl⟩
  · refine ⟨_, rfl, rfl, fun _ => rfl, fun extension => ?_, rfl, rfl, rfl⟩
    rw [top_cons]
    by_cases header : extension = "h"
    · subst header
      rfl
    · simp [ofServer, header, top, builtin, Table.ofList, Table.insert, Table.get?, Table.empty,
        insertEntry, findEntry, Ne.symm header]

theorem knownServer_command (command : String) : (knownServer command).command = command := by
  unfold knownServer
  dsimp only
  split <;> rfl

theorem knownServer_follows (command : String) :
    (knownServer command).Follows [ofCommand command, builtin] := by
  have unknown : (ServerConfig.ofCommand command).Follows [{}, builtin] :=
    ⟨rfl, fun _ => rfl, fun _ => rfl, rfl, rfl, rfl⟩
  unfold knownServer ofCommand
  cases named : (Path.ofString command).fileName?.bind ofUtf8? with
  | none =>
    have other : command ∉ knownNames := fun known =>
      nomatch named.symm.trans (fileName?_of_known command known)
    simp only [Option.getD_none, (preset?_of_unknown other).1]
    exact unknown
  | some name =>
    by_cases known : name ∈ knownNames
    · obtain ⟨config, preset, follows⟩ := preset?_of_known known
      simp only [Option.getD_some, preset]
      exact ⟨follows.args, follows.env, follows.languageIds, follows.requestTimeoutSecs,
        follows.initializeTimeoutSecs, follows.diagnosticsWaitMs⟩
    · obtain ⟨preset, silent⟩ := preset?_of_unknown known
      simp only [Option.getD_some, preset, silent]
      exact unknown

variable (line : CommandLine) (file : SettingsFile) (files : List SettingsFile) (command : String)

theorem serverArgs_eq (known : ServerConfig) :
    (ofLine line).args.or (file.args.or (some known.args)) = some (serverArgs line file known) := by
  unfold serverArgs ofLine
  cases line.serverArgs with
  | nil => simp [Option.or_some]
  | cons first rest => simp

theorem serverConfig_follows : (serverConfig line file command).Follows
    [ofLine line, ofFile file, ofCommand command, builtin] := by
  have known := knownServer_follows command
  constructor
  · rw [top_cons, top_cons, known.args]
    exact serverArgs_eq line file _
  · intro name
    rw [top_cons, top_cons, known.env]
    simp [ofLine, ofFile, serverConfig]
  · intro extension
    rw [top_cons, top_cons, known.languageIds]
    simp [ofLine, ofFile, serverConfig]
  · rw [top_cons, top_cons, known.requestTimeoutSecs, ← Option.or_assoc, Option.or_some]
    rfl
  · rw [top_cons, top_cons, known.initializeTimeoutSecs]
    rfl
  · rw [top_cons, top_cons, known.diagnosticsWaitMs, Option.or_some]
    rfl

/-- What follows all files put together follows each of them. -/
theorem Follows.of_merged {s : Settings} {below : List Layer}
    (h : s.Follows (ofLine line :: ofFile (files.foldl .merge .empty) :: below)) :
    s.Follows (said line files ++ below) := by
  have split {α : Type} {what : Layer → Option α} (setting : IsSetting what) :=
    setting.top_said line files below
  obtain ⟨command, ⟨args, env, languageIds, timeout, start, wait⟩, context, level⟩ := h
  refine ⟨?_, ⟨?_, ?_, ?_, ?_, ?_, ?_⟩, ?_, ?_⟩
  · rw [split ⟨rfl, fun _ _ => rfl⟩, command]
  · rw [split ⟨rfl, fun _ _ => rfl⟩, args]
  · intro name
    rw [split ⟨rfl, fun a b => Table.get?_merge a.env b.env name⟩, env]
  · intro extension
    rw [split ⟨rfl, fun a b => Table.get?_merge a.languageIds b.languageIds extension⟩, languageIds]
  · rw [split ⟨rfl, fun _ _ => rfl⟩, timeout]
  · rw [split ⟨rfl, fun _ _ => rfl⟩, start]
  · rw [split ⟨rfl, fun _ _ => rfl⟩, wait]
  · rw [split ⟨rfl, fun _ _ => rfl⟩, context]
  · rw [split ⟨rfl, fun _ _ => rfl⟩, level]

/-- The command that the line or a file chooses. -/
theorem chosen_eq : line.server.or (files.foldl SettingsFile.merge .empty).command =
    top (said line files) Layer.command := by
  have setting : IsSetting Layer.command := ⟨rfl, fun _ _ => rfl⟩
  have eq := setting.top_said line files []
  rw [List.append_nil, top_cons, top_cons] at eq
  rw [eq]
  exact congrArg (Option.or line.server) Option.or_none.symm

end Settings

/-- What becomes of a command line and files of settings. -/
inductive Settings.Resolves (line : CommandLine) (files : List SettingsFile) (workspace : Path)
    (paths : List Path) : Except SettingsError Settings → Prop
  | noServer (missing : ∀ command, top (said line files) Layer.command = some command →
        isBlankText command.toList = true) :
      Resolves line files workspace paths (.error .noServer)
  | settled {command : String} (chosen : top (said line files) Layer.command = some command)
      (visible : isBlankText command.toList = false) {s : Settings}
      (follows : s.Follows (all line files command))
      (unlayered : s.workspace = workspace ∧ s.verbose = line.verbose ∧ s.logFile = line.logFile ∧
        s.files = paths) :
      Resolves line files workspace paths (.ok s)

/-- Files of settings may be put together in any grouping, and a file that says nothing makes no
difference. Each setting is what the highest layer says that does not leave it open: the command
line, the files from the last to the first, what is known of the server, and what is built in. The
entries of tables are settings of their own. Without a command, or with a blank one, there are no
settings. -/
theorem settings_follow_highest_layers :
    (∀ a b c : SettingsFile, (a.merge b).merge c = a.merge (b.merge c)) ∧
      (∀ a : SettingsFile, SettingsFile.empty.merge a = a ∧ a.merge .empty = a) ∧
      ∀ (line : CommandLine) (files : List SettingsFile) (workspace : Path) (paths : List Path),
        Settings.Resolves line files workspace paths
          (Settings.resolve line (files.foldl .merge .empty) workspace paths) := by
  refine ⟨SettingsFile.merge_assoc, fun a => ⟨a.empty_merge, a.merge_empty⟩, ?_⟩
  intro line files workspace paths
  have chosen := Settings.chosen_eq line files
  unfold Settings.resolve
  split
  next missing =>
    refine .noServer fun command said => ?_
    rw [chosen, said] at missing
    simpa using missing
  next command found =>
    obtain ⟨said, visible⟩ := Option.filter_eq_some_iff.mp found
    rw [chosen] at said
    obtain ⟨noCommand, noContext, noLevel⟩ := ofCommand_open command
    refine .settled said (by simpa using visible) (.of_merged line files ⟨?_, ?_, ?_, ?_⟩)
      ⟨rfl, rfl, rfl, rfl⟩
    · rw [top_cons, top_cons, top_cons, noCommand, Option.none_or, ← Option.or_assoc]
      exact (congrArg (Option.or · _) (chosen.trans said)).trans
        (congrArg Option.some (Settings.knownServer_command command).symm)
    · exact Settings.serverConfig_follows line _ command
    · rw [top_cons, top_cons, top_cons, noContext, Option.none_or, ← Option.or_assoc]
      exact Option.or_some
    · rw [top_cons, top_cons, top_cons, noLevel, Option.none_or]
      exact Option.or_none

end CodeIntel

import CodeIntel.Proofs.EditFile.Stages
import CodeIntel.Proofs.Session.Calls
import CodeIntel.Proofs.Session.NoLostUpdate
import CodeIntel.Proofs.Session.OwnStep
import CodeIntel.Proofs.Sync.Connection
import CodeIntel.Proofs.Sync.Queries
import CodeIntel.Proofs.Tool.Interview
import CodeIntel.Tool.Diagnostics
import CodeIntel.Tool.Lenses

namespace CodeIntel

section Uses

open Plan

/-- The tools that use one file. -/
inductive FileTool
  | edit
  | diagnostics
  | lenses
  | execution

namespace FileTool

def run : FileTool → Caller → Json → Action Output
  | edit => EditFile.run
  | diagnostics => Diagnostics.run
  | lenses => Lenses.Listing.run
  | execution => Lenses.Execution.run

/-- The path among the arguments of a tool. -/
def file? : FileTool → Json → Option String
  | edit, json => (EditFile.understood json).toOption.map Prod.fst
  | diagnostics, json =>
    ((Diagnostics.fields.decode "DiagnosticsArgs" json).toOption).map (·.filePath)
  | lenses, json => ((Fields.required "filePath" .string).decode "FileArgs" json).toOption
  | execution, json =>
    ((Lenses.Execution.fields.decode "ExecuteArgs" json).toOption).map (·.filePath)

end FileTool

/-- A call of a tool that uses one file. -/
structure Use where
  tool : FileTool
  caller : Caller
  json : Json

namespace Use

def steps (use : Use) : CallPlan (Except ToolError Output) := (use.tool.run use.caller use.json).run

/-- The call names the file by this absolute path. -/
def Names (use : Use) (p : Path) : Prop :=
  ∀ raw, use.tool.file? use.json = some raw →
    Path.readings raw use.caller.surroundings = .ok (p, none)

end Use

/-- Whether a question of a call only looks at the document at a path. -/
def Ask.LooksAt (p : Path) : Ask → Prop
  | .query q => q.LooksAt p
  | .readText _ => True
  | _ => False

variable {α β : Type} {p : Path}

theorem asks_arguments_bind {name : String} {fields : Fields α} {json : Json} {next : α → Action β}
    (h : ∀ args, fields.decode name json = .ok args → (next args).run.Asks (Ask.LooksAt p)) :
    (Tool.arguments name fields json >>= next).run.Asks (Ask.LooksAt p) := by
  unfold Tool.arguments
  cases decoded : fields.decode name json with
  | error e => trivial
  | ok args => exact h args decoded

theorem asks_resolvePath_bind {raw : String} {s : Surroundings} {next : Path → Action β}
    (named : Path.readings raw s = .ok (p, none)) (h : (next p).run.Asks (Ask.LooksAt p)) :
    (Action.resolvePath raw s >>= next).run.Asks (Ask.LooksAt p) := by
  unfold Action.resolvePath
  rw [named]
  exact h

theorem asks_fetch : (Lenses.fetch p).run.Asks (Ask.LooksAt p) :=
  asks_run_bind (Action.asks_request rfl) fun _ => Action.asks_request rfl

theorem asks_diagnostics {caller : Caller} {json : Json}
    (named : (Use.mk .diagnostics caller json).Names p) :
    (Diagnostics.run caller json).run.Asks (Ask.LooksAt p) := by
  unfold Diagnostics.run
  refine asks_arguments_bind fun args decoded => asks_resolvePath_bind (named _ ?_) ?_
  · simp [FileTool.file?, decoded, Except.toOption]
  refine asks_run_bind (Action.asks_request rfl) fun _ => ?_
  refine asks_run_bind (Action.asks_request rfl) fun found => ?_
  split
  · trivial
  · trivial
  · exact asks_run_bind (Action.asks_readText trivial) fun text => trivial

theorem asks_listing {caller : Caller} {json : Json}
    (named : (Use.mk .lenses caller json).Names p) :
    (Lenses.Listing.run caller json).run.Asks (Ask.LooksAt p) := by
  unfold Lenses.Listing.run
  refine asks_arguments_bind fun raw decoded => asks_resolvePath_bind (named _ ?_) ?_
  · simp [FileTool.file?, decoded, Except.toOption]
  refine asks_run_bind asks_fetch fun lenses => ?_
  split <;> trivial

theorem asks_execution {caller : Caller} {json : Json}
    (named : (Use.mk .execution caller json).Names p) :
    (Lenses.Execution.run caller json).run.Asks (Ask.LooksAt p) := by
  unfold Lenses.Execution.run
  refine asks_arguments_bind fun args decoded => asks_resolvePath_bind (named _ ?_) ?_
  · simp [FileTool.file?, decoded, Except.toOption]
  refine asks_run_bind asks_fetch fun lenses => asks_run_bind (asks_run_except _) fun command => ?_
  exact asks_run_bind (Action.asks_request trivial) fun _ => trivial

/-- Of the tools that use a file, only one does more than to look at it. -/
theorem Use.asks_steps {use : Use} (named : use.Names p) (looks : use.tool ≠ .edit) :
    use.steps.Asks (Ask.LooksAt p) := by
  obtain ⟨tool, caller, json⟩ := use
  cases tool with
  | edit => exact absurd rfl looks
  | diagnostics => exact asks_diagnostics named
  | lenses => exact asks_listing named
  | execution => exact asks_execution named

end Uses

open EditFile World

/-- What a call is to edit, if it is an edit. -/
def Use.job? (use : Use) : Option EditJob :=
  match use.tool with
  | .edit => some ⟨use.caller, use.json⟩
  | _ => none

/-- A file that several calls use. All name it by its canonical path. -/
structure UsedFile where
  place : Place
  uses : Holder → Option Use
  named : ∀ id use, uses id = some use → use.Names (Tree.pathOf place)
  content : List UInt8
  mode : Nat

namespace UsedFile

def path (file : UsedFile) : Path := Tree.pathOf file.place

def shared (file : UsedFile) : SharedFile where
  place := file.place
  paths := (· = file.path)
  jobs := fun id => (file.uses id).bind Use.job?
  content := file.content
  mode := file.mode

/-- The file holds a text. -/
def Holds (file : UsedFile) (t : Tree) (text : String) : Prop :=
  ∃ mode, t.node? file.place = some (.file (utf8Bytes text) mode)

end UsedFile

/-- The messages that the next step of a call sends to the end. -/
def Activity.sends {ρ : Type} (link : Link) : Activity ρ → List (List UInt8)
  | .serving _ work _ => link.sends work
  | _ => []

/-- Calls under way, and the messages that were sent to the server so far; the latest is first. -/
structure Talk where
  calls : Calls
  sent : List (List UInt8)

/-- The messages that the next step of the call with a number sends to the end. -/
def Talk.sends (t : Talk) (id : Holder) : List (List UInt8) :=
  match t.calls.backend with
  | .linked _ link => ((t.calls.call? id).map fun c => c.activity.sends link).getD []
  | .standIn _ => []

/-- What is kept of the document at a path while it is open at the server. -/
def Talk.document? (t : Talk) (p : Path) : Option Document :=
  match t.calls.backend with
  | .linked _ link => link.documents.get? p
  | .standIn _ => none

/-- What may happen next where several calls use a file: one of them takes a step or fills a
temporary file in part, a call starts, the reader of the connection takes a step, or time passes and
others use other files and move the bytes of the connection. -/
inductive Talk.Step (file : UsedFile) (client : Client) : Talk → Talk → Prop
  | call {t : Talk} (id : Holder) (abortFirst : Bool) :
      Step file client t ⟨(t.calls.step abortFirst id).1, t.sends id ++ t.sent⟩
  | part {t : Talk} {c : Call (Except ToolError Output)} {p : Path} {text : String}
      {next : Except FileError Unit → Steps} {part : List UInt8} {files : Tree}
      (mem : c ∈ t.calls.calls) (activity : c.activity = .calling (.ask (.write p text) next))
      (isPart : part <+: utf8Bytes text)
      (written : t.calls.files.write (t.calls.cwd.join p) part = .ok files) :
      Step file client t ⟨{ t.calls with files := files }, t.sent⟩
  | start {t : Talk} {use : Use} (uses : file.uses (t.calls.lastCall + 1) = some use) :
      Step file client t ⟨(t.calls.start (.calling use.steps) false).1, t.sent⟩
  | read {t : Talk} {link : Link} (linked : t.calls.backend = .linked client link) :
      Step file client t
        ⟨t.calls.setLink client (link.readerStep t.calls.moment).1, link.readerSends ++ t.sent⟩
  | pass {t : Talk} {link link' : Link} (linked : t.calls.backend = .linked client link)
      (same : Link.SameDocuments link link') (now : Nat) (files : Tree)
      (undisturbed : Undisturbed file.shared t.calls.files files) :
      Step file client t
        ⟨{ t.calls with now := now, files := files, backend := .linked client link' }, t.sent⟩

/-- The calls before any of them has begun, with a connection over which no document was opened. -/
structure Talk.Fresh (file : UsedFile) (client : Client) (t : Talk) : Prop extends
    Gathered file.shared t.calls where
  unsent : t.sent = []
  waiting : ∀ c ∈ t.calls.calls, c.cancelled = false ∧
    ∃ use, file.uses c.id = some use ∧ c.activity = .calling use.steps
  linked : ∃ link, t.calls.backend = .linked client link ∧ link.Works file.path client.cwd ∧
    link.documents.get? file.path = none

/-- A call is about to tell the server of a text of the file. -/
def Announces (file : UsedFile) (text : String) (activity : Activity (Except ToolError Output)) :
    Prop :=
  ∃ next, activity = .calling (.ask (.query (.changed file.path text)) next)

/-- What a call that uses the file is at. -/
structure Behaves (file : UsedFile) (w : Calls) (c : Call (Except ToolError Output)) : Prop where
  going : c.cancelled = false
  used : ∃ use, file.uses c.id = some use ∧
    (use.tool ≠ .edit → c.activity.Ends (Plan.Asks (Ask.LooksAt file.path)))
  gated : HasGate w.gate c.id c.activity
  tells : ∀ text, Announces file text c.activity → file.Holds w.files text

/-- Once the query under way is over, the server knows of a text as said, if of any. -/
structure Converges (file : UsedFile) (client : Client) (D : String → Prop)
    (calls : List (Call (Except ToolError Output))) (s : View) : Prop where
  under : ∀ c ∈ calls, ∀ gated work aborted, c.activity = .serving gated work aborted →
    work.Meets (View.rule file.path client.cwd D) (fun _ s => s.Agrees file.path client.cwd D) s
  between : (∀ c ∈ calls, ∃ plan, c.activity = .calling plan) → s.Agrees file.path client.cwd D

/-- What the server knows of the file, and that it knows the latest unless it is yet to be told. -/
structure Sees (file : UsedFile) (client : Client) (w : Calls) (sent : List (List UInt8))
    (link : Link) (told : Option String) : Prop where
  works : link.Works file.path client.cwd
  last : LastTold file.path client.cwd sent told
  known : Converges file client (fun _ => True) w.calls ⟨link.documents.get? file.path, told⟩
  latest : (∃ c ∈ w.calls, ∃ text, Announces file text c.activity) ∨
    Converges file client (file.Holds w.files) w.calls ⟨link.documents.get? file.path, told⟩

/-- What holds while calls use the file. -/
structure Synced (file : UsedFile) (client : Client) (t : Talk) : Prop where
  serial : ∃ order, Serial file.shared (fun _ => False) order t.calls
  behave : ∀ c ∈ t.calls.calls, Behaves file t.calls c
  sees : ∃ link told, t.calls.backend = .linked client link ∧
    Sees file client t.calls t.sent link told

end CodeIntel

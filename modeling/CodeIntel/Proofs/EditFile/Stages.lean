import CodeIntel.Files.Tree
import CodeIntel.Proofs.Basic
import CodeIntel.Proofs.Text.Columns
import CodeIntel.Tool.Edit

namespace CodeIntel.EditFile

/-- What an edit has left to do. -/
abbrev Steps := CallPlan (Except ToolError Output)

/-- The edit of a file at a place; `file` is its name as it is shown. -/
structure Errand where
  place : Place
  requests : List EditRequest
  file : String

/-- A text and the text that is to stand in its stead. -/
structure Change where
  before : String
  after : List Char

namespace Errand

variable (e : Errand)

def path : Path := Tree.pathOf e.place

def temporary (fresh : String) : Path := temporaryPath e.path fresh

/-- What is told of an edit that changes nothing. -/
def idleReport : Output :=
  ⟨e.file, heading e.requests e.file ++ "\n(no changes)\n", metadata e.path e.requests.length false⟩

/-- What is told of a change, and of how the server took it. -/
def report (c : Change) (told : Except QueryFailure Unit) : Output :=
  let changes := String.ofList (Diff.render c.before.toList c.after e.file)
  ⟨e.file, heading e.requests e.file ++ warning told ++ s!"\n{changes}",
    metadata e.path e.requests.length true⟩

def leaving (result : Except ToolError Output) : Steps := .ask (.leaveFile e.path) fun _ => .done result

def telling (c : Change) : Steps :=
  .ask (.query (.changed e.path (String.ofList c.after))) fun told => e.leaving (.ok (e.report c told))

def discarding (fresh : String) (cause : ToolError) : Steps :=
  .ask (.remove (e.temporary fresh)) fun _ => e.leaving (.error cause)

/-- Goes on after an operation on files, or takes the temporary file away again. -/
def unlessFailed {α : Type} (fresh : String) (next : α → Steps) : Except FileError α → Steps
  | .ok a => next a
  | .error cause => e.discarding fresh (.fileIo e.path cause.message)

def moving (c : Change) (fresh : String) : Steps :=
  .ask (.rename (e.temporary fresh) e.path) (e.unlessFailed fresh fun _ => e.telling c)

def rechecked (c : Change) (fresh : String) (cancelled : Bool) : Steps :=
  if cancelled then e.discarding fresh .cancelled else e.moving c fresh

def rechecking (c : Change) (fresh : String) : Steps := .ask .cancelled (e.rechecked c fresh)

def arming (c : Change) (fresh : String) (mode : Nat) : Steps :=
  .ask (.setMode (e.temporary fresh) mode) (e.unlessFailed fresh fun _ => e.rechecking c fresh)

def inspecting (c : Change) (fresh : String) : Steps :=
  .ask (.mode e.path) (e.unlessFailed fresh (e.arming c fresh))

def filling (c : Change) (fresh : String) : Steps :=
  .ask (.write (e.temporary fresh) (String.ofList c.after))
    (e.unlessFailed fresh fun _ => e.inspecting c fresh)

def naming (c : Change) : Steps := .ask .freshName (e.filling c)

def checked (c : Change) (cancelled : Bool) : Steps :=
  if cancelled then e.leaving (.error .cancelled)
  else if c.after = c.before.toList then e.leaving (.ok e.idleReport)
  else e.naming c

def checking (c : Change) : Steps := .ask .cancelled (e.checked c)

def hasRead : Except FileError String → Steps
  | .error cause => e.leaving (.error (.fileIo e.path cause.message))
  | .ok before =>
    match updated before.toList e.requests with
    | .error cause => e.leaving (.error cause)
    | .ok after => e.checking ⟨before, after⟩

def reading : Steps := .ask (.readText e.path) e.hasRead

def entering : Steps :=
  .ask (.enterFile e.path) fun entered => if entered then e.reading else .done (.error .cancelled)

end Errand

theorem ask_congr {α : Type} {q : Ask} {f g : q.Reply → CallPlan α}
    (h : ∀ reply, f reply = g reply) : Plan.ask q f = Plan.ask q g :=
  congrArg (Plan.ask q) (funext h)

theorem run_lift_bind {α β : Type} (p : CallPlan α) (f : α → Action β) :
    ((liftM p : Action α) >>= f).run = p.bind fun a => (f a).run := ExceptT.run_bind_lift p f

theorem run_exclusively {α : Type} (path : Path) (action : Action α) :
    (Action.exclusively path action).run = .ask (.enterFile path) fun entered =>
      if entered then action.run.bind fun result => .ask (.leaveFile path) fun _ => .done result
      else .done (.error .cancelled) := by
  refine ask_congr fun entered => ?_
  cases entered with
  | false => rfl
  | true => exact run_lift_bind action.run _

namespace Errand

variable (e : Errand)

theorem run_replace (c : Change) (next : Unit → Action Output)
    (told : (next ()).run.bind e.leaving = e.telling c) :
    (Action.replace e.path (String.ofList c.after) >>= next).run.bind e.leaving = e.naming c := by
  refine ask_congr fun fresh => ask_congr fun written => ?_
  cases written with
  | error => rfl
  | ok =>
    refine ask_congr fun found => ?_
    cases found with
    | error => rfl
    | ok mode =>
      refine ask_congr fun armed => ?_
      cases armed with
      | error => rfl
      | ok =>
        refine ask_congr fun cancelled => ?_
        cases cancelled with
        | true => rfl
        | false =>
          refine ask_congr fun moved => ?_
          cases moved with
          | error => rfl
          | ok => exact told

theorem run_editReal : (editReal e.path e.requests e.file).run.bind e.leaving = e.reading := by
  refine ask_congr fun read => ?_
  cases read with
  | error => rfl
  | ok before =>
    show ((liftM (updated before.toList e.requests) : Action _) >>= _).run.bind e.leaving = _
    simp only [hasRead]
    cases updated before.toList e.requests with
    | error => rfl
    | ok after =>
      refine ask_congr fun cancelled => ?_
      cases cancelled with
      | true => rfl
      | false =>
        show (ite (after = before.toList) _ _ : Action Output).run.bind e.leaving =
          if after = before.toList then e.leaving (.ok e.idleReport) else e.naming ⟨before, after⟩
        split
        · rfl
        · exact e.run_replace ⟨before, after⟩ _ rfl

end Errand

/-- The requests among the arguments of an edit. -/
def requestsOf (args : Arguments) : Except ToolError (List EditRequest) :=
  if args.edits.isEmpty then .error (.validation "No edits provided") else readEdits 1 args.edits

/-- The path and the requests that the arguments of an edit hold. -/
def understood (json : Json) : Except ToolError (String × List EditRequest) := do
  let args ← (fields.decode "ApplyArgs" json).mapError fun e =>
    .validation s!"Invalid arguments: {e.message}"
  let requests ← requestsOf args
  pure (args.filePath, requests)

/-- What requests make of the bytes of a file, if they can be carried out. -/
def editedBy (requests : List EditRequest) (content : List UInt8) : Option (List UInt8) := do
  let before ← ofUtf8? content
  let after ← (updated before.toList requests).toOption
  pure (utf8 after)

/-- What an edit with these arguments makes of the bytes of a file. -/
def edited (json : Json) (content : List UInt8) : Option (List UInt8) := do
  let (_, requests) ← (understood json).toOption
  editedBy requests content

def hasLocated (caller : Caller) (requests : List EditRequest) (requested : Path) :
    Except FileError Path → Steps
  | .error cause => .done (.error (.fileIo requested cause.message))
  | .ok path =>
    (Action.exclusively path (editReal path requests (requested.shown caller.surroundings.root))).run

def locating (caller : Caller) (requests : List EditRequest) (requested : Path) : Steps :=
  .ask (.realPath requested) (hasLocated caller requests requested)

theorem hasLocated_pathOf (caller : Caller) (requests : List EditRequest) (requested : Path)
    (place : Place) :
    hasLocated caller requests requested (.ok (Tree.pathOf place)) =
      (⟨place, requests, requested.shown caller.surroundings.root⟩ : Errand).entering := by
  refine (run_exclusively _ _).trans (ask_congr fun entered => ?_)
  cases entered with
  | true => exact Errand.run_editReal ⟨place, requests, _⟩
  | false => rfl

/-- Steps that only look which paths exist until they are at a goal. -/
inductive Looks (answers : Path → Bool → Prop) (goal : Steps → Prop) : Steps → Prop
  | there {plan : Steps} (h : goal plan) : Looks answers goal plan
  | asks {path : Path} {next : Bool → Steps}
      (h : ∀ found, answers path found → Looks answers goal (next found)) :
      Looks answers goal (.ask (.present path) next)

/-- The path that an argument is taken for after the answers to which paths exist. -/
inductive Resolves (answers : Path → Bool → Prop) (raw : String) (s : Surroundings) : Path → Prop
  | only {first : Path} (h : Path.readings raw s = .ok (first, none)) : Resolves answers raw s first
  | first {first second : Path} (h : Path.readings raw s = .ok (first, some second))
      (present : answers first true) : Resolves answers raw s first
  | second {first second : Path} (h : Path.readings raw s = .ok (first, some second))
      (absent : answers first false) (present : answers second true) : Resolves answers raw s second
  | neither {first second : Path} (h : Path.readings raw s = .ok (first, some second))
      (absent : answers first false) (absent' : answers second false) : Resolves answers raw s first

theorem Resolves.resolve {present : Path → Bool} {raw : String} {s : Surroundings} {path : Path}
    (h : Resolves (fun p found => found = present p) raw s path) :
    Path.resolve present raw s = .ok path := by
  cases h with
  | only h => simp [Path.resolve, h, pure, Except.pure]
  | first h there => simp [Path.resolve, h, ← there, pure, Except.pure]
  | second h absent there =>
    simp [Path.resolve, h, ← absent, ← there, pure, Except.pure]
  | neither h absent absent' =>
    simp [Path.resolve, h, ← absent, ← absent', pure, Except.pure]

theorem looks_resolvePath {answers : Path → Bool → Prop} {goal : Steps → Prop} {raw : String}
    {s : Surroundings} {next : Path → Action Output}
    (failed : ∀ cause, goal (.done (.error cause)))
    (found : ∀ path, Resolves answers raw s path → goal (next path).run) :
    Looks answers goal (Action.resolvePath raw s >>= next).run := by
  have start : (Action.resolvePath raw s >>= next).run =
      match Path.readings raw s with
      | .error cause => .done (.error cause)
      | .ok (first, none) => (next first).run
      | .ok (first, some second) => .ask (.present first) fun there =>
          if there then (next first).run
          else .ask (.present second) fun there =>
            if there then (next second).run else (next first).run := by
    show ((liftM (Path.readings raw s) : Action _) >>= _ >>= next).run = _
    cases Path.readings raw s with
    | error => rfl
    | ok readings =>
      obtain ⟨first, second⟩ := readings
      cases second with
      | none => rfl
      | some second =>
        refine ask_congr fun there => ?_
        cases there with
        | true => rfl
        | false =>
          refine ask_congr fun there => ?_
          cases there <;> rfl
  rw [start]
  split
  next cause _ => exact .there (failed cause)
  next first h => exact .there (found first (.only h))
  next first second h =>
    refine .asks fun there answer => ?_
    cases there with
    | true => exact .there (found first (.first h answer))
    | false =>
      refine .asks fun there' answer' => ?_
      cases there' with
      | true => exact .there (found second (.second h answer answer'))
      | false => exact .there (found first (.neither h answer answer'))

/-- Where an edit is once it knows which path is meant, unless it has failed by then. -/
inductive Located (answers : Path → Bool → Prop) (caller : Caller) (json : Json) : Steps → Prop
  | failed (cause : ToolError) : Located answers caller json (.done (.error cause))
  | found {raw : String} {requests : List EditRequest} {requested : Path}
      (h : understood json = .ok (raw, requests))
      (path : Resolves answers raw caller.surroundings requested) :
      Located answers caller json (locating caller requests requested)

/-- Looks for the file once it is clear which path is meant. -/
def seeking (caller : Caller) (args : Arguments) (requested : Path) : Steps :=
  match requestsOf args with
  | .error cause => .done (.error cause)
  | .ok requests => locating caller requests requested

theorem run_of_decode {json : Json} {raw : String} {edits : List Json} (caller : Caller)
    (h : fields.decode "ApplyArgs" json = .ok ⟨raw, edits⟩) :
    (run caller json).run =
      (Action.resolvePath raw caller.surroundings >>= fun requested =>
        ExceptT.mk (seeking caller ⟨raw, edits⟩ requested)).run := by
  unfold run Tool.arguments
  rw [h]
  show (Action.resolvePath raw caller.surroundings >>= _).run = _
  congr 2
  funext requested
  unfold seeking requestsOf
  split
  · rfl
  · show ((liftM (readEdits 1 edits) : Action _) >>= _).run = _
    cases readEdits 1 edits with
    | error => rfl
    | ok requests =>
      refine ask_congr fun found => ?_
      cases found <;> rfl

theorem looks_run (answers : Path → Bool → Prop) (caller : Caller) (json : Json) :
    Looks answers (Located answers caller json) (run caller json).run := by
  cases decoded : fields.decode "ApplyArgs" json with
  | error =>
    unfold run Tool.arguments
    rw [decoded]
    exact .there (.failed _)
  | ok args =>
    rw [run_of_decode caller decoded]
    refine looks_resolvePath .failed fun requested path => ?_
    show Located answers caller json (seeking caller _ requested)
    unfold seeking
    split
    next cause _ => exact .failed cause
    next requests eq =>
      have understands : understood json = .ok (args.filePath, requests) := by
        simp [understood, decoded, eq, pure, Except.pure]
      exact .found understands path

theorem Looks.question {answers answers' : Path → Bool → Prop} {caller : Caller} {json : Json}
    {rest : Steps} {q : Ask} {next : q.Reply → Steps}
    (looks : Looks answers (Located answers' caller json) rest) (asks : rest = .ask q next) :
    (∃ p, q = .present p) ∨ ∃ p, q = .realPath p := by
  cases looks with
  | there located =>
    cases located with
    | failed => cases asks
    | found => exact .inr ⟨_, (Plan.ask.inj asks).1.symm⟩
  | asks => exact .inl ⟨_, (Plan.ask.inj asks).1.symm⟩

end CodeIntel.EditFile

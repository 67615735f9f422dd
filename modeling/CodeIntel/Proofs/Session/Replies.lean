import CodeIntel.Proofs.EditFile.Progress
import CodeIntel.Proofs.Plan
import CodeIntel.Proofs.Session.FileLocks
import CodeIntel.Session.Step

namespace CodeIntel

theorem Link.outcomes_advance {α : Type} {P : α → Prop} {work : Work α} (h : work.Outcomes P)
    (link : Link) (m : Moment) (self : Holder) : (link.advance m self work).2.1.Outcomes P := by
  cases work with
  | done a => exact h
  | ask d next =>
    simp only [advance]
    split
    next reply _ => exact h reply
    next => exact h

variable {ρ : Type}

/-- However the query at hand ends, the steps that follow are as said. -/
def Activity.Ends (P : CallPlan ρ → Prop) : Activity ρ → Prop
  | .calling plan => P plan
  | .serving _ work aborted => work.Outcomes P ∧ P aborted
  | .standing _ _ _ next => ∀ reply, P (next reply)

namespace World

/-- Only the gate and what queries go to are touched. -/
structure Quiet (w w' : World ρ) : Prop where
  files : w'.files = w.files
  cwd : w'.cwd = w.cwd
  fileLocks : w'.fileLocks = w.fileLocks
  names : w'.names = w.names
  lastCall : w'.lastCall = w.lastCall
  calls : w'.calls = w.calls
  finished : w'.finished = w.finished

variable {w w' w'' : World ρ} {P : CallPlan ρ → Prop} {abortFirst gated : Bool} {c : Call ρ}

theorem Quiet.refl (w : World ρ) : Quiet w w := ⟨rfl, rfl, rfl, rfl, rfl, rfl, rfl⟩

theorem Quiet.trans (first : Quiet w w') (second : Quiet w' w'') : Quiet w w'' :=
  ⟨second.files.trans first.files, second.cwd.trans first.cwd,
    second.fileLocks.trans first.fileLocks, second.names.trans first.names,
    second.lastCall.trans first.lastCall, second.calls.trans first.calls,
    second.finished.trans first.finished⟩

theorem quiet_gate (w : World ρ) (gate : Lock) : Quiet w { w with gate := gate } :=
  ⟨rfl, rfl, rfl, rfl, rfl, rfl, rfl⟩

theorem quiet_backend (w : World ρ) (backend : Backend) : Quiet w { w with backend := backend } :=
  ⟨rfl, rfl, rfl, rfl, rfl, rfl, rfl⟩

theorem quiet_leaveGate (w : World ρ) (gated : Bool) (self : Holder) :
    Quiet w (w.leaveGate gated self) := by
  unfold leaveGate
  split
  · exact quiet_gate w _
  · exact .refl w

theorem quiet_abandon (w : World ρ) (gated : Bool) (self : Holder) :
    Quiet w (w.abandon gated self) := by
  unfold abandon
  refine .trans ?_ (quiet_leaveGate _ gated self)
  split
  · exact quiet_backend w _
  · exact .refl w

theorem outcomes_workOn (client : Client) {q : Query}
    {next : Except QueryFailure q.Reply → CallPlan ρ} (h : ∀ reply, P (next reply)) :
    (workOn client q next).Outcomes P := by
  unfold workOn
  apply Plan.outcomes_bind
  intro result
  exact h (result.mapError .server)

theorem serve_spec (w : World ρ) (gated : Bool) {q : Query}
    {next : Except QueryFailure q.Reply → CallPlan ρ} (h : ∀ reply, P (next reply)) :
    Quiet w (w.serve gated q next).1 ∧ (w.serve gated q next).2.Ends P := by
  unfold serve
  split
  · exact ⟨.refl w, outcomes_workOn _ h, h _⟩
  · exact ⟨quiet_backend w _, h⟩

/-- A query waits for its turn, or it is under way to steps that follow a reply. -/
theorem enterGate_spec (w : World ρ) (abortFirst : Bool) (c : Call ρ) {q : Query}
    {next : Except QueryFailure q.Reply → CallPlan ρ} (h : ∀ reply, P (next reply)) :
    Quiet w (w.enterGate abortFirst c q next).1 ∧
      ((w.enterGate abortFirst c q next).2.1 = .calling (.ask (.query q) next) ∨
        (w.enterGate abortFirst c q next).2.1.Ends P) := by
  unfold enterGate
  split
  · exact ⟨quiet_gate w _, .inr (h _)⟩
  · simp only
    split
    · have spec := serve_spec { w with gate := w.gate.request c.id } true h
      exact ⟨.trans (quiet_gate w _) spec.1, .inr spec.2⟩
    · split
      · exact ⟨quiet_gate w _, .inr (h _)⟩
      · exact ⟨quiet_gate w _, .inl rfl⟩

theorem stepServing_spec (w : World ρ) (abortFirst gated : Bool) (c : Call ρ)
    {work : Work (CallPlan ρ)} {aborted : CallPlan ρ} (h : work.Outcomes P) (ha : P aborted) :
    Quiet w (w.stepServing abortFirst gated c work aborted).1 ∧
      (w.stepServing abortFirst gated c work aborted).2.1.Ends P := by
  unfold stepServing
  split
  · exact ⟨quiet_abandon w _ _, ha⟩
  · split
    next plan _ => exact ⟨quiet_leaveGate w _ _, h⟩
    next link _ _ =>
      simp only
      split
      · exact ⟨quiet_abandon w _ _, ha⟩
      · exact ⟨quiet_backend w _, Link.outcomes_advance h _ _ _, ha⟩
    next => exact ⟨.refl w, h, ha⟩

theorem stepStanding_spec (w : World ρ) (abortFirst gated : Bool) (c : Call ρ) (wake : Nat)
    {q : Query} {next : Except QueryFailure q.Reply → CallPlan ρ} (h : ∀ reply, P (next reply)) :
    Quiet w (w.stepStanding abortFirst gated c wake q next).1 ∧
      (w.stepStanding abortFirst gated c wake q next).2.1.Ends P := by
  unfold stepStanding
  split
  · exact ⟨quiet_abandon w _ _, h _⟩
  · split
    · split
      · exact ⟨quiet_leaveGate w _ _, h _⟩
      · split
        · exact ⟨quiet_abandon w _ _, h _⟩
        · exact ⟨.refl w, h⟩
    · exact ⟨.refl w, h⟩

end World

end CodeIntel

namespace CodeIntel.World

open EditFile (Answers Changes Venue Truthful)

variable {ρ : Type} {w w' w'' : World ρ} {abortFirst : Bool} {c : Call ρ} {self : Holder}

/-- What a step of one call leaves as it is: the other calls, and the locks that others hold. -/
structure Frame (id : Holder) (w w' : World ρ) : Prop where
  cwd : w'.cwd = w.cwd
  lastCall : w'.lastCall = w.lastCall
  calls : w'.calls = w.calls
  finished : w'.finished = w.finished
  names : w.names ≤ w'.names
  locks : ∀ p h, h ≠ id → (w.fileLocks.lockOf p).holder = some h →
    (w'.fileLocks.lockOf p).holder = some h

theorem Quiet.frame (quiet : Quiet w w') (self : Holder) : Frame self w w' := by
  refine ⟨quiet.cwd, quiet.lastCall, quiet.calls, quiet.finished, Nat.le_of_eq quiet.names.symm, ?_⟩
  intro p h _ held
  rwa [quiet.fileLocks]

theorem frame_files (w : World ρ) (self : Holder) (files : Tree) :
    Frame self w { w with files := files } :=
  ⟨rfl, rfl, rfl, rfl, Nat.le_refl _, fun _ _ _ held => held⟩

theorem frame_request (w : World ρ) (self : Holder) (p : Path) :
    Frame self w { w with fileLocks := w.fileLocks.request p self } :=
  ⟨rfl, rfl, rfl, rfl, Nat.le_refl _, fun _ _ _ held => FileLocks.holder_request held _ _⟩

theorem frame_withdraw (w : World ρ) (self : Holder) (p : Path) :
    Frame self w { w with fileLocks := w.fileLocks.withdraw p self } :=
  ⟨rfl, rfl, rfl, rfl, Nat.le_refl _, fun _ _ ne held => FileLocks.holder_withdraw held _ ne.symm⟩

/-- The replies to questions about the files are those of the files at the time. -/
def venueOf (w : World ρ) : Venue := ⟨w.cwd, fun p => w.files.contains (w.cwd.join p), True⟩

theorem truthful_self {α : Type} (said : Except FileError α) : Truthful said said :=
  fun _ h => h

theorem changeFiles_spec {change : Tree → Except FileError Tree} {reply : Except FileError Unit}
    (h : w.changeFiles change = (w', reply)) :
    Changes (change w.files) w.files reply w'.files ∧ reply.isOk = (change w.files).isOk ∧
      w' = { w with files := w'.files } := by
  unfold changeFiles at h
  cases changed : change w.files with
  | ok files =>
    rw [changed] at h
    cases h
    exact ⟨rfl, rfl, rfl⟩
  | error cause =>
    rw [changed] at h
    cases h
    exact ⟨rfl, rfl, rfl⟩

theorem fileReply_spec {q : Ask} {reply : q.Reply} (named : String → Prop) (tripped : Bool)
    (h : w.fileReply q = some (w', reply)) :
    Answers w.venueOf named tripped w.files q reply w'.files ∧ w' = { w with files := w'.files } := by
  cases q with
  | realPath path =>
    cases h
    exact ⟨⟨truthful_self _, rfl⟩, rfl⟩
  | readText path =>
    cases h
    exact ⟨⟨truthful_self _, rfl⟩, rfl⟩
  | mode path =>
    cases h
    exact ⟨⟨truthful_self _, rfl⟩, rfl⟩
  | write path text =>
    obtain ⟨changes, -, same⟩ := changeFiles_spec (Option.some.inj h)
    exact ⟨changes, same⟩
  | setMode path mode =>
    obtain ⟨changes, -, same⟩ := changeFiles_spec (Option.some.inj h)
    exact ⟨changes, same⟩
  | remove path =>
    obtain ⟨changes, removed, same⟩ := changeFiles_spec (Option.some.inj h)
    exact ⟨⟨changes, fun _ => removed⟩, same⟩
  | rename source destination =>
    obtain ⟨changes, -, same⟩ := changeFiles_spec (Option.some.inj h)
    exact ⟨changes, same⟩
  | present => cases h
  | enterFile => cases h
  | leaveFile => cases h
  | cancelled => cases h
  | untilCancelled => cases h
  | freshName => cases h
  | query => cases h

/-- What a reply tells of the locks. -/
def Locks (self : Holder) (w w' : World ρ) : (q : Ask) → q.Reply → Prop
  | .enterFile p, entered => entered = true → (w'.fileLocks.lockOf p).holder = some self
  | .leaveFile _, _ => True
  | _, _ => w'.fileLocks = w.fileLocks

theorem enterFile_spec (w : World ρ) (abortFirst : Bool) (c : Call ρ) (p : Path) :
    Frame c.id w (w.enterFile abortFirst c p).1 ∧ (w.enterFile abortFirst c p).1.files = w.files ∧
      ((w.enterFile abortFirst c p).2 = some true →
        ((w.enterFile abortFirst c p).1.fileLocks.lockOf p).holder = some c.id) := by
  unfold enterFile
  simp only
  split
  · exact ⟨frame_withdraw w _ p, rfl, by simp⟩
  · split
    next held => exact ⟨frame_request w _ p, rfl, fun _ => FileLocks.isHeldBy_iff.mp held⟩
    next =>
      split
      · exact ⟨frame_withdraw w _ p, rfl, by simp⟩
      · exact ⟨frame_request w _ p, rfl, by simp⟩

/-- Names are given in their order. -/
def Given (w w' : World ρ) (name : String) : Prop :=
  name = nameOf w'.names ∧ w.names < w'.names

/-- What comes of a question of a call but for a query: it waits, or there is a reply. -/
def Replied (c : Call ρ) {q : Ask} (next : q.Reply → CallPlan ρ) (w w' : World ρ) :
    Activity ρ → Prop :=
  fun activity =>
    (activity = .calling (.ask q next) ∧ w'.files = w.files ∧
      ((∀ p, q ≠ .enterFile p) → w'.fileLocks = w.fileLocks)) ∨
    ∃ reply, activity = .calling (next reply) ∧ Locks c.id w w' q reply ∧
      Answers w.venueOf (Given w w') c.cancelled w.files q reply w'.files

theorem locks_of_fileReply {q : Ask} {reply : q.Reply} (h : w.fileReply q = some (w', reply))
    (same : w'.fileLocks = w.fileLocks) : Locks self w w' q reply := by
  cases q with
  | enterFile => cases h
  | leaveFile => cases h
  | _ => exact same

theorem otherReply_spec {q : Ask} {next : q.Reply → CallPlan ρ} {reply? : Option q.Reply}
    (onFiles : w.fileReply q = none)
    (h : w.otherReply abortFirst c q = (w', reply?)) :
    Frame c.id w w' ∧
      Replied c next w w' (.calling ((reply?.map next).getD (.ask q next))) := by
  cases q with
  | present path =>
    cases h
    exact ⟨(Quiet.refl w).frame _, .inr ⟨_, rfl, rfl, rfl, rfl⟩⟩
  | enterFile path =>
    obtain ⟨frame, files, held⟩ := w.enterFile_spec abortFirst c path
    have eq : w.enterFile abortFirst c path = (w', reply?) := h
    rw [eq] at frame files held
    refine ⟨frame, ?_⟩
    cases reply? with
    | none => exact .inl ⟨rfl, files, fun other => absurd rfl (other path)⟩
    | some entered =>
      refine .inr ⟨entered, rfl, fun yes => held (congrArg some yes), files⟩
  | leaveFile path =>
    cases h
    exact ⟨frame_withdraw w _ path, .inr ⟨(), rfl, trivial, rfl⟩⟩
  | cancelled =>
    cases h
    exact ⟨(Quiet.refl w).frame _, .inr ⟨_, rfl, rfl, rfl, rfl⟩⟩
  | untilCancelled =>
    cases h
    refine ⟨(Quiet.refl w).frame _, ?_⟩
    cases c.cancelled with
    | true => exact .inr ⟨(), rfl, rfl, rfl⟩
    | false => exact .inl ⟨rfl, rfl, fun _ => rfl⟩
  | freshName =>
    cases h
    refine ⟨⟨rfl, rfl, rfl, rfl, Nat.le_succ _, fun _ _ _ held => held⟩, .inr ⟨_, rfl, rfl, ?_⟩⟩
    exact ⟨⟨rfl, Nat.lt_succ_self _⟩, rfl⟩
  | query query =>
    cases h
    exact ⟨(Quiet.refl w).frame _, .inl ⟨rfl, rfl, fun _ => rfl⟩⟩
  | _ => cases onFiles

theorem stepAsking_spec (w : World ρ) (abortFirst : Bool) (c : Call ρ) {q : Ask}
    (next : q.Reply → CallPlan ρ) :
    Frame c.id w (w.stepAsking abortFirst c q next).1 ∧
      Replied c next w (w.stepAsking abortFirst c q next).1
        (w.stepAsking abortFirst c q next).2.1 := by
  unfold stepAsking
  cases onFiles : w.fileReply q with
  | some outcome =>
    obtain ⟨w', reply⟩ := outcome
    obtain ⟨answers, same⟩ := fileReply_spec (Given w w') c.cancelled onFiles
    refine ⟨same ▸ frame_files w _ _, .inr ⟨reply, rfl, ?_, answers⟩⟩
    exact locks_of_fileReply onFiles (same ▸ rfl)
  | none =>
    simp only
    cases other : w.otherReply abortFirst c q with
    | mk w' reply? =>
      have spec : _ ∧ Replied c next w w' _ := otherReply_spec onFiles other
      cases reply? with
      | none => exact spec
      | some reply => exact spec

theorem stepCalling_ask {q : Ask} (next : q.Reply → CallPlan ρ) (hq : ∀ query, q ≠ .query query) :
    w.stepCalling abortFirst c (.ask q next) = w.stepAsking abortFirst c q next := by
  cases q with
  | query query => exact absurd rfl (hq query)
  | _ => rfl

/-- What a step of a call does to the others. -/
theorem frame_stepActivity (w : World ρ) (abortFirst : Bool) (c : Call ρ) :
    Frame c.id w (w.stepActivity abortFirst c).1 := by
  unfold stepActivity
  split
  next plan _ =>
    cases plan with
    | done result => exact (Quiet.refl w).frame _
    | ask q next =>
      cases q with
      | query query =>
        exact (enterGate_spec w abortFirst c (P := fun _ => True) fun _ => trivial).1.frame _
      | _ => exact (w.stepAsking_spec abortFirst c next).1
  next gated work aborted _ =>
    exact (w.stepServing_spec abortFirst gated c work.outcomes_true trivial).1.frame _
  next gated wake q next _ =>
    exact (w.stepStanding_spec (P := fun _ => True) abortFirst gated c wake
      fun _ => trivial).1.frame _

end CodeIntel.World

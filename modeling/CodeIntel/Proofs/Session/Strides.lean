import CodeIntel.Proofs.Session.Calls

namespace CodeIntel

/-- To ask for a lock in vain and then to give it up is but to give it up. -/
theorem Lock.withdraw_request {l : Lock} {h : Holder} (vain : (l.request h).holder ≠ some h) :
    (l.request h).withdraw h = l.withdraw h := by
  unfold Lock.request at *
  split at vain
  next already => rw [if_pos already]
  next new =>
    rw [if_neg new]
    have apart := mt Lock.involves_iff.mpr new
    obtain ⟨_ | other, waiting⟩ := l
    · exact absurd rfl vain
    · simp_all [Lock.withdraw, List.erase_append_right, List.erase_of_not_mem]

/-- Whether a question has to do neither with the locks of files nor with the gate. -/
def Ask.Free : Ask → Prop
  | .enterFile _ | .leaveFile _ | .query _ => False
  | _ => True

/-- A lock that calls share. -/
inductive SharedLock
  | gate
  | file (path : Path)
deriving DecidableEq

namespace Activity

variable {ρ : Type}

/-- The lock that a call waits for, or is about to ask for. -/
def wants? : Activity ρ → Option SharedLock
  | .calling (.ask (.query _) _) => some .gate
  | .calling (.ask (.enterFile p) _) => some (.file p)
  | _ => none

/-- Whether a query is under way, and if so, whether it is one that has the gate. -/
def gated? : Activity ρ → Option Bool
  | .calling _ => none
  | .serving gated _ _ => some gated
  | .standing gated _ _ _ => some gated

/-- A query of the call is under way. -/
def InFlight (a : Activity ρ) : Prop := a.gated?.isSome

variable {q : Ask} {next : q.Reply → CallPlan ρ} {a : Activity ρ} {p : Path}

theorem wants?_eq_gate (h : a.wants? = some .gate) :
    ∃ q next, a = .calling (.ask (.query q) next) := by
  unfold wants? at h
  split at h
  next q next => exact ⟨q, next, rfl⟩
  next => cases h
  next => cases h

theorem wants?_eq_file (h : a.wants? = some (.file p)) :
    ∃ next, a = .calling (.ask (.enterFile p) next) := by
  unfold wants? at h
  split at h
  next => cases h
  next next =>
    cases h
    exact ⟨next, rfl⟩
  next => cases h

theorem wants?_of_free (free : q.Free) : (Activity.calling (.ask q next)).wants? = none := by
  cases q with
  | query | enterFile | leaveFile => cases free
  | _ => rfl

theorem not_inFlight_calling (plan : CallPlan ρ) : ¬ (Activity.calling plan).InFlight :=
  Bool.false_ne_true

/-- While its query is under way, a call asks for no lock. -/
theorem InFlight.wants?_eq_none (flight : a.InFlight) : a.wants? = none := by
  cases a with
  | calling plan => exact absurd flight (not_inFlight_calling plan)
  | serving | standing => rfl

end Activity

namespace World

variable {ρ : Type} {w w' : World ρ} {abortFirst : Bool} {c : Call ρ} {after : Activity ρ}
  {progress : Progress}

/-- What a step of a call comes to, as far as others can tell: what becomes of the gate, of the locks
of files and of what the call is at. -/
inductive Stride (w : World ρ) (abortFirst : Bool) (c : Call ρ) : Stepped ρ → Prop
  | rests (free : ∀ q next, c.activity = .calling (.ask q next) → q.Free) :
      Stride w abortFirst c (w, c.activity, .blocked)
  | replied {q : Ask} {next : q.Reply → CallPlan ρ} {reply : q.Reply} {w' : World ρ}
      {progress : Progress} (activity : c.activity = .calling (.ask q next)) (free : q.Free)
      (gate : w'.gate = w.gate) (fileLocks : w'.fileLocks = w.fileLocks)
      (moved : progress ≠ .blocked) :
      Stride w abortFirst c (w', .calling (next reply), progress)
  | getsFile {p : Path} {next : Bool → CallPlan ρ}
      (activity : c.activity = .calling (.ask (.enterFile p) next))
      (held : ((w.fileLocks.request p c.id).lockOf p).holder = some c.id) :
      Stride w abortFirst c
        ({ w with fileLocks := w.fileLocks.request p c.id }, .calling (next true), .moved)
  | awaitsFile {p : Path} {next : Bool → CallPlan ρ}
      (activity : c.activity = .calling (.ask (.enterFile p) next))
      (other : ((w.fileLocks.request p c.id).lockOf p).holder ≠ some c.id) :
      Stride w abortFirst c
        ({ w with fileLocks := w.fileLocks.request p c.id }, c.activity, .blocked)
  | forgoesFile {p : Path} {next : Bool → CallPlan ρ}
      (activity : c.activity = .calling (.ask (.enterFile p) next)) (tripped : c.cancelled = true) :
      Stride w abortFirst c
        ({ w with fileLocks := w.fileLocks.withdraw p c.id }, .calling (next false), .moved)
  | leavesFile {p : Path} {next : Unit → CallPlan ρ}
      (activity : c.activity = .calling (.ask (.leaveFile p) next)) :
      Stride w abortFirst c
        ({ w with fileLocks := w.fileLocks.withdraw p c.id }, .calling (next ()), .moved)
  | begins {q : Query} {next : Except QueryFailure q.Reply → CallPlan ρ} {w' : World ρ}
      {after : Activity ρ} (activity : c.activity = .calling (.ask (.query q) next))
      (held : (w.gate.request c.id).holder = some c.id) (late : c.cancelled = true → abortFirst = false)
      (gate : w'.gate = w.gate.request c.id) (fileLocks : w'.fileLocks = w.fileLocks)
      (gated : after.gated? = some true)
      (leads : ∀ P : CallPlan ρ → Prop, (∀ reply, P (next reply)) → after.Ends P) :
      Stride w abortFirst c (w', after, .moved)
  | awaitsGate {q : Query} {next : Except QueryFailure q.Reply → CallPlan ρ}
      (activity : c.activity = .calling (.ask (.query q) next)) (going : c.cancelled = false)
      (other : (w.gate.request c.id).holder ≠ some c.id) :
      Stride w abortFirst c ({ w with gate := w.gate.request c.id }, c.activity, .blocked)
  | refused {q : Query} {next : Except QueryFailure q.Reply → CallPlan ρ}
      (activity : c.activity = .calling (.ask (.query q) next)) (tripped : c.cancelled = true) :
      Stride w abortFirst c
        ({ w with gate := w.gate.withdraw c.id }, .calling (next (.error .cancelled)), .moved)
  | works {gated : Bool} {w' : World ρ} {after : Activity ρ} {progress : Progress}
      (under : c.activity.gated? = some gated) (gate : w'.gate = w.gate)
      (fileLocks : w'.fileLocks = w.fileLocks) (same : after.gated? = some gated)
      (leads : ∀ P : CallPlan ρ → Prop, c.activity.Ends P → after.Ends P) :
      Stride w abortFirst c (w', after, progress)
  | ends {gated : Bool} {w' : World ρ} {plan : CallPlan ρ} (under : c.activity.gated? = some gated)
      (gate : w'.gate = (w.leaveGate gated c.id).gate) (fileLocks : w'.fileLocks = w.fileLocks)
      (leads : ∀ P : CallPlan ρ → Prop, c.activity.Ends P → P plan) :
      Stride w abortFirst c (w', .calling plan, .moved)

theorem gate_abandon (w : World ρ) (gated : Bool) (self : Holder) :
    (w.abandon gated self).gate = (w.leaveGate gated self).gate := by
  unfold abandon leaveGate
  split <;> split <;> rfl

theorem gated?_serve (w : World ρ) (gated : Bool) (q : Query)
    (next : Except QueryFailure q.Reply → CallPlan ρ) :
    (w.serve gated q next).1.gate = w.gate ∧ (w.serve gated q next).2.gated? = some gated := by
  unfold serve
  split <;> exact ⟨rfl, rfl⟩

theorem enterFile_cases (w : World ρ) (abortFirst : Bool) (c : Call ρ) (p : Path) :
    (c.cancelled = true ∧ w.enterFile abortFirst c p =
      ({ w with fileLocks := w.fileLocks.withdraw p c.id }, some false)) ∨
    (((w.fileLocks.request p c.id).lockOf p).holder = some c.id ∧ w.enterFile abortFirst c p =
      ({ w with fileLocks := w.fileLocks.request p c.id }, some true)) ∨
    (((w.fileLocks.request p c.id).lockOf p).holder ≠ some c.id ∧ w.enterFile abortFirst c p =
      ({ w with fileLocks := w.fileLocks.request p c.id }, none)) := by
  unfold enterFile
  simp only [ne_eq, ← FileLocks.isHeldBy_iff]
  split
  next tripped => exact .inl ⟨(Bool.and_eq_true_iff.mp tripped).1, rfl⟩
  · split
    next held => exact .inr (.inl ⟨held, rfl⟩)
    next other =>
      split
      next tripped => exact .inl ⟨tripped, rfl⟩
      · exact .inr (.inr ⟨other, rfl⟩)

theorem stride_enterFile {p : Path} {next : Bool → CallPlan ρ}
    (activity : c.activity = .calling (.ask (.enterFile p) next)) (abortFirst : Bool) :
    Stride w abortFirst c (w.stepAsking abortFirst c (.enterFile p) next) := by
  simp only [stepAsking, fileReply, otherReply]
  obtain ⟨tripped, eq⟩ | ⟨held, eq⟩ | ⟨other, eq⟩ := w.enterFile_cases abortFirst c p
  · rw [eq]
    exact .forgoesFile activity tripped
  · rw [eq]
    exact .getsFile activity held
  · rw [eq]
    simpa only [activity] using Stride.awaitsFile activity other

theorem stride_stepAsking {q : Ask} {next : q.Reply → CallPlan ρ}
    (activity : c.activity = .calling (.ask q next)) (other : ∀ query, q ≠ .query query)
    (abortFirst : Bool) :
    Stride w abortFirst c (w.stepAsking abortFirst c q next) := by
  cases onFiles : w.fileReply q with
  | some outcome =>
    obtain ⟨w', reply⟩ := outcome
    have same := (fileReply_spec (Given w w') c.cancelled onFiles).2
    have free : q.Free := by cases q <;> trivial
    simp only [stepAsking, onFiles]
    exact .replied activity free (same ▸ rfl) (same ▸ rfl) nofun
  | none =>
    simp only [stepAsking, onFiles]
    cases q with
    | enterFile p =>
      simpa only [stepAsking, onFiles] using stride_enterFile (w := w) activity abortFirst
    | leaveFile p => exact .leavesFile activity
    | query query => exact absurd rfl (other query)
    | untilCancelled =>
      simp only [otherReply]
      cases c.cancelled with
      | true => exact .replied activity trivial rfl rfl nofun
      | false =>
        refine cast (congrArg (fun a => Stride w abortFirst c (w, a, .blocked)) activity) (.rests ?_)
        intro q next' asks
        cases activity.symm.trans asks
        trivial
    | present | cancelled | freshName => exact .replied activity trivial rfl rfl nofun
    | _ => cases onFiles

theorem stride_enterGate {q : Query} {next : Except QueryFailure q.Reply → CallPlan ρ}
    (activity : c.activity = .calling (.ask (.query q) next)) (abortFirst : Bool) :
    Stride w abortFirst c (w.enterGate abortFirst c q next) := by
  unfold enterGate
  split
  next tripped => exact .refused activity (Bool.and_eq_true_iff.mp tripped).1
  next late =>
    simp only
    split
    next held =>
      have gate := gated?_serve { w with gate := w.gate.request c.id } true q next
      refine .begins activity held ?_ gate.1 ?_ gate.2 fun P h => ?_
      · intro tripped
        simpa [tripped] using late
      · exact (serve_spec (P := fun _ => True)
          { w with gate := w.gate.request c.id } true (fun _ => trivial)).1.fileLocks
      · exact (serve_spec { w with gate := w.gate.request c.id } true h).2
    next vain =>
      split
      next tripped =>
        simp only [giveUp, Lock.withdraw_request vain]
        exact .refused activity tripped
      next going =>
        simpa only [activity] using Stride.awaitsGate activity (by simpa using going) vain

theorem stride_stepServing {gated : Bool} {work : Work (CallPlan ρ)} {aborted : CallPlan ρ}
    (activity : c.activity = .serving gated work aborted) (abortFirst : Bool) :
    Stride w abortFirst c (w.stepServing abortFirst gated c work aborted) := by
  have under : c.activity.gated? = some gated := by rw [activity]; rfl
  have abandons : Stride w abortFirst c (w.abandon gated c.id, .calling aborted, .moved) := by
    refine .ends under (gate_abandon ..) (quiet_abandon w _ _).fileLocks fun P h => ?_
    rw [activity] at h
    exact h.2
  unfold stepServing
  split
  · exact abandons
  · split
    next plan _ =>
      refine .ends under rfl (quiet_leaveGate w _ _).fileLocks fun P h => ?_
      rw [activity] at h
      exact h.1
    next link _ _ =>
      simp only
      split
      · exact abandons
      · refine .works under rfl rfl rfl fun P h => ?_
        rw [activity] at h
        exact ⟨Link.outcomes_advance h.1 _ _ _, h.2⟩
    next => exact .works under rfl rfl rfl fun P h => by rwa [activity] at h

theorem stride_stepStanding {gated : Bool} {wake : Nat} {q : Query}
    {next : Except QueryFailure q.Reply → CallPlan ρ}
    (activity : c.activity = .standing gated wake q next) (abortFirst : Bool) :
    Stride w abortFirst c (w.stepStanding abortFirst gated c wake q next) := by
  have under : c.activity.gated? = some gated := by rw [activity]; rfl
  have leads (reply) (P : CallPlan ρ → Prop) (h : c.activity.Ends P) : P (next reply) := by
    rw [activity] at h
    exact h reply
  have abandons : Stride w abortFirst c
      (w.abandon gated c.id, .calling (next (.error .cancelled)), .moved) :=
    .ends under (gate_abandon ..) (quiet_abandon w _ _).fileLocks (leads _)
  have goes : Stride w abortFirst c (w, .standing gated wake q next, .blocked) :=
    .works under rfl rfl rfl fun P h => by rwa [activity] at h
  unfold stepStanding
  split
  · exact abandons
  · split
    · split
      · exact .ends under rfl (quiet_leaveGate w _ _).fileLocks (leads _)
      · split
        · exact abandons
        · exact goes
    · exact goes

theorem stride_stepActivity (w : World ρ) (abortFirst : Bool) (c : Call ρ) :
    Stride w abortFirst c (w.stepActivity abortFirst c) := by
  unfold stepActivity
  split
  next plan activity =>
    cases plan with
    | done result =>
      rw [stepCalling, ← activity]
      exact .rests fun q next asks => nomatch activity.symm.trans asks
    | ask q next =>
      by_cases hq : ∃ query, q = .query query
      · obtain ⟨query, rfl⟩ := hq
        exact stride_enterGate activity abortFirst
      · have other : ∀ query, q ≠ .query query := fun query eq => hq ⟨query, eq⟩
        rw [stepCalling_ask next other]
        exact stride_stepAsking activity other abortFirst
  next activity => exact stride_stepServing activity abortFirst
  next activity => exact stride_stepStanding activity abortFirst

end World

end CodeIntel

import CodeIntel.Client.Query
import CodeIntel.Proofs.Link.Table
import CodeIntel.Proofs.Publications.Press
import Mathlib.Logic.Relation

namespace CodeIntel

open Client

/-- A wait for the diagnostics of a document, among all that happens on its connection. -/
structure Vigil where
  link : Link
  now : Nat
  work : Work (Except ServerError (Option (List Diagnostic)))
  /-- The publications that have arrived. -/
  arrived : List Publication
  /-- How many of them had arrived when the text of the document was sent, as it was looked up. -/
  synced : Nat
  start? : Option Nat
  /-- How many steps the wait itself has taken. -/
  turns : Nat

namespace Vigil

def begin (client : Client) (path : Path) (room now : Nat) : Vigil :=
  ⟨.fresh room, now, (client.publishedDiagnostics path).run, [], 0, none, 0⟩

/-- What is learned of the sending of the text with the next step of the wait. -/
def syncedNext (v : Vigil) : Nat :=
  match v.work with
  | .ask (.document path) _ => ((v.link.documents.get? path).map Document.arrivals).getD 0
  | _ => v.synced

def startNext? (v : Vigil) : Option Nat :=
  match v.work with
  | .ask .now _ => some v.now
  | _ => v.start?

def turn (v : Vigil) (m : Moment) (self : Holder) : Vigil :=
  { v with
    link := (v.link.advance m self v.work).1
    work := (v.link.advance m self v.work).2.1
    synced := v.syncedNext
    start? := v.startNext?
    turns := v.turns + 1 }

/-- A notification is looked at. -/
def notice (v : Vigil) : Vigil :=
  { v with
    link := v.link.noticeStep.1
    arrived := v.arrived ++ (v.link.notices.head?.bind Publication.ofNotice?).toList }

/-- What may happen until the wait is over. -/
inductive Step (self : Holder) : Vigil → Vigil → Prop
  | turn {v : Vigil} {d : Deed} {next} (under : v.work = .ask d next) (m : Moment)
      (now : m.now = v.now) : Step self v (v.turn m self)
  | notice {v : Vigil} {d : Deed} {next} (under : v.work = .ask d next) : Step self v v.notice
  /-- Time passes, and whatever else is done with the connection. -/
  | other {v : Vigil} {d : Deed} {next} (under : v.work = .ask d next) {link : Link} {now : Nat}
      (same : link.publications = v.link.publications) (later : v.now ≤ now) :
      Step self v { v with link := link, now := now }

/-- What may become of a wait. -/
abbrev Later (self : Holder) : Vigil → Vigil → Prop := Relation.ReflTransGen (Step self)

/-- How far a wait has come. -/
inductive Stage
  | entering
  | lookingUp
  | leaving
  | starting
  | looping (rounds : Nat)
  /-- It knows how many publications had arrived. -/
  | counted (rounds seen : Nat)
  /-- It waits for more than those that it has seen. -/
  | watching (rounds seen : Nat) (latest : Option (Nat × List Diagnostic))
  | ended (result : Except ServerError (Option (List Diagnostic)))

namespace Stage

section

variable (client : Client) (path : Path)

def workLooping (synced start rounds : Nat) :=
  (awaitPublished path synced (start + client.config.diagnosticsWaitMs) rounds).run

def workWatching (synced start rounds seen : Nat) (latest : Option (Nat × List Diagnostic)) :
    Work (Except ServerError (Option (List Diagnostic))) :=
  .ask (.update seen (start + client.config.diagnosticsWaitMs)) fun more =>
    if more then workLooping client path synced start rounds else .done (.ok (latest.map Prod.snd))

def workCounted (synced start rounds seen : Nat) :
    Work (Except ServerError (Option (List Diagnostic))) :=
  .ask (.published path) fun latest =>
    match newerThan synced latest with
    | some diagnostics => .done (.ok (some diagnostics))
    | none => workWatching client path synced start rounds seen latest

def workStarting (synced : Nat) : Work (Except ServerError (Option (List Diagnostic))) :=
  .ask .now fun start => workLooping client path synced start greatestArrivals

def workLeaving (synced : Nat) : Work (Except ServerError (Option (List Diagnostic))) :=
  .ask .leaveDocuments fun _ => workStarting client path synced

def workLookingUp : Work (Except ServerError (Option (List Diagnostic))) :=
  .ask (.document path) fun known =>
    workLeaving client path ((known.map Document.arrivals).getD 0)

/-- What is left to do. -/
def work (synced start : Nat) : Stage → Work (Except ServerError (Option (List Diagnostic)))
  | entering => .ask .enterDocuments fun _ => workLookingUp client path
  | lookingUp => workLookingUp client path
  | leaving => workLeaving client path synced
  | starting => workStarting client path synced
  | looping rounds => workLooping client path synced start rounds
  | counted rounds seen => workCounted client path synced start rounds seen
  | watching rounds seen latest => workWatching client path synced start rounds seen latest
  | ended result => .done result

theorem publishedDiagnostics_run :
    (client.publishedDiagnostics path).run = entering.work client path 0 0 := rfl

end

end Stage

/-- How a wait ends: with the newest report for the path if that came after the text was sent, and
else at the deadline, with the newest if there is any. -/
inductive Ends (client : Client) (path : Path) (v : Vigil) :
    Except ServerError (Option (List Diagnostic)) → Prop
  | fresh {n : Nat} {diagnostics : List Diagnostic}
      (newest : Newest path v.arrived (some (n, diagnostics))) (new : v.synced < n) :
      Ends client path v (.ok (some diagnostics))
  | late {start : Nat} {newest? : Option (Nat × List Diagnostic)} (begun : v.start? = some start)
      (late : start + client.config.diagnosticsWaitMs ≤ v.now)
      (newest : Newest path v.arrived newest?) (old : newerThan v.synced newest? = none) :
      Ends client path v (.ok (newest?.map Prod.snd))

namespace Stage

/-- What a wait has seen when it has come so far. -/
def Fits (client : Client) (path : Path) (v : Vigil) : Stage → Prop
  | entering | lookingUp | leaving | starting => v.start? = none
  | looping rounds => v.start?.isSome ∧ greatestArrivals ≤ rounds + v.arrived.length
  | counted rounds seen =>
    v.start?.isSome ∧ greatestArrivals ≤ rounds + 1 + seen ∧ seen ≤ v.arrived.length
  | watching rounds seen latest =>
    v.start?.isSome ∧ greatestArrivals ≤ rounds + 1 + seen ∧
      ∃ before, before <+: v.arrived ∧ seen ≤ before.length ∧ Newest path before latest ∧
        newerThan v.synced latest = none
  | ended result => Ends client path v result

/-- What the next step of the wait leads to. -/
def next (self : Holder) (client : Client) (path : Path) (v : Vigil) : Stage → Stage
  | entering =>
    if (v.link.documentsLock.request self).holder = some self then lookingUp else entering
  | lookingUp => leaving
  | leaving => starting
  | starting => looping greatestArrivals
  | looping 0 => ended (.ok none)
  | looping (rounds + 1) => counted rounds v.link.publications.count
  | counted rounds seen =>
    match newerThan v.synced (v.link.publications.latest.get? path) with
    | some diagnostics => ended (.ok (some diagnostics))
    | none => watching rounds seen (v.link.publications.latest.get? path)
  | watching rounds seen latest =>
    if seen < v.link.publications.count then looping rounds
    else if v.start?.getD 0 + client.config.diagnosticsWaitMs ≤ v.now then
      ended (.ok (latest.map Prod.snd))
    else watching rounds seen latest
  | ended result => ended result

end Stage

structure Stands (client : Client) (path : Path) (v : Vigil) (s : Stage) : Prop where
  recorded : v.link.publications = .record v.arrived
  work : v.work = s.work client path v.synced (v.start?.getD 0)
  fits : s.Fits client path v

variable {client : Client} {path : Path} {self : Holder} {v v' : Vigil} {s : Stage} {m : Moment}

theorem work_turn (stands : v.Stands client path s) (now : m.now = v.now) :
    (v.turn m self).work = (s.next self client path v).work client path (v.turn m self).synced
      ((v.turn m self).start?.getD 0) := by
  unfold turn syncedNext startNext?
  rw [stands.work]
  cases s with
  | entering =>
    simp only [Stage.work, Stage.next, Link.advance, Link.perform]
    split <;> simp_all
  | lookingUp => rfl
  | leaving => rfl
  | starting =>
    rw [← now]
    rfl
  | looping rounds => cases rounds <;> rfl
  | counted rounds seen =>
    change (match newerThan v.synced (v.link.publications.latest.get? path) with
      | some diagnostics => _
      | none => _) = _
    unfold Stage.next
    split <;> rfl
  | watching rounds seen latest =>
    change (v.link.advance m self (Stage.workWatching ..)).2.1 = _
    unfold Stage.workWatching Stage.next
    rw [(Link.advance_ask ..).2, Link.perform_update, now]
    by_cases more : seen < v.link.publications.count
    · simp only [if_pos more]
      rfl
    · simp only [if_neg more]
      by_cases late : v.start?.getD 0 + client.config.diagnosticsWaitMs ≤ v.now
      · simp only [if_pos late]
        rfl
      · simp only [if_neg late]
        rfl
  | ended result => rfl

theorem newerThan_eq_some_iff {synced : Nat} {latest : Option (Nat × List Diagnostic)}
    {diagnostics : List Diagnostic} :
    newerThan synced latest = some diagnostics ↔
      ∃ n, latest = some (n, diagnostics) ∧ synced < n := by
  unfold newerThan
  split
  next n found =>
    by_cases new : synced < n
    · simp [new]
    · simp [new]
  next => simp

theorem publications_perform (link : Link) (m : Moment) (self : Holder) (d : Deed) :
    (link.perform m self d).1.publications = link.publications := by
  cases d with
  | await n deadline =>
    rw [Link.perform_await]
    split
    · rfl
    · split <;> rfl
  | update seen deadline =>
    rw [Link.perform_update]
    split <;> rfl
  | write bytes =>
    change (link.write bytes).1.publications = _
    unfold Link.write
    split <;> rfl
  | _ => rfl

theorem publications_advance {α : Type} (link : Link) (m : Moment) (self : Holder) (work : Work α) :
    (link.advance m self work).1.publications = link.publications := by
  cases work with
  | done a => rfl
  | ask d next => rw [(Link.advance_ask ..).1, publications_perform]

theorem syncedNext_of_ne (work : v.work = s.work client path v.synced (v.start?.getD 0))
    (ne : s ≠ .lookingUp) : v.syncedNext = v.synced := by
  unfold syncedNext
  rw [work]
  cases s with
  | lookingUp => exact absurd rfl ne
  | looping rounds => cases rounds <;> rfl
  | _ => rfl

theorem startNext?_of_ne (work : v.work = s.work client path v.synced (v.start?.getD 0))
    (ne : s ≠ .starting) : v.startNext? = v.start? := by
  unfold startNext?
  rw [work]
  cases s with
  | starting => exact absurd rfl ne
  | looping rounds => cases rounds <;> rfl
  | _ => rfl

theorem ends_congr {result : Except ServerError (Option (List Diagnostic))}
    (ends : Ends client path v result) (arrived : v'.arrived = v.arrived)
    (synced : v'.synced = v.synced) (start? : v'.start? = v.start?) (now : v'.now = v.now) :
    Ends client path v' result := by
  cases ends with
  | fresh newest new => exact .fresh (arrived ▸ newest) (synced ▸ new)
  | late begun late newest old =>
    exact .late (start? ▸ begun) (now ▸ late) (arrived ▸ newest) (synced ▸ old)

theorem fits_congr (fits : s.Fits client path v) (arrived : v'.arrived = v.arrived)
    (synced : v'.synced = v.synced) (start? : v'.start? = v.start?) (now : v'.now = v.now) :
    s.Fits client path v' := by
  cases s with
  | ended result => exact ends_congr fits arrived synced start? now
  | _ => simpa only [Stage.Fits, arrived, synced, start?] using fits

/-- What the wait has seen once it looks at what has arrived. -/
theorem fits_next (stands : v.Stands client path s) (few : v.arrived.length < greatestArrivals)
    (begun : v.start?.isSome) : (s.next self client path v).Fits client path v := by
  have fits := stands.fits
  have count : v.link.publications.count = v.arrived.length := by
    rw [stands.recorded, Publications.count_record]
  cases s with
  | looping rounds =>
    cases rounds with
    | zero =>
      have enough := fits.2
      omega
    | succ rounds => exact ⟨begun, by rw [count]; exact fits.2, Nat.le_of_eq count⟩
  | counted rounds seen =>
    obtain ⟨_, enough, known⟩ := fits
    have newest : Newest path v.arrived (v.link.publications.latest.get? path) :=
      stands.recorded ▸ Publications.newest_record path v.arrived
    simp only [Stage.next]
    split
    next diagnostics fresh =>
      obtain ⟨n, eq, new⟩ := newerThan_eq_some_iff.mp fresh
      exact Ends.fresh (eq ▸ newest) new
    next old => exact ⟨begun, enough, v.arrived, List.prefix_rfl, known, newest, old⟩
  | watching rounds seen latest =>
    obtain ⟨_, enough, before, isPrefix, known, newest, old⟩ := fits
    simp only [Stage.next]
    split
    next more => exact ⟨begun, by omega⟩
    next all =>
      split
      next late =>
        obtain ⟨start, eq⟩ := Option.isSome_iff_exists.mp begun
        have shorter := isPrefix.length_le
        obtain rfl : before = v.arrived := isPrefix.eq_of_length (by omega)
        rw [eq] at late
        exact Ends.late eq late newest old
      next => exact ⟨begun, enough, before, isPrefix, known, newest, old⟩
  | ended result => exact fits
  | _ => cases begun.symm.trans (congrArg Option.isSome fits)

theorem Stands.turn (stands : v.Stands client path s) (now : m.now = v.now)
    (few : v.arrived.length < greatestArrivals) :
    (v.turn m self).Stands client path (s.next self client path v) := by
  have recorded : (v.turn m self).link.publications = .record v.arrived :=
    (publications_advance ..).trans stands.recorded
  refine ⟨recorded, work_turn stands now, ?_⟩
  have fits := stands.fits
  have start? (ne : s ≠ .starting) : (v.turn m self).start? = v.start? :=
    startNext?_of_ne stands.work ne
  have looks (begun : v.start?.isSome) (up : s ≠ .lookingUp) (start : s ≠ .starting) :
      (s.next self client path v).Fits client path (v.turn m self) :=
    fits_congr (fits_next stands few begun) rfl (syncedNext_of_ne stands.work up) (start? start) rfl
  cases s with
  | entering =>
    simp only [Stage.next]
    split <;> exact (start? nofun).trans fits
  | lookingUp => exact (start? nofun).trans fits
  | leaving => exact (start? nofun).trans fits
  | starting =>
    have begins : v.startNext? = some v.now := by
      unfold startNext?
      rw [stands.work]
      rfl
    exact ⟨congrArg Option.isSome begins, Nat.le_add_right _ _⟩
  | looping rounds => exact looks fits.1 nofun nofun
  | counted rounds seen => exact looks fits.1 nofun nofun
  | watching rounds seen latest => exact looks fits.1 nofun nofun
  | ended result =>
    exact ends_congr fits rfl (syncedNext_of_ne stands.work nofun) (start? nofun) rfl

theorem ne_ended {d : Deed} {next : d.Reply → Work (Except ServerError (Option (List Diagnostic)))}
    (stands : v.Stands client path s) (under : v.work = .ask d next) (result) :
    s ≠ .ended result := by
  rintro rfl
  cases under.symm.trans stands.work

/-- What has been seen does not change when more arrives or time passes. -/
theorem fits_later (fits : s.Fits client path v) (under : ∀ result, s ≠ .ended result)
    (arrived : v.arrived <+: v'.arrived) (synced : v'.synced = v.synced)
    (start? : v'.start? = v.start?) : s.Fits client path v' := by
  have longer := arrived.length_le
  cases s with
  | looping rounds => exact ⟨start? ▸ fits.1, by have := fits.2; omega⟩
  | counted rounds seen =>
    obtain ⟨begun, enough, known⟩ := fits
    exact ⟨start? ▸ begun, enough, Nat.le_trans known longer⟩
  | watching rounds seen latest =>
    obtain ⟨begun, enough, before, isPrefix, known, newest, old⟩ := fits
    exact ⟨start? ▸ begun, enough, before, isPrefix.trans arrived, known, newest, synced ▸ old⟩
  | ended result => exact absurd rfl (under result)
  | _ => exact start?.trans fits

theorem recorded_notice (recorded : v.link.publications = .record v.arrived) :
    v.notice.link.publications = .record v.notice.arrived := by
  unfold notice Link.noticeStep
  cases v.link.notices with
  | nil => simpa using recorded
  | cons first rest =>
    obtain ⟨method, params⟩ := first
    change v.link.publications.receive method params = _
    rw [recorded]
    exact Publications.receive_record v.arrived (method, params)

theorem arrived_step (step : Step self v v') : v.arrived <+: v'.arrived := by
  cases step with
  | turn => exact List.prefix_rfl
  | notice => exact List.prefix_append _ _
  | other => exact List.prefix_rfl

theorem Stands.step (stands : v.Stands client path s) (step : Step self v v')
    (few : v.arrived.length < greatestArrivals) : ∃ s', v'.Stands client path s' := by
  cases step with
  | turn under m now => exact ⟨_, stands.turn now few⟩
  | notice under =>
    refine ⟨s, recorded_notice stands.recorded, stands.work, ?_⟩
    exact fits_later stands.fits (ne_ended stands under) (List.prefix_append _ _) rfl rfl
  | other under same later =>
    refine ⟨s, same.trans stands.recorded, stands.work, ?_⟩
    exact fits_later stands.fits (ne_ended stands under) List.prefix_rfl rfl rfl

theorem stands_begin (client : Client) (path : Path) (room now : Nat) :
    (begin client path room now).Stands client path .entering :=
  ⟨rfl, Stage.publishedDiagnostics_run client path, rfl⟩

theorem stands_later (later : Later self v v') (few : v'.arrived.length < greatestArrivals)
    (stands : v.Stands client path s) : ∃ s', v'.Stands client path s' := by
  induction later with
  | refl => exact ⟨s, stands⟩
  | tail _ step ih =>
    have longer := (arrived_step step).length_le
    obtain ⟨s', stands'⟩ := ih (Nat.lt_of_le_of_lt longer few)
    exact stands'.step step (Nat.lt_of_le_of_lt longer few)

end Vigil

end CodeIntel

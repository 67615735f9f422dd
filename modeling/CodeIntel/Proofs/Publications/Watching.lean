import CodeIntel.Proofs.Basic
import CodeIntel.Proofs.Publications.Vigil

namespace CodeIntel

open Client

namespace Vigil

variable {client : Client} {path : Path} {self : Holder} {v v' : Vigil} {s : Stage}

/-- A report for the path that came after the text was sent is stored. -/
def HasNews (path : Path) (v : Vigil) : Prop :=
  ∃ before x after, v.arrived = before ++ x :: after ∧ x.path.same path = true ∧
    v.synced ≤ before.length

theorem HasNews.newest (news : v.HasNews path) {newest? : Option (Nat × List Diagnostic)}
    (newest : Newest path v.arrived newest?) : newerThan v.synced newest? ≠ none := by
  obtain ⟨before, x, after, eq, here, late⟩ := news
  obtain ⟨n, diagnostics, rfl, number⟩ := (eq ▸ newest).exists_of_mem here
  have new : v.synced < n := by omega
  simp [newerThan, new]

namespace Stage

/-- How many steps the wait takes at the most once there is a report to return. -/
def toNews : Stage → Nat
  | ended _ => 0
  | counted .. => 1
  | looping _ => 2
  | _ => 3

/-- How many steps the wait takes at the most after the deadline, if no more arrives. -/
def toEnd (count : Nat) : Stage → Nat
  | ended _ => 0
  | watching _ seen _ => if seen < count then 4 else 1
  | counted _ seen => if seen < count then 5 else 2
  | _ => 3

theorem toNews_le (s : Stage) : s.toNews ≤ 3 := by cases s <;> simp [toNews]

theorem toEnd_le (count : Nat) (s : Stage) : s.toEnd count ≤ 5 := by
  unfold toEnd
  split <;> try split
  all_goals omega

theorem toEnd_add (count more : Nat) (s : Stage) :
    s.toEnd (count + more) ≤ s.toEnd count + 3 * more := by
  cases more with
  | zero => exact Nat.le_refl _
  | succ more =>
    unfold toEnd
    split <;> try (split <;> split)
    all_goals omega

theorem ended_of_toNews (s : Stage) (none : s.toNews = 0) : ∃ result, s = ended result := by
  cases s with
  | ended result => exact ⟨result, rfl⟩
  | _ => cases none

theorem ended_of_toEnd (count : Nat) (s : Stage) (none : s.toEnd count = 0) :
    ∃ result, s = ended result := by
  unfold toEnd at none
  split at none
  · exact ⟨_, rfl⟩
  · split at none <;> omega
  · split at none <;> omega
  · omega

end Stage

theorem toNews_next (self : Holder) (stands : v.Stands client path s) (begun : v.start?.isSome)
    (news : v.HasNews path) (under : ∀ result, s ≠ .ended result) :
    (s.next self client path v).toNews < s.toNews := by
  have fits := stands.fits
  cases s with
  | looping rounds => cases rounds <;> simp [Stage.next, Stage.toNews]
  | counted rounds seen =>
    have newest : Newest path v.arrived (v.link.publications.latest.get? path) :=
      stands.recorded ▸ Publications.newest_record path v.arrived
    obtain ⟨diagnostics, fresh⟩ := Option.ne_none_iff_exists'.mp (news.newest newest)
    simp [Stage.next, Stage.toNews, fresh]
  | watching rounds seen latest =>
    obtain ⟨_, _, before, isPrefix, known, newest, old⟩ := fits
    have more : seen < v.link.publications.count := by
      rw [stands.recorded, Publications.count_record]
      refine Nat.lt_of_not_le fun all => news.newest ?_ old
      have shorter := isPrefix.length_le
      exact isPrefix.eq_of_length (by omega) ▸ newest
    simp [Stage.next, Stage.toNews, more]
  | ended result => exact absurd rfl (under result)
  | _ => cases begun.symm.trans (congrArg Option.isSome fits)

theorem toEnd_next (self : Holder) (stands : v.Stands client path s) {start : Nat}
    (begun : v.start? = some start) (late : start + client.config.diagnosticsWaitMs ≤ v.now)
    (under : ∀ result, s ≠ .ended result) :
    (s.next self client path v).toEnd v.arrived.length < s.toEnd v.arrived.length := by
  have fits := stands.fits
  have count : v.link.publications.count = v.arrived.length := by
    rw [stands.recorded, Publications.count_record]
  cases s with
  | looping rounds => cases rounds <;> simp [Stage.next, Stage.toEnd, count]
  | counted rounds seen =>
    simp only [Stage.next]
    split
    · simp only [Stage.toEnd]
      split <;> omega
    · simp only [Stage.toEnd]
      split <;> omega
  | watching rounds seen latest =>
    simp only [Stage.next, begun, Option.getD_some, if_pos late, count]
    split
    next more => simp [Stage.toEnd, more]
    next all => simp [Stage.toEnd, all]
  | ended result => exact absurd rfl (under result)
  | _ => cases begun.symm.trans fits

/-- What stays once a wait has begun. -/
structure Since (v v' : Vigil) : Prop where
  start? : v'.start? = v.start?
  synced : v'.synced = v.synced
  arrived : v.arrived <+: v'.arrived
  now : v.now ≤ v'.now

theorem Since.trans {v'' : Vigil} (a : Since v v') (b : Since v' v'') : Since v v'' :=
  ⟨b.start?.trans a.start?, b.synced.trans a.synced, a.arrived.trans b.arrived,
    Nat.le_trans a.now b.now⟩

theorem Since.hasNews (since : Since v v') (news : v.HasNews path) : v'.HasNews path := by
  obtain ⟨before, x, after, eq, here, late⟩ := news
  obtain ⟨more, eq'⟩ := since.arrived
  refine ⟨before, x, after ++ more, ?_, here, since.synced ▸ late⟩
  rw [← eq', eq, List.append_assoc, List.cons_append]

theorem since_step (stands : v.Stands client path s) (begun : v.start?.isSome)
    (step : Step self v v') : Since v v' := by
  have started (s' : Stage) (fits : s'.Fits client path v → v.start? = none) : s ≠ s' := by
    rintro rfl
    cases begun.symm.trans (congrArg Option.isSome (fits stands.fits))
  cases step with
  | turn under m now =>
    exact ⟨startNext?_of_ne stands.work (started .starting id),
      syncedNext_of_ne stands.work (started .lookingUp id), List.prefix_rfl, Nat.le_refl _⟩
  | notice under => exact ⟨rfl, rfl, List.prefix_append _ _, Nat.le_refl _⟩
  | other under same later => exact ⟨rfl, rfl, List.prefix_rfl, later⟩

theorem Since.refl (v : Vigil) : Since v v := ⟨rfl, rfl, List.prefix_rfl, Nat.le_refl _⟩

/-- How near its end a wait is that was at `v` before. -/
structure Nears (client : Client) (path : Path) (v v' : Vigil) (s : Stage) : Prop where
  stands : v'.Stands client path s
  since : Since v v'
  news : v.HasNews path → s.toNews + v'.turns ≤ 3 + v.turns
  late : ∀ start, v.start? = some start → start + client.config.diagnosticsWaitMs ≤ v.now →
    s.toEnd v'.arrived.length + v'.turns + 3 * v.arrived.length ≤
      5 + v.turns + 3 * v'.arrived.length

theorem Nears.step {v'' : Vigil} (nears : Nears client path v v' s) (begun : v.start?.isSome)
    (step : Step self v' v'') (few : v'.arrived.length < greatestArrivals) :
    ∃ s', Nears client path v v'' s' := by
  have begun' : v'.start?.isSome := nears.since.start? ▸ begun
  have since := nears.since.trans (since_step nears.stands begun' step)
  cases step with
  | turn under m now =>
    have goesOn := ne_ended nears.stands under
    refine ⟨_, nears.stands.turn now few, since, fun news => ?_, fun start eq late => ?_⟩
    · have sooner := toNews_next self nears.stands begun' (nears.since.hasNews news) goesOn
      have bound := nears.news news
      change _ + (v'.turns + 1) ≤ _
      omega
    · have sooner := toEnd_next self nears.stands (nears.since.start?.trans eq)
        (Nat.le_trans late nears.since.now) goesOn
      have bound := nears.late start eq late
      change Stage.toEnd v'.arrived.length _ + (v'.turns + 1) + _ ≤ _ + 3 * v'.arrived.length
      omega
  | notice under =>
    have arrived := List.prefix_append v'.arrived
      (v'.link.notices.head?.bind Publication.ofNotice?).toList
    refine ⟨s, ⟨recorded_notice nears.stands.recorded, nears.stands.work, ?_⟩, since, nears.news,
      fun start eq late => ?_⟩
    · exact fits_later nears.stands.fits (ne_ended nears.stands under) arrived rfl rfl
    · have bound := nears.late start eq late
      obtain ⟨more, longer⟩ := Nat.le.dest arrived.length_le
      have farther := s.toEnd_add v'.arrived.length more
      change s.toEnd (List.length (_ ++ _)) + v'.turns + _ ≤ _ + 3 * List.length (_ ++ _)
      rw [← longer]
      omega
  | other under same later =>
    refine ⟨s, ⟨same.trans nears.stands.recorded, nears.stands.work, ?_⟩, since, nears.news,
      nears.late⟩
    exact fits_later nears.stands.fits (ne_ended nears.stands under) List.prefix_rfl rfl rfl

theorem nears_later (stands : v.Stands client path s) (begun : v.start?.isSome)
    (later : Later self v v') (few : v'.arrived.length < greatestArrivals) :
    ∃ s', Nears client path v v' s' := by
  induction later with
  | refl =>
    have near := s.toNews_le
    have far := s.toEnd_le v.arrived.length
    exact ⟨s, stands, .refl v, fun _ => by omega, fun _ _ _ => by omega⟩
  | tail _ step ih =>
    have longer := (arrived_step step).length_le
    obtain ⟨s', nears⟩ := ih (Nat.lt_of_le_of_lt longer few)
    exact nears.step begun step (Nat.lt_of_le_of_lt longer few)

/-- After the deadline, five steps and three for each publication are enough. -/
theorem Stands.done_of_turns {start : Nat} (stands : v.Stands client path s)
    (begun : v.start? = some start) (late : start + client.config.diagnosticsWaitMs ≤ v.now)
    (later : Later self v v') (few : v'.arrived.length < greatestArrivals)
    (turns : v.turns + 5 + 3 * (v'.arrived.length - v.arrived.length) ≤ v'.turns) :
    ∃ result, v'.work = .done result := by
  obtain ⟨s', nears⟩ := nears_later stands (Option.isSome_iff_exists.mpr ⟨start, begun⟩) later few
  have bound := nears.late start begun late
  have longer := nears.since.arrived.length_le
  obtain ⟨result, rfl⟩ := s'.ended_of_toEnd v'.arrived.length (by omega)
  exact ⟨result, nears.stands.work⟩

theorem Stands.ends {result : Except ServerError (Option (List Diagnostic))}
    (stands : v.Stands client path s) (few : v.arrived.length < greatestArrivals)
    (ended : v.work = .done result) : Ends client path v result := by
  have work := ended.symm.trans stands.work
  cases s with
  | ended result' =>
    cases work
    exact stands.fits
  | looping rounds =>
    cases rounds with
    | zero =>
      have enough := stands.fits.2
      omega
    | succ rounds => cases work
  | _ => cases work

theorem Ends.unavailable_iff {result : Except ServerError (Option (List Diagnostic))}
    (ends : Ends client path v result) :
    result = .ok none ↔ ∀ x ∈ v.arrived, x.path.same path = false := by
  cases ends with
  | fresh newest new => exact (iff_of_false nofun nofun).trans newest.eq_none_iff
  | @late start newest? begun late newest old =>
    rw [← newest.eq_none_iff, Except.ok.injEq, Option.map_eq_none_iff]

end Vigil

/-- How a wait for published diagnostics ends, and how soon. -/
structure Watches (self : Holder) (client : Client) (path : Path) (v : Vigil) : Prop where
  ends : ∀ result, v.work = .done result → Vigil.Ends client path v result
  /-- There are no diagnostics exactly if none were ever published for the path. -/
  unavailable : ∀ result, v.work = .done result →
    (result = .ok none ↔ ∀ x ∈ v.arrived, x.path.same path = false)
  /-- Once a report that came after the text is stored, the wait returns one as new in at most
  three steps, whatever else happens. -/
  news : v.start?.isSome → v.HasNews path → ∀ v', Vigil.Later self v v' →
    v'.arrived.length < greatestArrivals → v.turns + 3 ≤ v'.turns →
    ∃ n diagnostics, v'.work = .done (.ok (some diagnostics)) ∧
      Newest path v'.arrived (some (n, diagnostics)) ∧ v.synced < n
  /-- Once the wait has begun, its deadline stays where it is, whatever is published. -/
  fixed : v.start?.isSome → ∀ v', Vigil.Later self v v' → v'.arrived.length < greatestArrivals →
    v'.start? = v.start?
  /-- What was published before the deadline does not put the end off: if nothing is published after
  it, the wait ends in at most five steps. -/
  deadline : ∀ start, v.start? = some start → start + client.config.diagnosticsWaitMs ≤ v.now →
    ∀ v', Vigil.Later self v v' → v'.arrived = v.arrived → v.turns + 5 ≤ v'.turns →
    ∃ result, v'.work = .done result
  /-- Each publication after the deadline, for whatever path, costs at most one more look, which is
  three steps. -/
  looks : ∀ start, v.start? = some start → start + client.config.diagnosticsWaitMs ≤ v.now →
    ∀ v', Vigil.Later self v v' → v'.arrived.length < greatestArrivals →
    v.turns + 5 + 3 * (v'.arrived.length - v.arrived.length) ≤ v'.turns →
    ∃ result, v'.work = .done result

/-- However publications arrive before and while diagnostics are waited for, and whatever else
happens on the connection. -/
theorem no_publication_is_missed {self : Holder} {client : Client} {path : Path} {room now : Nat}
    {v : Vigil} (run : Vigil.Later self (.begin client path room now) v)
    (few : v.arrived.length < greatestArrivals) : Watches self client path v := by
  obtain ⟨s, stands⟩ := Vigil.stands_later run few (Vigil.stands_begin client path room now)
  refine ⟨fun result ended => stands.ends few ended,
    fun result ended => (stands.ends few ended).unavailable_iff, ?_, ?_, ?_, ?_⟩
  · intro begun news v' later few' turns
    obtain ⟨s', nears⟩ := Vigil.nears_later stands begun later few'
    have bound := nears.news news
    obtain ⟨result, rfl⟩ := s'.ended_of_toNews (by omega)
    have ends := nears.stands.ends few' nears.stands.work
    cases ends with
    | fresh newest new => exact ⟨_, _, nears.stands.work, newest, nears.since.synced ▸ new⟩
    | late begun late newest old =>
      exact absurd old ((nears.since.hasNews news).newest newest)
  · intro begun v' later few'
    obtain ⟨_, nears⟩ := Vigil.nears_later stands begun later few'
    exact nears.since.start?
  · intro start begun late v' later quiet turns
    have none : v'.arrived.length - v.arrived.length = 0 := by rw [quiet, Nat.sub_self]
    exact stands.done_of_turns begun late later (quiet ▸ few) (by omega)
  · exact fun start begun late v' later few' turns => stands.done_of_turns begun late later few' turns

namespace Vigil

/-- A step that can be played. -/
inductive Move
  | turn
  | notice
  /-- A notification is read. -/
  | hear (notification : String × Json)
  | pass (milliseconds : Nat)

def play? (self : Holder) (v : Vigil) (move : Move) : Option Vigil :=
  match v.work with
  | .done _ => none
  | .ask .. =>
    match move with
    | .turn => some (v.turn ⟨v.now, default, default⟩ self)
    | .notice => some v.notice
    | .hear notification =>
      some { v with link := { v.link with notices := v.link.notices ++ [notification] } }
    | .pass milliseconds => some { v with now := v.now + milliseconds }

theorem step_of_play? {move : Move} (played : v.play? self move = some v') : Step self v v' := by
  unfold play? at played
  split at played
  next => cases played
  next under =>
    cases move with
    | turn =>
      cases played
      exact .turn under _ rfl
    | notice =>
      cases played
      exact .notice under
    | hear notification =>
      cases played
      exact .other under rfl (Nat.le_refl _)
    | pass milliseconds =>
      cases played
      exact .other under rfl (Nat.le_add_right _ _)

theorem later_of_play {moves : List Move} (played : moves.foldlM (play? self) v = some v') :
    Later self v v' :=
  reflTransGen_of_foldlM (Step self) played fun _ _ _ => step_of_play?

/-- A report without a diagnostic. -/
def clean (uri : String) : Move :=
  .hear ("textDocument/publishDiagnostics",
    .ofMembers [("uri", .string uri), ("diagnostics", .array [])])

/-- A wait sees a report for another file, and one for its own a second later. -/
def patience : List Move :=
  List.replicate 6 .turn ++ [clean "file:///b", .notice, .turn, .turn, .turn, .pass 1000, .turn,
    clean "file:///a", .notice, .turn, .turn, .turn]

/-- Whether the wait has ended with a report that has no diagnostic. -/
def foundNothing (v : Vigil) : Bool :=
  match v.work with
  | .done (.ok (some diagnostics)) => diagnostics.isEmpty
  | _ => false

def patient : Client := ⟨.ofCommand "gopls", default, default⟩

end Vigil

theorem report_ends_wait :
    ∃ v, Vigil.Later 1 (.begin Vigil.patient (.ofString "/a") 4096 0) v ∧ v.now = 1000 ∧
      v.arrived.length = 2 ∧ v.work = .done (.ok (some [])) ∧
      Watches 1 Vigil.patient (.ofString "/a") v := by
  have played : ((Vigil.patience.foldlM (Vigil.play? 1)
      (.begin Vigil.patient (.ofString "/a") 4096 0)).any fun v =>
        v.now = 1000 && v.arrived.length = 2 && v.foundNothing) = true := by decide +kernel
  obtain ⟨v, reached, told⟩ := (Option.any_eq_true _ _).mp played
  simp only [Bool.and_eq_true, decide_eq_true_eq] at told
  obtain ⟨⟨now, two⟩, found⟩ := told
  have work : v.work = .done (.ok (some [])) := by
    unfold Vigil.foundNothing at found
    split at found
    next diagnostics ended => rw [ended, List.isEmpty_iff.mp found]
    next => cases found
  have run := Vigil.later_of_play reached
  have few : v.arrived.length < greatestArrivals := by
    rw [two]
    decide
  exact ⟨v, run, now, two, work, no_publication_is_missed run few⟩

end CodeIntel

import CodeIntel.Proofs.Session.LockOrder
import CodeIntel.Proofs.Session.Strides
import Mathlib.Logic.Relation

namespace CodeIntel

/-- What may happen next where calls share the files and the server: a tool or a prompt is called, a
call takes a step or is cancelled, or time passes and others use the files and the server. -/
inductive Move (ρ : Type)
  | tool (name : String) (caller : Caller) (args : Json) (tell : Except CallError Output → ρ)
      (cancelled : Bool)
  | prompt (name : String) (caller : Caller) (args : Json) (tell : Except CallError String → ρ)
      (cancelled : Bool)
  | step (id : Holder) (abortFirst : Bool)
  | cancel (id : Holder)
  | pass (now : Nat) (files : Tree) (backend : Backend)

namespace World

variable {ρ : Type} {w w' : World ρ} {abortFirst : Bool} {c : Call ρ} {after : Activity ρ}
  {progress : Progress} {held : Option Path}

def move (w : World ρ) : Move ρ → World ρ
  | .tool name caller args tell cancelled =>
    (w.start (.calling (tell <$> callTool name caller args)) cancelled).1
  | .prompt name caller args tell cancelled =>
    (w.start (.calling (tell <$> renderPrompt name caller args)) cancelled).1
  | .step id abortFirst => (w.step abortFirst id).1
  | .cancel id => w.cancel id
  | .pass now files backend => { w with now := now, files := files, backend := backend }

def play (w : World ρ) (moves : List (Move ρ)) : World ρ := moves.foldl move w

/-- What a call has to do with the locks; `held` is the file whose lock it has. -/
structure Stands (w : World ρ) (c : Call ρ) (held : Option Path) : Prop where
  follows : c.activity.Ends (LockOrder.Follows held)
  files : ∀ p, w.fileLocks.Involves p c.id →
    ∃ q, q.components = p.components ∧ (held = some q ∨ c.activity.wants? = some (.file q))
  gate : w.gate.involves c.id = true → c.activity.wants? = some .gate ∨ c.activity.InFlight
  flight : ∀ gated, c.activity.gated? = some gated →
    gated = true ∧ w.gate.holder = some c.id

namespace Stride

theorem gate_cases (stride : Stride w abortFirst c (w', after, progress)) :
    w'.gate = w.gate ∨ w'.gate = w.gate.request c.id ∨ w'.gate = w.gate.withdraw c.id := by
  cases stride with
  | rests | getsFile | awaitsFile | forgoesFile | leavesFile => exact .inl rfl
  | replied _ _ gate => exact .inl gate
  | begins _ _ _ gate => exact .inr (.inl gate)
  | awaitsGate => exact .inr (.inl rfl)
  | refused => exact .inr (.inr rfl)
  | works _ gate => exact .inl gate
  | @ends gated _ _ _ gate =>
    unfold leaveGate at gate
    split at gate
    · exact .inr (.inr gate)
    · exact .inl gate

theorem fileLocks_cases (stride : Stride w abortFirst c (w', after, progress)) :
    w'.fileLocks = w.fileLocks ∨ ∃ p, w'.fileLocks = w.fileLocks.request p c.id ∨
      w'.fileLocks = w.fileLocks.withdraw p c.id := by
  cases stride with
  | rests | awaitsGate | refused => exact .inl rfl
  | replied _ _ _ fileLocks => exact .inl fileLocks
  | getsFile | awaitsFile => exact .inr ⟨_, .inl rfl⟩
  | forgoesFile | leavesFile => exact .inr ⟨_, .inr rfl⟩
  | begins _ _ _ _ fileLocks => exact .inl fileLocks
  | works _ _ fileLocks => exact .inl fileLocks
  | ends _ _ fileLocks => exact .inl fileLocks

theorem gate_sound (stride : Stride w abortFirst c (w', after, progress)) (sound : w.gate.Sound) :
    w'.gate.Sound := by
  rcases stride.gate_cases with same | asks | leaves
  · exact same ▸ sound
  · exact asks ▸ sound.request c.id
  · exact leaves ▸ sound.withdraw c.id

theorem gate_involves (stride : Stride w abortFirst c (w', after, progress)) (sound : w.gate.Sound)
    {h : Holder} (ne : h ≠ c.id) : w'.gate.involves h = true ↔ w.gate.involves h = true := by
  rcases stride.gate_cases with same | asks | leaves
  · rw [same]
  · rw [asks, Lock.involves_request]
    exact or_iff_left ne
  · rw [leaves, sound.involves_withdraw]
    exact and_iff_left ne

theorem gate_holder (stride : Stride w abortFirst c (w', after, progress)) {h : Holder} (ne : h ≠ c.id)
    (holds : w.gate.holder = some h) : w'.gate.holder = some h := by
  rcases stride.gate_cases with same | asks | leaves
  · exact same ▸ holds
  · exact asks ▸ Lock.holder_request holds c.id
  · exact leaves ▸ Lock.holder_withdraw holds ne.symm

theorem files_involve (stride : Stride w abortFirst c (w', after, progress)) {h : Holder}
    (ne : h ≠ c.id) (p : Path) : w'.fileLocks.Involves p h ↔ w.fileLocks.Involves p h := by
  obtain same | ⟨q, asks | leaves⟩ := stride.fileLocks_cases
  · rw [same]
  · rw [asks, FileLocks.involves_request]
    exact or_iff_left fun own => ne own.2
  · rw [leaves, FileLocks.involves_withdraw]
    exact and_iff_left fun own => ne own.2

end Stride

namespace Stands

/-- What a call has to do with the locks stays as it is while others take their steps. -/
theorem others (stands : Stands w c held) {other : Call ρ} (ne : c.id ≠ other.id)
    (stride : Stride w abortFirst other (w', after, progress)) (sound : w.gate.Sound) :
    Stands w' c held where
  follows := stands.follows
  files p involved := stands.files p ((stride.files_involve ne p).mp involved)
  gate involved := stands.gate ((stride.gate_involves sound ne).mp involved)
  flight gated under := (stands.flight gated under).imp_right (stride.gate_holder ne)

theorem not_involved (stands : Stands w c held) (wants : c.activity.wants? ≠ some .gate)
    (flight : ¬ c.activity.InFlight) : ¬ w.gate.involves c.id = true :=
  fun involved => (stands.gate involved).elim wants flight

/-- A call that asks for no file's lock has to do with that of the file it has, if with any. -/
theorem held_of_involved (stands : Stands w c held)
    (wants : ∀ p, c.activity.wants? ≠ some (.file p)) (p : Path)
    (involved : w.fileLocks.Involves p c.id) : ∃ q, q.components = p.components ∧ held = some q := by
  obtain ⟨q, same, has | asks⟩ := stands.files p involved
  · exact ⟨q, same, has⟩
  · exact absurd asks (wants q)

/-- A call that asks for the lock of a file has to do with that of no other. -/
theorem wants_one (stands : Stands w c held) {p q : Path}
    (wants : c.activity.wants? = some (.file p)) (involved : w.fileLocks.Involves q c.id) :
    p.components = q.components := by
  have follows := stands.follows
  obtain ⟨next, activity⟩ := Activity.wants?_eq_file wants
  obtain ⟨q', same, has | asks⟩ := stands.files q involved
  · rw [activity] at follows
    cases follows.1.symm.trans has
  · cases wants.symm.trans asks
    exact same

/-- A call that asks for something else is outside the gate. -/
theorem outside (stands : Stands w c held) {plan : CallPlan ρ}
    (activity : c.activity = .calling plan) (wants : c.activity.wants? ≠ some .gate) :
    ¬ w.gate.involves c.id = true := by
  refine stands.not_involved wants ?_
  rw [activity]
  exact Activity.not_inFlight_calling plan

end Stands

theorem stands_calling {plan : CallPlan ρ} (follows : LockOrder.Follows held plan)
    (files : ∀ p, w.fileLocks.Involves p c.id → ∃ q, q.components = p.components ∧ held = some q)
    (gate : ¬ w.gate.involves c.id = true) :
    Stands w { c with activity := .calling plan } held := by
  refine ⟨follows, fun p involved => ?_, fun involved => absurd involved gate, nofun⟩
  obtain ⟨q, same, has⟩ := files p involved
  exact ⟨q, same, .inl has⟩

theorem stands_inFlight (follows : after.Ends (LockOrder.Follows held))
    (files : ∀ p, w.fileLocks.Involves p c.id → ∃ q, q.components = p.components ∧ held = some q)
    (gated : after.gated? = some true) (holds : w.gate.holder = some c.id) :
    Stands w { c with activity := after } held := by
  refine ⟨follows, fun p involved => ?_, fun _ => .inr (Option.isSome_of_eq_some gated), ?_⟩
  · obtain ⟨q, same, has⟩ := files p involved
    exact ⟨q, same, .inl has⟩
  · exact fun g under => ⟨Option.some.inj (under.symm.trans gated), holds⟩

/-- A query that is over, whatever came of it, has given the gate back. -/
theorem Stride.gives_back (stride : Stride w abortFirst c (w', after, progress))
    (stands : Stands w c held) (sound : w.gate.Sound) (flight : c.activity.InFlight)
    (ended : ¬ after.InFlight) : ¬ w'.gate.involves c.id = true := by
  have calling {plan : CallPlan ρ} (activity : c.activity = .calling plan) : False := by
    rw [activity] at flight
    exact Activity.not_inFlight_calling plan flight
  cases stride with
  | rests => exact absurd flight ended
  | replied activity | getsFile activity | awaitsFile activity | forgoesFile activity
    | leavesFile activity | begins activity | awaitsGate activity | refused activity =>
    exact (calling activity).elim
  | works _ _ _ same => exact absurd (Option.isSome_of_eq_some same) ended
  | ends under gate =>
    obtain ⟨rfl, _⟩ := stands.flight _ under
    rw [gate]
    exact fun involved => ((sound.involves_withdraw _ _).mp involved).2 rfl

/-- A call keeps to the order of the locks whatever its step comes to. -/
theorem Stride.stands (stride : Stride w abortFirst c (w', after, progress))
    (stands : Stands w c held) (sound : w.gate.Sound) :
    ∃ held', Stands w' { c with activity := after } held' := by
  have follows := stands.follows
  have back := stride.gives_back stands sound
  cases stride with
  | rests => exact ⟨held, stands⟩
  | @replied q next reply _ _ activity free gate fileLocks =>
    have wants := (congrArg Activity.wants? activity).trans (Activity.wants?_of_free free)
    have files := stands.held_of_involved fun p h => nomatch wants.symm.trans h
    have outside := stands.outside activity fun h => nomatch wants.symm.trans h
    have keeps : LockOrder.Keeps q := by cases q <;> trivial
    rw [activity] at follows
    have answered := (LockOrder.rule_of_keeps keeps).mp follows reply
    exact ⟨held, stands_calling answered (fun p => fileLocks ▸ files p) (gate ▸ outside)⟩
  | @getsFile p next activity =>
    have wants : c.activity.wants? = some (.file p) := congrArg Activity.wants? activity
    have outside := stands.outside activity fun h => nomatch wants.symm.trans h
    rw [activity] at follows
    refine ⟨some p, stands_calling follows.2.1 (fun q involved => ?_) outside⟩
    rcases FileLocks.involves_request.mp involved with before | ⟨same, _⟩
    · exact ⟨p, stands.wants_one wants before, rfl⟩
    · exact ⟨p, same.symm, rfl⟩
  | @awaitsFile p next activity =>
    have wants : c.activity.wants? = some (.file p) := congrArg Activity.wants? activity
    refine ⟨held, follows, fun q involved => ?_, stands.gate, stands.flight⟩
    rcases FileLocks.involves_request.mp involved with before | ⟨same, _⟩
    · exact stands.files q before
    · exact ⟨p, same.symm, .inr wants⟩
  | @forgoesFile p next activity =>
    have wants : c.activity.wants? = some (.file p) := congrArg Activity.wants? activity
    have outside := stands.outside activity fun h => nomatch wants.symm.trans h
    rw [activity] at follows
    refine ⟨none, stands_calling follows.2.2 (fun q involved => ?_) outside⟩
    obtain ⟨before, apart⟩ := FileLocks.involves_withdraw.mp involved
    exact absurd ⟨(stands.wants_one wants before).symm, rfl⟩ apart
  | @leavesFile p next activity =>
    have wants : c.activity.wants? = none := congrArg Activity.wants? activity
    have outside := stands.outside activity fun h => nomatch wants.symm.trans h
    rw [activity] at follows
    obtain ⟨has, left⟩ := follows
    refine ⟨none, stands_calling left (fun q involved => ?_) outside⟩
    obtain ⟨before, apart⟩ := FileLocks.involves_withdraw.mp involved
    obtain ⟨q', same, has'⟩ :=
      stands.held_of_involved (fun p h => nomatch wants.symm.trans h) q before
    cases has.symm.trans has'
    exact absurd ⟨same.symm, rfl⟩ apart
  | begins activity holds late gate fileLocks gated leads =>
    have wants : c.activity.wants? = some .gate := congrArg Activity.wants? activity
    have files := stands.held_of_involved fun p h => nomatch wants.symm.trans h
    rw [activity] at follows
    exact ⟨held, stands_inFlight (leads _ follows) (fun p => fileLocks ▸ files p) gated (gate ▸ holds)⟩
  | awaitsGate activity =>
    have wants : c.activity.wants? = some .gate := congrArg Activity.wants? activity
    refine ⟨held, follows, stands.files, fun _ => .inl wants, fun g under => ?_⟩
    rw [activity] at under
    cases under
  | refused activity =>
    have wants : c.activity.wants? = some .gate := congrArg Activity.wants? activity
    have files := stands.held_of_involved fun p h => nomatch wants.symm.trans h
    rw [activity] at follows
    refine ⟨held, stands_calling (follows _) files fun involved => ?_⟩
    exact ((sound.involves_withdraw _ _).mp involved).2 rfl
  | works under gate fileLocks same leads =>
    have flight : c.activity.InFlight := Option.isSome_of_eq_some under
    have files := stands.held_of_involved fun p h => nomatch flight.wants?_eq_none.symm.trans h
    obtain ⟨rfl, holds⟩ := stands.flight _ under
    exact ⟨held, stands_inFlight (leads _ follows) (fun p => fileLocks ▸ files p) same (gate ▸ holds)⟩
  | ends under gate fileLocks leads =>
    have flight : c.activity.InFlight := Option.isSome_of_eq_some under
    have files := stands.held_of_involved fun p h => nomatch flight.wants?_eq_none.symm.trans h
    have left := back flight (Activity.not_inFlight_calling _)
    exact ⟨held, stands_calling (leads _ follows) (fun p => fileLocks ▸ files p) left⟩

/-- Locks are with calls under way, and each of these keeps to the order of the locks. -/
structure Ordered (w : World ρ) : Prop extends Numbered w where
  sound : w.gate.Sound
  stands : ∀ c ∈ w.calls, ∃ held, Stands w c held
  gate : ∀ h, w.gate.involves h = true → h ∈ w.calls.map Call.id
  files : ∀ p h, w.fileLocks.Involves p h → h ∈ w.calls.map Call.id

theorem Stands.congr {c' : Call ρ} (stands : Stands w c held) (id : c'.id = c.id)
    (activity : c'.activity = c.activity) (gate : w'.gate = w.gate)
    (fileLocks : w'.fileLocks = w.fileLocks) : Stands w' c' held := by
  obtain ⟨follows, files, enters, flight⟩ := stands
  rw [← id, ← activity, ← gate] at *
  exact ⟨follows, fileLocks ▸ files, enters, flight⟩

/-- A call that has come to its end has to do with no lock. -/
theorem Stands.free {result : ρ} (stands : Stands w c held)
    (ended : c.activity = .calling (.done result)) :
    ¬ w.gate.involves c.id = true ∧ ∀ p, ¬ w.fileLocks.Involves p c.id := by
  have wants : c.activity.wants? = none := congrArg Activity.wants? ended
  have follows := stands.follows
  rw [ended] at follows
  have idle : held = none := follows
  have outside := stands.outside ended fun h => nomatch wants.symm.trans h
  refine ⟨outside, fun p involved => ?_⟩
  obtain ⟨q, _, has⟩ := stands.held_of_involved (fun p h => nomatch wants.symm.trans h) p involved
  cases idle.symm.trans has

theorem fileLocks_settleCall (w : World ρ) (c : Call ρ) :
    (w.settleCall c).fileLocks = w.fileLocks := by
  obtain ⟨_, _, eq⟩ | ⟨_, eq⟩ := settleCall_cases w c <;> rw [eq] <;> rfl

namespace Ordered

theorem new (files : Tree) (cwd : Path) (backend : Backend) :
    Ordered (World.new files cwd backend : World ρ) where
  ids := .nil
  known := nofun
  ended := nofun
  sound := Lock.sound_free
  stands := nofun
  gate := nofun
  files := nofun

/-- After its step, a call is what the step has made of it, or it is gone with its locks. -/
theorem settle (ordered : Ordered w) (mem : c ∈ w.calls) (calls : w'.calls = w.calls)
    (finished : w'.finished = w.finished) (lastCall : w'.lastCall = w.lastCall)
    (stride : Stride w abortFirst c (w', after, progress)) :
    Ordered (w'.settleCall { c with activity := after }) := by
  have numbered : Numbered w' := ordered.toNumbered.congr calls finished lastCall
  have mem' : c ∈ w'.calls := calls ▸ mem
  obtain ⟨held, before⟩ := ordered.stands c mem
  obtain ⟨held', stands⟩ := stride.stands before ordered.sound
  have there {other : Call ρ} : other ∈ (w'.settleCall { c with activity := after }).calls ↔
      (other ∈ w'.calls ∧ other.id ≠ c.id) ∨
        (other = { c with activity := after } ∧ ∀ result, after ≠ .calling (.done result)) :=
    mem_settleCall_iff numbered.ids mem'
  -- who has to do with a lock is under way before the step, and has not come to its end by it
  have known {h : Holder} (before : h ≠ c.id → h ∈ w.calls.map Call.id)
      (running : h = c.id → ∀ result, after ≠ .calling (.done result)) :
      h ∈ (w'.settleCall { c with activity := after }).calls.map Call.id := by
    by_cases own : h = c.id
    · exact List.mem_map.mpr ⟨_, there.mpr (.inr ⟨rfl, running own⟩), own.symm⟩
    · obtain ⟨other, mem, rfl⟩ := List.mem_map.mp (before own)
      exact List.mem_map_of_mem (there.mpr (.inl ⟨calls ▸ mem, own⟩))
  refine ⟨numbered.settle ⟨c, mem', rfl⟩, ?_, fun other h => ?_, fun h involved => ?_,
    fun p h involved => ?_⟩
  · rw [gate_settleCall]
    exact stride.gate_sound ordered.sound
  · rcases there.mp h with ⟨h, ne⟩ | ⟨rfl, _⟩
    · obtain ⟨held, stands⟩ := ordered.stands other (calls ▸ h)
      exact ⟨held, (stands.others ne stride ordered.sound).congr rfl rfl (gate_settleCall _ _)
        (fileLocks_settleCall _ _)⟩
    · exact ⟨held', stands.congr rfl rfl (gate_settleCall _ _) (fileLocks_settleCall _ _)⟩
  · rw [gate_settleCall] at involved
    refine known (fun ne => ?_) ?_
    · exact ordered.gate h ((stride.gate_involves ordered.sound ne).mp involved)
    · rintro rfl result ended
      exact (stands.free ended).1 involved
  · rw [fileLocks_settleCall] at involved
    refine known (fun ne => ?_) ?_
    · exact ordered.files p h ((stride.files_involve ne p).mp involved)
    · rintro rfl result ended
      exact (stands.free ended).2 p involved

theorem step (ordered : Ordered w) (abortFirst : Bool) (id : Holder) :
    Ordered (w.step abortFirst id).1 := by
  cases found : w.call? id with
  | none => exact (step_of_none found abortFirst).symm ▸ ordered
  | some c =>
    have frame := frame_stepActivity w abortFirst c
    rw [step_of_call? found]
    exact ordered.settle (mem_of_call? found).1 frame.calls frame.finished frame.lastCall
      (stride_stepActivity w abortFirst c)

theorem cancel (ordered : Ordered w) (id : Holder) : Ordered (w.cancel id) := by
  refine ⟨ordered.toNumbered.cancel id, ordered.sound, fun c h => ?_, ?_, ?_⟩
  · obtain ⟨old, mem, same, activity⟩ := mem_cancel h
    obtain ⟨held, stands⟩ := ordered.stands old mem
    exact ⟨held, stands.congr same.symm activity.symm rfl rfl⟩
  · rw [ids_cancel]
    exact ordered.gate
  · rw [ids_cancel]
    exact ordered.files

theorem start (ordered : Ordered w) {plan : CallPlan ρ} (follows : LockOrder.Follows none plan)
    (cancelled : Bool) : Ordered (w.start (.calling plan) cancelled).1 := by
  have fresh : w.lastCall + 1 ∉ w.calls.map Call.id := by
    intro known
    obtain ⟨c, mem, eq⟩ := List.mem_map.mp known
    exact Nat.not_succ_le_self _ (eq ▸ ordered.known c mem)
  refine ⟨ordered.toNumbered.start _ cancelled, ordered.sound, fun c h => ?_, ?_, ?_⟩
  · rcases List.mem_append.mp h with h | h
    · obtain ⟨held, stands⟩ := ordered.stands c h
      exact ⟨held, stands.congr rfl rfl rfl rfl⟩
    · cases List.mem_singleton.mp h
      refine ⟨none, follows, fun p involved => ?_, fun involved => ?_, nofun⟩
      · exact absurd (ordered.files p _ involved) fresh
      · exact absurd (ordered.gate _ involved) fresh
  · intro h involved
    simp only [World.start, List.map_append]
    exact List.mem_append_left _ (ordered.gate h involved)
  · intro p h involved
    simp only [World.start, List.map_append]
    exact List.mem_append_left _ (ordered.files p h involved)

theorem move (ordered : Ordered w) (move : Move ρ) : Ordered (w.move move) := by
  cases move with
  | tool name caller args tell cancelled =>
    exact ordered.start (LockOrder.follows_map tell (LockOrder.follows_callTool ..)) cancelled
  | prompt name caller args tell cancelled =>
    exact ordered.start (LockOrder.follows_map tell (LockOrder.follows_renderPrompt ..)) cancelled
  | step id abortFirst => exact ordered.step abortFirst id
  | cancel id => exact ordered.cancel id
  | pass now files backend =>
    refine ⟨ordered.toNumbered.congr rfl rfl rfl, ordered.sound, fun c h => ?_, ordered.gate,
      ordered.files⟩
    obtain ⟨held, stands⟩ := ordered.stands c h
    exact ⟨held, stands.congr rfl rfl rfl rfl⟩

theorem play (ordered : Ordered w) (moves : List (Move ρ)) : Ordered (w.play moves) := by
  induction moves generalizing w with
  | nil => exact ordered
  | cons move rest ih => exact ih (ordered.move move)

end Ordered

/-- Who has a lock. -/
def holderOf (w : World ρ) : SharedLock → Option Holder
  | .gate => w.gate.holder
  | .file p => (w.fileLocks.lockOf p).holder

/-- One call waits for a lock that another call has. -/
def WaitsFor (w : World ρ) (h h' : Holder) : Prop :=
  h ≠ h' ∧ ∃ c ∈ w.calls, c.id = h ∧ c.activity.wants?.bind w.holderOf = some h'

instance (w : World ρ) (h h' : Holder) : Decidable (w.WaitsFor h h') :=
  inferInstanceAs (Decidable (_ ∧ _))

namespace Ordered

theorem stands_of_holder (ordered : Ordered w) {h : Holder} (known : h ∈ w.calls.map Call.id) :
    ∃ c ∈ w.calls, c.id = h ∧ ∃ held, Stands w c held := by
  obtain ⟨c, mem, rfl⟩ := List.mem_map.mp known
  exact ⟨c, mem, rfl, ordered.stands c mem⟩

theorem waitsFor_iff (ordered : Ordered w) (mem : c ∈ w.calls) {h : Holder} :
    w.WaitsFor c.id h ↔
      c.id ≠ h ∧ ∃ l, c.activity.wants? = some l ∧ w.holderOf l = some h := by
  rw [WaitsFor, ← Option.bind_eq_some_iff]
  refine and_congr_right fun _ => ⟨?_, fun waits => ⟨c, mem, rfl, waits⟩⟩
  rintro ⟨c', mem', same, waits⟩
  cases List.inj_on_of_nodup_map ordered.ids mem' mem same
  exact waits

/-- Who has the gate waits for nobody. -/
theorem gate_waits (ordered : Ordered w) {h : Holder} (holds : w.gate.holder = some h) :
    ∃ c ∈ w.calls, c.id = h ∧ ∀ h', ¬ w.WaitsFor h h' := by
  have involved := Lock.involves_iff.mpr (.inl holds)
  obtain ⟨c, mem, rfl, held, stands⟩ := ordered.stands_of_holder (ordered.gate h involved)
  refine ⟨c, mem, rfl, fun h' waits => ?_⟩
  obtain ⟨ne, l, wants, holds'⟩ := (ordered.waitsFor_iff mem).mp waits
  rcases stands.gate involved with gate | flight
  · cases wants.symm.trans gate
    exact ne (Option.some.inj (holds.symm.trans holds'))
  · cases flight.wants?_eq_none.symm.trans wants

/-- Who has the lock of a file waits for nobody but for who has the gate. -/
theorem file_waits (ordered : Ordered w) {p : Path} {h : Holder}
    (holds : (w.fileLocks.lockOf p).holder = some h) :
    ∃ c ∈ w.calls, c.id = h ∧ ∀ h', w.WaitsFor h h' → w.gate.holder = some h' := by
  have involved := FileLocks.Involves.of_holder holds
  obtain ⟨c, mem, rfl, held, stands⟩ := ordered.stands_of_holder (ordered.files p h involved)
  refine ⟨c, mem, rfl, fun h' waits => ?_⟩
  obtain ⟨ne, l, wants, holds'⟩ := (ordered.waitsFor_iff mem).mp waits
  cases l with
  | gate => exact holds'
  | file p' =>
    -- the only file that it has to do with is the one that it asks for
    rw [holderOf, FileLocks.lockOf, stands.wants_one wants involved, ← FileLocks.lockOf, holds]
      at holds'
    exact absurd (Option.some.inj holds') ne

/-- Wherever one follows who waits for whom, one comes to a call that waits for nobody. -/
theorem waits_end (ordered : Ordered w) (mem : c ∈ w.calls) :
    ∃ c' ∈ w.calls, Relation.ReflTransGen w.WaitsFor c.id c'.id ∧ ∀ h, ¬ w.WaitsFor c'.id h := by
  have gate_end {c : Call ρ} {h : Holder} (waits : w.WaitsFor c.id h)
      (holds : w.gate.holder = some h) : ∃ c' ∈ w.calls,
        Relation.ReflTransGen w.WaitsFor c.id c'.id ∧ ∀ h, ¬ w.WaitsFor c'.id h := by
    obtain ⟨c', mem', rfl, goes⟩ := ordered.gate_waits holds
    exact ⟨c', mem', .single waits, goes⟩
  by_cases waits : ∃ h, w.WaitsFor c.id h
  · obtain ⟨h, waits⟩ := waits
    obtain ⟨_, l, _, holds⟩ := (ordered.waitsFor_iff mem).mp waits
    cases l with
    | gate => exact gate_end waits holds
    | file p =>
      obtain ⟨c', mem', rfl, next⟩ := ordered.file_waits holds
      by_cases waits' : ∃ h, w.WaitsFor c'.id h
      · obtain ⟨h', waits'⟩ := waits'
        obtain ⟨c'', mem'', chain, goes⟩ := gate_end waits' (next h' waits')
        exact ⟨c'', mem'', .head waits chain, goes⟩
      · exact ⟨c', mem', .single waits, not_exists.mp waits'⟩
  · exact ⟨c, mem, .refl, not_exists.mp waits⟩

/-- Who asks for a lock and does not get it waits for who has it. -/
theorem waits_of_blocked (ordered : Ordered w) (mem : c ∈ w.calls) {l : SharedLock}
    (wants : c.activity.wants? = some l)
    (stride : Stride w abortFirst c (w', after, .blocked)) : ∃ h, w.WaitsFor c.id h := by
  simp only [ordered.waitsFor_iff mem]
  cases stride with
  | rests free =>
    cases l with
    | gate =>
      obtain ⟨q, next, activity⟩ := Activity.wants?_eq_gate wants
      exact (free _ _ activity).elim
    | file p =>
      obtain ⟨next, activity⟩ := Activity.wants?_eq_file wants
      exact (free _ _ activity).elim
  | replied _ _ _ _ moved => exact absurd rfl moved
  | awaitsFile activity vain =>
    obtain ⟨other, holds, ne⟩ := FileLocks.held_of_vain vain
    exact ⟨other, ne.symm, _, congrArg Activity.wants? activity, holds⟩
  | awaitsGate activity _ vain =>
    obtain ⟨other, holds, ne⟩ := ordered.sound.held_of_vain vain
    exact ⟨other, ne.symm, _, congrArg Activity.wants? activity, holds⟩
  | works under =>
    have flight : c.activity.InFlight := Option.isSome_of_eq_some under
    cases flight.wants?_eq_none.symm.trans wants

theorem one_in_flight (ordered : Ordered w) {c' : Call ρ} (mem : c ∈ w.calls) (mem' : c' ∈ w.calls)
    (flight : c.activity.InFlight) (flight' : c'.activity.InFlight) : c = c' := by
  have gate {c : Call ρ} (mem : c ∈ w.calls) (flight : c.activity.InFlight) :
      w.gate.holder = some c.id := by
    obtain ⟨held, stands⟩ := ordered.stands c mem
    obtain ⟨gated, under⟩ := Option.isSome_iff_exists.mp flight
    exact (stands.flight gated under).2
  refine List.inj_on_of_nodup_map ordered.ids mem mem' ?_
  exact Option.some.inj ((gate mem flight).symm.trans (gate mem' flight'))

end Ordered

/-- Of calls that share a session, however they are made, interleaved and cancelled, one at a time
has a query under way, which gives the gate back when it is over. Nobody asks for the lock of a file
while they have the gate, so there is always somebody who waits for no other, and they go on. -/
theorem queries_are_serial_without_deadlock (files : Tree) (cwd : Path) (backend : Backend)
    (moves : List (Move ρ)) :
    let w := (World.new files cwd backend).play moves
    (∀ c ∈ w.calls, ∀ c' ∈ w.calls, c.activity.InFlight → c'.activity.InFlight → c = c') ∧
      (∀ h, w.gate.involves h = true →
        ∃ c ∈ w.calls, c.id = h ∧ (c.activity.wants? = some .gate ∨ c.activity.InFlight)) ∧
      (∀ c ∈ w.calls, c.activity.InFlight → ∀ abortFirst,
        ¬ (w.stepActivity abortFirst c).2.1.InFlight →
          ¬ (w.step abortFirst c.id).1.gate.involves c.id = true) ∧
      (∀ c ∈ w.calls, ∀ p, c.activity.wants? = some (.file p) →
        ¬ w.gate.involves c.id = true) ∧
      (∀ c ∈ w.calls, ∃ c' ∈ w.calls,
        Relation.ReflTransGen w.WaitsFor c.id c'.id ∧ ∀ h, ¬ w.WaitsFor c'.id h) ∧
      ∀ c ∈ w.calls, c.activity.wants?.isSome → (∀ h, ¬ w.WaitsFor c.id h) →
        ∀ abortFirst, (w.step abortFirst c.id).2 ≠ .blocked := by
  intro w
  have ordered : Ordered w := (Ordered.new files cwd backend).play moves
  refine ⟨fun c mem c' mem' => ordered.one_in_flight mem mem', fun h involved => ?_,
    fun c mem flight abortFirst ended => ?_, fun c mem p wants => ?_,
    fun c mem => ordered.waits_end mem, fun c mem asks goes abortFirst blocked => ?_⟩
  · obtain ⟨c, mem, rfl, held, stands⟩ := ordered.stands_of_holder (ordered.gate h involved)
    exact ⟨c, mem, rfl, stands.gate involved⟩
  · obtain ⟨held, stands⟩ := ordered.stands c mem
    rw [step_of_call? (ordered.call?_of_mem mem), gate_settleCall]
    exact (stride_stepActivity w abortFirst c).gives_back stands ordered.sound flight ended
  · obtain ⟨held, stands⟩ := ordered.stands c mem
    obtain ⟨next, activity⟩ := Activity.wants?_eq_file wants
    exact stands.outside activity fun h => nomatch wants.symm.trans h
  · have stride := stride_stepActivity w abortFirst c
    obtain ⟨l, wants⟩ := Option.isSome_iff_exists.mp asks
    simp only [step, ordered.call?_of_mem mem] at blocked
    generalize w.stepActivity abortFirst c = stepped at stride blocked
    obtain ⟨w', after, progress⟩ := stepped
    subst blocked
    obtain ⟨h, waits⟩ := ordered.waits_of_blocked mem wants stride
    exact goes h waits

/-- A query is under way, an edit that has changed a file waits to tell the server of it, and a
second edit waits for the file. -/
theorem edits_wait_for_query :
    let surroundings : Surroundings := ⟨.ofString "/", .ofString "/"⟩
    let line : Json := .object
      [("endLine", .nat 1), ("newText", .string "x\n"), ("startLine", .nat 1)]
    let edit : Move (Except CallError Output) := .tool "apply_text_edit" ⟨surroundings, 3⟩
      (.object [("edits", .array [line]), ("filePath", .string "/f")]) (fun result => result) false
    let lenses : Move (Except CallError Output) := .tool "get_codelens" ⟨surroundings, 3⟩
      (.object [("filePath", .string "/g")]) (fun result => result) false
    let w := (World.new ⟨[([[0x66]], .file [0x61, 0x0A] 0o600)]⟩ (.ofString "/")
      (.standIn ⟨0, fun _ => .error (.process ""), []⟩)).play
        ([lenses, edit, edit, .step 1 false] ++ List.replicate 11 (.step 2 false) ++
          List.replicate 2 (.step 3 false))
    w.WaitsFor 3 2 ∧ w.WaitsFor 2 1 ∧
      ∃ c ∈ w.calls, Relation.ReflTransGen w.WaitsFor 3 c.id ∧ ∀ h, ¬ w.WaitsFor c.id h := by
  intro surroundings line edit lenses w
  have third : ∃ c ∈ w.calls, c.id = 3 := by decide +kernel
  obtain ⟨c, mem, same⟩ := third
  obtain ⟨c', mem', chain, goes⟩ :=
    (queries_are_serial_without_deadlock _ _ _ _).2.2.2.2.1 c mem
  exact ⟨by decide +kernel, by decide +kernel, c', mem', same ▸ chain, goes⟩

end World

end CodeIntel

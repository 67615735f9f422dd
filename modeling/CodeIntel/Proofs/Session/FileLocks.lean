import CodeIntel.Session.FileLocks

namespace CodeIntel

namespace Lock

variable {l : Lock} {h other : Holder}

theorem holder_request (held : l.holder = some h) (other : Holder) :
    (l.request other).holder = some h := by
  unfold request
  split
  · exact held
  · simp [held]

theorem holder_withdraw (held : l.holder = some h) (ne : other ≠ h) :
    (l.withdraw other).holder = some h := by
  unfold withdraw
  rw [if_neg fun eq => ne (Option.some.inj (eq.symm.trans held))]
  exact held

/-- Whoever asks for a lock and does not get it finds it in the hands of another. -/
theorem Sound.held_of_vain (sound : l.Sound) (vain : (l.request h).holder ≠ some h) :
    ∃ other, l.holder = some other ∧ other ≠ h := by
  cases held : l.holder with
  | none =>
    have idle : ¬ l.involves h = true := by simp [involves_iff, held, sound.held held]
    have got : (l.request h).holder = some h := by
      rw [Lock.request, if_neg idle, held]
    exact absurd got vain
  | some other =>
    refine ⟨other, rfl, ?_⟩
    rintro rfl
    exact vain (holder_request held other)

end Lock

namespace LockTable

variable {t : LockTable} {file file' : List Component} {h h' : Holder} {lock : Nat}

/-- Someone has the lock of a file or waits for it, or is about to. -/
def Guarded (t : LockTable) (file : List Component) (h : Holder) : Prop :=
  ∃ g ∈ t.guards, g.file = file ∧ g.holder = h

/-- Someone has the lock that was taken for a file. -/
def Holds (t : LockTable) (file : List Component) (h : Holder) : Prop :=
  ∃ g ∈ t.guards, g.file = file ∧ g.holder = h ∧ (t.lockAt g.lock).holder = some h

theorem Holds.guarded (holds : t.Holds file h) : t.Guarded file h := by
  obtain ⟨g, mem, here, own, _⟩ := holds
  exact ⟨g, mem, here, own⟩

theorem Sound.isHeldBy_iff (sound : t.Sound) : t.isHeldBy file h = true ↔ t.Holds file h := by
  unfold isHeldBy
  cases found : t.guard? file h with
  | none =>
    refine iff_of_false (by simp) ?_
    rintro ⟨g, mem, here, own, _⟩
    cases found.symm.trans (sound.guard?_eq_some_iff.mpr ⟨mem, own, here⟩)
  | some g =>
    obtain ⟨mem, own, here⟩ := sound.guard?_eq_some_iff.mp found
    simp only [decide_eq_true_eq]
    refine ⟨fun held => ⟨g, mem, here, own, held⟩, ?_⟩
    rintro ⟨other, there, here', own', held⟩
    cases eq_of_same sound.once there mem (by simp [own, own', here, here'])
    exact held

theorem Sound.lock?_of_guard {g : FileGuard} (sound : t.Sound) (mem : g ∈ t.guards) :
    t.lock? g.file = some g.lock :=
  sound.lock?_eq_some_iff.mpr (sound.entered g mem)

theorem Sound.isSome_lock?_iff (sound : t.Sound) :
    (t.lock? file).isSome ↔ ∃ h, t.Guarded file h := by
  rw [Option.isSome_iff_exists]
  constructor
  · rintro ⟨lock, known⟩
    obtain ⟨g, mem, here⟩ := sound.used _ (sound.lock?_eq_some_iff.mp known)
    exact ⟨g.holder, g, mem, here, rfl⟩
  · rintro ⟨_, g, mem, rfl, _⟩
    exact ⟨g.lock, sound.lock?_of_guard mem⟩

/-- Two who have the lock of one file are one. -/
theorem Sound.holds_unique (sound : t.Sound) (holds : t.Holds file h) (holds' : t.Holds file h') :
    h = h' := by
  obtain ⟨g, mem, rfl, _, held⟩ := holds
  obtain ⟨g', mem', here, _, held'⟩ := holds'
  have same := sound.lock?_of_guard mem'
  rw [here, sound.lock?_of_guard mem] at same
  rw [← Option.some.inj same] at held'
  exact Option.some.inj (held.symm.trans held')

theorem lockAt_enter (t : LockTable) (file : List Component) (h : Holder) (lock : Nat) :
    (t.enter file h).lockAt lock = t.lockAt lock := by
  unfold enter
  split
  · rfl
  · split
    · rfl
    · exact lockAt_append_free t.locks lock

theorem mem_enter {g : FileGuard} (mem : g ∈ t.guards) (file : List Component) (h : Holder) :
    g ∈ (t.enter file h).guards := by
  unfold enter
  split
  · exact mem
  · split <;> exact List.mem_cons_of_mem _ mem

theorem Sound.guarded_enter (sound : t.Sound) : (t.enter file h).Guarded file' h' ↔
    t.Guarded file' h' ∨ file' = file ∧ h' = h := by
  cases found : t.guard? file h with
  | some g =>
    rw [enter_eq_of_guard (by simp [found])]
    refine ⟨.inl, ?_⟩
    obtain ⟨mem, own, here⟩ := sound.guard?_eq_some_iff.mp found
    rintro (guarded | ⟨rfl, rfl⟩)
    · exact guarded
    · exact ⟨g, mem, here, own⟩
  | none =>
    unfold LockTable.enter Guarded
    simp only [found, Option.isSome_none, Bool.false_eq_true, ↓reduceIte]
    split <;> simp [or_comm, eq_comm]

@[simp]
theorem guards_ask (t : LockTable) (file : List Component) (h : Holder) :
    (t.ask file h).guards = t.guards := by
  unfold ask
  split <;> rfl

theorem Sound.holder_ask (sound : t.Sound) (held : (t.lockAt lock).holder = some h)
    (file : List Component) (other : Holder) : ((t.ask file other).lockAt lock).holder = some h := by
  unfold LockTable.ask
  split
  · exact held
  next g found =>
    have mem := (sound.guard?_eq_some_iff.mp found).1
    rw [lockAt_setLock (sound.made_of_guard mem)]
    split
    next same => exact Lock.holder_request (same ▸ held) other
    next => exact held

theorem Sound.guarded_drop (sound : t.Sound) : (t.drop file h).Guarded file' h' ↔
    t.Guarded file' h' ∧ ¬(file' = file ∧ h' = h) := by
  unfold LockTable.drop
  split
  next none =>
    refine ⟨fun guarded => ⟨guarded, ?_⟩, And.left⟩
    rintro ⟨rfl, rfl⟩
    obtain ⟨g, mem, here, own⟩ := guarded
    cases none.symm.trans (sound.guard?_eq_some_iff.mpr ⟨mem, own, here⟩)
  next g found =>
    obtain ⟨mem, rfl, rfl⟩ := sound.guard?_eq_some_iff.mp found
    simp only [Guarded, List.mem_filter, decide_eq_true_eq]
    constructor
    · rintro ⟨other, ⟨there, ne⟩, rfl, rfl⟩
      refine ⟨⟨other, there, rfl, rfl⟩, fun same => ne ?_⟩
      exact eq_of_same sound.once there mem (Prod.ext same.2 same.1)
    · rintro ⟨⟨other, there, rfl, rfl⟩, apart⟩
      refine ⟨other, ⟨there, ?_⟩, rfl, rfl⟩
      rintro rfl
      exact apart ⟨rfl, rfl⟩

theorem Sound.holder_drop (sound : t.Sound) (held : (t.lockAt lock).holder = some h)
    (file : List Component) {other : Holder} (ne : other ≠ h) :
    ((t.drop file other).lockAt lock).holder = some h := by
  unfold LockTable.drop
  split
  · exact held
  next g found =>
    obtain ⟨mem, rfl, _⟩ := sound.guard?_eq_some_iff.mp found
    change ((t.setLock g.lock _).lockAt lock).holder = some h
    rw [lockAt_setLock (sound.made_of_guard mem)]
    split
    next same => exact Lock.holder_withdraw (same ▸ held) ne
    next => exact held

/-- Who has the lock of a file keeps it while others give up theirs. -/
theorem Sound.holds_drop (sound : t.Sound) (holds : t.Holds file h) (file' : List Component)
    {other : Holder} (ne : other ≠ h) : (t.drop file' other).Holds file h := by
  obtain ⟨g, mem, here, own, held⟩ := holds
  refine ⟨g, ?_, here, own, sound.holder_drop held file' ne⟩
  unfold LockTable.drop
  split
  · exact mem
  next g' found =>
    simp only [List.mem_filter, decide_eq_true_eq]
    refine ⟨mem, ?_⟩
    rintro rfl
    exact ne ((sound.guard?_eq_some_iff.mp found).2.1.symm.trans own)

end LockTable

/-- What is done to the locks of files, one access to the table or to a lock at a time. -/
inductive LockAccess
  | enter (file : List Component) (h : Holder)
  | ask (file : List Component) (h : Holder)
  | drop (file : List Component) (h : Holder)

namespace LockTable

variable {t : LockTable} {file : List Component} {h : Holder}

def access (t : LockTable) : LockAccess → LockTable
  | .enter file h => t.enter file h
  | .ask file h => t.ask file h
  | .drop file h => t.drop file h

/-- The locks after accesses, the latest of which comes first. -/
def after : List LockAccess → LockTable
  | [] => empty
  | access :: earlier => (after earlier).access access

/-- Whether someone came for the lock of a file and has not given it up since. -/
def isAlive (file : List Component) (h : Holder) : List LockAccess → Bool
  | [] => false
  | .enter file' h' :: earlier => (file = file' && h = h') || isAlive file h earlier
  | .ask .. :: earlier => isAlive file h earlier
  | .drop file' h' :: earlier => !(file = file' && h = h') && isAlive file h earlier

theorem Sound.access (sound : t.Sound) (access : LockAccess) : (t.access access).Sound := by
  cases access with
  | enter file h => exact sound.enter file h
  | ask file h => exact sound.ask file h
  | drop file h => exact sound.drop file h

theorem sound_after (accesses : List LockAccess) : (after accesses).Sound := by
  induction accesses with
  | nil => exact sound_empty
  | cons access earlier ih => exact ih.access access

theorem guarded_after (accesses : List LockAccess) :
    (after accesses).Guarded file h ↔ isAlive file h accesses = true := by
  induction accesses with
  | nil => simp [after, empty, Guarded, isAlive]
  | cons access earlier ih =>
    have sound := sound_after earlier
    cases access with
    | enter file' h' => simp [after, LockTable.access, sound.guarded_enter, ih, isAlive, or_comm]
    | ask file' h' => simpa [after, LockTable.access, isAlive, Guarded] using ih
    | drop file' h' =>
      simp only [after, LockTable.access, sound.guarded_drop, ih, isAlive]
      grind

/-- A file has a lock in the table as long as someone has it, waits for it or is about to, all of
these refer to this lock, and no two of them have it. -/
theorem file_locks_are_shared (accesses : List LockAccess) :
    let t := after accesses
    (∀ file, (t.lock? file).isSome ↔ ∃ h, isAlive file h accesses = true) ∧
      (∀ file h, isAlive file h accesses = true ↔ ∃ g ∈ t.guards, g.file = file ∧ g.holder = h) ∧
      (∀ g ∈ t.guards, t.lock? g.file = some g.lock) ∧
      (∀ file h h', t.isHeldBy file h = true → t.isHeldBy file h' = true → h = h') ∧
      ((∀ file h, isAlive file h accesses = false) → t.entries = []) := by
  intro t
  have sound : t.Sound := sound_after accesses
  refine ⟨fun file => ?_, fun file h => (guarded_after accesses).symm,
    fun g mem => sound.lock?_of_guard mem, fun file h h' held held' => ?_, fun gone => ?_⟩
  · simp only [sound.isSome_lock?_iff, t, guarded_after]
  · exact sound.holds_unique (sound.isHeldBy_iff.mp held) (sound.isHeldBy_iff.mp held')
  · refine List.eq_nil_iff_forall_not_mem.mpr fun e mem => ?_
    obtain ⟨g, there, _⟩ := sound.used e mem
    have alive := (guarded_after accesses).mp ⟨g, there, rfl, rfl⟩
    cases (gone g.file g.holder).symm.trans alive

/-- Two have come for one lock. One has it and goes, after a third has given up its wait. -/
theorem waiting_guard_keeps_lock :
    let file : List Component := [.name [0x66]]
    let accesses : List LockAccess :=
      [.drop file 1, .drop file 3, .ask file 3, .enter file 3, .ask file 2, .ask file 1,
        .enter file 2, .enter file 1]
    let t := after accesses
    t.isHeldBy file 2 = true ∧ (t.lock? file).isSome ∧ (∀ h, t.isHeldBy file h = true → h = 2) ∧
      (after (.drop file 2 :: accesses)).entries = [] := by
  intro file accesses t
  have shared := file_locks_are_shared accesses
  have held : t.isHeldBy file 2 = true := by decide
  refine ⟨held, (shared.1 file).mpr ⟨2, by decide⟩, fun h other => ?_, ?_⟩
  · exact shared.2.2.2.1 file h 2 other held
  · refine (file_locks_are_shared (.drop file 2 :: accesses)).2.2.2.2 fun file' h => ?_
    simp only [isAlive, accesses]
    grind

end LockTable

namespace FileLocks

variable {t : FileLocks} {p q : Path} {h other : Holder}

/-- Someone has the lock of a file or waits for it. -/
def Involves (t : FileLocks) (p : Path) (h : Holder) : Prop := t.table.Guarded p.components h

theorem involves_request : (t.request p h).Involves q other ↔
    t.Involves q other ∨ q.components = p.components ∧ other = h := by
  unfold Involves request
  rw [← t.sound.guarded_enter]
  simp [LockTable.Guarded]

theorem involves_withdraw : (t.withdraw p h).Involves q other ↔
    t.Involves q other ∧ ¬(q.components = p.components ∧ other = h) :=
  t.sound.guarded_drop

/-- The lock in the entry of a file is the one that its guards have taken. -/
theorem holder_lockOf_iff : (t.lockOf p).holder = some h ↔ t.table.Holds p.components h := by
  unfold lockOf
  constructor
  · intro held
    split at held
    next lock known =>
      have entry := t.sound.lock?_eq_some_iff.mp known
      obtain ⟨g, mem, same, own⟩ := t.sound.guarded lock h (Lock.involves_iff.mpr (.inl held))
      have twin := LockTable.eq_of_same t.sound.apart (t.sound.entered g mem) entry same
      exact ⟨g, mem, congrArg Prod.fst twin, own, same ▸ held⟩
    next => cases held
  · rintro ⟨g, mem, here, own, held⟩
    rw [← here, t.sound.lock?_of_guard mem]
    exact held

theorem isHeldBy_iff : t.isHeldBy p h = true ↔ (t.lockOf p).holder = some h :=
  t.sound.isHeldBy_iff.trans holder_lockOf_iff.symm

theorem Involves.of_holder (held : (t.lockOf p).holder = some h) : t.Involves p h :=
  (holder_lockOf_iff.mp held).guarded

/-- Who holds a lock keeps it whatever others ask for. -/
theorem holder_request (held : (t.lockOf p).holder = some h) (q : Path) (other : Holder) :
    ((t.request q other).lockOf p).holder = some h := by
  rw [holder_lockOf_iff] at *
  obtain ⟨g, mem, here, own, held⟩ := held
  refine ⟨g, ?_, here, own, ?_⟩
  · simpa [request] using LockTable.mem_enter mem q.components other
  · refine (t.sound.enter q.components other).holder_ask ?_ q.components other
    rw [LockTable.lockAt_enter]
    exact held

theorem holder_withdraw (held : (t.lockOf p).holder = some h) (q : Path) (ne : other ≠ h) :
    ((t.withdraw q other).lockOf p).holder = some h := by
  rw [holder_lockOf_iff] at *
  exact t.sound.holds_drop held q.components ne

theorem held_of_vain (vain : ((t.request p h).lockOf p).holder ≠ some h) :
    ∃ other, (t.lockOf p).holder = some other ∧ other ≠ h := by
  have entered := t.sound.enter p.components h
  obtain ⟨g, mem, here, rfl⟩ := t.sound.guarded_enter.mpr (.inr ⟨rfl, rfl⟩ :
    t.table.Guarded p.components h ∨ p.components = p.components ∧ h = h)
  have asked : ((t.request p g.holder).table.lockAt g.lock) =
      (t.table.lockAt g.lock).request g.holder := by
    have found := entered.guard?_eq_some_iff.mpr ⟨mem, rfl, here⟩
    simp only [request, LockTable.ask, found]
    rw [LockTable.lockAt_setLock (entered.made_of_guard mem), if_pos rfl, LockTable.lockAt_enter]
  have refused : ((t.table.lockAt g.lock).request g.holder).holder ≠ some g.holder := by
    intro held
    refine vain (holder_lockOf_iff.mpr ⟨g, ?_, here, rfl, asked ▸ held⟩)
    simpa [request] using mem
  obtain ⟨other, held, ne⟩ := (t.sound.lock_sound g.lock).held_of_vain refused
  obtain ⟨g', mem', same, rfl⟩ := t.sound.guarded g.lock other (Lock.involves_iff.mpr (.inl held))
  -- both guards refer to one lock, so they are guards of one file
  have entry := entered.entered g' (LockTable.mem_enter mem' _ _)
  have twin := LockTable.eq_of_same entered.apart entry (entered.entered g mem) same
  refine ⟨_, holder_lockOf_iff.mpr ⟨g', mem', ?_, rfl, same ▸ held⟩, ne⟩
  exact (congrArg Prod.fst twin).trans here

end FileLocks

end CodeIntel

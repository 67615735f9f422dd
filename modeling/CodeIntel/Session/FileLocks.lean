import CodeIntel.Path.Basic
import CodeIntel.Session.Lock

namespace CodeIntel

/-- One who holds the lock of a file or waits for it, with the number of the lock that the file had
at the time. -/
structure FileGuard where
  holder : Holder
  file : List Component
  lock : Nat
deriving DecidableEq, Repr

/-- The locks of files. A file gets a lock when it is first asked for, and loses it when nobody
refers to it any more. -/
structure LockTable where
  /-- The locks that files have. -/
  entries : List (List Component × Nat)
  /-- All locks that were made, by their numbers. -/
  locks : List Lock
  guards : List FileGuard
deriving Repr

namespace LockTable

def empty : LockTable := ⟨[], [], []⟩

def lock? (t : LockTable) (file : List Component) : Option Nat :=
  (t.entries.find? fun e => e.1 = file).map (·.2)

def lockAt (t : LockTable) (lock : Nat) : Lock := t.locks[lock]?.getD .free

def setLock (t : LockTable) (lock : Nat) (l : Lock) : LockTable :=
  { t with locks := t.locks.set lock l }

def guard? (t : LockTable) (file : List Component) (h : Holder) : Option FileGuard :=
  t.guards.find? fun g => (g.holder, g.file) = (h, file)

/-- Takes the lock of a file, which is made if it has none, for a new guard. -/
def enter (t : LockTable) (file : List Component) (h : Holder) : LockTable :=
  if (t.guard? file h).isSome then t
  else
    match t.lock? file with
    | some lock => { t with guards := ⟨h, file, lock⟩ :: t.guards }
    | none =>
      let lock := t.locks.length
      ⟨(file, lock) :: t.entries, t.locks ++ [.free], ⟨h, file, lock⟩ :: t.guards⟩

/-- Asks for the lock that a guard has taken. -/
def ask (t : LockTable) (file : List Component) (h : Holder) : LockTable :=
  match t.guard? file h with
  | none => t
  | some g => t.setLock g.lock ((t.lockAt g.lock).request h)

/-- How many things refer to a lock: its entry, its guards, and once more those of them that hold
it or wait for it. -/
def references (t : LockTable) (lock : Nat) : Nat :=
  (t.entries.countP fun e => e.2 = lock) + (t.guards.countP fun g => g.lock = lock) +
    t.guards.countP fun g => g.lock = lock && (t.lockAt lock).involves g.holder

/-- Gives up a guard: first the lock or the wait for it, then the entry of the file, if but this
and the guard refer to the lock. -/
def drop (t : LockTable) (file : List Component) (h : Holder) : LockTable :=
  match t.guard? file h with
  | none => t
  | some g =>
    let t := t.setLock g.lock ((t.lockAt g.lock).withdraw h)
    { t with
      entries :=
        if t.references g.lock = 2 then t.entries.filter fun e => e.1 ≠ file else t.entries
      guards := t.guards.filter fun other => other ≠ g }

/-- Whether a guard has the lock that it has taken. -/
def isHeldBy (t : LockTable) (file : List Component) (h : Holder) : Bool :=
  match t.guard? file h with
  | some g => (t.lockAt g.lock).holder = some h
  | none => false

/-- The files with guards are those with entries, and their guards refer to the locks in these. -/
structure Sound (t : LockTable) : Prop where
  files : (t.entries.map (·.1)).Nodup
  apart : (t.entries.map (·.2)).Nodup
  made : ∀ e ∈ t.entries, e.2 < t.locks.length
  used : ∀ e ∈ t.entries, ∃ g ∈ t.guards, g.file = e.1
  entered : ∀ g ∈ t.guards, (g.file, g.lock) ∈ t.entries
  once : (t.guards.map fun g => (g.holder, g.file)).Nodup
  locks : ∀ l ∈ t.locks, l.Sound
  guarded : ∀ lock h, (t.lockAt lock).involves h = true → ∃ g ∈ t.guards, g.lock = lock ∧ g.holder = h

variable {α κ : Type} {t : LockTable} {file : List Component} {h : Holder} {lock : Nat}
  {g other : FileGuard}

theorem find?_eq_some_iff [DecidableEq κ] {things : List α} {f : α → κ} {key : κ} {a : α}
    (once : (things.map f).Nodup) :
    (things.find? fun b => f b = key) = some a ↔ a ∈ things ∧ f a = key := by
  induction things with
  | nil => simp
  | cons b rest ih =>
    simp only [List.map_cons, List.nodup_cons, List.mem_map, not_exists, not_and] at once
    by_cases eq : f b = key
    · rw [List.find?_cons_of_pos (by simpa using eq)]
      grind
    · rw [List.find?_cons_of_neg (by simpa using eq), ih once.2]
      grind

theorem eq_of_same [DecidableEq κ] {things : List α} {f : α → κ} {a b : α}
    (once : (things.map f).Nodup) (ha : a ∈ things) (hb : b ∈ things) (same : f a = f b) : a = b :=
  Option.some.inj (((find?_eq_some_iff once).mpr ⟨ha, same⟩).symm.trans
    ((find?_eq_some_iff once).mpr ⟨hb, rfl⟩))

theorem nodup_of_map {things : List α} {f : α → κ} (once : (things.map f).Nodup) : things.Nodup :=
  (List.pairwise_map.mp once).imp fun apart same => apart (congrArg f same)

theorem countP_eq_one_iff [DecidableEq α] {things : List α} {p : α → Bool} {a : α}
    (once : things.Nodup) (mem : a ∈ things) (here : p a = true) :
    things.countP p = 1 ↔ ∀ b ∈ things, p b = true → b = a := by
  rw [(List.perm_cons_erase mem).countP_eq, List.countP_cons_of_pos here]
  simp only [Nat.add_eq_right, List.countP_eq_zero, once.mem_erase_iff]
  grind

namespace Sound

theorem lock?_eq_some_iff (sound : t.Sound) :
    t.lock? file = some lock ↔ (file, lock) ∈ t.entries := by
  simp only [lock?, Option.map_eq_some_iff, find?_eq_some_iff sound.files]
  grind

theorem guard?_eq_some_iff (sound : t.Sound) :
    t.guard? file h = some g ↔ g ∈ t.guards ∧ g.holder = h ∧ g.file = file := by
  rw [guard?, find?_eq_some_iff sound.once, Prod.mk.injEq]

theorem made_of_guard (sound : t.Sound) (mem : g ∈ t.guards) : g.lock < t.locks.length :=
  sound.made _ (sound.entered g mem)

theorem lock_sound (sound : t.Sound) (lock : Nat) : (t.lockAt lock).Sound := by
  unfold lockAt
  cases made : t.locks[lock]? with
  | none => exact Lock.sound_free
  | some l => exact sound.locks l (List.mem_of_getElem? made)

end Sound

theorem sound_empty : Sound empty :=
  ⟨.nil, .nil, nofun, nofun, nofun, .nil, nofun, by simp [empty, lockAt, Lock.free, Lock.involves]⟩

theorem lockAt_setLock (made : lock < t.locks.length) (l : Lock) (lock' : Nat) :
    (t.setLock lock l).lockAt lock' = if lock' = lock then l else t.lockAt lock' := by
  unfold setLock lockAt
  split
  next same => simp [same, made]
  next apart => rw [List.getElem?_set_ne (Ne.symm apart)]

theorem lockAt_append_free (locks : List Lock) (lock : Nat) :
    (locks ++ [.free])[lock]?.getD .free = locks[lock]?.getD .free := by
  rcases Nat.lt_trichotomy lock locks.length with made | rfl | beyond
  · rw [List.getElem?_append_left made]
  · simp
  · rw [List.getElem?_eq_none (by simp; omega), List.getElem?_eq_none (by omega)]

/-- A lock may change hands among those who have guards. -/
theorem Sound.setLock (sound : t.Sound) (made : lock < t.locks.length) {l : Lock} (keeps : l.Sound)
    (guarded : ∀ h, l.involves h = true → ∃ g ∈ t.guards, g.lock = lock ∧ g.holder = h) :
    (t.setLock lock l).Sound := by
  refine ⟨sound.files, sound.apart, ?_, sound.used, sound.entered, sound.once, ?_, ?_⟩
  · intro e mem
    simpa [LockTable.setLock] using sound.made e mem
  · intro other mem
    rcases List.mem_or_eq_of_mem_set mem with old | rfl
    · exact sound.locks other old
    · exact keeps
  · intro lock' h involved
    rw [lockAt_setLock made] at involved
    split at involved
    next same => exact same ▸ guarded h involved
    next => exact sound.guarded lock' h involved

theorem enter_eq_of_guard (there : (t.guard? file h).isSome = true) : t.enter file h = t := by
  rw [enter, if_pos there]

theorem Sound.enter (sound : t.Sound) (file : List Component) (h : Holder) :
    (t.enter file h).Sound := by
  unfold LockTable.enter
  split
  · exact sound
  next new =>
    have fresh : (h, file) ∉ t.guards.map fun g => (g.holder, g.file) := by
      intro mem
      obtain ⟨g, mem, same⟩ := List.mem_map.mp mem
      rw [sound.guard?_eq_some_iff.mpr ⟨mem, Prod.mk.inj same⟩] at new
      exact new rfl
    have once := List.nodup_cons.mpr ⟨fresh, sound.once⟩
    split
    next lock known =>
      have entry := sound.lock?_eq_some_iff.mp known
      refine ⟨sound.files, sound.apart, sound.made, ?_, ?_, once, sound.locks, ?_⟩
      · intro e mem
        obtain ⟨g, there, same⟩ := sound.used e mem
        exact ⟨g, List.mem_cons_of_mem _ there, same⟩
      · exact List.forall_mem_cons.mpr ⟨entry, sound.entered⟩
      · intro lock' h' involved
        obtain ⟨g, there, same⟩ := sound.guarded lock' h' involved
        exact ⟨g, List.mem_cons_of_mem _ there, same⟩
    next unknown =>
      have unnamed : file ∉ t.entries.map (·.1) := by
        intro mem
        obtain ⟨⟨_, lock⟩, there, rfl⟩ := List.mem_map.mp mem
        cases unknown.symm.trans (sound.lock?_eq_some_iff.mpr there)
      have unmade : t.locks.length ∉ t.entries.map (·.2) := by
        intro mem
        obtain ⟨e, mem, same⟩ := List.mem_map.mp mem
        exact Nat.ne_of_lt (sound.made e mem) same
      refine ⟨List.nodup_cons.mpr ⟨unnamed, sound.files⟩, List.nodup_cons.mpr ⟨unmade, sound.apart⟩,
        ?_, ?_, ?_, once, ?_, ?_⟩
      · refine List.forall_mem_cons.mpr ⟨by simp, fun e mem => ?_⟩
        have made := sound.made e mem
        simp only [List.length_append, List.length_singleton]
        omega
      · refine List.forall_mem_cons.mpr ⟨⟨_, List.mem_cons_self, rfl⟩, fun e mem => ?_⟩
        obtain ⟨g, there, same⟩ := sound.used e mem
        exact ⟨g, List.mem_cons_of_mem _ there, same⟩
      · exact List.forall_mem_cons.mpr ⟨List.mem_cons_self, fun g mem =>
          List.mem_cons_of_mem _ (sound.entered g mem)⟩
      · intro l mem
        rcases List.mem_append.mp mem with mem | mem
        · exact sound.locks l mem
        · cases List.mem_singleton.mp mem
          exact Lock.sound_free
      · intro lock' h' involved
        rw [lockAt, lockAt_append_free] at involved
        obtain ⟨g, there, same⟩ := sound.guarded lock' h' involved
        exact ⟨g, List.mem_cons_of_mem _ there, same⟩

theorem Sound.ask (sound : t.Sound) (file : List Component) (h : Holder) :
    (t.ask file h).Sound := by
  unfold LockTable.ask
  split
  · exact sound
  next g found =>
    obtain ⟨mem, rfl, rfl⟩ := sound.guard?_eq_some_iff.mp found
    refine sound.setLock (sound.made_of_guard mem) ((sound.lock_sound g.lock).request _) ?_
    intro h' involved
    rcases (Lock.involves_request ..).mp involved with before | rfl
    · exact sound.guarded g.lock h' before
    · exact ⟨g, mem, rfl, rfl⟩

/-- Once a guard has given up its lock, but the guard and the entry refer to it if no other guard
does. -/
theorem Sound.references_eq_two_iff (sound : t.Sound) (mem : g ∈ t.guards)
    (out : (t.lockAt g.lock).involves g.holder = false) :
    t.references g.lock = 2 ↔ ∀ other ∈ t.guards, other.lock = g.lock → other = g := by
  have entry : (t.entries.countP fun e => e.2 = g.lock) = 1 := by
    refine (countP_eq_one_iff (nodup_of_map sound.files) (sound.entered g mem) (by simp)).mpr ?_
    exact fun e there same => eq_of_same sound.apart there (sound.entered g mem) (by simpa using same)
  have alone := countP_eq_one_iff (p := fun other => decide (other.lock = g.lock))
    (nodup_of_map sound.once) mem (by simp)
  have own : 0 < t.guards.countP fun other => decide (other.lock = g.lock) :=
    List.countP_pos_iff.mpr ⟨g, mem, by simp⟩
  simp only [decide_eq_true_eq] at alone
  rw [← alone, references, entry]
  constructor
  · omega
  · intro one
    have none : (t.guards.countP fun other =>
        other.lock = g.lock && (t.lockAt g.lock).involves other.holder) = 0 := by
      refine List.countP_eq_zero.mpr fun other there involved => ?_
      obtain ⟨same, involved⟩ := Bool.and_eq_true_iff.mp involved
      cases alone.mp one other there (by simpa using same)
      cases out.symm.trans involved
    omega

/-- A guard that has given up its lock may go, and with the last one the entry of its file. -/
theorem Sound.forget (sound : t.Sound) (mem : g ∈ t.guards)
    (out : (t.lockAt g.lock).involves g.holder = false) :
    Sound
      { t with
        entries :=
          if t.references g.lock = 2 then t.entries.filter fun e => e.1 ≠ g.file else t.entries
        guards := t.guards.filter fun other => other ≠ g } := by
  have kept {other : FileGuard} : other ∈ t.guards.filter (fun other => other ≠ g) ↔
      other ∈ t.guards ∧ other ≠ g := by simp
  have once := sound.once.sublist
    ((List.filter_sublist (l := t.guards) (p := fun other => other ≠ g)).map _)
  have guarded : ∀ lock h, (t.lockAt lock).involves h = true →
      ∃ other ∈ t.guards.filter (fun other => other ≠ g), other.lock = lock ∧ other.holder = h := by
    intro lock h involved
    obtain ⟨other, there, rfl, rfl⟩ := sound.guarded lock h involved
    refine ⟨other, kept.mpr ⟨there, ?_⟩, rfl, rfl⟩
    rintro rfl
    cases out.symm.trans involved
  -- the guards of one file are those of one lock
  have same_lock : ∀ other ∈ t.guards, other.file = g.file → other.lock = g.lock := by
    intro other there same
    have entry := sound.lock?_eq_some_iff.mpr (sound.entered other there)
    rw [same, sound.lock?_eq_some_iff.mpr (sound.entered g mem)] at entry
    exact (Option.some.inj entry).symm
  split
  next last =>
    have last := (sound.references_eq_two_iff mem out).mp last
    have rest {e : List Component × Nat} : e ∈ t.entries.filter (fun e => e.1 ≠ g.file) ↔
        e ∈ t.entries ∧ e.1 ≠ g.file := by simp
    refine ⟨sound.files.sublist (List.filter_sublist.map _),
      sound.apart.sublist (List.filter_sublist.map _), fun e there => sound.made e (rest.mp there).1,
      ?_, ?_, once, sound.locks, guarded⟩
    · intro e there
      obtain ⟨there, apart⟩ := rest.mp there
      obtain ⟨other, mem, same⟩ := sound.used e there
      refine ⟨other, kept.mpr ⟨mem, ?_⟩, same⟩
      rintro rfl
      exact apart same.symm
    · intro other there
      obtain ⟨there, ne⟩ := kept.mp there
      refine rest.mpr ⟨sound.entered other there, fun same => ne ?_⟩
      exact last other there (same_lock other there same)
  next shared =>
    obtain ⟨companion, there, same, ne⟩ : ∃ other ∈ t.guards, other.lock = g.lock ∧ other ≠ g := by
      simpa [sound.references_eq_two_iff mem out] using shared
    refine ⟨sound.files, sound.apart, sound.made, ?_, fun other there =>
      sound.entered other (kept.mp there).1, once, sound.locks, guarded⟩
    intro e entry
    obtain ⟨other, user, file⟩ := sound.used e entry
    by_cases eq : other = g
    · subst eq
      have twin := eq_of_same sound.apart (sound.entered companion there) (sound.entered other mem) same
      exact ⟨companion, kept.mpr ⟨there, ne⟩, (congrArg Prod.fst twin).trans file⟩
    · exact ⟨other, kept.mpr ⟨user, eq⟩, file⟩

theorem Sound.drop (sound : t.Sound) (file : List Component) (h : Holder) :
    (t.drop file h).Sound := by
  unfold LockTable.drop
  split
  · exact sound
  next g found =>
    obtain ⟨mem, rfl, rfl⟩ := sound.guard?_eq_some_iff.mp found
    have made := sound.made_of_guard mem
    have left := (sound.lock_sound g.lock).involves_withdraw g.holder
    have released : (t.setLock g.lock ((t.lockAt g.lock).withdraw g.holder)).Sound := by
      refine sound.setLock made ((sound.lock_sound g.lock).withdraw _) fun h' involved => ?_
      exact sound.guarded g.lock h' ((left h').mp involved).1
    refine released.forget mem ?_
    rw [lockAt_setLock made, if_pos rfl]
    exact Bool.eq_false_iff.mpr fun involved => ((left _).mp involved).2 rfl

end LockTable

/-- The locks of files as calls use them. -/
structure FileLocks where
  table : LockTable
  sound : table.Sound

namespace FileLocks

def empty : FileLocks := ⟨.empty, LockTable.sound_empty⟩

instance : Inhabited FileLocks := ⟨empty⟩

/-- The lock of a file; one without an entry is free. -/
def lockOf (t : FileLocks) (p : Path) : Lock :=
  match t.table.lock? p.components with
  | some lock => t.table.lockAt lock
  | none => .free

def request (t : FileLocks) (p : Path) (h : Holder) : FileLocks where
  table := (t.table.enter p.components h).ask p.components h
  sound := (t.sound.enter p.components h).ask p.components h

/-- Gives up the lock of a file or the wait for it. -/
def withdraw (t : FileLocks) (p : Path) (h : Holder) : FileLocks where
  table := t.table.drop p.components h
  sound := t.sound.drop p.components h

def isHeldBy (t : FileLocks) (p : Path) (h : Holder) : Bool := t.table.isHeldBy p.components h

end FileLocks

end CodeIntel

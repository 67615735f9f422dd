namespace CodeIntel

/-- Whoever may hold a lock, by a number of its own. -/
abbrev Holder := Nat

/-- A lock that is handed on in the order in which it was asked for. -/
structure Lock where
  holder : Option Holder
  waiting : List Holder
deriving DecidableEq, Repr, Inhabited

namespace Lock

def free : Lock := ⟨none, []⟩

/-- Whether someone holds the lock or waits for it. -/
def involves (l : Lock) (h : Holder) : Bool := l.holder = some h || l.waiting.contains h

/-- Asks for the lock. Who finds it free holds it, anyone else waits; asking again changes
nothing. -/
def request (l : Lock) (h : Holder) : Lock :=
  if l.involves h then l
  else
    match l.holder with
    | none => ⟨some h, l.waiting⟩
    | some _ => ⟨l.holder, l.waiting ++ [h]⟩

/-- Gives up the lock or the place in the queue. A lock that is given up goes to who waits
longest. -/
def withdraw (l : Lock) (h : Holder) : Lock :=
  if l.holder = some h then
    match l.waiting with
    | [] => free
    | next :: rest => ⟨some next, rest⟩
  else ⟨l.holder, l.waiting.erase h⟩

/-- A lock in use has a holder, and nobody holds or waits twice. -/
structure Sound (l : Lock) : Prop where
  held : l.holder = none → l.waiting = []
  apart : ∀ h, l.holder = some h → h ∉ l.waiting
  once : l.waiting.Nodup

theorem sound_free : Sound free := ⟨fun _ => rfl, by simp [free], .nil⟩

theorem Sound.request {l : Lock} (sound : l.Sound) (h : Holder) : (l.request h).Sound := by
  unfold Lock.request
  split
  · exact sound
  next new =>
    simp only [involves, Bool.or_eq_true, decide_eq_true_eq, List.contains_iff_mem,
      not_or] at new
    split
    next none =>
      have empty := sound.held none
      exact ⟨by simp, by simp [empty], by simp [empty]⟩
    next other some =>
      refine ⟨by simp [some], ?_, ?_⟩
      · intro x hx
        rw [some] at hx new
        cases hx
        simp only [List.mem_append, List.mem_singleton, not_or]
        exact ⟨sound.apart other some, fun eq => new.1 (congrArg _ eq)⟩
      · simp only [List.nodup_append, List.mem_singleton, sound.once, true_and]
        refine ⟨by simp, ?_⟩
        rintro a ha b rfl rfl
        exact new.2 ha

theorem Sound.withdraw {l : Lock} (sound : l.Sound) (h : Holder) : (l.withdraw h).Sound := by
  unfold Lock.withdraw
  split
  · split
    · exact sound_free
    next next rest eq =>
      have once := eq ▸ sound.once
      have ⟨apart, tail⟩ := List.nodup_cons.mp once
      refine ⟨by simp, ?_, tail⟩
      intro x hx
      cases hx
      exact apart
  · refine ⟨fun none => by simp [sound.held none], ?_, sound.once.erase h⟩
    intro x hx mem
    exact sound.apart x hx (List.mem_of_mem_erase mem)

theorem involves_iff {l : Lock} {h : Holder} :
    l.involves h = true ↔ l.holder = some h ∨ h ∈ l.waiting := by
  simp [involves]

/-- Whoever asks for a lock waits for it or holds it, as before do all others. -/
theorem involves_request (l : Lock) (h other : Holder) :
    (l.request h).involves other = true ↔ l.involves other = true ∨ other = h := by
  unfold Lock.request
  split
  next already =>
    refine ⟨.inl, ?_⟩
    rintro (before | rfl)
    · exact before
    · exact already
  next =>
    obtain ⟨_ | holder, waiting⟩ := l
    · simp only [involves_iff]
      grind
    · simp [involves_iff, or_assoc]

/-- Whoever gives a lock up neither waits for it nor holds it any more. -/
theorem Sound.involves_withdraw {l : Lock} (sound : l.Sound) (h other : Holder) :
    (l.withdraw h).involves other = true ↔ l.involves other = true ∧ other ≠ h := by
  unfold Lock.withdraw
  split
  next mine =>
    have apart := sound.apart h mine
    obtain ⟨holder, _ | ⟨next, rest⟩⟩ := l
    · simp_all [involves_iff, free]
    · simp only [involves_iff] at *
      grind
  next theirs =>
    simp only [involves_iff, sound.once.mem_erase_iff]
    grind

end Lock

end CodeIntel

import CodeIntel.Proofs.Basic
import CodeIntel.Proofs.Session.Replies
import Mathlib.Data.List.Nodup

namespace CodeIntel

section Calls

variable {ρ : Type} {w w' : World ρ} {c : Call ρ}

namespace World

theorem mem_of_call? {id : Holder} (h : w.call? id = some c) : c ∈ w.calls ∧ c.id = id :=
  ⟨List.mem_of_find?_eq_some h, by simpa using List.find?_some h⟩

theorem step_of_call? {id : Holder} (h : w.call? id = some c) (abortFirst : Bool) :
    (w.step abortFirst id).1 = (w.stepActivity abortFirst c).1.settleCall
      { c with activity := (w.stepActivity abortFirst c).2.1 } := by
  unfold step
  rw [h]

theorem step_of_none {id : Holder} (h : w.call? id = none) (abortFirst : Bool) :
    (w.step abortFirst id).1 = w := by
  unfold step
  rw [h]

theorem mem_replaceCall {other : Call ρ} (h : other ∈ (w.replaceCall c).calls) :
    other = c ∨ (other ∈ w.calls ∧ other.id ≠ c.id) := by
  obtain ⟨old, mem, eq⟩ := List.mem_map.mp h
  split at eq
  · exact .inl eq.symm
  next ne => exact .inr ⟨eq ▸ mem, eq ▸ ne⟩

theorem map_id_map {calls : List (Call ρ)} {f : Call ρ → Call ρ}
    (h : ∀ c ∈ calls, (f c).id = c.id) : (calls.map f).map Call.id = calls.map Call.id := by
  rw [List.map_map]
  exact List.map_congr_left h

theorem ids_replaceCall (w : World ρ) (c : Call ρ) :
    (w.replaceCall c).calls.map Call.id = w.calls.map Call.id := by
  refine map_id_map fun other _ => ?_
  split
  next eq => exact eq.symm
  next => rfl

theorem mem_removeCall {id : Holder} {other : Call ρ} (once : (w.calls.map Call.id).Nodup)
    (h : other ∈ (w.removeCall id).calls) : other ∈ w.calls ∧ other.id ≠ id :=
  mem_eraseP_of_nodup_map once h

theorem mem_removeCall_of_ne {other : Call ρ} (h : other ∈ w.calls) (ne : other.id ≠ c.id) :
    other ∈ (w.removeCall c.id).calls :=
  (List.mem_eraseP_of_neg (by simpa using ne)).mpr h

theorem mem_replaceCall_self (mem : ∃ old ∈ w.calls, old.id = c.id) :
    c ∈ (w.replaceCall c).calls := by
  obtain ⟨old, mem, same⟩ := mem
  exact List.mem_map.mpr ⟨old, mem, if_pos same⟩

theorem mem_replaceCall_of_ne {other : Call ρ} (h : other ∈ w.calls) (ne : other.id ≠ c.id) :
    other ∈ (w.replaceCall c).calls :=
  List.mem_map.mpr ⟨other, h, if_neg ne⟩

theorem ids_cancel (w : World ρ) (id : Holder) :
    (w.cancel id).calls.map Call.id = w.calls.map Call.id := by
  refine map_id_map fun c _ => ?_
  split <;> rfl

theorem mem_cancel {id : Holder} (h : c ∈ (w.cancel id).calls) :
    ∃ old ∈ w.calls, old.id = c.id ∧ old.activity = c.activity := by
  obtain ⟨old, mem, rfl⟩ := List.mem_map.mp h
  refine ⟨old, mem, ?_⟩
  split <;> exact ⟨rfl, rfl⟩

theorem settleCall_cases (w : World ρ) (c : Call ρ) :
    (∃ result, c.activity = .calling (.done result) ∧ w.settleCall c =
      { w.removeCall c.id with finished := w.finished ++ [⟨c.id, c.cancelled, result⟩] }) ∨
      ((∀ result, c.activity ≠ .calling (.done result)) ∧ w.settleCall c = w.replaceCall c) := by
  unfold settleCall
  split
  next result ends => exact .inl ⟨result, ends, rfl⟩
  next running => exact .inr ⟨running, rfl⟩

/-- After its step, a call takes the place of what it was, unless it has come to its end. -/
theorem mem_settleCall_iff {activity : Activity ρ} {other : Call ρ}
    (once : (w.calls.map Call.id).Nodup) (mem : c ∈ w.calls) :
    other ∈ (w.settleCall { c with activity := activity }).calls ↔
      (other ∈ w.calls ∧ other.id ≠ c.id) ∨ (other = { c with activity := activity } ∧
        ∀ result, activity ≠ .calling (.done result)) := by
  obtain ⟨result, ends, eq⟩ | ⟨running, eq⟩ := settleCall_cases w { c with activity := activity }
  · rw [eq]
    constructor
    · exact fun h => .inl (mem_removeCall once h)
    · rintro (⟨h, ne⟩ | ⟨_, running⟩)
      · exact mem_removeCall_of_ne h ne
      · exact absurd ends (running result)
  · rw [eq]
    constructor
    · exact fun h => (mem_replaceCall h).symm.imp_right fun same => ⟨same, running⟩
    · rintro (⟨h, ne⟩ | ⟨rfl, _⟩)
      · exact mem_replaceCall_of_ne h ne
      · exact mem_replaceCall_self ⟨c, mem, rfl⟩

theorem files_settleCall (w : World ρ) (c : Call ρ) : (w.settleCall c).files = w.files := by
  obtain ⟨_, _, eq⟩ | ⟨_, eq⟩ := settleCall_cases w c <;> rw [eq] <;> rfl

theorem gate_settleCall (w : World ρ) (c : Call ρ) : (w.settleCall c).gate = w.gate := by
  obtain ⟨_, _, eq⟩ | ⟨_, eq⟩ := settleCall_cases w c <;> rw [eq] <;> rfl

theorem backend_settleCall (w : World ρ) (c : Call ρ) : (w.settleCall c).backend = w.backend := by
  obtain ⟨_, _, eq⟩ | ⟨_, eq⟩ := settleCall_cases w c <;> rw [eq] <;> rfl

/-- A call with this number is under way, or it has ended. -/
def Knows (w : World ρ) (id : Holder) : Prop :=
  id ∈ w.calls.map Call.id ∨ id ∈ w.finished.map Finished.id

theorem Knows.congr {id : Holder} (knows : w.Knows id) (calls : w'.calls = w.calls)
    (finished : w'.finished = w.finished) : w'.Knows id := by
  rwa [Knows, calls, finished]

theorem Knows.settle {id : Holder} (knows : w.Knows id) (c : Call ρ) :
    (w.settleCall c).Knows id := by
  obtain ⟨result, _, eq⟩ | ⟨_, eq⟩ := settleCall_cases w c
  · rw [eq]
    rcases knows with calls | finished
    · obtain ⟨other, mem, rfl⟩ := List.mem_map.mp calls
      by_cases same : other.id = c.id
      · exact .inr (by simp [same])
      · exact .inl (List.mem_map_of_mem (mem_removeCall_of_ne mem same))
    · exact .inr (by simpa using .inl (List.mem_map.mp finished))
  · rw [eq]
    exact knows.imp_left fun calls => (ids_replaceCall w c).symm ▸ calls

end World

/-- The calls have numbers of their own, none of which is given again. -/
structure Numbered (w : World ρ) : Prop where
  ids : (w.calls.map Call.id).Nodup
  known : ∀ c ∈ w.calls, c.id ≤ w.lastCall
  ended : ∀ f ∈ w.finished, f.id ≤ w.lastCall ∧ ∀ c ∈ w.calls, c.id ≠ f.id

namespace Numbered

open World

theorem congr (numbered : Numbered w) (calls : w'.calls = w.calls)
    (finished : w'.finished = w.finished) (lastCall : w'.lastCall = w.lastCall) : Numbered w' := by
  refine ⟨calls ▸ numbered.ids, ?_, ?_⟩
  · rw [calls, lastCall]
    exact numbered.known
  · rw [calls, finished, lastCall]
    exact numbered.ended

theorem call?_of_mem (numbered : Numbered w) (mem : c ∈ w.calls) : w.call? c.id = some c :=
  (LockTable.find?_eq_some_iff numbered.ids).mpr ⟨mem, rfl⟩

theorem le_lastCall {id : Holder} (numbered : Numbered w) (knows : w.Knows id) :
    id ≤ w.lastCall := by
  rcases knows with calls | finished
  · obtain ⟨c, mem, rfl⟩ := List.mem_map.mp calls
    exact numbered.known c mem
  · obtain ⟨f, hf, rfl⟩ := List.mem_map.mp finished
    exact (numbered.ended f hf).1

theorem settle (numbered : Numbered w) (mem : ∃ old ∈ w.calls, old.id = c.id) :
    Numbered (w.settleCall c) := by
  obtain ⟨old, oldMem, oldId⟩ := mem
  have least : c.id ≤ w.lastCall := oldId ▸ numbered.known old oldMem
  obtain ⟨result, _, eq⟩ | ⟨_, eq⟩ := settleCall_cases w c
  · rw [eq]
    refine ⟨numbered.ids.sublist (List.eraseP_sublist.map _), ?_, ?_⟩
    · intro other h
      exact numbered.known other (mem_removeCall numbered.ids h).1
    · intro f hf
      rcases List.mem_append.mp hf with hf | hf
      · have ended := numbered.ended f hf
        exact ⟨ended.1, fun other h => ended.2 other (mem_removeCall numbered.ids h).1⟩
      · cases List.mem_singleton.mp hf
        exact ⟨least, fun other h => (mem_removeCall numbered.ids h).2⟩
  · rw [eq]
    refine ⟨(ids_replaceCall w c).symm ▸ numbered.ids, ?_, ?_⟩
    · intro other h
      rcases mem_replaceCall h with rfl | ⟨h, _⟩
      · exact least
      · exact numbered.known other h
    · intro f hf
      refine ⟨(numbered.ended f hf).1, fun other h => ?_⟩
      rcases mem_replaceCall h with rfl | ⟨h, _⟩
      · exact oldId ▸ (numbered.ended f hf).2 old oldMem
      · exact (numbered.ended f hf).2 other h

theorem cancel (numbered : Numbered w) (id : Holder) : Numbered (w.cancel id) := by
  refine ⟨(ids_cancel w id).symm ▸ numbered.ids, ?_, ?_⟩
  · intro c h
    obtain ⟨old, mem, same, _⟩ := mem_cancel h
    exact same ▸ numbered.known old mem
  · intro f hf
    refine ⟨(numbered.ended f hf).1, fun c h => ?_⟩
    obtain ⟨old, mem, same, _⟩ := mem_cancel h
    exact same ▸ (numbered.ended f hf).2 old mem

theorem start (numbered : Numbered w) (activity : Activity ρ) (cancelled : Bool) :
    Numbered (w.start activity cancelled).1 := by
  refine ⟨?_, ?_, ?_⟩
  · simp only [World.start, List.map_append, List.map_singleton]
    refine List.nodup_append.mpr ⟨numbered.ids, List.nodup_singleton _, ?_⟩
    intro id h _ new
    obtain ⟨c, mem, rfl⟩ := List.mem_map.mp h
    rw [List.mem_singleton.mp new]
    exact Nat.ne_of_lt (Nat.lt_succ_of_le (numbered.known c mem))
  · intro c h
    rcases List.mem_append.mp h with h | h
    · exact Nat.le_succ_of_le (numbered.known c h)
    · cases List.mem_singleton.mp h
      exact Nat.le_refl _
  · intro f hf
    refine ⟨Nat.le_succ_of_le (numbered.ended f hf).1, fun c h => ?_⟩
    rcases List.mem_append.mp h with h | h
    · exact (numbered.ended f hf).2 c h
    · cases List.mem_singleton.mp h
      exact (Nat.ne_of_lt (Nat.lt_succ_of_le (numbered.ended f hf).1)).symm

end Numbered

end Calls

namespace World

variable {ρ : Type} {w : World ρ} {c : Call ρ} {client : Client} {link : Link}

/-- How a call that is not cancelled goes on where a connection leads to the server. -/
inductive Moves (w : World ρ) (c : Call ρ) (client : Client) (link : Link) :
    World ρ → Activity ρ → Prop
  | ended {result : ρ} (activity : c.activity = .calling (.done result)) :
      Moves w c client link w (.calling (.done result))
  | asks {q : Ask} {next : q.Reply → CallPlan ρ} {w' : World ρ} {after : Activity ρ}
      (activity : c.activity = .calling (.ask q next)) (other : ∀ query, q ≠ .query query)
      (gate : w'.gate = w.gate) (backend : w'.backend = w.backend)
      (replied : Replied c next w w' after) : Moves w c client link w' after
  | waits {q : Query} {next : Except QueryFailure q.Reply → CallPlan ρ}
      (activity : c.activity = .calling (.ask (.query q) next)) :
      Moves w c client link { w with gate := w.gate.request c.id } (.calling (.ask (.query q) next))
  | enters {q : Query} {next : Except QueryFailure q.Reply → CallPlan ρ}
      (activity : c.activity = .calling (.ask (.query q) next))
      (held : (w.gate.request c.id).holder = some c.id) :
      Moves w c client link { w with gate := w.gate.request c.id }
        (.serving true (workOn client q next) (next (.error .cancelled)))
  | works {gated : Bool} {work : Work (CallPlan ρ)} {aborted : CallPlan ρ}
      (activity : c.activity = .serving gated work aborted) :
      Moves w c client link (w.setLink client (link.advance w.moment c.id work).1)
        (.serving gated (link.advance w.moment c.id work).2.1 aborted)
  | leaves {gated : Bool} {plan aborted : CallPlan ρ}
      (activity : c.activity = .serving gated (.done plan) aborted) :
      Moves w c client link (w.leaveGate gated c.id) (.calling plan)

theorem gate_stepAsking (w : World ρ) (abortFirst : Bool) (c : Call ρ) {q : Ask}
    (next : q.Reply → CallPlan ρ) :
    (w.stepAsking abortFirst c q next).1.gate = w.gate ∧
      (w.stepAsking abortFirst c q next).1.backend = w.backend := by
  unfold stepAsking
  cases onFiles : w.fileReply q with
  | some outcome =>
    obtain ⟨w', reply⟩ := outcome
    have same := (fileReply_spec (Given w w') c.cancelled onFiles).2
    have gate : w'.gate = w.gate := by rw [same]
    have backend : w'.backend = w.backend := by rw [same]
    exact ⟨gate, backend⟩
  | none =>
    have others : (w.otherReply abortFirst c q).1.gate = w.gate ∧
        (w.otherReply abortFirst c q).1.backend = w.backend := by
      cases q with
      | enterFile path =>
        unfold otherReply enterFile
        simp only
        split
        · exact ⟨rfl, rfl⟩
        · split
          · exact ⟨rfl, rfl⟩
          · split <;> exact ⟨rfl, rfl⟩
      | _ => exact ⟨rfl, rfl⟩
    simp only
    split
    next eq => rwa [eq] at others
    next eq => rwa [eq] at others

theorem moves_enterGate (linked : w.backend = .linked client link) (going : c.cancelled = false)
    {q : Query} {next : Except QueryFailure q.Reply → CallPlan ρ}
    (activity : c.activity = .calling (.ask (.query q) next)) (abortFirst : Bool) :
    Moves w c client link (w.enterGate abortFirst c q next).1
      (w.enterGate abortFirst c q next).2.1 := by
  unfold enterGate
  rw [going]
  simp only [Bool.false_and, Bool.false_eq_true, ↓reduceIte]
  split
  next held =>
    simp only [serve, linked]
    exact linked ▸ .enters activity held
  next => exact .waits activity

theorem moves_stepServing (linked : w.backend = .linked client link) (going : c.cancelled = false)
    {gated : Bool} {work : Work (CallPlan ρ)} {aborted : CallPlan ρ}
    (activity : c.activity = .serving gated work aborted) (abortFirst : Bool) :
    Moves w c client link (w.stepServing abortFirst gated c work aborted).1
      (w.stepServing abortFirst gated c work aborted).2.1 := by
  unfold stepServing
  rw [going, linked]
  cases work with
  | done plan => exact .leaves activity
  | ask d next => exact .works activity

theorem moves_stepActivity (linked : w.backend = .linked client link) (going : c.cancelled = false)
    (alone : ∀ gated wake q next, c.activity ≠ .standing gated wake q next) (abortFirst : Bool) :
    Moves w c client link (w.stepActivity abortFirst c).1 (w.stepActivity abortFirst c).2.1 := by
  unfold stepActivity
  split
  next plan activity =>
    cases plan with
    | done result => exact .ended activity
    | ask q next =>
      by_cases hq : ∃ query, q = .query query
      · obtain ⟨query, rfl⟩ := hq
        exact moves_enterGate linked going activity abortFirst
      · have other : ∀ query, q ≠ .query query := fun query eq => hq ⟨query, eq⟩
        obtain ⟨gate, backend⟩ := gate_stepAsking w abortFirst c next
        rw [stepCalling_ask next other]
        exact .asks activity other gate backend (w.stepAsking_spec abortFirst c next).2
  next gated work aborted activity => exact moves_stepServing linked going activity abortFirst
  next gated wake q next activity => exact absurd activity (alone gated wake q next)

/-- A query is under way only while its call has the gate. -/
def HasGate (gate : Lock) (self : Holder) : Activity ρ → Prop
  | .calling _ => True
  | .serving gated _ _ => gated = true ∧ gate.holder = some self
  | .standing .. => False

namespace Moves

variable {w' : World ρ} {after : Activity ρ}

theorem hasGate (moves : Moves w c client link w' after) (h : HasGate w.gate c.id c.activity) :
    HasGate w'.gate c.id after := by
  cases moves with
  | asks activity other gate backend replied =>
    obtain ⟨rfl, _⟩ | ⟨reply, rfl, _⟩ := replied <;> trivial
  | enters activity held => exact ⟨rfl, held⟩
  | works activity =>
    rw [activity] at h
    exact h
  | _ => trivial

/-- Who has the gate keeps it while others take steps. -/
theorem keeps_gate {h : Holder} (moves : Moves w c client link w' after) (ne : c.id ≠ h)
    (held : w.gate.holder = some h) : w'.gate.holder = some h := by
  cases moves with
  | ended | works => exact held
  | asks activity other gate backend replied => exact gate ▸ held
  | waits | enters => exact Lock.holder_request held c.id
  | leaves activity =>
    unfold leaveGate
    split
    · exact Lock.holder_withdraw held ne
    · exact held

/-- What holds of the steps of a call and of all that may follow holds however it goes on. -/
theorem ends {P : CallPlan ρ → Prop}
    (closed : ∀ (q : Ask) next, P (.ask q next) → ∀ reply, P (next reply))
    (moves : Moves w c client link w' after) (h : c.activity.Ends P) : after.Ends P := by
  cases moves with
  | ended activity | waits activity =>
    rw [activity] at h
    exact h
  | asks activity other gate backend replied =>
    rw [activity] at h
    obtain ⟨rfl, _⟩ | ⟨reply, rfl, _⟩ := replied
    · exact h
    · exact closed _ _ h reply
  | enters activity =>
    rw [activity] at h
    have later := closed _ _ h
    exact ⟨outcomes_workOn client later, later _⟩
  | works activity =>
    rw [activity] at h
    exact ⟨Link.outcomes_advance h.1 _ _ _, h.2⟩
  | leaves activity =>
    rw [activity] at h
    exact h.1

end Moves

end World

end CodeIntel

import CodeIntel.Proofs.Link.Delivery
import CodeIntel.Proofs.Link.Fate

namespace CodeIntel

open Event Link

/-- Whether the reader is about to end: the stream ends, or what comes next is no frame, or it is a
frame whose content is no JSON. -/
def Link.atEnd (link : Link) : Bool :=
  match link.reader, Frame.read link.finished link.incoming with
  | .reading, .ended | .reading, .failed _ => true
  | _, _ => false

namespace Traffic

/-- Whether the time of a request under way has run out, so that it cannot end in anything else. -/
def HasRunOut (t : Traffic) (n : Nat) : Prop :=
  ∃ h e, t.exchanges h = some e ∧ e.number? = some n ∧
    e.work.Outcomes (· = .error (.timeout e.inquiry.method e.inquiry.timeout))

/-- How a request may end if the reading has ended at `t₀`. -/
inductive EndsAfter (t₀ : Traffic) (q : Inquiry) (n : Nat) : Except ServerError Json → Prop
  | lost {e : ServerError} (ofConnection : e.IsOfConnection) : EndsAfter t₀ q n (.error e)
  /-- The answer had come before. -/
  | answered {answer : Answer} (before : n ≤ t₀.link.lastId)
      (had : Answered n answer t₀.history) :
      EndsAfter t₀ q n (Attempt.readAnswer q.method q.timeout (.answered answer))
  /-- The time had run out before, or the request was made later. -/
  | late (why : t₀.HasRunOut n ∨ t₀.link.lastId < n) :
      EndsAfter t₀ q n (.error (.timeout q.method q.timeout))

/-- A request that is under way after the end of the reading. -/
structure Faces (t₀ : Traffic) (pending : List (Nat × Holder)) (h : Holder) (e : Exchange)
    (s : Fate) : Prop where
  number : s.id? = e.number?
  steps : e.work.Meets Fate.rule e.inquiry.EndsIn s
  /-- Who was made later and hopes for an answer is in the table of those who expect one. -/
  hopes : ∀ n, s = .made n none → t₀.link.lastId < n → (n, h) ∈ pending
  early : ∀ n, s.id? = some n → n ≤ t₀.link.lastId → s.settled? = some .late → t₀.HasRunOut n
  later : ∀ n awaited, s.id? = some n → t₀.link.lastId < n → s.settled? = some awaited →
    awaited = .late

/-- What holds after the reading has ended at `t₀`. -/
structure Silent (t₀ t : Traffic) : Prop where
  ended : t.link.reader = .ended
  known : t₀.link.lastId ≤ t.link.lastId
  /-- The table holds those alone who were made later. -/
  pending : ∀ n h, (n, h) ∈ t.link.pending → t₀.link.lastId < n
  mail : ∀ n h answer, (n, h, answer) ∈ t.link.mail → n ≤ t₀.link.lastId
  faces : ∀ h e, t.exchanges h = some e → ∃ s, Faces t₀ t.link.pending h e s
  quiet : ∀ n answer, Answered n answer t.history → Answered n answer t₀.history
  ends : ∀ q n? result before, .ended q n? result :: before <:+ t.history →
    t₀.history <:+ before → ∃ n, n? = some n ∧ EndsAfter t₀ q n result

theorem told_of_answered (method : String) (timeout : Nat) (answer : Answer) :
    Told (Attempt.readAnswer method timeout (.answered answer)) := by
  obtain ⟨result, error⟩ := answer
  cases error <;> trivial

variable {t₀ t t' : Traffic} {h : Holder} {e : Exchange} {s : Fate}

theorem Faces.mono {pending pending' : List (Nat × Holder)} (faces : Faces t₀ pending h e s)
    (kept : ∀ n, e.number? = some n → (n, h) ∈ pending → (n, h) ∈ pending') :
    Faces t₀ pending' h e s :=
  { faces with
    hopes := by
      rintro n rfl late
      exact kept n faces.number.symm (faces.hopes n rfl late) }

theorem advance_moves (number : s.id? = e.number?)
    (steps : e.work.Meets Fate.rule e.inquiry.EndsIn s) (m : Moment) :
    ∃ s' link work history, t.advance m h e =
        ({ t with link := link, history := history } : Traffic).put h
          (some ⟨e.inquiry, s'.id?, work⟩) ∧
      Fate.Moves t.link m h s s' link ∧ work.Meets Fate.rule e.inquiry.EndsIn s' ∧
      (history = t.history ∨ ∃ n, history = .made n :: t.history) := by
  cases advanced : t.link.advance m h e.work with
  | mk link rest =>
    obtain ⟨work, moved⟩ := rest
    obtain ⟨s', moves, steps'⟩ := moves_of_advance steps advanced
    rcases moves.lastId with ⟨same, id⟩ | ⟨rfl, rfl, rfl⟩
    · refine ⟨s', link, work, t.history, ?_, moves, steps', .inl rfl⟩
      rw [advance_of_sameId advanced same, id, number]
    · refine ⟨_, _, work, _, ?_, moves, steps', .inr ⟨t.link.lastId + 1, rfl⟩⟩
      unfold Traffic.advance
      rw [advanced]
      exact if_neg (Nat.succ_ne_self t.link.lastId)

/-- Every request under way has a fate. -/
def Fated (t : Traffic) : Prop :=
  ∀ h e, t.exchanges h = some e →
    ∃ s : Fate, s.id? = e.number? ∧ e.work.Meets Fate.rule e.inquiry.EndsIn s

theorem fated_put {e? : Option Exchange} {link : Link} {history : List Event} (fated : t.Fated)
    (new : ∀ e, e? = some e →
      ∃ s : Fate, s.id? = e.number? ∧ e.work.Meets Fate.rule e.inquiry.EndsIn s) :
    (({ t with link := link, history := history } : Traffic).put h e?).Fated := by
  intro h' e found
  rcases exchanges_put_cases found with ⟨_, same⟩ | ⟨_, old⟩
  · exact new e same
  · exact fated h' e old

theorem Fated.step (fated : t.Fated) (step : Step t t') : t'.Fated := by
  cases step with
  | begin idle q =>
    refine fated_put fated fun e same => ?_
    cases same
    exact ⟨.unmade, rfl, q.meets_fate⟩
  | @advance h e under m =>
    obtain ⟨s, number, steps⟩ := fated h e under
    obtain ⟨s', link, work, history, eq, _, steps', _⟩ := advance_moves number steps m
    rw [eq]
    refine fated_put fated fun e' same => ?_
    cases same
    exact ⟨s', rfl, steps'⟩
  | finish under => exact fated_put fated nofun
  | drop under => exact fated_put fated nofun
  | read m =>
    intro h e under
    refine fated h e ?_
    unfold Traffic.read at under
    split at under <;> exact under
  | other same reader => exact fated

theorem fated_of_run {room : Nat} (run : t.Run room) : t.Fated := by
  induction run with
  | refl => exact nofun
  | tail _ step ih => exact ih.step step

theorem read_of_atEnd (atEnd : t.link.atEnd) (m : Moment) :
    t.read m = { t with link := t.link.endReading } := by
  have step : (t.link.readerStep m).1 = t.link.endReading ∧ t.link.heard? = none := by
    unfold Link.atEnd at atEnd
    unfold readerStep heard?
    split at atEnd
    next reading ended => simp [reading, ended]
    next reading failed => simp [reading, failed]
    next => cases atEnd
  unfold read
  simp only [step.1, step.2]

theorem read_of_ended (ended : t.link.reader = .ended) (m : Moment) : t.read m = t := by
  unfold read readerStep heard?
  simp only [ended]

theorem silent_start (sound : t₀.Sound) (fated : t₀.Fated) (atEnd : t₀.link.atEnd) (m : Moment) :
    Silent t₀ (t₀.read m) := by
  have early : ∀ h e n, t₀.exchanges h = some e → e.number? = some n → n ≤ t₀.link.lastId :=
    fun h e n under number => sound.known n (sound.under h e n under number).1
  rw [read_of_atEnd atEnd]
  refine ⟨rfl, Nat.le_refl _, nofun, ?_, ?_, fun n answer had => had, ?_⟩
  · intro n h answer mem
    obtain ⟨⟨e, under, number, _⟩, _⟩ := sound.mail n h answer mem
    exact early h e n under number
  · intro h e under
    obtain ⟨s, number, steps⟩ := fated h e under
    have notLater : ∀ n, s.id? = some n → ¬ t₀.link.lastId < n := fun n id =>
      Nat.not_lt.mpr (early h e n under (number ▸ id))
    refine ⟨s, number, steps, ?_, ?_, ?_⟩
    · rintro n rfl late
      exact absurd late (notLater n rfl)
    · intro n id _ late
      exact ⟨h, e, under, number ▸ id, Inquiry.outcomes_of_settled steps late⟩
    · exact fun n _ id late => absurd late (notLater n id)
  · intro q n? result before suffix behind
    have longer : before.length + 1 ≤ before.length := (suffix.trans behind).length_le
    omega

/-- The request of one holder goes on or ends, and what it does to the connection does not matter to
the others. -/
theorem Silent.put {link : Link} {e? : Option Exchange} {history : List Event}
    (silent : Silent t₀ t) (ended : link.reader = .ended) (known : t.link.lastId ≤ link.lastId)
    (pending : ∀ n h, (n, h) ∈ link.pending → (n, h) ∈ t.link.pending ∨ t₀.link.lastId < n)
    (mail : link.mail ⊆ t.link.mail)
    (new : ∀ e, e? = some e → ∃ s, Faces t₀ link.pending h e s)
    (others : ∀ h' e n, h' ≠ h → t.exchanges h' = some e → e.number? = some n →
      (n, h') ∈ t.link.pending → (n, h') ∈ link.pending)
    (next : history = t.history ∨ ∃ event, history = event :: t.history ∧
      (∀ message, event ≠ .heard message) ∧
      ∀ q n? result, event = .ended q n? result → ∃ n, n? = some n ∧ EndsAfter t₀ q n result) :
    Silent t₀ (({ t with link := link, history := history } : Traffic).put h e?) := by
  refine ⟨ended, Nat.le_trans silent.known known, ?_, ?_, ?_, ?_, ?_⟩
  · intro n h' mem
    exact (pending n h' mem).elim (silent.pending n h') id
  · exact fun n h' answer mem => silent.mail n h' answer (mail mem)
  · intro h' e found
    rcases exchanges_put_cases found with ⟨rfl, same⟩ | ⟨ne, old⟩
    · exact new e same
    · obtain ⟨s, faces⟩ := silent.faces h' e old
      exact ⟨s, faces.mono fun n number => others h' e n ne old number⟩
  · rintro n answer ⟨before, suffix, isOpen⟩
    change _ <:+ history at suffix
    refine silent.quiet n answer ⟨before, ?_, isOpen⟩
    rcases next with rfl | ⟨event, rfl, unheard, _⟩
    · exact suffix
    · rcases List.suffix_cons_iff.mp suffix with same | suffix
      · exact absurd (List.cons.inj same).1.symm (unheard _)
      · exact suffix
  · intro q n? result before suffix behind
    change _ <:+ history at suffix
    rcases next with rfl | ⟨event, rfl, _, ends⟩
    · exact silent.ends q n? result before suffix behind
    · rcases List.suffix_cons_iff.mp suffix with same | suffix
      · exact ends q n? result (List.cons.inj same).1.symm
      · exact silent.ends q n? result before suffix behind

/-- An answer is waited for no longer than it may still come: whoever was made before the end of
the reading goes on at once, whoever was made later waits until the deadline. -/
theorem Silent.awaits {n : Nat} (silent : Silent t₀ t) (m : Moment) (self : Holder)
    (deadline : Nat) :
    (n ≤ t₀.link.lastId → ∃ awaited, (t.link.perform m self (.await n deadline)).2 = some awaited ∧
      awaited ≠ .late) ∧
    (t₀.link.lastId < n → (n, h) ∈ t.link.pending →
      (t.link.perform m self (.await n deadline)).2 =
        if deadline ≤ m.now then some .late else none) := by
  rw [perform_await]
  constructor
  · intro early
    have gone : t.link.isPending n = false := by
      refine List.any_eq_false.mpr fun p mem same => ?_
      have late := silent.pending p.1 p.2 mem
      have := of_decide_eq_true same
      omega
    split
    next answer _ => exact ⟨.answered answer, rfl, nofun⟩
    next => exact ⟨.lost, by rw [gone]; rfl, nofun⟩
  · intro late expected
    have unanswered : t.link.mailFor? n = none := by
      refine Option.map_eq_none_iff.mpr (List.find?_eq_none.mpr fun mail mem same => ?_)
      have early := silent.mail mail.1 mail.2.1 mail.2.2 mem
      have := of_decide_eq_true same
      omega
    have isPending : t.link.isPending n = true :=
      List.any_eq_true.mpr ⟨_, expected, decide_eq_true rfl⟩
    rw [unanswered]
    simp only [isPending, Bool.not_true, Bool.false_eq_true, if_false]

/-- How a request ends whose fate is known. -/
theorem Faces.ends {pending : List (Nat × Holder)} {result : Except ServerError Json} {n : Nat}
    (faces : Faces t₀ pending h e s) (number : e.number? = some n)
    (ends : e.inquiry.EndsIn result s)
    (told : Told result → ∃ answer, Answered n answer t₀.history ∧
      result = Attempt.readAnswer e.inquiry.method e.inquiry.timeout (.answered answer)) :
    EndsAfter t₀ e.inquiry n result := by
  obtain ⟨n', settled, rfl, follows⟩ := ends
  obtain rfl : n' = n := Option.some.inj (faces.number.trans number)
  cases settled with
  | none =>
    obtain ⟨e', rfl, ofConnection⟩ := follows
    exact .lost ofConnection
  | some awaited =>
    obtain rfl := follows
    rcases Nat.lt_or_ge t₀.link.lastId n' with late | early
    · rw [faces.later n' awaited rfl late rfl]
      exact .late (.inr late)
    · cases awaited with
      | lost => exact .lost trivial
      | late => exact .late (.inl (faces.early n' rfl early rfl))
      | answered answer =>
        obtain ⟨answer', had, eq⟩ := told (told_of_answered _ _ answer)
        rw [eq]
        exact .answered early had

/-- What a step of a request makes of what it faces. -/
theorem Silent.faces_of_moves {link : Link} {work : Asking} {m : Moment} {s' : Fate}
    (silent : Silent t₀ t) (faces : Faces t₀ t.link.pending h e s)
    (moves : Fate.Moves t.link m h s s' link)
    (steps : work.Meets Fate.rule e.inquiry.EndsIn s') :
    Faces t₀ link.pending h ⟨e.inquiry, s'.id?, work⟩ s' := by
  cases moves with
  | stay same reader =>
    exact { faces with number := rfl, steps := steps, hopes := same.pending ▸ faces.hopes }
  | register =>
    refine ⟨rfl, steps, ?_, nofun, nofun⟩
    intro n eq late
    cases eq
    exact List.mem_cons_self
  | forget => exact { faces with number := rfl, steps := steps, hopes := nofun }
  | @await n deadline awaited replied =>
    obtain ⟨early, late⟩ := silent.awaits (h := h) (n := n) m h deadline
    refine ⟨rfl, steps, nofun, ?_, ?_⟩
    · intro n' id before settled
      cases id
      cases settled
      obtain ⟨awaited, replied', other⟩ := early before
      cases replied.symm.trans replied'
      exact absurd rfl other
    · intro n' awaited' id after settled
      cases id
      cases settled
      have replied' := late after (faces.hopes n rfl after)
      rw [replied] at replied'
      split at replied' <;> cases replied'
      rfl

theorem Silent.advance (silent : Silent t₀ t) (sound : t.Sound) (under : t.exchanges h = some e)
    (m : Moment) : Silent t₀ (t.advance m h e) := by
  obtain ⟨s, faces⟩ := silent.faces h e under
  obtain ⟨s', link, work, history, eq, moves, steps, made⟩ :=
    advance_moves faces.number faces.steps m
  have new := silent.faces_of_moves faces moves steps
  have next : history = t.history ∨ ∃ event, history = event :: t.history ∧
      (∀ message, event ≠ .heard message) ∧
      ∀ q n? result, event = .ended q n? result →
        ∃ n, n? = some n ∧ EndsAfter t₀ q n result := by
    refine made.imp_right ?_
    rintro ⟨n, rfl⟩
    exact ⟨_, rfl, nofun, nofun⟩
  have put : ∀ e', some (⟨e.inquiry, s'.id?, work⟩ : Exchange) = some e' →
      ∃ s, Faces t₀ link.pending h e' s := by
    rintro e' same
    cases same
    exact ⟨s', new⟩
  rw [eq]
  cases moves with
  | stay same reader =>
    refine silent.put (reader.trans silent.ended) (Nat.le_of_eq same.lastId.symm) ?_ ?_ put ?_ next
    · exact fun n h' mem => .inl (same.pending ▸ mem)
    · exact same.mail ▸ List.Subset.refl _
    · exact fun h' _ n _ _ _ mem => same.pending ▸ mem
  | register =>
    refine silent.put silent.ended (Nat.le_succ _) ?_ (List.Subset.refl _) put ?_ next
    · intro n h' mem
      rcases List.mem_cons.mp mem with same | old
      · cases same
        exact .inr (Nat.lt_succ_of_le silent.known)
      · exact .inl old
    · exact fun h' _ n _ _ _ mem => List.mem_cons_of_mem _ mem
  | await replied =>
    exact silent.put silent.ended (Nat.le_refl _) (fun n h' mem => .inl mem) (List.Subset.refl _)
      put (fun h' _ n _ _ _ mem => mem) next
  | @forget n settled =>
    refine silent.put silent.ended (Nat.le_refl _) ?_ ?_ put ?_ next
    · exact fun n h' mem => .inl ((List.mem_filter.mp mem).1)
    · exact fun mail mem => (List.mem_filter.mp mem).1
    · intro h' e' n' ne other number mem
      have had : e.number? = some n := faces.number.symm
      refine List.mem_filter.mpr ⟨mem, decide_eq_true fun same => ne ?_⟩
      exact sound.apart h' h e' e n other under (same ▸ number) had

theorem Silent.step (silent : Silent t₀ t) (sound : t.Sound) (step : Step t t') :
    Silent t₀ t' := by
  have sound' := sound.step step
  cases step with
  | begin idle q =>
    refine silent.put silent.ended (Nat.le_refl _) (fun n h' mem => .inl mem)
      (List.Subset.refl _) ?_ (fun h' _ n _ _ _ mem => mem) (.inl rfl)
    intro e same
    cases same
    exact ⟨.unmade, rfl, q.meets_fate, nofun, nofun, nofun⟩
  | advance under m => exact silent.advance sound under m
  | @finish h q n? result under =>
    obtain ⟨s, faces⟩ := silent.faces h _ under
    change Silent t₀ (({ t with history := .ended q n? result :: t.history } : Traffic).put h none)
    refine silent.put silent.ended (Nat.le_refl _) (fun n h' mem => .inl mem)
      (List.Subset.refl _) nofun (fun h' _ n _ _ _ mem => mem)
      (.inr ⟨_, rfl, nofun, ?_⟩)
    intro q' n?' result' same
    cases same
    obtain ⟨n, settled, rfl, follows⟩ := faces.steps
    have number : some n = n? := faces.number
    refine ⟨n, number.symm, faces.ends number.symm ⟨n, settled, rfl, follows⟩ fun told => ?_⟩
    obtain ⟨n', answer, same, had, eq⟩ :=
      sound'.ended q n? result t.history (List.suffix_refl _) told
    cases number.trans same
    exact ⟨answer, silent.quiet n answer had, eq⟩
  | @drop h e under =>
    change Silent t₀ (({ t with
      link := t.link.abandon h, history := .dropped e.number? :: t.history } : Traffic).put h none)
    refine silent.put silent.ended (Nat.le_refl t.link.lastId) ?_ ?_ nofun ?_
      (.inr ⟨_, rfl, nofun, nofun⟩)
    · exact fun n h' mem => .inl ((List.mem_filter.mp mem).1)
    · exact fun mail mem => (List.mem_filter.mp mem).1
    · exact fun h' _ n ne _ _ mem => List.mem_filter.mpr ⟨mem, decide_eq_true ne⟩
  | read m => rwa [read_of_ended silent.ended]
  | @other link same reader =>
    refine { silent with ended := ?_, known := ?_, pending := ?_, mail := ?_, faces := ?_ }
    · exact reader.trans silent.ended
    · exact same.lastId ▸ silent.known
    · exact fun n h mem => silent.pending n h (same.pending ▸ mem)
    · exact fun n h answer mem => silent.mail n h answer (same.mail ▸ mem)
    · intro h e under
      obtain ⟨s, faces⟩ := silent.faces h e under
      exact ⟨s, faces.mono fun n _ mem => same.pending ▸ mem⟩

theorem silent_of_run {room : Nat} {m : Moment} (run : t₀.Run room) (atEnd : t₀.link.atEnd)
    (later : Relation.ReflTransGen Step (t₀.read m) t) : t.Sound ∧ Silent t₀ t := by
  induction later with
  | refl =>
    have sound := Sound.of_run run
    exact ⟨sound.read m, silent_start sound (fated_of_run run) atEnd m⟩
  | tail _ step ih => exact ⟨ih.1.step step, ih.2.step ih.1 step⟩

end Traffic

end CodeIntel

namespace CodeIntel

open Event Traffic

/-- What has become at `t` of the requests of a connection whose reading ended at `t₀`. -/
structure AfterReading (t₀ t : Traffic) : Prop where
  /-- No request that was made before waits any longer. One that was made later waits for an
  answer that cannot come, and its time runs out, even if the server has its message. -/
  awaits : ∀ h q n? n deadline next,
    t.exchanges h = some ⟨q, n?, .ask (.await n deadline) next⟩ →
    n? = some n ∧
    (n ≤ t₀.link.lastId → ∀ m, ∃ awaited,
      (t.link.perform m h (.await n deadline)).2 = some awaited ∧ awaited ≠ .late) ∧
    (t₀.link.lastId < n → ∀ m, (t.link.perform m h (.await n deadline)).2 =
      if deadline ≤ m.now then some .late else none) ∧
    ∀ awaited, (next awaited).Outcomes (· = Attempt.readAnswer q.method q.timeout awaited)
  ends : ∀ q n? result before, .ended q n? result :: before <:+ t.history →
    t₀.history <:+ before → ∃ n, n? = some n ∧ EndsAfter t₀ q n result

/-- Whether the stream ended, a frame was malformed or a content was no JSON, and whatever happens
later. -/
theorem requests_after_reading {room : Nat} {t₀ t : Traffic} {m : Moment} (run : t₀.Run room)
    (atEnd : t₀.link.atEnd) (later : Relation.ReflTransGen Step (t₀.read m) t) :
    AfterReading t₀ t := by
  obtain ⟨_, silent⟩ := silent_of_run run atEnd later
  refine ⟨fun h q n? n deadline next under => ?_, silent.ends⟩
  obtain ⟨s, faces⟩ := silent.faces h _ under
  obtain ⟨rfl, goesOn⟩ := faces.steps
  refine ⟨faces.number.symm, fun early m => ?_, fun late m => ?_, fun awaited => ?_⟩
  · exact (silent.awaits (h := h) m h deadline).1 early
  · exact (silent.awaits m h deadline).2 late (faces.hopes n rfl late)
  · exact Inquiry.outcomes_of_settled (goesOn awaited) rfl

namespace Traffic

/-- Line ends where a header should be. -/
def nonsense : List UInt8 := [Frame.carriageReturn, Frame.lineFeed]

/-- One request waits for its answer as nonsense comes from the server. -/
def spoiled : List Move := .begin 1 ⟨"hover", none, 1000⟩ :: goOn 1 6 ++ [.send nonsense]

/-- The first request goes on until it is over. -/
def farewell : List Move := goOn 1 2 ++ [.finish 1]

/-- Then another is made, and goes on until it is over. -/
def latecomer : List Move :=
  farewell ++ .begin 2 ⟨"hover", none, 1000⟩ :: goOn 2 6 ++
    [.advance 2 ⟨2000, default, default⟩, .advance 2 ⟨2000, default, default⟩, .finish 2]

/-- Whether the last request to end had a number and ended in its timeout, while the server still
takes what is sent. -/
def lastTimedOut (t : Traffic) (n : Nat) : Bool :=
  t.link.taken && t.link.writable &&
    match t.history with
    | .ended _ (some n') (.error (.timeout _ _)) :: _ => n' = n
    | _ => false

/-- Whether the last request to end lost its answer. -/
def lastLost (t : Traffic) : Bool :=
  match t.history with
  | .ended _ _ (.error (.connectionLost _)) :: _ => true
  | _ => false

end Traffic

theorem waiting_request_is_lost :
    ∃ t₀ t : Traffic, t₀.Run 4096 ∧ t₀.link.atEnd ∧
      Relation.ReflTransGen Step (t₀.read ⟨0, default, default⟩) t ∧ t.lastLost ∧
      AfterReading t₀ t := by
  have played : ((spoiled.foldlM play? (.fresh 4096)).any fun t₀ => t₀.link.atEnd &&
      ((farewell.foldlM play? (t₀.read ⟨0, default, default⟩)).any lastLost)) = true := by
    decide +kernel
  obtain ⟨t₀, reached, ends⟩ := (Option.any_eq_true _ _).mp played
  obtain ⟨atEnd, ends⟩ := Bool.and_eq_true_iff.mp ends
  obtain ⟨t, reached', lost⟩ := (Option.any_eq_true _ _).mp ends
  have run : t₀.Run 4096 := run_of_play .refl reached
  have later := steps_of_play reached'
  exact ⟨t₀, t, run, atEnd, later, lost, requests_after_reading run atEnd later⟩

/-- A request that is made after the reading has ended, and sent, runs into its timeout. -/
theorem late_request_times_out :
    ∃ t₀ t : Traffic, t₀.Run 4096 ∧ t₀.link.atEnd ∧
      Relation.ReflTransGen Step (t₀.read ⟨0, default, default⟩) t ∧ t₀.link.lastId < 2 ∧
      t.lastTimedOut 2 := by
  have played : ((spoiled.foldlM play? (.fresh 4096)).any fun t₀ =>
      t₀.link.atEnd && decide (t₀.link.lastId < 2) &&
        ((latecomer.foldlM play? (t₀.read ⟨0, default, default⟩)).any fun t =>
          t.lastTimedOut 2)) = true := by decide +kernel
  obtain ⟨t₀, reached, ends⟩ := (Option.any_eq_true _ _).mp played
  obtain ⟨before, ends⟩ := Bool.and_eq_true_iff.mp ends
  obtain ⟨atEnd, first⟩ := Bool.and_eq_true_iff.mp before
  obtain ⟨t, reached', timedOut⟩ := (Option.any_eq_true _ _).mp ends
  exact ⟨t₀, t, run_of_play .refl reached, atEnd, steps_of_play reached', of_decide_eq_true first,
    timedOut⟩

end CodeIntel

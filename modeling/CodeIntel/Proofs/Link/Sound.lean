import CodeIntel.Proofs.Link.Fate

namespace CodeIntel

open Event Link

namespace Traffic

variable {t t' : Traffic} {h : Holder} {e : Exchange}

/-- The request with this number, which this holder makes, still has something to wait for. -/
def Waits (t : Traffic) (n : Nat) (h : Holder) : Prop :=
  ∃ e, t.exchanges h = some e ∧ e.number? = some n ∧ e.IsRunning

/-- A request stands where its steps say it does, and was only given answers to its own number. -/
structure Stands (history : List Event) (e : Exchange) (s : Standing) : Prop where
  number : s.id? = e.number?
  steps : e.work.Meets Standing.rule e.inquiry.Ends s
  given : ∀ n answer, s = .waiting n (some answer) ∨ s = .past n (some answer) →
    Answered n answer history

/-- What the table of the expected answers has to do with the requests and with the past. -/
structure Sound (t : Traffic) : Prop where
  stands : ∀ h e, t.exchanges h = some e → ∃ s, Stands t.history e s
  apart : ∀ h h' e e' n, t.exchanges h = some e → t.exchanges h' = some e' →
    e.number? = some n → e'.number? = some n → h = h'
  under : ∀ h e n, t.exchanges h = some e → e.number? = some n →
    n ∈ t.history.filterMap made? ∧ n ∉ t.history.filterMap over?
  pending : ∀ n h, (n, h) ∈ t.link.pending → t.Waits n h ∧ Open n t.history
  mail : ∀ n h answer, (n, h, answer) ∈ t.link.mail → t.Waits n h ∧ Answered n answer t.history
  known : ∀ n ∈ t.history.filterMap made?, n ≤ t.link.lastId
  past : ∀ n ∈ t.history.filterMap over?, n ∈ t.history.filterMap made?
  once : (t.history.filterMap made?).Nodup
  endsOnce : (t.history.filterMap over?).Nodup
  ended : ∀ q n? result before, .ended q n? result :: before <:+ t.history → Told result →
    ∃ n answer, n? = some n ∧ Answered n answer before ∧
      result = Attempt.readAnswer q.method q.timeout (.answered answer)
  aside : t.link.reader.Aside

theorem sound_fresh (room : Nat) : (fresh room).Sound := by
  refine ⟨nofun, nofun, nofun, nofun, nofun, nofun, nofun, .nil, .nil, ?_, trivial⟩
  intro q n? result before suffix
  exact absurd (List.suffix_nil.mp suffix) (List.cons_ne_nil _ _)

theorem isRunning_of_meets {q : Inquiry} {n? : Option Nat} {work : Asking} {s : Standing}
    (steps : work.Meets Standing.rule q.Ends s) (running : ¬ s.IsOver) :
    (⟨q, n?, work⟩ : Exchange).IsRunning := by
  cases work with
  | ask d next => exact ⟨d, next, rfl⟩
  | done result =>
    obtain ⟨n, got, rfl, _⟩ := steps
    exact absurd trivial running

theorem exchanges_put_self (t : Traffic) (h : Holder) (e? : Option Exchange) :
    (t.put h e?).exchanges h = e? := by
  simp [put]

theorem exchanges_put_cases {h' : Holder} {e? : Option Exchange}
    (found : (t.put h e?).exchanges h' = some e) :
    (h' = h ∧ e? = some e) ∨ (h' ≠ h ∧ t.exchanges h' = some e) := by
  by_cases same : h' = h
  · subst same
    exact .inl ⟨rfl, (exchanges_put_self t h' e?) ▸ found⟩
  · exact .inr ⟨same, by simpa [put, same] using found⟩

theorem Waits.put {n : Nat} {h' : Holder} (waits : t.Waits n h') (ne : h' ≠ h)
    (e? : Option Exchange) : (t.put h e?).Waits n h' := by
  obtain ⟨e, found, waits⟩ := waits
  refine ⟨e, ?_, waits⟩
  simpa [Traffic.put, ne] using found

theorem advance_of_sameId {m : Moment} {link : Link} {work : Asking} {moved : Bool}
    (advanced : t.link.advance m h e.work = (link, work, moved)) (same : link.lastId = t.link.lastId) :
    t.advance m h e = ({ t with link := link } : Traffic).put h (some { e with work := work }) := by
  unfold Traffic.advance
  rw [advanced]
  exact if_pos same

theorem Stands.cons {s : Standing} (stands : Stands t.history e s) (event : Event) :
    Stands (event :: t.history) e s :=
  ⟨stands.number, stands.steps, fun n answer given => (stands.given n answer given).cons event⟩

namespace Sound

/-- The connection is used for something that delivers no answer. -/
theorem relink {link : Link} (sound : t.Sound) (lastId : link.lastId = t.link.lastId)
    (pending : link.pending ⊆ t.link.pending) (mail : link.mail = t.link.mail)
    (aside : link.reader.Aside) : ({ t with link := link } : Traffic).Sound :=
  { sound with
    pending := fun n h mem => sound.pending n h (pending mem)
    mail := fun n h answer mem => sound.mail n h answer (mail ▸ mem)
    known := fun n made => lastId ▸ sound.known n made
    aside := aside }

/-- The request of one holder begins or goes on, and no request is given a number. -/
theorem set {link : Link} {e' : Exchange} (sound : t.Sound)
    (number : ∀ n, e'.number? = some n → ∃ e, t.exchanges h = some e ∧ e.number? = some n)
    (stands : ∃ s, Stands t.history e' s) (lastId : link.lastId = t.link.lastId)
    (aside : link.reader.Aside)
    (pending : ∀ n h', (n, h') ∈ link.pending → (n, h') ∈ t.link.pending ∧
      (h' = h → e'.number? = some n ∧ e'.IsRunning))
    (mail : ∀ n h' answer, (n, h', answer) ∈ link.mail → (n, h', answer) ∈ t.link.mail ∧
      (h' = h → e'.number? = some n ∧ e'.IsRunning)) :
    (({ t with link := link } : Traffic).put h (some e')).Sound := by
  have waits : ∀ n h', t.Waits n h' → (h' = h → e'.number? = some n ∧ e'.IsRunning) →
      (({ t with link := link } : Traffic).put h (some e')).Waits n h' := by
    intro n h' old new
    by_cases same : h' = h
    · subst same
      exact ⟨e', exchanges_put_self _ _ _, new rfl⟩
    · exact Waits.put old same (some e')
  -- Whoever has a number after the step had it before.
  have before : ∀ h' e n, (({ t with link := link } : Traffic).put h (some e')).exchanges h' =
      some e → e.number? = some n → ∃ old, t.exchanges h' = some old ∧ old.number? = some n := by
    intro h' e n found numbered
    rcases exchanges_put_cases found with ⟨rfl, same⟩ | ⟨_, old⟩
    · cases same
      exact number n numbered
    · exact ⟨e, old, numbered⟩
  refine { sound with stands := ?_, apart := ?_, under := ?_, pending := ?_, mail := ?_,
                      known := ?_, aside := aside }
  · intro h' e found
    rcases exchanges_put_cases found with ⟨rfl, same⟩ | ⟨_, old⟩
    · cases same
      exact stands
    · exact sound.stands h' e old
  · intro h₁ h₂ e₁ e₂ n found₁ found₂ number₁ number₂
    obtain ⟨old₁, was₁, had₁⟩ := before h₁ e₁ n found₁ number₁
    obtain ⟨old₂, was₂, had₂⟩ := before h₂ e₂ n found₂ number₂
    exact sound.apart h₁ h₂ old₁ old₂ n was₁ was₂ had₁ had₂
  · intro h' e n found numbered
    obtain ⟨old, was, had⟩ := before h' e n found numbered
    exact sound.under h' old n was had
  · intro n h' mem
    obtain ⟨old, new⟩ := pending n h' mem
    exact (sound.pending n h' old).imp_left fun old => waits n h' old new
  · intro n h' answer mem
    obtain ⟨old, new⟩ := mail n h' answer mem
    exact (sound.mail n h' answer old).imp_left fun old => waits n h' old new
  · exact fun n made => lastId ▸ sound.known n made

theorem begin (sound : t.Sound) (idle : t.exchanges h = none) (q : Inquiry) :
    (t.put h (some (.start q))).Sound := by
  have free : ∀ n, ¬ t.Waits n h := by
    rintro n ⟨e, found, _⟩
    rw [idle] at found
    cases found
  refine sound.set nofun ⟨.unmade, rfl, q.meets_steps, nofun⟩ rfl sound.aside ?_ ?_
  · intro n h' mem
    exact ⟨mem, fun same => absurd (same ▸ (sound.pending n h' mem).1) (free n)⟩
  · intro n h' answer mem
    exact ⟨mem, fun same => absurd (same ▸ (sound.mail n h' answer mem).1) (free n)⟩

/-- A request is given the next number. -/
theorem register {next : Nat → Asking} (sound : t.Sound) (under : t.exchanges h = some e)
    (unmade : e.number? = none)
    (steps : ∀ n, (next n).Meets Standing.rule e.inquiry.Ends (.waiting n none)) :
    ((({ t with link := t.link.expect h } : Traffic).put h
      (some ⟨e.inquiry, some (t.link.lastId + 1), next (t.link.lastId + 1)⟩)).note
      (.made (t.link.lastId + 1))).Sound := by
  generalize new : t.link.lastId + 1 = number
  have unknown : number ∉ t.history.filterMap made? := by
    intro made
    have := sound.known number made
    omega
  have apart : ∀ n h', t.Waits n h' → h' ≠ h := by
    rintro n h' ⟨e', found, had, _⟩ rfl
    cases under.symm.trans found
    rw [unmade] at had
    cases had
  have running : (⟨e.inquiry, some number, next number⟩ : Exchange).IsRunning :=
    isRunning_of_meets (steps number) fun past => past
  refine ⟨?_, ?_, ?_, ?_, ?_, ?_, ?_, ?_, ?_, ?_, sound.aside⟩
  · intro h' e' found
    rcases exchanges_put_cases found with ⟨rfl, same⟩ | ⟨_, old⟩
    · cases same
      refine ⟨.waiting number none, rfl, steps number, ?_⟩
      rintro n answer (given | given) <;> cases given
    · obtain ⟨s, stands⟩ := sound.stands h' e' old
      exact ⟨s, stands.cons _⟩
  · intro h₁ h₂ e₁ e₂ n found₁ found₂ number₁ number₂
    rcases exchanges_put_cases found₁ with ⟨rfl, same₁⟩ | ⟨_, old₁⟩ <;>
      rcases exchanges_put_cases found₂ with ⟨rfl, same₂⟩ | ⟨_, old₂⟩
    · rfl
    · cases same₁
      cases number₁
      exact absurd (sound.under h₂ e₂ number old₂ number₂).1 unknown
    · cases same₂
      cases number₂
      exact absurd (sound.under h₁ e₁ number old₁ number₁).1 unknown
    · exact sound.apart h₁ h₂ e₁ e₂ n old₁ old₂ number₁ number₂
  · intro h' e' n found numbered
    rcases exchanges_put_cases found with ⟨rfl, same⟩ | ⟨_, old⟩
    · cases same
      cases numbered
      exact ⟨List.mem_cons_self, fun past => unknown (sound.past number past)⟩
    · exact (sound.under h' e' n old numbered).imp_left (List.mem_cons_of_mem number)
  · intro n h' mem
    rcases List.mem_cons.mp mem with same | mem
    · cases same
      exact ⟨⟨_, exchanges_put_self _ _ _, congrArg some new.symm, running⟩, .inl new.symm⟩
    · obtain ⟨waits, isOpen⟩ := sound.pending n h' mem
      exact ⟨Waits.put waits (apart n h' waits) _, .inr isOpen⟩
  · intro n h' answer mem
    obtain ⟨waits, answered⟩ := sound.mail n h' answer mem
    exact ⟨Waits.put waits (apart n h' waits) _, answered.cons _⟩
  · intro n made
    rcases List.mem_cons.mp made with rfl | made
    · exact Nat.le_of_eq new.symm
    · exact Nat.le_succ_of_le (sound.known n made)
  · exact fun n past => List.mem_cons_of_mem number (sound.past n past)
  · exact List.nodup_cons.mpr ⟨unknown, sound.once⟩
  · exact sound.endsOnce
  · intro q n? result before suffix told
    rcases List.suffix_cons_iff.mp suffix with same | suffix
    · cases same
    · exact sound.ended q n? result before suffix told

/-- A request is over, or it is given up. -/
theorem leave {link : Link} {event : Event} (sound : t.Sound) (under : t.exchanges h = some e)
    (past : event.over? = e.number?) (notMade : event.made? = none)
    (closes : ∀ n, event.Closes n → e.number? = some n)
    (justified : ∀ q n? result, event = .ended q n? result → Told result →
      ∃ n answer, n? = some n ∧ Answered n answer t.history ∧
        result = Attempt.readAnswer q.method q.timeout (.answered answer))
    (lastId : link.lastId = t.link.lastId) (aside : link.reader.Aside)
    (pending : ∀ n h', (n, h') ∈ link.pending → (n, h') ∈ t.link.pending ∧ h' ≠ h)
    (mail : ∀ n h' answer, (n, h', answer) ∈ link.mail → (n, h', answer) ∈ t.link.mail ∧ h' ≠ h) :
    ((({ t with link := link } : Traffic).put h none).note event).Sound := by
  have stay : ∀ h' e', (({ t with link := link } : Traffic).put h none).exchanges h' = some e' →
      h' ≠ h ∧ t.exchanges h' = some e' := by
    intro h' e' found
    rcases exchanges_put_cases found with ⟨_, same⟩ | old
    · cases same
    · exact old
  have made : (event :: t.history).filterMap made? = t.history.filterMap made? :=
    List.filterMap_cons_none notMade
  have elsewhere : ∀ h' e' n, h' ≠ h → t.exchanges h' = some e' → e'.number? = some n →
      e.number? ≠ some n := by
    intro h' e' n ne found numbered had
    exact ne (sound.apart h' h e' e n found under numbered had)
  refine ⟨?_, ?_, ?_, ?_, ?_, ?_, ?_, ?_, ?_, ?_, aside⟩
  · intro h' e' found
    obtain ⟨s, stands⟩ := sound.stands h' e' (stay h' e' found).2
    exact ⟨s, stands.cons event⟩
  · intro h₁ h₂ e₁ e₂ n found₁ found₂
    exact sound.apart h₁ h₂ e₁ e₂ n (stay h₁ e₁ found₁).2 (stay h₂ e₂ found₂).2
  · intro h' e' n found numbered
    obtain ⟨ne, old⟩ := stay h' e' found
    obtain ⟨known, live⟩ := sound.under h' e' n old numbered
    refine ⟨made ▸ known, fun ends => ?_⟩
    rcases mem_over_cons.mp ends with ends | ends
    · exact elsewhere h' e' n ne old numbered (past ▸ ends)
    · exact live ends
  · intro n h' mem
    obtain ⟨old, ne⟩ := pending n h' mem
    obtain ⟨waits, isOpen⟩ := sound.pending n h' old
    refine ⟨Waits.put waits ne none, open_cons (fun closed => ?_) isOpen⟩
    obtain ⟨e', found, numbered, _⟩ := waits
    exact elsewhere h' e' n ne found numbered (closes n closed)
  · intro n h' answer mem
    obtain ⟨old, ne⟩ := mail n h' answer mem
    obtain ⟨waits, answered⟩ := sound.mail n h' answer old
    exact ⟨Waits.put waits ne none, answered.cons event⟩
  · intro n known
    exact lastId ▸ sound.known n (made ▸ known)
  · intro n ends
    rcases mem_over_cons.mp ends with ends | ends
    · exact made ▸ (sound.under h e n under (past ▸ ends)).1
    · exact made ▸ sound.past n ends
  · exact made ▸ sound.once
  · cases numbered : e.number? with
    | none =>
      rw [numbered] at past
      exact (List.filterMap_cons_none past).symm ▸ sound.endsOnce
    | some n =>
      rw [numbered] at past
      refine (List.filterMap_cons_some past).symm ▸ List.nodup_cons.mpr ⟨?_, sound.endsOnce⟩
      exact (sound.under h e n under numbered).2
  · intro q n? result before suffix told
    rcases List.suffix_cons_iff.mp suffix with same | suffix
    · cases same
      exact justified q n? result rfl told
    · exact sound.ended q n? result before suffix told

/-- The reader takes a message, and at the most it delivers the answer that this message is. -/
theorem take {link : Link} {message : Incoming} (sound : t.Sound)
    (lastId : link.lastId = t.link.lastId) (aside : link.reader.Aside)
    (pending : ∀ n h, (n, h) ∈ link.pending → (n, h) ∈ t.link.pending ∧
      ¬ (Event.heard message).Closes n)
    (mail : ∀ n h answer, (n, h, answer) ∈ link.mail → (n, h, answer) ∈ t.link.mail ∨
      (n, h) ∈ t.link.pending ∧ message = .answer (.nat n) answer) :
    (({ t with link := link } : Traffic).note (.heard message)).Sound := by
  refine ⟨?_, sound.apart, sound.under, ?_, ?_, ?_, sound.past, sound.once, sound.endsOnce, ?_,
    aside⟩
  · intro h e found
    obtain ⟨s, stands⟩ := sound.stands h e found
    exact ⟨s, stands.cons _⟩
  · intro n h mem
    obtain ⟨old, stays⟩ := pending n h mem
    exact (sound.pending n h old).imp_right (open_cons stays)
  · intro n h answer mem
    rcases mail n h answer mem with old | ⟨expected, rfl⟩
    · exact (sound.mail n h answer old).imp_right fun answered => answered.cons _
    · obtain ⟨waits, isOpen⟩ := sound.pending n h expected
      exact ⟨waits, t.history, List.suffix_refl _, isOpen⟩
  · exact fun n made => lastId ▸ sound.known n made
  · intro q n? result before suffix told
    rcases List.suffix_cons_iff.mp suffix with same | suffix
    · cases same
    · exact sound.ended q n? result before suffix told

theorem hear {message : Incoming} {rest : List UInt8} (sound : t.Sound) :
    (({ t with link := ({ t.link with incoming := rest } : Link).receive message } :
      Traffic).note (.heard message)).Sound := by
  by_cases forOne : ∃ n answer, message = .answer (.nat n) answer
  · obtain ⟨n, answer, rfl⟩ := forOne
    rw [receive_answer_nat]
    by_cases expected : ∃ h, (n, h) ∈ t.link.pending
    · obtain ⟨h, mem⟩ := expected
      obtain ⟨receiver, mem, eq⟩ :=
        deliver_of_expected { t.link with incoming := rest } answer mem
      rw [eq]
      refine sound.take rfl sound.aside ?_ ?_
      · intro n' h' mem'
        obtain ⟨old, ne⟩ := List.mem_filter.mp mem'
        refine ⟨old, fun closed => ?_⟩
        obtain ⟨_, same⟩ := closes_heard.mp closed
        cases same
        simp at ne
      · intro n' h' answer' mem'
        rcases List.mem_append.mp mem' with old | new
        · exact .inl old
        · cases List.mem_singleton.mp new
          exact .inr ⟨mem, rfl⟩
    · rw [deliver_of_unexpected { t.link with incoming := rest } answer fun h mem => expected ⟨h, mem⟩]
      refine sound.take rfl sound.aside ?_ fun n' h' answer' old => .inl old
      intro n' h' mem'
      refine ⟨mem', fun closed => ?_⟩
      obtain ⟨_, same⟩ := closes_heard.mp closed
      cases same
      exact expected ⟨h', mem'⟩
  · have stays : ∀ n, ¬ (Event.heard message).Closes n := fun n closed =>
      forOne ⟨n, closes_heard.mp closed⟩
    by_cases isAnswer : ∃ id answer, message = .answer id answer
    · obtain ⟨id, answer, rfl⟩ := isAnswer
      rw [receive_answer_other _ answer fun n same => forOne ⟨n, answer, same ▸ rfl⟩]
      exact sound.take rfl sound.aside (fun n h mem => ⟨mem, stays n⟩) fun n h answer old => .inl old
    · obtain ⟨same, aside⟩ := receive_other { t.link with incoming := rest } message
        sound.aside fun id answer eq => isAnswer ⟨id, answer, eq⟩
      refine sound.take same.lastId aside ?_ ?_
      · exact fun n h mem => ⟨same.pending ▸ mem, stays n⟩
      · exact fun n h answer mem => .inl (same.mail ▸ mem)

theorem read (sound : t.Sound) (m : Moment) : (t.read m).Sound := by
  unfold Traffic.read
  cases heard : t.link.heard? with
  | some taken =>
    obtain ⟨message, rest⟩ := taken
    simp only
    rw [readerStep_of_heard heard]
    exact sound.hear
  | none =>
    obtain ⟨lastId, mail, pending, aside⟩ := readerStep_of_unheard (m := m) heard sound.aside
    exact sound.relink lastId pending mail aside

/-- What a reply of the connection makes of a request that leaves the table alone. -/
theorem stands_reply {q : Inquiry} {n? : Option Nat} {d : Deed} {next : d.Reply → Asking}
    {s : Standing} {m : Moment} {reply : d.Reply} (sound : t.Sound)
    (stands : Stands t.history ⟨q, n?, .ask d next⟩ s) (leaves : d.LeavesTable)
    (replied : (t.link.perform m h d).2 = some reply) :
    ∃ s', Stands t.history ⟨q, n?, next reply⟩ s' ∧ ¬ s'.IsOver := by
  have steps := stands.steps
  cases d with
  | register => exact leaves.elim
  | forget n => exact leaves.elim
  | await n deadline =>
    obtain ⟨got, rfl, steps⟩ := steps
    refine ⟨.waiting n (Awaited.answer? reply), ⟨stands.number, steps reply, ?_⟩, fun past => past⟩
    rintro n' answer (given | given)
    · cases reply with
      | answered a =>
        cases given
        obtain ⟨holder, mem⟩ := reply_await replied
        exact (sound.mail n holder answer mem).2
      | lost => cases given
      | late => cases given
    · cases given
  | write bytes =>
    exact ⟨s, ⟨stands.number, steps.2 reply (reply_write replied), stands.given⟩, steps.1⟩
  | _ => exact ⟨s, ⟨stands.number, steps.2 reply, stands.given⟩, steps.1⟩

/-- A request takes a step that leaves the table alone. -/
theorem move {link : Link} {work : Asking} {s : Standing} (sound : t.Sound)
    (under : t.exchanges h = some e) (same : SameTable t.link link)
    (reader : link.reader = t.link.reader) (stands : Stands t.history { e with work := work } s)
    (running : e.IsRunning → ({ e with work := work } : Exchange).IsRunning) :
    (({ t with link := link } : Traffic).put h (some { e with work := work })).Sound := by
  have still : ∀ n, t.Waits n h → e.number? = some n ∧ ({ e with work := work } : Exchange).IsRunning := by
    rintro n ⟨e', found, number, waits⟩
    cases under.symm.trans found
    exact ⟨number, running waits⟩
  refine sound.set (fun n number => ⟨e, under, number⟩) ⟨s, stands⟩ same.lastId
    (reader ▸ sound.aside) ?_ ?_
  · intro n h' mem
    rw [same.pending] at mem
    exact ⟨mem, fun eq => still n (eq ▸ (sound.pending n h' mem).1)⟩
  · intro n h' answer mem
    rw [same.mail] at mem
    exact ⟨mem, fun eq => still n (eq ▸ (sound.mail n h' answer mem).1)⟩

theorem advance_of_leaves {q : Inquiry} {n? : Option Nat} {d : Deed} {next : d.Reply → Asking}
    (sound : t.Sound) (under : t.exchanges h = some ⟨q, n?, .ask d next⟩) (leaves : d.LeavesTable)
    (m : Moment) : (t.advance m h ⟨q, n?, .ask d next⟩).Sound := by
  obtain ⟨s, stands⟩ := sound.stands h _ under
  obtain ⟨same, reader⟩ := sameTable_perform t.link m h leaves
  cases performed : t.link.perform m h d with
  | mk link reply? =>
    rw [performed] at same reader
    cases reply? with
    | none =>
      rw [advance_of_sameId (by simp only [Link.advance, performed]; rfl) same.lastId]
      exact sound.move under same reader stands fun running => running
    | some reply =>
      obtain ⟨s', stands', notOver⟩ := sound.stands_reply stands leaves (congrArg Prod.snd performed)
      rw [advance_of_sameId (by simp only [Link.advance, performed]; rfl) same.lastId]
      exact sound.move under same reader stands' fun _ => isRunning_of_meets stands'.steps notOver

theorem forget {q : Inquiry} {n? : Option Nat} {n : Nat} {next : Unit → Asking}
    (sound : t.Sound) (under : t.exchanges h = some ⟨q, n?, .ask (.forget n) next⟩) :
    (({ t with link := t.link.forget n } : Traffic).put h (some ⟨q, n?, next ()⟩)).Sound := by
  obtain ⟨s, stands⟩ := sound.stands h _ under
  obtain ⟨got, rfl, steps⟩ := stands.steps
  have number : some n = n? := stands.number
  have gone : ∀ n', t.Waits n' h → n' = n := by
    rintro n' ⟨e', found, had, _⟩
    cases under.symm.trans found
    exact Option.some.inj (had.symm.trans number.symm)
  refine sound.set (fun n' had => ⟨_, under, had⟩) ⟨.past n got, number, steps, ?_⟩ rfl sound.aside
    ?_ ?_
  · rintro n' answer (given | given) <;> cases given
    exact stands.given n answer (.inl rfl)
  · intro n' h' mem
    obtain ⟨old, ne⟩ := List.mem_filter.mp mem
    refine ⟨old, fun eq => absurd (gone n' (eq ▸ (sound.pending n' h' old).1)) (by simpa using ne)⟩
  · intro n' h' answer mem
    obtain ⟨old, ne⟩ := List.mem_filter.mp mem
    refine ⟨old, fun eq => absurd (gone n' (eq ▸ (sound.mail n' h' answer old).1)) ?_⟩
    simpa using ne

theorem advance (sound : t.Sound) (under : t.exchanges h = some e) (m : Moment) :
    (t.advance m h e).Sound := by
  obtain ⟨s, stands⟩ := sound.stands h e under
  obtain ⟨q, n?, work⟩ := e
  cases work with
  | done result =>
    simp only [Traffic.advance, Link.advance, if_true]
    exact sound.move under (.refl t.link) rfl stands fun running => running
  | ask d next =>
    cases d with
    | register =>
      obtain ⟨rfl, steps⟩ := stands.steps
      have numbered : t.advance m h ⟨q, n?, .ask .register next⟩ = _ :=
        if_neg (Nat.succ_ne_self t.link.lastId)
      rw [numbered]
      exact sound.register under stands.number.symm steps
    | forget n =>
      simp only [Traffic.advance, Link.advance, Link.perform, Link.forget, if_true]
      exact sound.forget under
    | _ => exact sound.advance_of_leaves under trivial m

theorem step (sound : t.Sound) (step : Step t t') : t'.Sound := by
  cases step with
  | begin idle q => exact sound.begin idle q
  | advance under m => exact sound.advance under m
  | @finish h q n? result under =>
    obtain ⟨s, stands⟩ := sound.stands h _ under
    obtain ⟨n, got, rfl, told⟩ := stands.steps
    have number : some n = n? := stands.number
    have running : ∀ n h', t.Waits n h' → h' ≠ h := by
      rintro n h' ⟨e', found, _, d, next, asks⟩ rfl
      cases under.symm.trans found
      cases asks
    refine sound.leave under rfl rfl (fun n closed => closed) ?_ rfl sound.aside ?_ ?_
    · intro q' n' result' same isTold
      cases same
      obtain ⟨answer, rfl, eq⟩ := told isTold
      exact ⟨n, answer, number.symm, stands.given n answer (.inr rfl), eq⟩
    · exact fun n h' mem => ⟨mem, running n h' (sound.pending n h' mem).1⟩
    · exact fun n h' answer mem => ⟨mem, running n h' (sound.mail n h' answer mem).1⟩
  | @drop h e under =>
    refine sound.leave under rfl rfl (fun n closed => closed) nofun rfl sound.aside ?_ ?_
    · intro n h' mem
      obtain ⟨old, ne⟩ := List.mem_filter.mp mem
      exact ⟨old, by simpa using ne⟩
    · intro n h' answer mem
      obtain ⟨old, ne⟩ := List.mem_filter.mp mem
      exact ⟨old, by simpa using ne⟩
  | read m => exact sound.read m
  | other same reader =>
    exact sound.relink same.lastId (same.pending ▸ List.Subset.refl _) same.mail
      (reader ▸ sound.aside)

theorem of_run {room : Nat} (run : t.Run room) : t.Sound := by
  induction run with
  | refl => exact sound_fresh room
  | tail _ step ih => exact ih.step step

end Sound

end Traffic

end CodeIntel

import CodeIntel.Proofs.Basic
import CodeIntel.Proofs.Link.Sound

namespace CodeIntel

open Event

/-- Every answer of the server reaches the request it is meant for, and no other. -/
structure Delivers (t : Traffic) : Prop where
  /-- A request that ends in what the server said got it from an answer to its own number, which
  came while the request was waiting. -/
  told : ∀ q n? result before, .ended q n? result :: before <:+ t.history → Told result →
    ∃ n answer, n? = some n ∧ Answered n answer before ∧
      result = Attempt.readAnswer q.method q.timeout (.answered answer)
  /-- No number is given to two requests. -/
  numbers : (t.history.filterMap made?).Nodup
  /-- No request is over twice. -/
  ends : (t.history.filterMap over?).Nodup
  /-- A message is delivered to nobody, or it is an answer that goes to the one request that waits
  for it, and that waits for no other then. -/
  toOne : ∀ message, (t.link.receive message).mail = t.link.mail ∨
    ∃ n h answer, message = .answer (.nat n) answer ∧ t.Waits n h ∧ Open n t.history ∧
      (t.link.receive message).mail = t.link.mail ++ [(n, h, answer)] ∧
      ∀ h', (n, h') ∉ (t.link.receive message).pending
  /-- An answer to something else than the number of a request that waits changes nothing. -/
  ignored : ∀ id answer, (∀ n : Nat, id = .nat n → ¬ Open n t.history) →
    t.link.receive (.answer id answer) = t.link
  /-- Whoever has an entry in the table still waits for the answer to its number. -/
  waits : ∀ n h, (n, h) ∈ t.link.pending → t.Waits n h ∧ Open n t.history
  /-- Whatever ended a request, its entry is gone. -/
  gone : ∀ n ∈ t.history.filterMap over?, ∀ h, (n, h) ∉ t.link.pending

namespace Traffic

variable {t : Traffic}

theorem Sound.toOne (sound : t.Sound) (message : Incoming) :
    (t.link.receive message).mail = t.link.mail ∨
      ∃ n h answer, message = .answer (.nat n) answer ∧ t.Waits n h ∧ Open n t.history ∧
        (t.link.receive message).mail = t.link.mail ++ [(n, h, answer)] ∧
        ∀ h', (n, h') ∉ (t.link.receive message).pending := by
  by_cases isAnswer : ∃ id answer, message = .answer id answer
  · obtain ⟨id, answer, rfl⟩ := isAnswer
    by_cases isNumber : ∃ n : Nat, id = .nat n
    · obtain ⟨n, rfl⟩ := isNumber
      rw [Link.receive_answer_nat]
      by_cases expected : ∃ h, (n, h) ∈ t.link.pending
      · obtain ⟨h, mem⟩ := expected
        obtain ⟨receiver, mem, eq⟩ := Link.deliver_of_expected t.link answer mem
        obtain ⟨waits, isOpen⟩ := sound.pending n receiver mem
        rw [eq]
        refine .inr ⟨n, receiver, answer, rfl, waits, isOpen, rfl, fun h' mem' => ?_⟩
        simpa using (List.mem_filter.mp mem').2
      · rw [Link.deliver_of_unexpected t.link answer fun h mem => expected ⟨h, mem⟩]
        exact .inl rfl
    · rw [Link.receive_answer_other t.link answer fun n same => isNumber ⟨n, same⟩]
      exact .inl rfl
  · have other : ∀ id answer, message ≠ .answer id answer := fun id answer eq =>
      isAnswer ⟨id, answer, eq⟩
    exact .inl (Link.receive_other t.link message sound.aside other).1.mail

theorem Sound.ignored (sound : t.Sound) {id : Json} (answer : Answer)
    (closed : ∀ n : Nat, id = .nat n → ¬ Open n t.history) :
    t.link.receive (.answer id answer) = t.link := by
  by_cases isNumber : ∃ n : Nat, id = .nat n
  · obtain ⟨n, rfl⟩ := isNumber
    rw [Link.receive_answer_nat]
    refine Link.deliver_of_unexpected t.link answer fun h mem => ?_
    exact closed n rfl (sound.pending n h mem).2
  · exact Link.receive_answer_other t.link answer fun n same => isNumber ⟨n, same⟩

theorem Sound.gone (sound : t.Sound) {n : Nat} (past : n ∈ t.history.filterMap over?) (h : Holder) :
    (n, h) ∉ t.link.pending := by
  intro mem
  obtain ⟨e, found, number, _⟩ := (sound.pending n h mem).1
  exact (sound.under h e n found number).2 past

end Traffic

/-- However many requests are made over one connection, whenever they end, fail to be sent, time out
or are given up, and whatever the server sends. -/
theorem answers_reach_their_requests {room : Nat} {t : Traffic} (run : t.Run room) :
    Delivers t := by
  have sound := Traffic.Sound.of_run run
  exact {
    told := sound.ended
    numbers := sound.once
    ends := sound.endsOnce
    toOne := sound.toOne
    ignored := fun _ answer closed => sound.ignored answer closed
    waits := sound.pending
    gone := fun _ past h => sound.gone past h }

namespace Traffic

/-- A step that can be played. -/
inductive Move
  | begin (h : Holder) (q : Inquiry)
  | advance (h : Holder) (m : Moment)
  | finish (h : Holder)
  | drop (h : Holder)
  | read (m : Moment)
  /-- The server sends bytes. -/
  | send (bytes : List UInt8)

def play? (t : Traffic) : Move → Option Traffic
  | .begin h q => if (t.exchanges h).isNone then some (t.put h (some (.start q))) else none
  | .advance h m => (t.exchanges h).map fun e => t.advance m h e
  | .finish h =>
    match t.exchanges h with
    | some ⟨q, n?, .done result⟩ => some ((t.put h none).note (.ended q n? result))
    | _ => none
  | .drop h => (t.exchanges h).map fun e =>
      (({ t with link := t.link.abandon h } : Traffic).put h none).note (.dropped e.number?)
  | .read m => some (t.read m)
  | .send bytes => some { t with link := { t.link with incoming := t.link.incoming ++ bytes } }

theorem step_of_play? {t t' : Traffic} {move : Move} (played : t.play? move = some t') :
    Step t t' := by
  cases move with
  | begin h q =>
    simp only [play?] at played
    split at played
    next idle =>
      cases played
      exact .begin (Option.isNone_iff_eq_none.mp idle) q
    next => cases played
  | advance h m =>
    obtain ⟨e, under, rfl⟩ := Option.map_eq_some_iff.mp played
    exact .advance under m
  | finish h =>
    simp only [play?] at played
    split at played
    next under =>
      cases played
      exact .finish under
    next => cases played
  | drop h =>
    obtain ⟨e, under, rfl⟩ := Option.map_eq_some_iff.mp played
    exact .drop under
  | read m =>
    cases played
    exact .read m
  | send bytes =>
    cases played
    exact .other ⟨rfl, rfl, rfl⟩ rfl

theorem steps_of_play {moves : List Move} {t t' : Traffic}
    (played : moves.foldlM play? t = some t') : Relation.ReflTransGen Step t t' :=
  reflTransGen_of_foldlM Step played fun _ _ _ => step_of_play?

theorem run_of_play {room : Nat} {moves : List Move} {t t' : Traffic} (run : t.Run room)
    (played : moves.foldlM play? t = some t') : t'.Run room :=
  run.trans (steps_of_play played)

/-- The server says something, and the reader takes it. -/
def hears (text : String) : List Move :=
  [.send (Frame.encode (utf8Bytes text)), .read ⟨0, default, default⟩]

def goOn (h : Holder) (steps : Nat) : List Move :=
  List.replicate steps (.advance h ⟨0, default, default⟩)

/-- Two requests are made. The server answers a third, then the second, twice, and then the first,
which was given up. -/
def crossing : List Move :=
  .begin 1 ⟨"hover", none, 1000⟩ :: goOn 1 6 ++ .begin 2 ⟨"hover", none, 1000⟩ :: goOn 2 6 ++
    hears "\x7b\"jsonrpc\":\"2.0\",\"id\":3,\"result\":true\x7d" ++
    hears "\x7b\"jsonrpc\":\"2.0\",\"id\":2,\"result\":false\x7d" ++
    hears "\x7b\"jsonrpc\":\"2.0\",\"id\":2,\"result\":true\x7d" ++
    .drop 1 :: hears "\x7b\"jsonrpc\":\"2.0\",\"id\":1,\"result\":true\x7d" ++
    goOn 2 2 ++ [.finish 2]

/-- Whether the last thing was that the request with a number ended in a truth value. -/
def lastEnded (t : Traffic) (n : Nat) (value : Bool) : Bool :=
  match t.history with
  | .ended _ (some n') (.ok (.bool value')) :: _ => n' = n && value' = value
  | _ => false

end Traffic

theorem second_request_gets_its_own_answer :
    ∃ t, t.Run 4096 ∧ t.lastEnded 2 false = true ∧ Delivers t := by
  have played : ((Traffic.crossing.foldlM Traffic.play? (.fresh 4096)).any fun t =>
      t.lastEnded 2 false) = true := by decide +kernel
  obtain ⟨t, reached, ended⟩ := (Option.any_eq_true _ _).mp played
  have run : t.Run 4096 := Traffic.run_of_play .refl reached
  exact ⟨t, run, ended, answers_reach_their_requests run⟩

end CodeIntel

import CodeIntel.Proofs.Documents.Sound
import CodeIntel.Proofs.Sync.Queries

namespace CodeIntel

namespace Dialogue

/-- The server is told of a document what the protocol allows. -/
structure InOrder (client : Client) (uri : Uri) (d : Dialogue) : Prop where
  /-- Whatever cannot be sent, the document is opened once, in version 1, and each change has a new
  text and the next number. As long as these numbers have 32 bits, they grow by one. -/
  told : ∃ told, Says client.cwd uri versionAfter d.history told ∧
    ((∀ t, told = some t → t.changes < 0x7FFFFFFF) →
      Says client.cwd uri (fun n => n + 1) d.history told)
  /-- Nothing else that is written is about the document. -/
  own : ∀ q message, .wrote q message ∈ d.history → q.Writes client.cwd message
  /-- After a text was told without an error, it is what the server has. -/
  last : Delivers client uri d.history

end Dialogue

open Dialogue

/-- Whatever is asked of a server, and whatever cannot be sent to it, what it is told of a document
obeys the protocol, as long as all queries name the document by one path. -/
theorem documents_follow_protocol {client : Client} {self : Holder} {room : Nat} {d : Dialogue}
    {p : Path} {uri : Uri} (run : d.Run client self room) (named : p.uri client.cwd = .ok uri)
    (alike : Alike client p uri d.history) : d.InOrder client uri := by
  obtain ⟨standing, delivers⟩ := sound_of_run run named alike
  obtain ⟨told, record⟩ := standing.exists_told
  refine ⟨⟨told, record, fun few => ?_⟩, (kept_of_run run).wrote, delivers⟩
  exact record.renumber fun t some k le => versionAfter_eq (Nat.lt_of_le_of_lt le (few t some))

namespace Dialogue

variable {client : Client} {self : Holder} {m : Moment} {room : Nat} {d : Dialogue}

/-- Goes on with the query under way until it has ended, for so many steps at most. -/
def goOn (m : Moment) (self : Holder) : Nat → Dialogue → Dialogue
  | 0, d => d
  | n + 1, d =>
    match d.current with
    | none => d
    | some (q, .done result) => { d with current := none, history := .ended q result :: d.history }
    | some (q, work) => goOn m self n (d.advance m self q work)

def ask (client : Client) (m : Moment) (self : Holder) (n : Nat) (d : Dialogue) (q : Query) :
    Dialogue :=
  match d.current with
  | none => goOn m self n
      { d with current := some (q, work client q), history := .begun q :: d.history }
  | some _ => d

theorem run_goOn (run : d.Run client self room) (n : Nat) :
    (d.goOn m self n).Run client self room := by
  induction n generalizing d with
  | zero => exact run
  | succ n ih =>
    unfold goOn
    split
    next => exact run
    next under => exact run.tail (.finish under)
    next under => exact ih (run.tail (.advance under m))

theorem run_ask (run : d.Run client self room) (n : Nat) (q : Query) :
    (d.ask client m self n q).Run client self room := by
  unfold ask
  split
  next idle => exact run_goOn (run.tail (.begin idle q)) n
  next => exact run

theorem run_asks (n : Nat) (queries : List Query) (run : d.Run client self room) :
    (queries.foldl (ask client m self n) d).Run client self room := by
  induction queries generalizing d with
  | nil => exact run
  | cons q rest ih => exact ih (run_ask run n q)

def gopher : Client := ⟨ServerConfig.ofCommand "gopls", default, .ofString "/"⟩

def talk (queries : List Query) : Dialogue :=
  queries.foldl (ask gopher ⟨0, default, default⟩ 1 16) (fresh 4096)

theorem run_talk (queries : List Query) : (talk queries).Run gopher 1 4096 :=
  run_asks 16 queries .refl

/-- Whether the queries that began have no other path. -/
def asksOnly (p : Path) (history : List Incident) : Bool :=
  history.all fun
    | .begun q => q.path?.all (·.same p)
    | _ => true

theorem alike_of_asksOnly {p : Path} {history : List Incident} (only : asksOnly p history = true)
    (uri : Uri) : Alike client p uri history := by
  intro q path mem about _
  have same := List.all_eq_true.mp only _ mem
  simpa only [about, Option.all_some] using same

end Dialogue

theorem edited_file_is_in_order : ∃ (d : Dialogue) (uri : Uri), d.Run gopher 1 4096 ∧
    (Path.ofString "/f").uri gopher.cwd = .ok uri ∧ Alike gopher (.ofString "/f") uri d.history ∧
    (d.history.filterMap Incident.message?).length = 2 ∧ d.InOrder gopher uri := by
  let p := Path.ofString "/f"
  let queries : List Query := [.changed p "x", .changed p "y"]
  have played : ((p.uri gopher.cwd).isOk && asksOnly p (talk queries).history &&
      decide (((talk queries).history.filterMap Incident.message?).length = 2)) = true := by
    decide +kernel
  simp only [Bool.and_eq_true, decide_eq_true_eq] at played
  obtain ⟨⟨found, only⟩, two⟩ := played
  obtain ⟨uri, named⟩ := isOk_iff.mp found
  have alike : Alike gopher p uri (talk queries).history := alike_of_asksOnly only uri
  have run := run_talk queries
  exact ⟨talk queries, uri, run, named, alike, two, documents_follow_protocol run named alike⟩

variable {cwd : Path} {uri : Uri} {number : Nat → Int} {history : List Incident}
  {told : Option Copy}

theorem message?_of_isSilent {incident : Incident} (silent : incident.IsSilent) :
    incident.message? = none := by
  cases incident with
  | wrote | failed => exact silent.elim
  | _ => rfl

/-- Once a document is open, it is not opened again. -/
theorem Takes.ne_openMessage {told : Copy} {told' : Option Copy} {message : List UInt8}
    (takes : Takes uri number (some told) message told') (uri' : Uri) (language text : String) :
    message ≠ openMessage uri' language text := by
  cases takes with
  | changed new => exact fun eq => absurd (Outgoing.notification_inj eq).1 (by decide)
  | asked id method params =>
    exact Outgoing.bytes_ne_notification (fun _ _ eq => Outgoing.noConfusion eq) _ _

/-- A document is opened once at the most. -/
theorem Says.count_open_le (record : Says cwd uri number history told)
    (visits : ∀ incident ∈ history, incident.query.Visits cwd uri) (language text : String) :
    (history.filterMap Incident.message?).count (openMessage uri language text) ≤
      told.toList.length := by
  induction record with
  | nothing => exact Nat.le_refl 0
  | apart elsewhere => exact absurd (visits _ List.mem_cons_self) elsewhere
  | silent silent _ ih =>
    rw [List.filterMap_cons_none (message?_of_isSilent silent)]
    exact ih fun incident mem => visits incident (List.mem_cons_of_mem _ mem)
  | @wrote q message history told told' _ takes _ ih =>
    have before := ih fun incident mem => visits incident (List.mem_cons_of_mem _ mem)
    have messages : (Incident.wrote q message :: history).filterMap Incident.message? =
        message :: history.filterMap Incident.message? := rfl
    rw [messages]
    cases told with
    | none =>
      cases takes with
      | opened language' text' =>
        have unopened : (history.filterMap Incident.message?).count
            (openMessage uri language text) = 0 := Nat.le_zero.mp before
        rw [List.count_cons, unopened, Option.toList_some, List.length_singleton]
        split <;> decide
    | some known =>
      rw [List.count_cons_of_ne (takes.ne_openMessage uri language text)]
      cases takes with
      | changed new => exact before
      | asked id method params => exact before
  | failed _ misses _ ih =>
    have before := ih fun incident mem => visits incident (List.mem_cons_of_mem _ mem)
    cases misses with
    | still => exact before
    | change told => exact before

/-- Of two names for one file, each is opened: the documents are kept by the paths as they are
given. -/
theorem two_names_open_twice : ∃ (d : Dialogue) (uri : Uri), d.Run gopher 1 4096 ∧
    (Path.ofString "/f").uri gopher.cwd = .ok uri ∧ (Path.ofString "f").uri gopher.cwd = .ok uri ∧
    ∀ number told, ¬ Says gopher.cwd uri number d.history told := by
  let p := Path.ofString "/f"
  let q := Path.ofString "f"
  let uri := (p.uri gopher.cwd).toOption.getD default
  let queries : List Query := [.changed p "x", .changed q "x"]
  let visits (incident : Incident) : Bool :=
    incident.query.path?.any fun path => (path.uri gopher.cwd).toOption = some uri
  have played : (decide ((p.uri gopher.cwd).toOption = some uri) &&
      decide ((q.uri gopher.cwd).toOption = some uri) && (talk queries).history.all visits &&
      decide (((talk queries).history.filterMap Incident.message?).count
        (openMessage uri "plaintext" "x") = 2)) = true := by
    decide +kernel
  simp only [Bool.and_eq_true, decide_eq_true_eq] at played
  obtain ⟨⟨⟨named, named'⟩, all⟩, twice⟩ := played
  refine ⟨talk queries, uri, run_talk queries, toOption_eq_some_iff.mp named,
    toOption_eq_some_iff.mp named', fun number told record => ?_⟩
  have everyVisit (incident : Incident) (mem : incident ∈ (talk queries).history) :
      incident.query.Visits gopher.cwd uri := by
    obtain ⟨path, about, same⟩ :=
      (Option.any_eq_true _ _).mp (List.all_eq_true.mp all incident mem)
    exact ⟨path, about, toOption_eq_some_iff.mp (of_decide_eq_true same)⟩
  have once := record.count_open_le everyVisit "plaintext" "x"
  rw [twice] at once
  have := told.length_toList_le
  omega

end CodeIntel

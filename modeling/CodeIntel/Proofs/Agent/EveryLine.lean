import CodeIntel.Proofs.Agent.Tasks
import CodeIntel.Proofs.Json.Text
import CodeIntel.Proofs.Text.Slash
import Mathlib.Data.List.TakeWhile

namespace CodeIntel.Agent

/-- A response is written on one line. -/
theorem Response.oneLine (r : Response) : 0x0A ∉ utf8Bytes r.toJson.text := by
  intro mem
  exact Json.lineFeed_not_mem_text r.toJson (mem_of_mem_flatMap_utf8 (by decide) rfl mem)

/-- Whether a line can be read: it is a text, and not too long. -/
def isReadable (line : List UInt8) : Bool := line.length ≤ greatestLine && (lineText? line).isSome

theorem IsRead.isReadable {line : List UInt8} {text : String} (isRead : IsRead line text) :
    isReadable line = true := by
  simp [Agent.isReadable, isRead.fits, isRead.text]

theorem exists_getElem?_of_forall₂ {α β : Type} {R : α → β → Prop} {as : List α} {bs : List β}
    {k : Nat} {a : α} (h : List.Forall₂ R as bs) (there : as[k]? = some a) :
    ∃ b, bs[k]? = some b ∧ R a b := by
  induction h generalizing k with
  | nil => cases there
  | cons first rest ih =>
    cases k with
    | zero =>
      cases there
      exact ⟨_, rfl, first⟩
    | succ k => exact ih there

namespace Serving

/-- Every run on an input comes to its end, and then something holds. -/
structure Completes (server : Server) (input : List UInt8) (P : Serving → Prop) : Prop where
  ends : Acc (fun s' s => Step server s s') (start input)
  finished : ∀ s, Run server input s → (s.isOver = true ↔ ¬ ∃ s', Step server s s')
  holds : ∀ s, Run server input s → s.isOver = true → P s

/-- The lines of an input up to the first that cannot be read. -/
def readable (input : List UInt8) : List (List UInt8) := (linesOf input).takeWhile isReadable

/-- Lines got the responses that they are owed, by the numbers of the lines. -/
structure Owes (lines : List (List UInt8)) (s : Serving) (answer : Nat → Option Response) :
    Prop where
  owed : ∀ (k : Nat) (line : List UInt8) (text : String), lines[k]? = some line →
    lineText? line = some text → Owed (Tripped s.history k) text (answer k)
  /-- The token of a request is only tripped by a line that cancels its identifier, and that is read
  while the request is in flight. -/
  tripped : ∀ k, Tripped s.history k → ∃ j before, .took j (some k) :: before <:+ s.history ∧
    IsCancelled s.lines before j k
  read : ∀ (k : Nat) (text : String), s.lines[k]? = some text →
    ∃ line : List UInt8, lines[k]? = some line ∧ lineText? line = some text
  /-- What has left are the responses, each on a line of its own. -/
  output : s.output = s.conversation.written.flatMap Response.line
  oneLine : ∀ r ∈ s.conversation.written, 0x0A ∉ utf8Bytes r.toJson.text

variable {server : Server} {input : List UInt8} {s : Serving} {answer : Nat → Option Response}
  {extra : List Response}

theorem isOver_iff : s.isOver = true ↔ s.conversation.listening = false ∧
    s.conversation.jobs = [] ∧ s.flushed = s.conversation.written.length := by
  simp [isOver, Conversation.isOver, and_assoc]

/-- What is over stays as it is. -/
theorem Account.stands (account : s.Account input answer extra) (finished : s.isOver = true)
    (server : Server) : ¬ ∃ s', Step server s s' := by
  obtain ⟨deaf, jobs, flushed⟩ := isOver_iff.mp finished
  have idle : s.tasks = [] := List.map_eq_nil_iff.mp (account.jobs.symm.trans jobs)
  have noTask : ∀ {t : Task} {before after : List Task}, s.tasks ≠ before ++ t :: after := by
    intro t before after tasks
    exact List.append_ne_nil_of_right_ne_nil before (List.cons_ne_nil t after) (tasks.symm.trans idle)
  rintro ⟨s', step⟩
  cases step with
  | come listening => exact absurd (deaf.symm.trans listening) nofun
  | close listening => exact absurd (deaf.symm.trans listening) nofun
  | read found => simp [Conversation.readLine?, deaf] at found
  | tell tasks => exact noTask tasks
  | release tasks => exact noTask tasks
  | answer tasks => exact noTask tasks
  | flush more => omega

theorem completes {P : Serving → Prop} (holds : ∀ s answer extra, s.Account input answer extra →
    s.isOver = true → P s) : Completes server input P where
  ends := (wellFounded_step server).apply _
  finished s run := by
    obtain ⟨answer, extra, account⟩ := Account.of_run run
    refine ⟨fun finished => account.stands finished server, fun none => ?_⟩
    cases finished : s.isOver with
    | true => rfl
    | false => exact absurd (account.goes_on server finished) none
  holds s run finished := by
    obtain ⟨answer, extra, account⟩ := Account.of_run run
    exact holds s answer extra account finished

/-- A conversation that is over has served the lines that can be read. -/
theorem Account.owes {done : List (List UInt8)} (account : s.Account input answer extra)
    (finished : s.isOver = true) (read : List.Forall₂ IsRead done s.lines)
    (lines : readable input = done ∨ readable input = done ++ [[0x0D]]) :
    Owes (readable input) s answer ∧
      s.conversation.written.Perm ((List.range (readable input).length).filterMap answer ++ extra) := by
  obtain ⟨_, jobs, flushed⟩ := isOver_iff.mp finished
  have idle : s.tasks = [] := List.map_eq_nil_iff.mp (account.jobs.symm.trans jobs)
  have length : done.length = s.lines.length := read.length_eq
  have known : ∀ (k : Nat) (line : List UInt8) (text : String), done[k]? = some line →
      lineText? line = some text → Owed (Tripped s.history k) text (answer k) := by
    intro k line text there isText
    obtain ⟨read, found, isRead⟩ := exists_getElem?_of_forall₂ read there
    cases isText.symm.trans isRead.text
    rcases account.owed k text found with ⟨⟨t, mem, _⟩, _⟩ | ⟨_, owed⟩
    · rw [idle] at mem
      cases mem
    · exact owed
  have beyond : answer done.length = none := account.later _ (Nat.le_of_eq length.symm)
  refine ⟨⟨?_, ?_, ?_, ?_, fun r _ => r.oneLine⟩, ?_⟩
  · intro k line text there isText
    rcases lines with lines | lines
    · exact known k line text (lines ▸ there) isText
    · rw [lines] at there
      rcases getElem?_concat_cases there with there | ⟨rfl, rfl⟩
      · exact known k line text there isText
      · have empty : lineText? [0x0D] = some "" := by decide +kernel
        cases empty.symm.trans isText
        exact beyond ▸ .blank rfl
  · rintro k ⟨j, mem⟩
    obtain ⟨later, before, eq⟩ := List.append_of_mem mem
    have suffix : .took j (some k) :: before <:+ s.history := ⟨later, eq.symm⟩
    exact ⟨j, before, suffix, account.cancelled j k before suffix⟩
  · intro k text there
    obtain ⟨line, found, isRead⟩ := exists_getElem?_of_forall₂ read.flip there
    refine ⟨line, ?_, isRead.text⟩
    rcases lines with lines | lines
    · exact lines ▸ found
    · exact lines ▸ getElem?_concat found
  · rw [Serving.output, flushed, List.take_length]
  · have written := account.written
    rw [← length] at written
    rcases lines with lines | lines
    · exact lines ▸ written
    · rw [lines, List.length_append, List.length_singleton, List.range_succ, List.filterMap_append]
      simpa [beyond] using written

theorem isReadable_of_forall₂ {done : List (List UInt8)} {texts : List String}
    (read : List.Forall₂ IsRead done texts) : ∀ line ∈ done, isReadable line = true := by
  intro line mem
  obtain ⟨k, there⟩ := List.mem_iff_getElem?.mp mem
  obtain ⟨text, _, isRead⟩ := exists_getElem?_of_forall₂ read there
  exact isRead.isReadable

theorem readable_of_bad {done others : List (List UInt8)} {bad : List UInt8}
    (lines : linesOf input = done ++ bad :: others) (good : ∀ line ∈ done, isReadable line = true)
    (isBad : isReadable bad = false) :
    readable input = done ∧ (linesOf input).dropWhile isReadable = bad :: others := by
  unfold readable
  rw [lines, List.takeWhile_append_of_pos good, List.dropWhile_append_of_pos good]
  simp [isBad]

/-- How a run ends, by what stands behind the lines that can be read. A line that is too long is
refused, one that is no text ends the reading with a fault. -/
def Stops (s : Serving) (extra : List Response) : List (List UInt8) → Prop
  | [] => extra = [] ∧ s.conversation.fault = none
  | bad :: _ =>
    if greatestLine < bad.length then
      .failure none ErrorObject.invalidRequest "Message too long" ∈ extra
    else extra = [] ∧ s.conversation.fault = some (.io "Unable to decode input as UTF8")

theorem Account.ending (account : s.Account input answer extra) (finished : s.isOver = true) :
    Owes (readable input) s answer ∧
      s.conversation.written.Perm
        ((List.range (readable input).length).filterMap answer ++ extra) ∧
      s.Stops extra ((linesOf input).dropWhile isReadable) := by
  obtain ⟨deaf, _, _⟩ := isOver_iff.mp finished
  obtain ⟨done, read, reading⟩ := account.reading
  have good := isReadable_of_forall₂ read
  cases reading with
  | listening listening => exact absurd (deaf.symm.trans listening) nofun
  | finished _ fault lines =>
    have all : ∀ line ∈ linesOf input, isReadable line = true := by
      intro line mem
      rcases lines with lines | lines
      · exact good line (lines ▸ mem)
      · rw [lines] at mem
        rcases List.mem_append.mp mem with mem | mem
        · exact good line mem
        · rw [List.mem_singleton.mp mem]
          decide +kernel
    have whole : readable input = linesOf input := List.takeWhile_eq_self_iff.mpr all
    have none : (linesOf input).dropWhile isReadable = [] := List.dropWhile_eq_nil_iff.mpr all
    obtain ⟨owes, written⟩ := account.owes finished read (whole ▸ lines)
    exact ⟨owes, written, none ▸ ⟨rfl, fault⟩⟩
  | @tooLong bad _ _ fault lines long =>
    have isBad : isReadable bad = false := by
      simp [isReadable, Nat.not_le_of_lt long]
    obtain ⟨here, behind⟩ := readable_of_bad lines good isBad
    obtain ⟨owes, written⟩ := account.owes finished read (.inl here)
    refine ⟨owes, written, ?_⟩
    rw [behind, Stops, if_pos long]
    exact List.mem_singleton_self _
  | @notText bad _ _ fault lines fits noText =>
    have isBad : isReadable bad = false := by
      simp [isReadable, noText]
    obtain ⟨here, behind⟩ := readable_of_bad lines good isBad
    obtain ⟨owes, written⟩ := account.owes finished read (.inl here)
    refine ⟨owes, written, ?_⟩
    rw [behind, Stops, if_neg (Nat.not_lt_of_le fits)]
    exact ⟨rfl, fault⟩

end Serving

end CodeIntel.Agent

namespace CodeIntel.Agent

open Serving

namespace Serving

/-- The responses are those that the lines of an input are owed, and there is no fault. -/
def ServesAll (input : List UInt8) (s : Serving) : Prop :=
  ∃ answer, Owes (linesOf input) s answer ∧
    s.conversation.written.Perm ((List.range (linesOf input).length).filterMap answer) ∧
    s.conversation.fault = none

end Serving

/-- However the input comes, whatever the tools are told, and in whichever order the requests go on
and are cancelled, every run on lines that can be read comes to its end, and then each line has got
what it is owed. -/
theorem every_line_gets_what_it_is_owed (server : Server) {input : List UInt8}
    (valid : ∀ line ∈ linesOf input, line.length ≤ greatestLine ∧ (lineText? line).isSome = true) :
    Completes server input (ServesAll input) := by
  have all : ∀ line ∈ linesOf input, isReadable line = true := by
    intro line mem
    simpa [isReadable] using valid line mem
  have whole : readable input = linesOf input := List.takeWhile_eq_self_iff.mpr all
  have none : (linesOf input).dropWhile isReadable = [] := List.dropWhile_eq_nil_iff.mpr all
  refine completes fun s answer extra account finished => ?_
  obtain ⟨owes, written, stops⟩ := account.ending finished
  rw [none] at stops
  obtain ⟨rfl, fault⟩ := stops
  rw [whole] at owes written
  rw [List.append_nil] at written
  exact ⟨answer, owes, written, fault⟩

namespace Serving

/-- The work on the first request goes on; it stays where it is while it waits for an answer. -/
def nextTask? (s : Serving) : Option Serving :=
  match s.tasks with
  | ⟨number, id, tripped, .handling (.done response)⟩ :: rest =>
    some { s with
      conversation := s.conversation.released number
      tasks := ⟨number, id, tripped, .released response⟩ :: rest
      history := .released number :: s.history }
  | ⟨number, _, tripped, .released response⟩ :: rest =>
    some { s with
      conversation := s.conversation.answered number tripped response
      tasks := rest }
  | _ => none

/-- One of the things that may happen next: the first of what there is to read, to work on and to
write. -/
def next? (server : Server) (s : Serving) : Option Serving :=
  if s.conversation.listening && !s.coming.isEmpty then
    some { s with
      coming := []
      conversation := { s.conversation with unread := s.conversation.unread ++ s.coming } }
  else
    match s.conversation.readLine? with
    | some (c, duty) => some (s.fulfil server c duty)
    | none =>
      if s.conversation.listening && s.coming.isEmpty && !s.conversation.closed then
        some { s with conversation := { s.conversation with closed := true } }
      else if s.flushed < s.conversation.written.length then
        some { s with flushed := s.flushed + 1 }
      else s.nextTask?

theorem step_of_nextTask? {s s' : Serving} (h : s.nextTask? = some s') (server : Server) :
    Step server s s' := by
  unfold nextTask? at h
  split at h
  next tasks =>
    cases h
    exact .release (show s.tasks = [] ++ _ :: _ from tasks) rfl
  next tasks =>
    cases h
    exact .answer (show s.tasks = [] ++ _ :: _ from tasks) rfl
  next => cases h

theorem step_of_next? {server : Server} {s s' : Serving} (h : s.next? server = some s') :
    Step server s s' := by
  unfold next? at h
  split at h
  next more =>
    cases h
    simp only [Bool.and_eq_true, Bool.not_eq_true', List.isEmpty_eq_false_iff] at more
    exact .come more.1 (List.append_nil s.coming).symm more.2
  next =>
    split at h
    next found =>
      cases h
      exact .read found
    next =>
      split at h
      next still =>
        cases h
        simp only [Bool.and_eq_true, Bool.not_eq_true', List.isEmpty_iff] at still
        exact .close still.1.1 still.1.2 still.2
      next =>
        split at h
        next more =>
          cases h
          exact .flush more
        next => exact step_of_nextTask? h server

/-- What comes of an input by so many of these things. -/
def play (server : Server) (input : List UInt8) : Nat → Serving
  | 0 => start input
  | steps + 1 => ((play server input steps).next? server).getD (play server input steps)

theorem run_play (server : Server) (input : List UInt8) (steps : Nat) :
    Run server input (play server input steps) := by
  induction steps with
  | zero => exact .refl
  | succ steps ih =>
    cases next : (play server input steps).next? server with
    | none => simpa [play, next] using ih
    | some s =>
      have later : Run server input s := ih.tail (step_of_next? next)
      simpa [play, next] using later

end Serving

/-- Two requests, of which the first is cancelled, an empty line and one that is no JSON. -/
theorem second_request_and_bad_line_get_responses :
    let server := Server.new "t" "1"
    let input := utf8Bytes ("\x7b\"jsonrpc\":\"2.0\",\"id\":1,\"method\":\"ping\"\x7d\n\n" ++
      "\x7b\"jsonrpc\":\"2.0\",\"id\":2,\"method\":\"ping\"\x7d\nx\n" ++
      "\x7b\"jsonrpc\":\"2.0\",\"method\":\"notifications/cancelled\"," ++
      "\"params\":\x7b\"requestId\":1\x7d\x7d")
    ∃ s, Run server input s ∧ s.isOver = true ∧ ServesAll input s ∧ s.output = utf8Bytes
      ("\x7b\"error\":\x7b\"code\":-32700,\"message\":\"Parse error: ...\"\x7d," ++
        "\"id\":null,\"jsonrpc\":\"2.0\"\x7d\n" ++
        "\x7b\"id\":2,\"jsonrpc\":\"2.0\",\"result\":\x7b\x7d\x7d\n") := by
  intro server input
  have valid : ∀ line ∈ linesOf input, line.length ≤ greatestLine ∧
      (lineText? line).isSome = true := by decide +kernel
  have ended : (play server input 16).isOver = true ∧ (play server input 16).output = utf8Bytes
      ("\x7b\"error\":\x7b\"code\":-32700,\"message\":\"Parse error: ...\"\x7d," ++
        "\"id\":null,\"jsonrpc\":\"2.0\"\x7d\n" ++
        "\x7b\"id\":2,\"jsonrpc\":\"2.0\",\"result\":\x7b\x7d\x7d\n") := by decide +kernel
  have run := run_play server input 16
  have serves := (every_line_gets_what_it_is_owed server valid).holds _ run ended.1
  exact ⟨_, run, ended.1, serves, ended.2⟩

/-- The lines of an input that can be read, up to the first that cannot, get what they are owed. If
that one is too long it is refused; if it is no text the reading ends with a fault, and the requests
that were made before still come to their ends. -/
def Serving.ServesReadable (input : List UInt8) (s : Serving) : Prop :=
  ∃ answer more, Owes (readable input) s answer ∧
    s.conversation.written.Perm
      ((List.range (readable input).length).filterMap answer ++ more) ∧
    s.Stops more ((linesOf input).dropWhile isReadable)

/-- Whatever the input is, lines that are no JSON or no request do not keep those behind them from
being served. -/
theorem every_line_up_to_an_unreadable_one_is_served (server : Server) (input : List UInt8) :
    Completes server input (ServesReadable input) :=
  completes fun _ answer extra account finished => ⟨answer, extra, account.ending finished⟩

/-- A line that is no text gets no response, and neither does the request behind it. -/
theorem line_that_is_no_text_ends_the_reading :
    let server := Server.new "t" "1"
    let ping := utf8Bytes "\x7b\"jsonrpc\":\"2.0\",\"id\":1,\"method\":\"ping\"\x7d"
    let input := [0xFF, 0x0A] ++ ping ++ [0x0A]
    let id? := (lineText? ping).bind fun text => (Json.ofChars? text.toList).bind fun value =>
      (Request.decode value).toOption.bind Request.id
    linesOf input = [[0xFF], ping] ∧ lineText? [0xFF] = none ∧ id? = some (.number 1) ∧
      ∃ s, Run server input s ∧ s.isOver = true ∧ s.output = [] ∧
        s.conversation.fault.isSome = true := by
  intro server ping input id?
  have ended : (play server input 4).isOver = true ∧ (play server input 4).output = [] ∧
      (play server input 4).conversation.fault.isSome = true := by decide +kernel
  refine ⟨by decide +kernel, by decide +kernel, by decide +kernel, _, run_play server input 4, ended⟩

end CodeIntel.Agent

import CodeIntel.Agent.Conversation
import CodeIntel.Agent.Lines
import CodeIntel.Agent.Server
import CodeIntel.Proofs.Plan
import Mathlib.Data.List.Basic
import Mathlib.Logic.Relation

namespace CodeIntel.Agent

/-- The lines of an input: what stands between its line feeds, and behind the last one if that is
anything. -/
def linesOf (input : List UInt8) : List (List UInt8) :=
  let pieces := input.splitOn 0x0A
  if pieces.getLast? = some [] then pieces.dropLast else pieces

/-- The text of a line, without a carriage return at its end. -/
def lineText? (line : List UInt8) : Option String := ofUtf8? (finishLine line.reverse)

theorem linesOf_nil : linesOf [] = [] := by decide

theorem linesOf_feed {line : List UInt8} (whole : 0x0A ∉ line) (rest : List UInt8) :
    linesOf (line ++ 0x0A :: rest) = line :: linesOf rest := by
  unfold linesOf
  rw [List.splitOn_append_cons_self_of_not_mem whole]
  obtain ⟨first, others, eq⟩ := List.exists_cons_of_ne_nil (List.splitOn_ne_nil 0x0A rest)
  simp only [eq, List.getLast?_cons_cons, List.dropLast_cons_cons]
  split <;> rfl

theorem linesOf_last {line : List UInt8} (whole : 0x0A ∉ line) (some : line ≠ []) :
    linesOf line = [line] := by
  unfold linesOf
  rw [List.splitOn_eq_singleton whole]
  simp [some]

/-- The first line of an input holds all that stands before a line feed. -/
theorem linesOf_front {front : List UInt8} (whole : 0x0A ∉ front) (some : front ≠ [])
    (rest : List UInt8) :
    ∃ tail others, linesOf (front ++ rest) = (front ++ tail) :: others := by
  by_cases feed : 0x0A ∈ rest
  · obtain ⟨tail, behind, rfl, before⟩ := List.eq_append_cons_of_mem feed
    refine ⟨tail, linesOf behind, ?_⟩
    rw [← List.append_assoc]
    exact linesOf_feed (by simp [whole, before]) behind
  · exact ⟨rest, [], linesOf_last (by simp [whole, feed]) (by simp [some])⟩

section Search

variable {acc bytes line rest : List UInt8} {room : Nat}

theorem searchLine_found (h : searchLine acc room bytes = .found line rest) :
    ∃ piece, bytes = piece ++ 0x0A :: rest ∧ 0x0A ∉ piece ∧ piece.length ≤ room ∧
      line = finishLine (piece.reverse ++ acc) := by
  fun_induction searchLine acc room bytes with
  | case1 => cases h
  | case2 acc room behind =>
    cases h
    exact ⟨[], rfl, List.not_mem_nil, Nat.zero_le _, rfl⟩
  | case3 => cases h
  | case4 acc b behind other room ih =>
    obtain ⟨piece, rfl, whole, fits, rfl⟩ := ih h
    refine ⟨b :: piece, rfl, ?_, Nat.succ_le_succ fits, by simp⟩
    simp [whole, Ne.symm other]

theorem searchLine_unfinished (h : searchLine acc room bytes = .unfinished) :
    0x0A ∉ bytes ∧ bytes.length ≤ room := by
  fun_induction searchLine acc room bytes with
  | case1 => exact ⟨List.not_mem_nil, Nat.zero_le _⟩
  | case2 => cases h
  | case3 => cases h
  | case4 acc b behind other room ih =>
    obtain ⟨whole, fits⟩ := ih h
    exact ⟨by simp [whole, Ne.symm other], Nat.succ_le_succ fits⟩

theorem searchLine_tooLong (h : searchLine acc room bytes = .tooLong) :
    ∃ front behind, bytes = front ++ behind ∧ 0x0A ∉ front ∧ room < front.length := by
  fun_induction searchLine acc room bytes with
  | case1 => cases h
  | case2 => cases h
  | case3 acc b behind other => exact ⟨[b], behind, rfl, by simp [Ne.symm other], Nat.one_pos⟩
  | case4 acc b behind other room ih =>
    obtain ⟨front, behind, rfl, whole, long⟩ := ih h
    exact ⟨b :: front, behind, rfl, by simp [whole, Ne.symm other], Nat.succ_lt_succ long⟩

end Search

/-- A line that is read as a text. -/
structure IsRead (line : List UInt8) (text : String) : Prop where
  fits : line.length ≤ greatestLine
  text : lineText? line = some text

/-- What reading a line from the bytes at hand tells of all bytes, those to come included. -/
def LineResult.Tells (bytes coming : List UInt8) (closed : Bool) : LineResult → Prop
  | .line text rest => rest.length < bytes.length ∧
      ∃ line, IsRead line text ∧ linesOf (bytes ++ coming) = line :: linesOf (rest ++ coming)
  | .tooLong => ∃ line others, linesOf (bytes ++ coming) = line :: others ∧
      greatestLine < line.length
  | .notText => ∃ line others, linesOf (bytes ++ coming) = line :: others ∧
      line.length ≤ greatestLine ∧ lineText? line = none
  | .waiting => closed = false
  | .ended => closed = true ∧ (bytes = [] ∨ bytes = [0x0D])

theorem lineResult_tells {bytes line rest coming : List UInt8} {closed : Bool}
    (fits : line.length ≤ greatestLine) (shorter : rest.length < bytes.length)
    (lines : linesOf (bytes ++ coming) = line :: linesOf (rest ++ coming)) :
    (lineResult (finishLine line.reverse) rest).Tells bytes coming closed := by
  unfold lineResult
  split
  next text isText => exact ⟨shorter, line, ⟨fits, isText⟩, lines⟩
  next noText => exact ⟨line, _, lines, fits, noText⟩

theorem readLine_tells {bytes coming : List UInt8} {closed : Bool}
    (all : closed = true → coming = []) : (readLine closed bytes).Tells bytes coming closed := by
  unfold readLine
  split
  next line rest found =>
    obtain ⟨piece, rfl, whole, fits, rfl⟩ := searchLine_found found
    rw [List.append_nil]
    refine lineResult_tells fits (by simp; omega) ?_
    rw [List.append_assoc]
    exact linesOf_feed whole (rest ++ coming)
  next long =>
    obtain ⟨front, behind, rfl, whole, long⟩ := searchLine_tooLong long
    have some : front ≠ [] := List.ne_nil_of_length_pos (Nat.zero_lt_of_lt long)
    obtain ⟨tail, others, lines⟩ := linesOf_front whole some (behind ++ coming)
    refine ⟨front ++ tail, others, ?_, by simp; omega⟩
    rw [List.append_assoc]
    exact lines
  next unfinished =>
    obtain ⟨whole, fits⟩ := searchLine_unfinished unfinished
    split
    next still => exact Bool.not_eq_true' closed |>.mp still
    next ended =>
      have closed : closed = true := by simpa using ended
      obtain rfl := all closed
      split
      next empty => exact ⟨closed, by simpa using empty⟩
      next filled =>
        have some : bytes ≠ [] := fun eq => filled (by simp [eq])
        refine lineResult_tells fits (List.length_pos_of_ne_nil some) ?_
        rw [List.append_nil, List.append_nil, linesOf_nil]
        exact linesOf_last whole some

end CodeIntel.Agent

namespace CodeIntel.Agent

/-- A response to the request with an identifier has a result or an error, and not both. -/
structure Response.Answers (id : RequestId) (r : Response) : Prop where
  id : r.id = some id
  one : r.result.isSome ≠ r.error.isSome

/-- A response that refuses a line. -/
structure Response.Refuses (code : Int) (id? : Option RequestId) (r : Response) : Prop where
  id : r.id = id?
  result : r.result = none
  error : r.error.map ErrorObject.code = some code

theorem answers_success (id : RequestId) (result : Json) :
    (Response.success (some id) result).Answers id := ⟨rfl, nofun⟩

theorem answers_failure (id : RequestId) (code : Int) (message : String) :
    (Response.failure (some id) code message).Answers id := ⟨rfl, nofun⟩

theorem refuses_failure (id? : Option RequestId) (code : Int) (message : String) :
    (Response.failure id? code message).Refuses code id? := ⟨rfl, rfl, rfl⟩

/-- The response that a line is owed, if it is owed one; `tripped` tells whether the request that it
makes is cancelled. -/
inductive Owed (tripped : Prop) (line : String) : Option Response → Prop
  | blank (blank : isBlankText line.toList = true) : Owed tripped line none
  | noJson {r : Response} (filled : isBlankText line.toList = false)
      (noJson : Json.ofChars? line.toList = none) (refuses : r.Refuses (-32700) none) :
      Owed tripped line (some r)
  | noRequest {r : Response} {value : Json} {e : ShapeError}
      (filled : isBlankText line.toList = false) (json : Json.ofChars? line.toList = some value)
      (noRequest : Request.decode value = .error e) (refuses : r.Refuses (-32600) (idOf? value)) :
      Owed tripped line (some r)
  | notification {value : Json} {request : Request} (filled : isBlankText line.toList = false)
      (json : Json.ofChars? line.toList = some value) (decoded : Request.decode value = .ok request)
      (noId : request.id = none) : Owed tripped line none
  | cancelled {value : Json} {request : Request} {id : RequestId}
      (filled : isBlankText line.toList = false) (json : Json.ofChars? line.toList = some value)
      (decoded : Request.decode value = .ok request) (hasId : request.id = some id)
      (isTripped : tripped) : Owed tripped line none
  | answered {value : Json} {request : Request} {id : RequestId} {r : Response}
      (filled : isBlankText line.toList = false) (json : Json.ofChars? line.toList = some value)
      (decoded : Request.decode value = .ok request) (hasId : request.id = some id)
      (notTripped : ¬ tripped) (answers : r.Answers id) : Owed tripped line (some r)

/-- What is owed to a line of which this is the meaning. -/
def LineMeaning.Owes (line : String) : LineMeaning → Prop
  | .nothing | .cancellation _ => ∀ tripped, Owed tripped line none
  | .refused r => ∀ tripped, Owed tripped line (some r)
  | .request id _ _ =>
    (∀ tripped : Prop, tripped → Owed tripped line none) ∧
      ∀ (tripped : Prop) (r : Response), ¬ tripped → r.Answers id → Owed tripped line (some r)

theorem owes_lineMeaning (line : String) : (lineMeaning line).Owes line := by
  unfold lineMeaning
  simp only
  split
  next blank => exact fun _ => .blank blank
  next filled =>
    have filled := Bool.eq_false_iff.mpr filled
    split
    next noJson => exact fun _ => .noJson filled noJson (refuses_failure _ _ _)
    next value json =>
      split
      next r decoded =>
        unfold requestMeaning
        split
        next id hasId =>
          exact ⟨fun _ tripped => .cancelled filled json decoded hasId tripped,
            fun _ _ notTripped answers => .answered filled json decoded hasId notTripped answers⟩
        next noId =>
          have notified : ∀ tripped, Owed tripped line none := fun _ =>
            .notification filled json decoded noId
          unfold notificationMeaning
          split
          · split <;> exact notified
          · exact notified
      next e refused => exact fun _ => .noRequest filled json refused (refuses_failure _ _ _)

namespace Server

theorem callTool_answers (s : Server) (id : RequestId) (params : Option Json) :
    (s.callTool id params).Outcomes (Response.Answers id) := by
  unfold callTool
  split
  · exact answers_failure id _ _
  · split
    · exact answers_failure id _ _
    next tool _ =>
      refine Plan.outcomes_bind (fun result => ?_) (tool.run id _)
      exact answers_success id (toolResult result).toJson

theorem getPrompt_answers (s : Server) (id : RequestId) (params : Option Json) :
    (s.getPrompt id params).Outcomes (Response.Answers id) := by
  unfold getPrompt
  split
  · exact answers_failure id _ _
  · split
    · exact answers_failure id _ _
    next prompt _ =>
      refine Plan.outcomes_bind (fun text => ?_) (prompt.render id _)
      exact answers_success id _

/-- Whatever tools and prompts do, a request that is handled is answered by its own identifier. -/
theorem handle_answers (s : Server) (id : RequestId) (method : String) (params : Option Json) :
    (s.handle id method params).Outcomes (Response.Answers id) := by
  unfold handle
  split
  · exact answers_success id _
  · exact answers_success id _
  · exact answers_success id _
  · exact s.callTool_answers id params
  · exact answers_success id _
  · exact s.getPrompt_answers id params
  · exact answers_failure id _ _

end Server

end CodeIntel.Agent

namespace CodeIntel.Agent

/-- How far the work on a request has come. -/
inductive Progress
  | handling (plan : CallPlan Response)
  /-- It has a response, and its identifier has been let go of. -/
  | released (response : Response)

/-- The work on a request, numbered by the line that made it. -/
structure Task where
  number : Nat
  id : RequestId
  tripped : Bool
  progress : Progress

def Task.trip (job? : Option Nat) (t : Task) : Task :=
  if some t.number = job? then { t with tripped := true } else t

inductive Happening
  /-- A line is read, and the token of the request that another line made is tripped. -/
  | took (line : Nat) (trips : Option Nat)
  | released (line : Nat)

/-- A conversation with all that takes part in it. -/
structure Serving where
  /-- The input that is still to come. -/
  coming : List UInt8
  conversation : Conversation
  /-- The lines that were read. -/
  lines : List String
  tasks : List Task
  /-- How many responses have left. -/
  flushed : Nat
  /-- What has happened, the latest first. -/
  history : List Happening

namespace Serving

def start (input : List UInt8) : Serving := ⟨input, .fresh, [], [], 0, []⟩

/-- What has been written so far. -/
def output (s : Serving) : List UInt8 :=
  (s.conversation.written.take s.flushed).flatMap Response.line

/-- Whether no more lines are read, all requests have ended and all responses have left. -/
def isOver (s : Serving) : Bool :=
  s.conversation.isOver && s.flushed == s.conversation.written.length

/-- The line that is read next. -/
def nextLine? (s : Serving) : Option String :=
  match readLine s.conversation.closed s.conversation.unread with
  | .line text _ => some text
  | _ => none

def note (s : Serving) (trips : Option Nat) : Serving :=
  match s.nextLine? with
  | some line =>
    { s with lines := s.lines ++ [line], history := .took s.lines.length trips :: s.history }
  | none => s

/-- Does what the line that was read asks for. -/
def fulfil (server : Server) (s : Serving) (c : Conversation) : Duty → Serving
  | .nothing => { s.note none with conversation := c }
  | .start id method params =>
    { s.note none with
      conversation := c.started id s.lines.length
      tasks := s.tasks ++
        [⟨s.lines.length, id, false, .handling (server.handle id method params)⟩] }
  | .cancel job =>
    { s.note (some job) with conversation := c, tasks := s.tasks.map (Task.trip (some job)) }

/-- What may happen next: some of the input comes, it comes to its end, a line is read, the work on
a request is told something, lets go of its identifier or ends, or a response leaves. -/
inductive Step (server : Server) : Serving → Serving → Prop
  | come {s : Serving} {part rest : List UInt8} (listening : s.conversation.listening = true)
      (more : s.coming = part ++ rest) (some : part ≠ []) :
      Step server s { s with
        coming := rest
        conversation := { s.conversation with unread := s.conversation.unread ++ part } }
  | close {s : Serving} (listening : s.conversation.listening = true) (all : s.coming = [])
      (still : s.conversation.closed = false) :
      Step server s { s with conversation := { s.conversation with closed := true } }
  | read {s : Serving} {c : Conversation} {duty : Duty}
      (found : s.conversation.readLine? = some (c, duty)) : Step server s (s.fulfil server c duty)
  | tell {s : Serving} {t : Task} {before after : List Task} {q : Ask}
      {next : q.Reply → CallPlan Response} (tasks : s.tasks = before ++ t :: after)
      (asks : t.progress = .handling (.ask q next)) (reply : q.Reply) :
      Step server s
        { s with tasks := before ++ { t with progress := .handling (next reply) } :: after }
  | release {s : Serving} {t : Task} {before after : List Task} {response : Response}
      (tasks : s.tasks = before ++ t :: after) (done : t.progress = .handling (.done response)) :
      Step server s { s with
        conversation := s.conversation.released t.number
        tasks := before ++ { t with progress := .released response } :: after
        history := .released t.number :: s.history }
  | answer {s : Serving} {t : Task} {before after : List Task} {response : Response}
      (tasks : s.tasks = before ++ t :: after) (released : t.progress = .released response) :
      Step server s { s with
        conversation := s.conversation.answered t.number t.tripped response
        tasks := before ++ after }
  | flush {s : Serving} (more : s.flushed < s.conversation.written.length) :
      Step server s { s with flushed := s.flushed + 1 }

/-- What may come of an input. -/
def Run (server : Server) (input : List UInt8) (s : Serving) : Prop :=
  Relation.ReflTransGen (Step server) (start input) s

/-- Whether a line that was read tripped the token of the request that another line made. -/
def Tripped (history : List Happening) (k : Nat) : Prop := ∃ j, .took j (some k) ∈ history

/-- The request that a line made has been taken up, and its identifier names it still. -/
def InFlight (history : List Happening) (k : Nat) : Prop :=
  .took k none ∈ history ∧ .released k ∉ history

end Serving

end CodeIntel.Agent

import CodeIntel.Proofs.Client.Telling
import CodeIntel.Proofs.Frame.Decoding
import Mathlib.Data.List.Infix

namespace CodeIntel

theorem isWithin_iff {part : List Char} (cs : List Char) :
    isWithin part cs = true ↔ part <:+: cs := by
  induction cs with
  | nil => simp [isWithin]
  | cons c cs ih =>
    rw [isWithin, Bool.or_eq_true, List.isPrefixOf_iff_prefix, ih, List.infix_cons_iff]

/-- A piece of two lists in a row lies in one of them, or it is cut where they meet. -/
theorem infix_append_cases {α : Type} {part left right : List α} (h : part <:+: left ++ right) :
    part <:+: left ∨ part <:+: right ∨
      ∃ k, k + 1 < part.length ∧ part.take (k + 1) <:+ left ∧ part.drop (k + 1) <+: right := by
  obtain ⟨before, after, same⟩ := h
  rw [List.append_assoc] at same
  rcases List.append_eq_append_iff.mp same with ⟨rest, rfl, cut⟩ | ⟨rest, rfl, rfl⟩
  · rcases List.append_eq_append_iff.mp cut with ⟨more, rfl, rfl⟩ | ⟨more, rfl, rfl⟩
    · exact .inl ⟨before, more, by simp⟩
    · match rest, more with
      | [], _ => exact .inr (.inl ⟨[], after, by simp⟩)
      | _, [] => exact .inl ⟨before, [], by simp⟩
      | a :: rest, b :: more =>
        refine .inr (.inr ⟨rest.length, by simp, ?_, ?_⟩)
        · exact ⟨before, by simp⟩
        · exact ⟨after, by simp⟩
  · exact .inr (.inl ⟨rest, after, by simp⟩)

theorem infix_append_iff {α : Type} {part left right : List α}
    (apart : ∀ k, k + 1 < part.length → part.take (k + 1) <:+ left →
      ¬ part.drop (k + 1) <+: right) :
    part <:+: left ++ right ↔ part <:+: left ∨ part <:+: right := by
  constructor
  · intro h
    rcases infix_append_cases h with inside | inside | ⟨k, lt, ends, starts⟩
    · exact .inl inside
    · exact .inr inside
    · exact absurd starts (apart k lt ends)
  · rintro (inside | inside)
    · exact inside.trans (List.prefix_append left right).isInfix
    · exact inside.trans (List.suffix_append left right).isInfix

namespace RemoteError

/-- The text by which an error about an unknown method is known. -/
def unknownMark : List Char := "code -32601".toList

/-- Whether an error is taken for one about an unknown method: its code starts with the digits of
that of such errors, or its message tells of that code. -/
def LooksUnknown (e : RemoteError) : Prop :=
  "-32601".toList <+: (toString e.code).toList ∨ unknownMark <:+: e.message.toList

theorem looksUnknown_of_code {e : RemoteError} (h : e.code = methodNotFoundCode) :
    e.LooksUnknown := by
  rw [LooksUnknown, h]
  exact .inl (by decide)

theorem toString_negSucc (n : Nat) :
    (toString (Int.negSucc n)).toList = '-' :: (n + 1).repr.toList := by
  rw [show toString (Int.negSucc n) = "-" ++ (n + 1).repr from rfl, String.toList_append]
  rfl

theorem isDigit_of_mem_code {n : Int} {c : Char} (mem : c ∈ (toString n).toList) :
    c = '-' ∨ c.isDigit = true := by
  cases n with
  | ofNat n => exact .inr (isDigit_of_mem_repr mem)
  | negSucc n =>
    rw [toString_negSucc] at mem
    exact (List.mem_cons.mp mem).imp_right isDigit_of_mem_repr

/-- Among the codes of at most five digits, only that of unknown methods starts with its digits. -/
theorem code_of_looksUnknown {e : RemoteError} (few : -99999 ≤ e.code)
    (silent : ¬ unknownMark <:+: e.message.toList) (looks : e.LooksUnknown) :
    e.code = methodNotFoundCode := by
  have starts := looks.resolve_right silent
  obtain ⟨code, message⟩ := e
  cases code with
  | ofNat n =>
    have minus : '-' ∈ n.repr.toList := starts.subset (by decide)
    exact absurd (isDigit_of_mem_repr minus) (by decide)
  | negSucc n =>
    have text : "-32601".toList = '-' :: "32601".toList := by decide
    rw [toString_negSucc, text, List.cons_prefix_cons] at starts
    have small : n + 1 < 10 ^ 5 := by
      dsimp only at few
      omega
    have short : (n + 1).repr.toList.length ≤ 5 := (Nat.length_repr_le_iff (by decide)).mpr small
    have same : "32601".toList = (n + 1).repr.toList := starts.2.eq_of_length_le short
    have value : n + 1 = 32601 := by
      rw [← Nat.ofDigitChars_ten_toDigits (n := n + 1), ← Nat.toList_repr, ← same]
      decide
    obtain rfl : n = 32600 := by omega
    rfl

/-- The end of the text of an error has the mark if its code starts as the one of unknown
methods. -/
theorem infix_code_iff (code : Int) :
    unknownMark <:+: " (code ".toList ++ ((toString code).toList ++ [')']) ↔
      "-32601".toList <+: (toString code).toList := by
  have plain (c : Char) (mem : c ∈ (toString code).toList ++ [')']) : c ≠ 'c' := by
    rcases List.mem_append.mp mem with mem | mem
    · rintro rfl
      exact absurd (isDigit_of_mem_code mem) (by decide)
    · rw [List.mem_singleton.mp mem]
      decide
  have tail : "-32601".toList <+: (toString code).toList ++ [')'] ↔
      "-32601".toList <+: (toString code).toList := by
    rw [List.prefix_concat_iff]
    refine or_iff_right fun same => ?_
    exact absurd (congrArg List.getLast? same) (by simp)
  have marked : 'c' ∈ unknownMark := by decide
  have none : ¬ unknownMark <:+: " (code ".toList := by
    rw [← isWithin_iff]
    decide
  constructor
  · intro h
    rcases infix_append_cases h with inside | inside | ⟨k, lt, ends, starts⟩
    · exact absurd inside none
    · exact absurd rfl (plain 'c' (inside.subset marked))
    · -- The text before the code ends with the first characters of the mark up to its blank only.
      have cut : ∀ k < 10, unknownMark.take (k + 1) <:+ " (code ".toList → k = 4 := by decide
      have rest : unknownMark.drop 5 = "-32601".toList := by decide
      rw [cut k (Nat.lt_of_succ_lt_succ lt) ends, rest] at starts
      exact tail.mp starts
  · rintro ⟨rest, same⟩
    have start : " (".toList ++ unknownMark = " (code ".toList ++ "-32601".toList := by decide
    refine ⟨" (".toList, rest ++ [')'], ?_⟩
    rw [start, ← same]
    simp only [List.append_assoc]

/-- What is told of an error that the server answers a request of a method with. -/
def account (method : String) (e : RemoteError) : String :=
  s!"{method}: {e.message} (code {e.code})"

theorem account_toList (e : RemoteError) :
    (e.account "textDocument/diagnostic").toList =
      "textDocument/diagnostic: ".toList ++ (e.message.toList ++
        (" (code ".toList ++ ((toString e.code).toList ++ [')']))) := by
  have start : "textDocument/diagnostic".toList ++ ": ".toList =
      "textDocument/diagnostic: ".toList := by decide
  rw [← start]
  simp only [account, toString, String.toList_append, List.append_assoc]
  rfl

theorem infix_message_iff (e : RemoteError) {rest : List Char} :
    unknownMark <:+: "textDocument/diagnostic: ".toList ++
        (e.message.toList ++ (' ' :: '(' :: rest)) ↔
      unknownMark <:+: e.message.toList ∨ unknownMark <:+: ' ' :: '(' :: rest := by
  have before : ∀ k < 10,
      ¬ unknownMark.take (k + 1) <:+ "textDocument/diagnostic: ".toList := by decide
  have after : ∀ k < 10, ¬ (unknownMark.drop (k + 1)).take 2 <+: [' ', '('] := by decide
  have none : ¬ unknownMark <:+: "textDocument/diagnostic: ".toList := by
    rw [← isWithin_iff]
    decide
  rw [infix_append_iff fun k lt ends => absurd ends (before k (Nat.lt_of_succ_lt_succ lt)),
    or_iff_right none]
  exact infix_append_iff fun k lt _ starts =>
    after k (Nat.lt_of_succ_lt_succ lt) (List.IsPrefix.take starts 2)

theorem isUnknownMethod_iff (e : RemoteError) :
    Client.isUnknownMethod (.requestFailed (e.account "textDocument/diagnostic")) = true ↔
      e.LooksUnknown := by
  refine (isWithin_iff _).trans ?_
  rw [account_toList]
  exact (infix_message_iff e).trans ((or_congr_right (infix_code_iff e.code)).trans or_comm)

end RemoteError

/-- Whether a deed waits for the answer to a request. -/
def Deed.IsAwait : Deed → Prop
  | await .. => True
  | _ => False

namespace Client

-- How a path becomes a URI and how a report is read does not matter to what becomes of an error.
attribute [local irreducible] Path.uri readReport

variable {client : Client} {path : Path} {talk : Deeds}
  {result : Except ServerError (Option (List Diagnostic))}

theorem mayTell_notAwait (p cwd : Path) : MayTell (fun d => ¬ d.IsAwait) p cwd where
  reads := nofun
  counts := nofun
  enters := nofun
  leaves := nofun
  looks := nofun
  keeps := nofun
  entersWriter := nofun
  looksAtWriter := nofun
  leavesWriter := nofun
  opens := nofun
  changes := nofun

theorem asks_awaitPublished (path : Path) (synced deadline rounds : Nat) :
    (awaitPublished path synced deadline rounds).run.Asks fun d => ¬ d.IsAwait := by
  induction rounds with
  | zero => trivial
  | succ rounds ih =>
    refine Plan.asks_run_bind (MayTell.asks_ask nofun) fun seen => ?_
    refine Plan.asks_run_bind (MayTell.asks_ask nofun) fun latest => ?_
    cases newerThan synced latest with
    | some found => trivial
    | none =>
      refine Plan.asks_run_bind (MayTell.asks_ask nofun) fun updated => ?_
      cases updated with
      | true => exact ih
      | false => trivial

theorem asks_publishedDiagnostics (client : Client) (path : Path) :
    (client.publishedDiagnostics path).run.Asks fun d => ¬ d.IsAwait := by
  refine Plan.asks_run_bind ?_ fun known => ⟨nofun, fun start => asks_awaitPublished ..⟩
  exact (mayTell_notAwait path client.cwd).asks_withDocuments (MayTell.asks_ask nofun)

variable {id deadline : Nat} {value : Option Json} {e : RemoteError}

/-- What a request that the server refused to answer comes to. -/
theorem pulled_of_rejected (talks : (client.pullDiagnostics path).run.Converses talk result)
    (rejected : ⟨.await id deadline, .answered ⟨value, some e⟩⟩ ∈ talk) :
    (∃ params, ⟨.write (Outgoing.request id "textDocument/diagnostic" (some params)).bytes,
      .ok ()⟩ ∈ talk) ∧
    result = if isUnknownMethod (.requestFailed (e.account "textDocument/diagnostic")) then .ok none
      else .error (.requestFailed (e.account "textDocument/diagnostic")) := by
  rcases Plan.converses_except_bind_iff.mp talks with ⟨_, _, rfl, _⟩ | ⟨document, _, talks⟩
  · cases rejected
  obtain ⟨asked, outcome, after, rfl, asks, reads⟩ := Plan.converses_work_bind_iff.mp talks
  have quiet : after = [] := by
    cases outcome with
    | ok value => exact reads.1
    | error e =>
      dsimp only at reads
      split at reads <;> exact reads.1
  rw [quiet, List.append_nil] at rejected ⊢
  obtain ⟨wrote, rfl⟩ := (Attempt.converses_request_iff.mp asks).of_awaited rejected
  refine ⟨⟨_, wrote⟩, ?_⟩
  have reads : (if isUnknownMethod (.requestFailed (e.account "textDocument/diagnostic")) then
      pure none else throw (.requestFailed (e.account "textDocument/diagnostic")) :
      Attempt (Option (List Diagnostic))).run.Converses after result := reads
  split at reads
  · exact reads.2.trans (if_pos ‹_›).symm
  · exact reads.2.trans (if_neg ‹_›).symm

/-- After the server has refused to tell the diagnostics, the text of its error alone decides
whether they are taken as they are published. -/
theorem refused_diagnostics_follow_text
    (talks : (client.diagnostics path).run.Converses talk result)
    (rejected : ⟨.await id deadline, .answered ⟨value, some e⟩⟩ ∈ talk) :
    (e.code = RemoteError.methodNotFoundCode → e.LooksUnknown) ∧
    (-99999 ≤ e.code → ¬ RemoteError.unknownMark <:+: e.message.toList → e.LooksUnknown →
      e.code = RemoteError.methodNotFoundCode) ∧
    ∃ before after params, talk = before ++ after ∧
      ⟨.write (Outgoing.request id "textDocument/diagnostic" (some params)).bytes,
        .ok ()⟩ ∈ before ∧
      ⟨.await id deadline, .answered ⟨value, some e⟩⟩ ∈ before ∧
      (e.LooksUnknown → (client.publishedDiagnostics path).run.Converses after result) ∧
      (¬ e.LooksUnknown → after = [] ∧
        result = .error (.requestFailed (e.account "textDocument/diagnostic"))) := by
  refine ⟨RemoteError.looksUnknown_of_code, RemoteError.code_of_looksUnknown, ?_⟩
  have opens : (client.ensureOpen path).run.Asks fun d => ¬ d.IsAwait :=
    (mayTell_notAwait path client.cwd).ensureOpen
  have publishes := asks_publishedDiagnostics client path
  rcases Plan.converses_run_bind_iff.mp talks with ⟨_, first, _⟩ | ⟨opening, _, _, rfl, first, rest⟩
  · exact absurd trivial (opens.of_converses first _ rejected)
  have rejected := (List.mem_append.mp rejected).resolve_left fun mem =>
    opens.of_converses first _ mem trivial
  -- The server refuses nothing where it is not asked.
  cases asked : client.features.diagnostics with
  | false =>
    rw [asked] at rest
    exact absurd trivial (publishes.of_converses rest _ rejected)
  | true =>
    rw [asked] at rest
    rcases Plan.converses_run_bind_iff.mp rest with
      ⟨failure, pulls, rfl⟩ | ⟨pulling, pulled, after, rfl, pulls, rest⟩
    · obtain ⟨⟨params, wrote⟩, outcome⟩ := pulled_of_rejected pulls rejected
      split at outcome
      · cases outcome
      · cases outcome
        have looks : ¬ e.LooksUnknown := mt e.isUnknownMethod_iff.mpr ‹_›
        exact ⟨opening ++ _, [], params, (List.append_nil _).symm, List.mem_append_right _ wrote,
          List.mem_append_right _ rejected, fun looks' => absurd looks' looks, fun _ => ⟨rfl, rfl⟩⟩
    · have inside := (List.mem_append.mp rejected).resolve_right fun mem => by
        cases pulled with
        | some found => rw [rest.1] at mem; cases mem
        | none => exact publishes.of_converses rest _ mem trivial
      obtain ⟨⟨params, wrote⟩, outcome⟩ := pulled_of_rejected pulls inside
      split at outcome
      · cases outcome
        have looks : e.LooksUnknown := e.isUnknownMethod_iff.mp ‹_›
        exact ⟨opening ++ pulling, after, params, (List.append_assoc ..).symm,
          List.mem_append_right _ wrote, List.mem_append_right _ inside, fun _ => rest,
          fun looks' => absurd looks looks'⟩
      · cases outcome

theorem pulls_of_refused {uri : Uri} {pulling : Deeds} (named : path.uri client.cwd = .ok uri)
    (looks : e.LooksUnknown)
    (asks : client.Requesting "textDocument/diagnostic"
      (.ofMembers [("textDocument", .ofMembers [("uri", .string uri.text)]), ("identifier", .null),
        ("previousResultId", .null)])
      pulling (.error (.requestFailed (e.account "textDocument/diagnostic")))) :
    (client.pullDiagnostics path).run.Converses pulling (.ok none) := by
  refine Plan.converses_except_bind_iff.mpr (.inr ⟨_, documentMember_of_named named, ?_⟩)
  refine Plan.converses_work_bind_iff.mpr
    ⟨_, _, [], (List.append_nil _).symm, Attempt.converses_request_iff.mpr asks, ?_⟩
  dsimp only
  rw [if_pos (e.isUnknownMethod_iff.mpr looks)]
  exact ⟨rfl, rfl⟩

theorem diagnoses_of_unpulled {opening pulling waiting : Deeds}
    (offers : client.features.diagnostics = true)
    (opens : (client.ensureOpen path).run.Converses opening (.ok ()))
    (pulls : (client.pullDiagnostics path).run.Converses pulling (.ok none))
    (waits : (client.publishedDiagnostics path).run.Converses waiting result) :
    (client.diagnostics path).run.Converses (opening ++ (pulling ++ waiting)) result := by
  refine Plan.converses_run_bind_iff.mpr (.inr ⟨opening, (), _, rfl, opens, ?_⟩)
  rw [if_pos offers]
  exact Plan.converses_run_bind_iff.mpr (.inr ⟨pulling, none, waiting, rfl, pulls, waits⟩)

/-- A server that is taken not to know the request after all, and publishes nothing. -/
theorem exists_refused_run {uri : Uri} (offers : client.features.diagnostics = true)
    (named : path.uri client.cwd = .ok uri) (looks : e.LooksUnknown) :
    ∃ talk deadline, (client.diagnostics path).run.Converses talk (.ok none) ∧
      ⟨.await 1 deadline, .answered ⟨none, some e⟩⟩ ∈ talk := by
  let known : Document := ⟨1, "", 0⟩
  have pulls := pulls_of_refused named looks (.awaited 1 0 (.answered ⟨none, some e⟩))
  have waits : (client.publishedDiagnostics path).run.Converses
      [⟨.enterDocuments, ()⟩, ⟨.document path, some known⟩, ⟨.leaveDocuments, ()⟩, ⟨.now, 0⟩,
        ⟨.arrivals, 0⟩, ⟨.published path, none⟩,
        ⟨.update 0 (0 + client.config.diagnosticsWaitMs), false⟩] (.ok none) :=
    ⟨(), _, rfl, some known, _, rfl, (), _, rfl, 0, _, rfl, 0, _, rfl, none, _, rfl, false, _, rfl,
      rfl, rfl⟩
  have opens := client.converses_ensureOpen_of_known path known
  exact ⟨_, 0 + client.config.requestTimeoutSecs * 1000,
    diagnoses_of_unpulled offers opens pulls waits, by simp⟩

def puller : Client :=
  ⟨ServerConfig.ofCommand "gopls", { (default : Features) with diagnostics := true }, .ofString "/"⟩

theorem exists_puller_run (looks : e.LooksUnknown) :
    ∃ talk deadline, (puller.diagnostics (.ofString "/f")).run.Converses talk (.ok none) ∧
      ⟨.await 1 deadline, .answered ⟨none, some e⟩⟩ ∈ talk := by
  have found : ((Path.ofString "/f").uri puller.cwd).isOk = true := by decide +kernel
  obtain ⟨uri, named⟩ := isOk_iff.mp found
  exact exists_refused_run rfl named looks

theorem unknown_request_is_made_up_for :
    let path := Path.ofString "/f"
    let e := RemoteError.methodNotFound "textDocument/diagnostic"
    ∃ talk deadline, (puller.diagnostics path).run.Converses talk (.ok none) ∧
      ⟨.await 1 deadline, .answered ⟨none, some e⟩⟩ ∈ talk ∧
      ∃ before after, talk = before ++ after ∧
        (puller.publishedDiagnostics path).run.Converses after (.ok none) := by
  intro path e
  have looks : e.LooksUnknown := RemoteError.looksUnknown_of_code rfl
  obtain ⟨talk, deadline, talks, rejected⟩ := exists_puller_run looks
  obtain ⟨_, _, before, after, _, same, _, _, published, _⟩ :=
    refused_diagnostics_follow_text talks rejected
  exact ⟨talk, deadline, talks, rejected, before, after, same, published looks⟩

/-- Whether the caller may see nothing of an error that is not about an unknown method. -/
def Hides (client : Client) (path : Path) (e : RemoteError) : Prop :=
  e.code ≠ RemoteError.methodNotFoundCode ∧
    ∃ talk deadline, (client.diagnostics path).run.Converses talk (.ok none) ∧
      ⟨.await 1 deadline, .answered ⟨none, some e⟩⟩ ∈ talk

/-- An error that tells of another one is hidden, and one with a longer number. -/
theorem other_refusals_are_hidden :
    puller.Hides (.ofString "/f") ⟨-32603, "upstream failed with code -32601"⟩ ∧
      puller.Hides (.ofString "/f") ⟨-326010, "no"⟩ := by
  have tells : RemoteError.LooksUnknown ⟨-32603, "upstream failed with code -32601"⟩ := by
    refine .inr ?_
    rw [← isWithin_iff]
    decide
  have starts : RemoteError.LooksUnknown ⟨-326010, "no"⟩ := .inl (by decide)
  exact ⟨⟨by decide, exists_puller_run tells⟩, by decide, exists_puller_run starts⟩

end Client

end CodeIntel

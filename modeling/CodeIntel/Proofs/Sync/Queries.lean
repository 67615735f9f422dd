import CodeIntel.Client.Sync
import CodeIntel.Proofs.Basic
import CodeIntel.Proofs.Client.Closed
import CodeIntel.Proofs.Json.Text
import CodeIntel.Proofs.Plan
import CodeIntel.Proofs.Text.Slash
import Mathlib.Data.List.Permutation

namespace CodeIntel

section Messages

namespace Frame

theorem encode_eq (content : List UInt8) :
    encode content = utf8Bytes s!"Content-Length: {content.length}" ++
      carriageReturn :: (utf8Bytes "\n\r\n" ++ content) := by
  have header : s!"Content-Length: {content.length}\r\n\r\n" =
      s!"Content-Length: {content.length}" ++ "\r\n\r\n" := by
    simp only [String.append_assoc]
    rfl
  rw [encode, header, utf8Bytes_append, List.append_assoc]
  rfl

theorem carriageReturn_not_mem (n : Nat) :
    carriageReturn ∉ utf8Bytes s!"Content-Length: {n}" := by
  intro mem
  have mem : '\r' ∈ s!"Content-Length: {n}".toList := mem_of_mem_flatMap_utf8 (by decide) rfl mem
  have plain : ArePlain s!"Content-Length: {n}".toList := by
    rw [String.toList_append]
    exact arePlain_append (arePlain_of_all rfl) (arePlain_repr n)
  exact absurd (plain _ mem) (by decide)

theorem encode_inj {a b : List UInt8} (h : encode a = encode b) : a = b := by
  have plain (n : Nat) :
      ∀ byte ∈ utf8Bytes s!"Content-Length: {n}", ¬ byte = carriageReturn := by
    rintro _ mem rfl
    exact carriageReturn_not_mem n mem
  rw [encode_eq, encode_eq] at h
  obtain ⟨_, _, same⟩ := append_cons_unique_of_first (P := (· = carriageReturn)) h rfl rfl
    (plain a.length) (plain b.length)
  exact List.append_cancel_left same

end Frame

namespace Outgoing

theorem chars_eq_of_bytes_eq {a b : Outgoing} (h : a.bytes = b.bytes) :
    a.toJson.chars = b.toJson.chars :=
  String.ofList_injective (utf8Bytes_inj (Frame.encode_inj h))

theorem chars_notification (method : String) (params : Json) :
    (notification method (some params)).toJson.chars =
      '\x7b' :: (Json.stringChars "jsonrpc" ++ ':' :: (Json.stringChars "2.0" ++
        ',' :: (Json.stringChars "method" ++ ':' :: (Json.stringChars method ++
          ',' :: (Json.stringChars "params" ++ ':' :: (params.chars ++ ['\x7d'])))))) := by
  have members : (notification method (some params)).toJson =
      .object [("jsonrpc", .string "2.0"), ("method", .string method), ("params", params)] := by cbv
  rw [members]
  simp only [Json.chars, Json.membersChars, List.cons_append, List.append_assoc]

theorem notification_inj {method method' : String} {params params' : Json}
    (h : (notification method (some params)).bytes = (notification method' (some params')).bytes) :
    method = method' ∧ params.chars = params'.chars := by
  have chars := chars_eq_of_bytes_eq h
  rw [chars_notification, chars_notification] at chars
  simp only [List.cons.injEq, true_and, List.append_cancel_left_eq] at chars
  obtain ⟨same, rest⟩ := Json.stringChars_append_inj chars
  simpa [same] using rest

theorem exists_chars_object (key : String) (value : Json) (rest : List (String × Json)) :
    ∃ behind, (Json.object ((key, value) :: rest)).chars =
      '\x7b' :: (Json.stringChars key ++ behind) := by
  cases rest with
  | nil =>
    refine ⟨':' :: (value.chars ++ ['\x7d']), ?_⟩
    simp only [Json.chars, Json.membersChars, List.cons_append, List.append_assoc]
  | cons next rest =>
    refine ⟨':' :: (value.chars ++ ',' :: (Json.membersChars (next :: rest) ++ ['\x7d'])), ?_⟩
    simp only [Json.chars, Json.membersChars, List.cons_append, List.append_assoc]

/-- Of all messages, only notifications start with the version of the protocol. -/
theorem first_key {message : Outgoing}
    (h : ∀ method params, message ≠ .notification method params) :
    ∃ key value rest, message.toJson = .object ((key, value) :: rest) ∧ key ≠ "jsonrpc" := by
  cases message with
  | notification method params => exact absurd rfl (h method params)
  | request id method params =>
    refine ⟨"id", .nat id, ("jsonrpc", .string "2.0") :: ("method", .string method) ::
      (params.map fun params => ("params", params)).toList, ?_, by decide⟩
    cases params <;> cbv
  | result id value =>
    refine ⟨"id", id, [("jsonrpc", .string "2.0"), ("result", value)], ?_, by decide⟩
    cbv
  | failure id error =>
    refine ⟨"error", error.toJson, [("id", id), ("jsonrpc", .string "2.0")], ?_, by decide⟩
    cbv

theorem bytes_ne_notification {message : Outgoing}
    (h : ∀ method params, message ≠ .notification method params) (method : String) (params : Json) :
    message.bytes ≠ (notification method (some params)).bytes := by
  intro same
  have chars := chars_eq_of_bytes_eq same
  obtain ⟨key, value, rest, members, ne⟩ := first_key h
  obtain ⟨behind, front⟩ := exists_chars_object key value rest
  rw [members, front, chars_notification] at chars
  exact ne (Json.stringChars_append_inj (List.cons.inj chars).2).1

end Outgoing

/-- These bytes tell the server the text of the document at a path. -/
inductive Tells (p cwd : Path) (text : String) : List UInt8 → Prop
  | opened {uri : Uri} (named : p.uri cwd = .ok uri) (language : String) :
      Tells p cwd text (Outgoing.notification "textDocument/didOpen"
        (some (Client.openParams uri language text))).bytes
  | changed {uri : Uri} (named : p.uri cwd = .ok uri) (version : Int) :
      Tells p cwd text (Outgoing.notification "textDocument/didChange"
        (some (Client.changeParams uri version text))).bytes

/-- The text that messages told last of the document at a path; the latest message is the first. -/
inductive LastTold (p cwd : Path) : List (List UInt8) → Option String → Prop
  | nothing : LastTold p cwd [] none
  | told {sent : List (List UInt8)} {message : List UInt8} {text : String}
      (tells : Tells p cwd text message) : LastTold p cwd (message :: sent) (some text)
  | other {sent : List (List UInt8)} {message : List UInt8} {text? : Option String}
      (silent : ∀ text, ¬ Tells p cwd text message) (before : LastTold p cwd sent text?) :
      LastTold p cwd (message :: sent) text?

variable {p cwd : Path} {text text' : String} {message : List UInt8}

theorem openParams_inj {uri uri' : Uri} {language language' : String}
    (h : (Client.openParams uri language text).chars =
      (Client.openParams uri' language' text').chars) : text = text' ∧ uri.text = uri'.text := by
  have params (uri : Uri) (language text : String) : Client.openParams uri language text =
      .object [("textDocument", .object [("languageId", .string language), ("text", .string text),
        ("uri", .string uri.text), ("version", .int 1)])] := by cbv
  rw [params, params] at h
  simp only [Json.chars, Json.membersChars, List.cons_append, List.append_assoc, List.cons.injEq,
    true_and, List.append_cancel_left_eq] at h
  obtain ⟨-, h⟩ := Json.stringChars_append_inj h
  simp only [List.cons.injEq, true_and, List.append_cancel_left_eq] at h
  obtain ⟨texts, h⟩ := Json.stringChars_append_inj h
  simp only [List.cons.injEq, true_and, List.append_cancel_left_eq] at h
  exact ⟨texts, (Json.stringChars_append_inj h).1⟩

theorem changeParams_inj {uri uri' : Uri} {version version' : Int}
    (h : (Client.changeParams uri version text).chars =
      (Client.changeParams uri' version' text').chars) : text = text' ∧ uri.text = uri'.text := by
  have params (uri : Uri) (version : Int) (text : String) : Client.changeParams uri version text =
      .object [("contentChanges", .array [.object [("text", .string text)]]),
        ("textDocument", .object [("uri", .string uri.text), ("version", .int version)])] := by cbv
  rw [params, params] at h
  simp only [Json.chars, Json.membersChars, Json.itemsChars, List.cons_append, List.append_assoc,
    List.cons.injEq, true_and, List.append_cancel_left_eq] at h
  obtain ⟨texts, h⟩ := Json.stringChars_append_inj h
  simp only [List.cons.injEq, true_and, List.append_cancel_left_eq] at h
  exact ⟨texts, (Json.stringChars_append_inj h).1⟩

theorem Tells.unique (tells : Tells p cwd text message) (tells' : Tells p cwd text' message) :
    text = text' := by
  cases tells with
  | opened named language =>
    generalize eq : Outgoing.bytes _ = message at tells'
    cases tells' with
    | opened named' language' => exact (openParams_inj (Outgoing.notification_inj eq).2).1
    | changed named' version => exact absurd (Outgoing.notification_inj eq).1 (by decide)
  | changed named version =>
    generalize eq : Outgoing.bytes _ = message at tells'
    cases tells' with
    | opened named' language => exact absurd (Outgoing.notification_inj eq).1 (by decide)
    | changed named' version' => exact (changeParams_inj (Outgoing.notification_inj eq).2).1

theorem not_tells {m : Outgoing} (h : ∀ method params, m ≠ .notification method params) :
    ∀ text, ¬ Tells p cwd text m.bytes := by
  intro text tells
  generalize eq : m.bytes = message at tells
  cases tells with
  | opened => exact Outgoing.bytes_ne_notification h _ _ eq
  | changed => exact Outgoing.bytes_ne_notification h _ _ eq

theorem LastTold.unique {sent : List (List UInt8)} {text? text?' : Option String}
    (last : LastTold p cwd sent text?) (last' : LastTold p cwd sent text?') : text? = text?' := by
  induction last with
  | nothing =>
    cases last'
    rfl
  | told tells =>
    cases last' with
    | told tells' => exact congrArg some (tells.unique tells')
    | other silent => exact absurd tells (silent _)
  | other silent _ ih =>
    cases last' with
    | told tells => exact absurd tells (silent _)
    | other _ before => exact ih before

end Messages

/-- How a server stands to a document: what is kept of it here, and the text it was told last. -/
structure View where
  known : Option Document
  told : Option String

/-- The document is kept as the server was told of it, and its text is as said. -/
structure View.Agrees (p cwd : Path) (D : String → Prop) (s : View) : Prop where
  same : s.told = s.known.map Document.text
  named : ∀ text, s.told = some text → ∃ uri, p.uri cwd = .ok uri
  holds : ∀ text, s.told = some text → D text

/-- What the work on a query may do where the file of a document reads as said: it keeps to the one
document, and its messages arrive. -/
def View.rule (p cwd : Path) (D : String → Prop) : Rule Deed Deed.Reply View
  | .readText q, goal, s =>
    q = p ∧ (∀ cause, goal (.error cause) s) ∧ ∀ text, D text → goal (.ok text) s
  | .document q, goal, s => q = p ∧ goal s.known s
  | .setDocument q d, goal, s => q = p ∧ goal () { s with known := some d }
  | .writerOpen, goal, s => goal true s
  | .write message, goal, s =>
    (∀ text, Tells p cwd text message → goal (.ok ()) { s with told := some text }) ∧
      ((∀ text, ¬ Tells p cwd text message) → goal (.ok ()) s)
  | .closeWriter, _, _ => False
  | _, goal, s => ∀ reply, goal reply s

variable {α : Type} {p cwd : Path} {D : String → Prop} {s : View} {client : Client} {text : String}

theorem View.Agrees.weaken (agrees : s.Agrees p cwd D) : s.Agrees p cwd fun _ => True :=
  ⟨agrees.same, agrees.named, fun _ _ => trivial⟩

theorem View.rule_monotone : (View.rule p cwd D).Monotone := by
  intro d goal goal' weaker s h
  cases d with
  | readText q =>
    obtain ⟨here, fails, reads⟩ := h
    exact ⟨here, fun e => weaker _ s (fails e), fun text holds => weaker _ s (reads text holds)⟩
  | document q => exact ⟨h.1, weaker _ s h.2⟩
  | setDocument q d => exact ⟨h.1, weaker _ _ h.2⟩
  | writerOpen => exact weaker _ s h
  | write message =>
    exact ⟨fun text tells => weaker _ _ (h.1 text tells), fun silent => weaker _ s (h.2 silent)⟩
  | closeWriter => exact h.elim
  | _ => exact fun reply => weaker reply s (h reply)

/-- Anybody may enter and leave the documents. -/
theorem View.free (goal : Unit → View → Prop) (s : View) (h : goal () s) :
    View.rule p cwd D .enterDocuments goal s ∧ View.rule p cwd D .leaveDocuments goal s :=
  ⟨fun _ => h, fun _ => h⟩

theorem meets_notify {method : String} {params : Json}
    {goal : Except ServerError Unit → View → Prop}
    (tells : Tells p cwd text (Outgoing.notification method (some params)).bytes)
    (h : goal (.ok ()) { s with told := some text }) :
    (Attempt.notify method (some params)).run.Meets (View.rule p cwd D) goal s := by
  refine fun _ => ⟨fun text' tells' => ?_, fun silent => absurd tells (silent text)⟩
  cases tells.unique tells'
  exact fun _ => h

theorem meets_sendChange {uri : Uri} {known : Document} {arrivals : Nat}
    (named : p.uri cwd = .ok uri) (kept : s.known = some known)
    (agrees : s.Agrees p cwd fun _ => True) (holds : D text) :
    (Client.sendChange p uri known text arrivals).run.Meets (View.rule p cwd D)
      (fun _ s => s.Agrees p cwd D) s := by
  unfold Client.sendChange
  split
  next same =>
    have told : s.told = some text := by rw [agrees.same, kept, Option.map_some, same]
    refine ⟨agrees.same, agrees.named, fun text' told' => ?_⟩
    cases told.symm.trans told'
    exact holds
  next =>
    simp only [Attempt.meets_bind]
    refine ⟨rfl, meets_notify (.changed named _) ⟨rfl, rfl, fun _ _ => ⟨uri, named⟩, ?_⟩⟩
    rintro _ ⟨⟩
    exact holds

theorem meets_sendOpen {uri : Uri} {arrivals : Nat} (named : p.uri client.cwd = .ok uri)
    (holds : D text) :
    (client.sendOpen p uri text arrivals).run.Meets (View.rule p client.cwd D)
      (fun _ s => s.Agrees p client.cwd D) s := by
  unfold Client.sendOpen
  rw [Attempt.meets_bind]
  refine meets_notify (.opened named _) ⟨rfl, rfl, fun _ _ => ⟨uri, named⟩, ?_⟩
  rintro _ ⟨⟩
  exact holds

/-- From a state on, an attempt keeps to what it may do, and leaves the document in agreement. -/
structure Settles (p cwd : Path) (D : String → Prop) (attempt : Attempt α) (s : View) : Prop where
  meets : attempt.run.Meets (View.rule p cwd D) (fun _ s => s.Agrees p cwd D) s

namespace Settles

/-- Whatever the server was told before, afterwards it has the text, if it can be told of the
document at all. -/
theorem sendText (agrees : s.Agrees p client.cwd fun _ => True) (holds : D text) :
    Settles p client.cwd D (client.sendText p text) s := by
  refine ⟨Attempt.meets_withDocuments View.rule_monotone View.free ?_⟩
  rw [Attempt.meets_ask_bind]
  intro arrivals
  rw [Attempt.meets_bind, Attempt.meets_except]
  cases named : p.uri client.cwd with
  | error cause =>
    refine ⟨agrees.same, agrees.named, fun text told => ?_⟩
    obtain ⟨uri, eq⟩ := agrees.named text told
    cases named.symm.trans eq
  | ok uri =>
    dsimp only
    rw [Attempt.meets_ask_bind]
    refine ⟨rfl, ?_⟩
    cases kept : s.known with
    | some known => exact meets_sendChange named kept agrees holds
    | none => exact meets_sendOpen named holds

attribute [local irreducible] Client.sendText

theorem sync (agrees : s.Agrees p client.cwd D) : Settles p client.cwd D (client.sync p) s := by
  refine ⟨rfl, fun _ => agrees, fun text holds => ?_⟩
  exact (sendText agrees.weaken holds).meets

theorem ensureOpen (agrees : s.Agrees p client.cwd D) :
    Settles p client.cwd D (client.ensureOpen p) s := by
  refine ⟨?_⟩
  unfold Client.ensureOpen
  rw [Attempt.meets_bind]
  refine Attempt.meets_withDocuments View.rule_monotone View.free ⟨rfl, ?_⟩
  cases s.known with
  | some known => exact agrees
  | none => exact (sync agrees).meets

end Settles

/-- Whether a deed leaves a document as it is, and what the server was told of it. -/
def Deed.Apart (p cwd : Path) : Deed → Prop
  | .document q => q = p
  | .write message => ∀ text, ¬ Tells p cwd text message
  | .readText _ | .setDocument .. | .closeWriter => False
  | _ => True

variable {β : Type}

theorem meets_of_asks {work : Work α} {goal : α → View → Prop}
    (asks : work.Asks (Deed.Apart p cwd)) (h : ∀ a, goal a s) :
    work.Meets (View.rule p cwd D) goal s := by
  induction work with
  | done a => exact h a
  | ask d next ih =>
    obtain ⟨apart, later⟩ := asks
    have rest (reply : d.Reply) := ih reply (later reply)
    cases d with
    | document q => exact ⟨apart, rest _⟩
    | write message => exact ⟨fun text tells => absurd tells (apart text), fun _ => rest _⟩
    | writerOpen => exact rest true
    | readText | setDocument | closeWriter => exact apart.elim
    | _ => exact rest

theorem closed_apart (p cwd : Path) :
    Closed (Deed.Apart p cwd) (fun _ => True) fun x => x.run.Asks (Deed.Apart p cwd) := by
  have plain : ∀ d : Deed, d.IsPlain → d.Apart p cwd := fun d plain => by
    cases d <;> first | exact plain.elim | trivial
  exact closed_asks plain trivial trivial (fun _ _ _ _ => not_tells nofun) trivial

/-- Whether a query only looks at the document at a path: it may tell the server of it, as far as it
has to. -/
def Query.LooksAt (p : Path) : Query → Prop
  | .sync q | .diagnostics q | .codeLenses q => q = p
  | .execute _ => True
  | _ => False

namespace Settles

attribute [local irreducible] Client.sendText Client.ensureOpen Path.uri readReport readLenses

theorem of_asks {attempt : Attempt α} (asks : attempt.run.Asks (Deed.Apart p cwd))
    (agrees : s.Agrees p cwd D) : Settles p cwd D attempt s :=
  ⟨meets_of_asks asks fun _ => agrees⟩

theorem bind {x : Attempt α} {f : α → Attempt β} (first : Settles p cwd D x s)
    (rest : ∀ a, (f a).run.Asks (Deed.Apart p cwd)) : Settles p cwd D (x >>= f) s := by
  refine ⟨?_⟩
  rw [Attempt.meets_bind]
  refine first.meets.mono View.rule_monotone fun result s' agrees => ?_
  cases result with
  | ok a => exact meets_of_asks (rest a) fun _ => agrees
  | error e => exact agrees

theorem diagnostics (agrees : s.Agrees p client.cwd D) :
    Settles p client.cwd D (client.diagnostics p) s := by
  unfold Client.diagnostics
  exact bind (ensureOpen agrees) fun _ =>
    (closed_apart p client.cwd).diagnosticsOfOpen client trivial trivial rfl fun _ _ => trivial

theorem codeLenses (agrees : s.Agrees p client.cwd D) :
    Settles p client.cwd D (client.codeLenses p) s := by
  unfold Client.codeLenses
  split
  · exact of_asks trivial agrees
  next canResolve _ =>
    exact bind (ensureOpen agrees) fun _ =>
      (closed_apart p client.cwd).lensesOfOpen client (fun _ _ => trivial) canResolve

theorem changed {text : String} (agrees : s.Agrees p client.cwd fun _ => True) (holds : D text) :
    Settles p client.cwd D (client.answer (.changed p text)) s :=
  sendText agrees holds

theorem answer {q : Query} (looks : q.LooksAt p) (agrees : s.Agrees p client.cwd D) :
    Settles p client.cwd D (client.answer q) s := by
  cases q with
  | sync path =>
    cases looks
    exact sync agrees
  | diagnostics path =>
    cases looks
    exact diagnostics agrees
  | codeLenses path =>
    cases looks
    exact codeLenses agrees
  | execute command => exact of_asks ((closed_apart p client.cwd).execute client command) agrees
  | _ => exact looks.elim

end Settles

end CodeIntel

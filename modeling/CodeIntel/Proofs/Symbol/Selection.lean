import CodeIntel.Proofs.Plan
import CodeIntel.Proofs.Symbol.Names
import CodeIntel.Tool.Basic

namespace CodeIntel

namespace SymbolQuery

/-- A candidate takes part in the decision: it is an exact match or, where there is none, one that
ends like the query. -/
def decides (q : SymbolQuery) (candidates : List WorkspaceSymbol) (s : WorkspaceSymbol) : Bool :=
  q.isExact s || (!candidates.any q.isExact && q.isSuffix s)

/-- The answer that the deciding candidates give. -/
inductive Answers (q : SymbolQuery) (root : Path) (deciding : List WorkspaceSymbol) :
    Except ToolError WorkspaceSymbol → Prop
  | one {s : WorkspaceSymbol} (alone : deciding = [s]) : Answers q root deciding (.ok s)
  | nothing (empty : deciding = []) : Answers q root deciding (.error (.symbolNotFound q.raw))
  | several (many : 1 < deciding.length) : Answers q root deciding
      (.error (.ambiguousSymbol q.raw (deciding.map fun s => s.describe root)))

/-- The search for the symbols that a text names. -/
abbrev search (text : List Char) : Ask := .query (.workspaceSymbols (String.ofList text))

/-- How a query is looked up: what is asked and answered, and what comes of it. -/
inductive LooksUp (q : SymbolQuery) (root : Path) :
    List ((a : Ask) × a.Reply) → Except ToolError WorkspaceSymbol → Prop
  | failed (failure : QueryFailure) :
      LooksUp q root [⟨search q.normalized, .error failure⟩] (.error failure.toolError)
  | found (candidates : List WorkspaceSymbol) (enough : candidates = [] → q.isQualified = false) :
      LooksUp q root [⟨search q.normalized, .ok candidates⟩] (q.select candidates root)
  | failedAgain (qualified : q.isQualified = true) (failure : QueryFailure) :
      LooksUp q root [⟨search q.normalized, .ok []⟩, ⟨search q.last, .error failure⟩]
        (.error failure.toolError)
  | foundAgain (qualified : q.isQualified = true) (candidates : List WorkspaceSymbol) :
      LooksUp q root [⟨search q.normalized, .ok []⟩, ⟨search q.last, .ok candidates⟩]
        (q.select candidates root)

variable {q : SymbolQuery} {candidates others : List WorkspaceSymbol} {root : Path}
  {result : Except ToolError WorkspaceSymbol}

theorem deciding_eq_filter : q.deciding candidates = candidates.filter (q.decides candidates) := by
  unfold deciding
  split
  next none =>
    have absent : candidates.any q.isExact = false :=
      List.any_eq_false.mpr (List.filter_eq_nil_iff.mp none)
    apply List.filter_congr
    intro s mem
    have inexact := List.any_eq_false.mp absent s mem
    simp [decides, absent, inexact]
  next exact some =>
    have present : candidates.any q.isExact = true := by
      rw [List.any_eq_true]
      obtain ⟨s, mem⟩ := List.exists_mem_of_ne_nil _ some
      exact ⟨s, List.mem_filter.mp mem⟩
    apply List.filter_congr
    intro s _
    simp [decides, present]

theorem answers_select : q.Answers root (q.deciding candidates) (q.select candidates root) := by
  unfold select
  split
  next empty => exact .nothing empty
  next one alone => exact .one alone
  next not_nil not_one =>
    apply Answers.several
    cases deciding : q.deciding candidates with
    | nil => exact absurd deciding not_nil
    | cons first rest =>
      cases rest with
      | nil => exact absurd deciding (not_one first)
      | cons => simp

theorem Answers.unique {deciding : List WorkspaceSymbol}
    {result' : Except ToolError WorkspaceSymbol} (h : q.Answers root deciding result)
    (h' : q.Answers root deciding result') : result = result' := by
  cases h with
  | one alone =>
    cases h' with
    | one alone' => simpa using alone.symm.trans alone'
    | nothing empty => simp [alone] at empty
    | several many => simp [alone] at many
  | nothing empty =>
    cases h' with
    | one alone => simp [empty] at alone
    | nothing => rfl
    | several many => simp [empty] at many
  | several many =>
    cases h' with
    | one alone => simp [alone] at many
    | nothing empty => simp [empty] at many
    | several => rfl

theorem select_eq_iff : q.select candidates root = result ↔
    q.Answers root (candidates.filter (q.decides candidates)) result := by
  rw [← deciding_eq_filter]
  constructor
  · rintro rfl
    exact answers_select
  · exact answers_select.unique

theorem run_request_bind {β : Type} (query : Query) (f : query.Reply → Action β) :
    (Action.request query >>= f).run = .ask (.query query) fun
      | .error failure => .done (.error failure.toolError)
      | .ok reply => (f reply).run := by
  refine congrArg (Plan.ask (Ask.query query)) (funext fun reply => ?_)
  cases reply <;> rfl

theorem run_resolve (q : SymbolQuery) (root : Path) :
    (q.resolve root).run = .ask (search q.normalized) fun
      | .error failure => .done (.error failure.toolError)
      | .ok found =>
        if found.isEmpty && q.isQualified then
          .ask (search q.last) fun
            | .error failure => .done (.error failure.toolError)
            | .ok found => .done (q.select found root)
        else .done (q.select found root) := by
  unfold resolve
  rw [run_request_bind]
  refine congrArg (Plan.ask (search q.normalized)) (funext fun reply => ?_)
  cases reply with
  | error failure => rfl
  | ok found =>
    by_cases again : (found.isEmpty && q.isQualified) = true
    · simp only [if_pos again]
      rw [run_request_bind]
      refine congrArg (Plan.ask (search q.last)) (funext fun reply => ?_)
      cases reply <;> rfl
    · simp only [if_neg again]
      rfl

theorem resolve_converses_iff {talk : List ((a : Ask) × a.Reply)} :
    (q.resolve root).run.Converses talk result ↔ q.LooksUp root talk result := by
  rw [run_resolve]
  constructor
  · rintro ⟨reply, later, rfl, rest⟩
    cases reply with
    | error failure =>
      obtain ⟨rfl, rfl⟩ := rest
      exact .failed failure
    | ok found =>
      by_cases again : (found.isEmpty && q.isQualified) = true
      · simp only [if_pos again] at rest
        obtain ⟨empty, qualified⟩ := Bool.and_eq_true_iff.mp again
        obtain rfl := List.isEmpty_iff.mp empty
        obtain ⟨reply, later, rfl, rest⟩ := rest
        cases reply with
        | error failure =>
          obtain ⟨rfl, rfl⟩ := rest
          exact .failedAgain qualified failure
        | ok found =>
          obtain ⟨rfl, rfl⟩ := rest
          exact .foundAgain qualified found
      · simp only [if_neg again] at rest
        obtain ⟨rfl, rfl⟩ := rest
        exact .found found (by simpa using again)
  · intro looks
    cases looks with
    | failed failure => exact ⟨.error failure, [], rfl, rfl, rfl⟩
    | found candidates enough =>
      refine ⟨.ok candidates, [], rfl, ?_⟩
      have once : ¬(candidates.isEmpty && q.isQualified) = true := by simpa using enough
      simp only [if_neg once]
      exact ⟨rfl, rfl⟩
    | failedAgain qualified failure =>
      refine ⟨.ok [], _, rfl, ?_⟩
      simp only [List.isEmpty_nil, qualified, Bool.and_self, if_true]
      exact ⟨.error failure, [], rfl, rfl, rfl⟩
    | foundAgain qualified candidates =>
      refine ⟨.ok [], _, rfl, ?_⟩
      simp only [List.isEmpty_nil, qualified, Bool.and_self, if_true]
      exact ⟨.ok candidates, [], rfl, rfl, rfl⟩

end SymbolQuery

/-- No blanks stand around the name of a symbol or around that of its container. -/
structure WorkspaceSymbol.Trimmed (s : WorkspaceSymbol) : Prop where
  name : trimBlank s.name.toList = s.name.toList
  container : ∀ container, s.container = some container →
    trimBlank container.toList = container.toList

namespace SymbolQuery

variable {raw : String} {q : SymbolQuery} {s : WorkspaceSymbol}
  {candidates : List WorkspaceSymbol} {root : Path}

/-- No part of a name between dots is empty once it is normalized. -/
def HasFullParts (raw : String) : Prop := [] ∉ (plain raw.toList).splitOnP isDot

theorem parse?_eq_some (h : parse? raw = some q) :
    q.raw = String.ofList (trimBlank raw.toList) ∧ q.segments = parts isDot (plain raw.toList) := by
  unfold parse? at h
  extract_lets segments at h
  split at h
  next => cases h
  next =>
    cases h
    exact ⟨rfl, rfl⟩

theorem intercalate_splitOnP_isDot (cs : List Char) :
    ['.'].intercalate (cs.splitOnP isDot) = cs := by
  have same : isDot = (· == '.') := rfl
  rw [same, ← List.splitOn_eq_splitOnP, List.intercalate_splitOn]

theorem normalized_eq (parsed : parse? raw = some q) (full : HasFullParts raw) :
    q.normalized = plain raw.toList := by
  have whole : parts isDot (plain raw.toList) = (plain raw.toList).splitOnP isDot := by
    apply List.filter_eq_self.mpr
    intro part mem
    simp only [ne_eq, decide_not, Bool.not_eq_true', decide_eq_false_iff_not]
    rintro rfl
    exact full mem
  rw [normalized, (parse?_eq_some parsed).2, whole, intercalate_splitOnP_isDot]

/-- A dot parts two names also for the double colons. -/
theorem dotted_append (front back : List Char) :
    dotted (front ++ '.' :: back) = dotted front ++ '.' :: dotted back := by
  fun_induction dotted front with
  | case1 rest ih => simp [dotted, ih]
  | case2 c rest single ih =>
    rw [List.cons_append, dotted, ih, List.cons_append]
    intro more colon eq
    cases rest with
    | nil => simp at eq
    | cons d rest => exact single rest colon (by simpa using congrArg List.head? eq)
  | case3 => simp [dotted]

/-- What a name without blanks around it is normalized to. -/
def undecorated (name : List Char) : List Char :=
  (dotted name).filter fun c => c ≠ '(' && c ≠ ')' && c ≠ '*'

theorem undecorated_append (front back : List Char) :
    undecorated (front ++ '.' :: back) = undecorated front ++ '.' :: undecorated back := by
  simp [undecorated, dotted_append]

theorem plain_eq (name : List Char) : plain name = undecorated (trimBlank name) := rfl

theorem toList_qualifiedName {container : String} (h : s.container = some container)
    (nonempty : container.isEmpty = false) :
    s.qualifiedName.toList = container.toList ++ '.' :: s.name.toList := by
  simp only [WorkspaceSymbol.qualifiedName, h, nonempty, Bool.false_eq_true, if_false]
  show (container ++ "." ++ s.name).toList = _
  simp

/-- A name that is spelled as it stands is an exact match. -/
theorem isExact_of_spelled (parsed : parse? raw = some q) (full : HasFullParts raw)
    (trimmed : s.Trimmed) (spelled : s.qualifiedName = q.raw) : q.isExact s = true := by
  have text : s.qualifiedName.toList = trimBlank raw.toList := by
    rw [spelled, (parse?_eq_some parsed).1, String.toList_ofList]
  have target : q.normalized = undecorated s.qualifiedName.toList := by
    rw [normalized_eq parsed full, plain_eq, text]
  have name : plain s.name.toList = undecorated s.name.toList := by rw [plain_eq, trimmed.name]
  unfold isExact
  rw [target, name]
  cases known : s.container with
  | none => simp [WorkspaceSymbol.qualifiedName, known]
  | some container =>
    have outer : plain container.toList = undecorated container.toList := by
      rw [plain_eq, trimmed.container container known]
    cases empty : container.isEmpty with
    | true => simp [WorkspaceSymbol.qualifiedName, known, empty]
    | false =>
      rw [toList_qualifiedName known empty, undecorated_append]
      simp [empty, outer]

/-- A query that spells the qualified name of one candidate finds it, unless others match exactly as
well: then it is described beside them. -/
theorem spelled_symbol_is_found (parsed : parse? raw = some q) (full : HasFullParts raw)
    (once : candidates.filter (fun c => c.qualifiedName = q.raw) = [s]) (trimmed : s.Trimmed)
    (root : Path) :
    s ∈ candidates.filter q.isExact ∧
      ((candidates.filter q.isExact = [s] ∧ q.select candidates root = .ok s) ∨
        (1 < (candidates.filter q.isExact).length ∧
          q.select candidates root = .error (.ambiguousSymbol q.raw
            ((candidates.filter q.isExact).map fun c => c.describe root)))) := by
  have only : s ∈ candidates.filter fun c => c.qualifiedName = q.raw := by
    rw [once]
    exact List.mem_singleton_self s
  obtain ⟨mem, spelled⟩ := List.mem_filter.mp only
  have exact := isExact_of_spelled parsed full trimmed (of_decide_eq_true spelled)
  have chosen : s ∈ candidates.filter q.isExact := List.mem_filter.mpr ⟨mem, exact⟩
  refine ⟨chosen, ?_⟩
  have present : candidates.filter q.isExact ≠ [] := List.ne_nil_of_mem chosen
  have deciding : q.deciding candidates = candidates.filter q.isExact := by
    unfold SymbolQuery.deciding
    split
    next none => exact absurd none present
    next => rfl
  have answers : q.Answers root (q.deciding candidates) (q.select candidates root) := answers_select
  rw [deciding] at answers
  revert answers
  generalize q.select candidates root = result
  rintro (alone | empty | many)
  · have same := chosen
    rw [alone, List.mem_singleton] at same
    exact .inl ⟨same ▸ alone, by rw [same]⟩
  · exact absurd empty present
  · exact .inr ⟨many, rfl⟩

theorem spelled_symbol_is_found_among_others :
    let symbol (name container : String) : WorkspaceSymbol :=
      ⟨name, 6, some container, .ofString "/w/a.rs", .origin⟩
    let candidates := [symbol "get" "old::cache::Cache", symbol "get" "cache::Cache"]
    ∃ q, parse? " cache::Cache.get" = some q ∧ HasFullParts " cache::Cache.get" ∧
      candidates.filter (fun c => c.qualifiedName = q.raw) = [symbol "get" "cache::Cache"] ∧
      (symbol "get" "cache::Cache").Trimmed ∧
      q.select candidates (.ofString "/w") = .ok (symbol "get" "cache::Cache") := by
  intro symbol candidates
  let q : SymbolQuery :=
    ⟨"cache::Cache.get", ["cache".toList, "Cache".toList, "get".toList]⟩
  have parsed : parse? " cache::Cache.get" = some q := by rfl
  have full : HasFullParts " cache::Cache.get" := by
    unfold HasFullParts
    decide
  have once : candidates.filter (fun c => c.qualifiedName = q.raw) =
      [symbol "get" "cache::Cache"] := by rfl
  have trimmed : (symbol "get" "cache::Cache").Trimmed := by
    refine ⟨by decide, ?_⟩
    rintro _ ⟨⟩
    decide
  obtain ⟨_, found | ⟨many, _⟩⟩ :=
    spelled_symbol_is_found parsed full once trimmed (.ofString "/w")
  · exact ⟨q, parsed, full, once, trimmed, found.2⟩
  · exact absurd many (by decide)

/-- The name alone of a symbol in a container is an exact match too. A name with an empty part and
one next to a blank are none at all. -/
theorem spelled_symbol_is_missed :
    let symbol (name : String) (container : Option String) : WorkspaceSymbol :=
      ⟨name, 12, container, .ofString "/w/a.rs", .origin⟩
    let spelled (q : SymbolQuery) (candidates : List WorkspaceSymbol) :=
      candidates.filter fun c => c.qualifiedName = q.raw
    (∃ q described, parse? "Run" = some q ∧
      let candidates := [symbol "Run" none, symbol "Run" (some "Server")]
      spelled q candidates = [symbol "Run" none] ∧
        q.select candidates (.ofString "/w") = .error (.ambiguousSymbol "Run" described)) ∧
    (∃ q, parse? "::get" = some q ∧
      let candidates := [symbol "::get" none, symbol "get" none]
      spelled q candidates = [symbol "::get" none] ∧
        q.select candidates (.ofString "/w") = .ok (symbol "get" none)) ∧
    ∃ q, parse? "Server .Run" = some q ∧
      let candidates := [symbol "Run" (some "Server ")]
      spelled q candidates = candidates ∧
        q.select candidates (.ofString "/w") = .error (.symbolNotFound "Server .Run") := by
  intro symbol spelled
  refine ⟨⟨⟨"Run", ["Run".toList]⟩, _, by rfl, by rfl, select_eq_iff.mpr (.several ?_)⟩,
    ⟨⟨"::get", ["get".toList]⟩, by rfl, by rfl, select_eq_iff.mpr (.one ?_)⟩,
    ⟨"Server .Run", ["Server ".toList, "Run".toList]⟩, by rfl, by rfl,
    select_eq_iff.mpr (.nothing ?_)⟩
  · decide
  · rw [List.filter_cons_of_neg (by decide), List.filter_cons_of_pos (by decide), List.filter_nil]
  · rw [List.filter_cons_of_neg (by decide), List.filter_nil]

end SymbolQuery

end CodeIntel

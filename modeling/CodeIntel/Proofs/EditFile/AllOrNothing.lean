import CodeIntel.Proofs.EditFile.Run

namespace CodeIntel.EditFile

variable {venue : Venue} {caller : Caller} {json : Json} {t t' : Tree} {P : Stage → Prop}

/-- Steps in which it may be asked once more whether the edit is cancelled. -/
inductive MayCheck : Steps → Prop
  | now {next : Bool → Steps} : MayCheck (.ask .cancelled next)
  | later {q : Ask} {next : q.Reply → Steps} (reply : q.Reply) (h : MayCheck (next reply)) :
      MayCheck (.ask q next)

/-- The stages of an edit that can still be stopped or has failed. -/
def Stage.Stoppable : Stage → Prop
  | .moving _ _ => False
  | .telling _ => False
  | .leaving result => ∃ cause, result = .error cause
  | .ended result => ∃ cause, result = .error cause
  | _ => True

theorem stoppable_of_fresh {stage : Stage} {fresh : String} (h : stage.fresh? = some fresh)
    (unready : ∀ c, stage ≠ .moving c fresh) : stage.Stoppable := by
  cases stage with
  | moving c other =>
    cases h
    exact absurd rfl (unready c)
  | _ => trivial

theorem closed_stoppable : Closed Stage.Stoppable true := by
  intro e removes named stage t stage' t' stoppable goes
  cases goes with
  | fail cause => exact ⟨cause, rfl⟩
  | read => trivial
  | stop => exact ⟨_, rfl⟩
  | idle _ h => cases h
  | need _ h => cases h
  | name => trivial
  | prepare fresh _ target unready _ => exact stoppable_of_fresh target unready
  | recheck _ _ h => cases h
  | move => exact stoppable.elim
  | discard _ cause => exact ⟨cause, rfl⟩
  | tell => exact stoppable.elim
  | leave => exact stoppable

theorem not_mayCheck_leaving {e : Errand} (result : Except ToolError Output) :
    ¬ MayCheck (e.leaving result) := by
  intro h
  unfold Errand.leaving at h
  cases h with
  | later _ h => cases h

theorem stoppable_of_mayCheck {e : Errand} {stage : Stage} (h : MayCheck (e.plan stage)) :
    stage.Stoppable := by
  cases stage with
  | moving c fresh =>
    obtain _ | ⟨reply, h⟩ := h
    cases reply with
    | ok =>
      obtain _ | ⟨_, h⟩ := h
      exact absurd h (not_mayCheck_leaving _)
    | error =>
      obtain _ | ⟨_, h⟩ := h
      exact absurd h (not_mayCheck_leaving _)
  | telling c =>
    obtain _ | ⟨_, h⟩ := h
    exact absurd h (not_mayCheck_leaving _)
  | leaving result => exact absurd h (not_mayCheck_leaving _)
  | ended result => cases h
  | _ => trivial

/-- The file that was meant holds what the requests make of it; all else is as it was. -/
def Succeeded (venue : Venue) (caller : Caller) (json : Json) (t t' : Tree) : Prop :=
  ∃ requests place, Finds venue caller json t requests place ∧ Replaced requests place t t'

theorem preserved_of_same (same : t'.node? = t.node?) : Preserved t t' :=
  fun place _ => congrFun same place

theorem Errand.Kept.preserved_or_replaced {e : Errand} {removes : Prop} {stage : Stage}
    (kept : e.Kept removes t stage t') :
    Preserved t t' ∨ (¬ stage.Stoppable ∧ Replaced e.requests e.place t t') := by
  cases stage with
  | reading => exact .inl (preserved_of_same kept)
  | checking => exact .inl (preserved_of_same kept)
  | naming => exact .inl (preserved_of_same kept)
  | filling => exact .inl (Prepared.preserved kept)
  | inspecting => exact .inl (Prepared.preserved kept)
  | arming => exact .inl (Prepared.preserved kept)
  | rechecking => exact .inl (Prepared.preserved kept)
  | moving => exact .inl (Prepared.preserved kept)
  | discarding => exact .inl (Prepared.preserved kept)
  | telling => exact .inr ⟨id, kept⟩
  | leaving result =>
    cases result with
    | error cause => exact .inl (Untouched.old kept)
    | ok output => exact .inr ⟨by simp [Stage.Stoppable], kept⟩
  | ended result =>
    cases result with
    | error cause => exact .inl (Untouched.old kept)
    | ok output => exact .inr ⟨by simp [Stage.Stoppable], kept⟩

theorem Reached.preserved_or_succeeded {rest : Steps}
    (reached : Reached venue caller json t P rest t') :
    Preserved t t' ∨ Succeeded venue caller json t t' := by
  cases reached with
  | looking => exact .inl (preserved_of_same rfl)
  | entering => exact .inl (preserved_of_same rfl)
  | under finds _ _ kept =>
    exact kept.preserved_or_replaced.imp id fun h => ⟨_, _, finds, h.2⟩

theorem Reached.preserved {rest : Steps}
    (reached : Reached venue caller json t Stage.Stoppable rest t') : Preserved t t' := by
  cases reached with
  | looking => exact preserved_of_same rfl
  | entering => exact preserved_of_same rfl
  | under _ stoppable _ kept =>
    exact kept.preserved_or_replaced.resolve_right fun h => h.1 stoppable

theorem Reached.result {result : Except ToolError Output}
    (reached : Reached venue caller json t P (.done result) t') :
    (∃ cause, result = .error cause ∧ Untouched venue.removes t t') ∨
      ∃ output, result = .ok output ∧ P (.ended result) ∧ Succeeded venue caller json t t' := by
  generalize done : Plan.done result = rest at reached
  cases reached with
  | looking looks =>
    cases looks with
    | there located =>
      cases located with
      | failed cause =>
        cases done
        exact .inl ⟨cause, rfl, Errand.untouched_of_same rfl⟩
      | found => cases done
    | asks => cases done
  | entering => cases done
  | under finds within _ kept =>
    cases Errand.eq_ended_of_plan done.symm
    cases result with
    | error cause => exact .inl ⟨cause, rfl, kept⟩
    | ok output => exact .inr ⟨output, rfl, within, _, _, finds, kept⟩

theorem Reached.stoppable {rest : Steps} (reached : Reached venue caller json t P rest t')
    (ahead : MayCheck rest) : Reached venue caller json t Stage.Stoppable rest t' := by
  cases reached with
  | looking looks => exact .looking looks
  | entering finds => exact .entering finds
  | under finds _ fits kept => exact .under finds (stoppable_of_mayCheck ahead) fits kept

/-- The edit has told the server of its change, or is about to, and ends well. -/
inductive EndsWell : Steps → Prop
  | telling (e : Errand) (c : Change) : EndsWell (e.telling c)
  | leaving (e : Errand) (output : Output) : EndsWell (e.leaving (.ok output))
  | done (output : Output) : EndsWell (.done (.ok output))

theorem EndsWell.reply {q : Ask} {next : q.Reply → Steps} (well : EndsWell (.ask q next))
    (reply : q.Reply) : EndsWell (next reply) := by
  generalize asks : Plan.ask q next = rest at well
  cases well with
  | telling e c =>
    cases asks
    exact .leaving e _
  | leaving e output =>
    cases asks
    exact .done output
  | done => cases asks

theorem EndsWell.run {s s' : Scene} (well : EndsWell s.rest) (reaches : Reaches venue s s') :
    EndsWell s'.rest := by
  induction reaches with
  | refl => exact well
  | tail _ happens ih =>
    cases happens with
    | trip => exact ih
    | part => exact ih
    | reply => exact ih.reply _

theorem Reached.endsWell {rest : Steps} {q : Query}
    {next : Except QueryFailure q.Reply → Steps}
    (reached : Reached venue caller json t P rest t') (asks : rest = .ask (.query q) next) :
    EndsWell rest := by
  cases reached with
  | looking looks => rcases looks.question asks with ⟨_, eq⟩ | ⟨_, eq⟩ <;> cases eq
  | entering => exact nomatch (Plan.ask.inj asks).1
  | @under e stage =>
    obtain ⟨c, rfl⟩ := Errand.telling_of_query asks
    exact .telling e c

theorem truthful_of_ok {α : Type} {said : Except FileError α} {a : α}
    (h : said.toOption = some a) : Truthful said (.ok a) := by
  rintro _ ⟨⟩
  exact toOption_eq_some_iff.mp h

/-- Wherever an edit stands, the files are as they were, but for a temporary one, or the change is
complete. It is as they were if the edit fails or was cancelled before its last look at that, and
complete if it succeeds, which the server cannot prevent once it is told of the change. -/
theorem edit_is_all_or_nothing (venue : Venue) (caller : Caller) (json : Json) (t : Tree)
    (tripped : Bool) (s : Scene)
    (reaches : Reaches venue ⟨(run caller json).run, t, tripped⟩ s) :
    (Preserved t s.files ∨ Succeeded venue caller json t s.files) ∧
      (∀ cause, s.rest = .done (.error cause) → Untouched venue.removes t s.files) ∧
      (∀ output, s.rest = .done (.ok output) → Succeeded venue caller json t s.files) ∧
      (s.tripped = true → MayCheck s.rest → ∀ s', Reaches venue s s' →
        Preserved t s'.files ∧ ∀ output, s'.rest ≠ .done (.ok output)) ∧
      ∀ q next, s.rest = .ask (.query q) next → ∀ s' result, Reaches venue s s' →
        s'.rest = .done result → ∃ output, result = .ok output := by
  have start : Reached venue caller json t (fun _ => True) (run caller json).run t :=
    .looking (looks_run _ caller json)
  have reached := Reached.run (s := ⟨_, t, tripped⟩) start reaches trivial
    fun _ _ _ _ _ _ _ _ _ _ _ => trivial
  refine ⟨reached.preserved_or_succeeded, ?_, ?_, ?_, ?_⟩
  · intro cause done
    rw [done] at reached
    obtain ⟨_, _, untouched⟩ | ⟨_, ok, _⟩ := reached.result
    · exact untouched
    · cases ok
  · intro output done
    rw [done] at reached
    obtain ⟨_, error, _⟩ | ⟨_, _, _, succeeded⟩ := reached.result
    · cases error
    · exact succeeded
  · intro cancelled ahead s' later
    have reached' := (reached.stoppable ahead).run later trivial fun tripped' mono => by
      rw [mono cancelled]
      exact closed_stoppable
    refine ⟨reached'.preserved, fun output done => ?_⟩
    rw [done] at reached'
    obtain ⟨_, error, _⟩ | ⟨_, _, ⟨_, error⟩, _⟩ := reached'.result
    · cases error
    · cases error
  · intro q next asks s' result later done
    have well := (reached.endsWell asks).run later
    rw [done] at well
    generalize ends : Plan.done result = rest at well
    cases well with
    | telling => cases ends
    | leaving => cases ends
    | done output =>
      cases ends
      exact ⟨output, rfl⟩

theorem edit_through_link_succeeds :
    let edit : Json := .object
      [("endLine", .nat 1), ("newText", .string "x"), ("startLine", .nat 1)]
    let json : Json := .object [("edits", .array [edit]), ("filePath", .string "/l")]
    let caller : Caller := ⟨⟨.ofString "/", .ofString "/"⟩, 3⟩
    let venue : Venue := ⟨.ofString "/", fun _ => true, True⟩
    let t : Tree := ⟨[([[0x66]], .file [0x61, 0x62] 0o600), ([[0x6C]], .link ⟨[0x66]⟩)]⟩
    ∃ s output, Reaches venue ⟨(run caller json).run, t, false⟩ s ∧ s.rest = .done (.ok output) ∧
      s.tripped = true ∧ Succeeded venue caller json t s.files ∧
      s.files.node? [[0x66]] = some (.file [0x78] 0o600) := by
  intro edit json caller venue t
  let requested : Path := ⟨[0x2F, 0x6C]⟩
  let e : Errand := ⟨[[0x66]], [.lines 1 1 "x"], requested.shown caller.surroundings.root⟩
  let c : Change := ⟨"ab", ['x']⟩
  let spare := e.spare "n"
  let t₁ := t.put spare (.file [0x78] Tree.defaultMode)
  let t₂ := t₁.put spare (.file [0x78] 0o600)
  let t₃ := (t₂.delete spare).put e.place (.file [0x78] 0o600)
  have found : Happens venue ⟨(run caller json).run, t, false⟩ ⟨e.entering, t, false⟩ := by
    have located := @Happens.reply venue (.realPath requested)
      (hasLocated caller e.requests requested) (.ok (Tree.pathOf e.place)) t t false
      ⟨truthful_of_ok (by decide +kernel), rfl⟩
    rw [hasLocated_pathOf] at located
    have decoded : fields.decode "ApplyArgs" json = .ok ⟨"/l", [edit]⟩ := rfl
    rw [run_of_decode caller decoded]
    exact located
  have entered : Happens venue ⟨e.entering, t, false⟩ ⟨e.reading, t, false⟩ :=
    @Happens.reply venue (.enterFile e.path) _ true t t false rfl
  have hasRead : Happens venue ⟨e.reading, t, false⟩ ⟨e.checking c, t, false⟩ :=
    @Happens.reply venue (.readText e.path) e.hasRead (.ok "ab") t t false
      ⟨truthful_of_ok (by decide +kernel), rfl⟩
  have checked : Happens venue ⟨e.checking c, t, false⟩ ⟨e.naming c, t, false⟩ := by
    have needed : e.checked c false = e.naming c :=
      (if_neg Bool.false_ne_true).trans (if_neg (by decide))
    exact needed ▸ @Happens.reply venue .cancelled (e.checked c) false t t false ⟨rfl, rfl⟩
  have named : Happens venue ⟨e.naming c, t, false⟩ ⟨e.filling c "n", t, false⟩ :=
    @Happens.reply venue .freshName (e.filling c) "n" t t false
      ⟨⟨by decide, fun _ => Tree.node?_temporaryPlace (by decide)⟩, rfl⟩
  have filled : Happens venue ⟨e.filling c "n", t, false⟩ ⟨e.inspecting c "n", t₁, false⟩ :=
    @Happens.reply venue (.write (e.temporary "n") "x") _ (.ok ()) t t₁ false
      (toOption_eq_some_iff.mp (by decide +kernel))
  have inspected : Happens venue ⟨e.inspecting c "n", t₁, false⟩
      ⟨e.arming c "n" 0o600, t₁, false⟩ :=
    @Happens.reply venue (.mode e.path) _ (.ok 0o600) t₁ t₁ false
      ⟨truthful_of_ok (by decide +kernel), rfl⟩
  have armed : Happens venue ⟨e.arming c "n" 0o600, t₁, false⟩ ⟨e.rechecking c "n", t₂, false⟩ :=
    @Happens.reply venue (.setMode (e.temporary "n") 0o600) _ (.ok ()) t₁ t₂ false
      (toOption_eq_some_iff.mp (by decide +kernel))
  have rechecked : Happens venue ⟨e.rechecking c "n", t₂, false⟩ ⟨e.moving c "n", t₂, false⟩ :=
    @Happens.reply venue .cancelled (e.rechecked c "n") false t₂ t₂ false ⟨rfl, rfl⟩
  have moved : Happens venue ⟨e.moving c "n", t₂, false⟩ ⟨e.telling c, t₃, false⟩ :=
    @Happens.reply venue (.rename (e.temporary "n") e.path) _ (.ok ()) t₂ t₃ false
      (toOption_eq_some_iff.mp (by decide +kernel))
  have tripped : Happens venue ⟨e.telling c, t₃, false⟩ ⟨e.telling c, t₃, true⟩ := .trip _
  let told : Except QueryFailure Unit := .error .cancelled
  have left : Happens venue ⟨e.telling c, t₃, true⟩ ⟨e.leaving (.ok (e.report c told)), t₃, true⟩ :=
    @Happens.reply venue (.query (.changed e.path "x")) _ told t₃ t₃ true rfl
  have ended : Happens venue ⟨e.leaving (.ok (e.report c told)), t₃, true⟩
      ⟨.done (.ok (e.report c told)), t₃, true⟩ :=
    @Happens.reply venue (.leaveFile e.path) _ () t₃ t₃ true rfl
  have reaches := Relation.ReflTransGen.single found |>.tail entered |>.tail hasRead
    |>.tail checked |>.tail named |>.tail filled |>.tail inspected |>.tail armed |>.tail rechecked
    |>.tail moved |>.tail tripped |>.tail left |>.tail ended
  refine ⟨_, _, reaches, rfl, rfl, ?_, rfl⟩
  exact (edit_is_all_or_nothing venue caller json t false _ reaches).2.2.1 _ rfl

end CodeIntel.EditFile

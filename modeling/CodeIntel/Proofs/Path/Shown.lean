import CodeIntel.Proofs.Path.Lexical
import CodeIntel.Proofs.Text.Lossy
import CodeIntel.Proofs.Text.Slash

namespace CodeIntel

/-- Whether bytes are a text in UTF-8. -/
def IsText (bytes : List UInt8) : Prop := ∃ cs, bytes = utf8 cs

theorem isText_of_ofUtf8? {bytes : List UInt8} {text : String} (h : ofUtf8? bytes = some text) :
    IsText bytes :=
  ⟨text.toList, (utf8Bytes_of_ofUtf8? h).symm⟩

theorem splitOn_append_of_not_mem {α : Type} [DecidableEq α] {a : α} {xs : List α} (free : a ∉ xs)
    (ys : List α) : (xs ++ ys).splitOn a = (ys.splitOn a).modifyHead (xs ++ ·) := by
  induction xs with
  | nil =>
    obtain ⟨first, rest, eq⟩ := List.exists_cons_of_ne_nil (List.splitOn_ne_nil a ys)
    simp [eq]
  | cons x xs ih =>
    obtain ⟨ne, free⟩ := not_or.mp (mt List.mem_cons.mpr free)
    obtain ⟨first, rest, eq⟩ := List.exists_cons_of_ne_nil (List.splitOn_ne_nil a ys)
    rw [List.cons_append, List.splitOn_cons_eq_if_modifyHead, if_neg (by simpa using Ne.symm ne),
      ih free, eq]
    rfl

namespace Path

theorem slash_not_mem_utf8EncodeChar {c : Char} (ne : c ≠ '/') :
    slash ∉ String.utf8EncodeChar c :=
  fun mem => ne (Char.toNat_inj.mp (toNat_eq_of_mem_utf8EncodeChar (by decide) mem))

/-- Slashes part a text where they part its bytes. -/
theorem pieces_utf8 (cs : List Char) : pieces (utf8 cs) = (cs.splitOn '/').map utf8 := by
  unfold pieces
  induction cs with
  | nil => rfl
  | cons c cs ih =>
    obtain ⟨first, rest, eq⟩ := List.exists_cons_of_ne_nil (List.splitOn_ne_nil '/' cs)
    rw [utf8_cons, List.splitOn_cons_eq_if_modifyHead]
    by_cases same : c = '/'
    · subst same
      have sign : String.utf8EncodeChar '/' = [slash] := by decide
      rw [sign, List.singleton_append, List.splitOn_cons_eq_if_modifyHead, ih]
      simp
    · rw [splitOn_append_of_not_mem (slash_not_mem_utf8EncodeChar same), ih, eq]
      simp [same]

theorem isText_of_mem_pieces {bytes piece : List UInt8} (text : IsText bytes)
    (mem : piece ∈ pieces bytes) : IsText piece := by
  obtain ⟨cs, rfl⟩ := text
  rw [pieces_utf8] at mem
  obtain ⟨word, _, rfl⟩ := List.mem_map.mp mem
  exact ⟨word, rfl⟩

theorem isText_joinPieces {ps : List (List UInt8)} (text : ∀ piece ∈ ps, IsText piece) :
    IsText (joinPieces ps) := by
  have sign : utf8 ['/'] = [slash] := by decide
  induction ps with
  | nil => exact ⟨[], rfl⟩
  | cons piece rest ih =>
    obtain ⟨⟨word, rfl⟩, others⟩ := List.forall_mem_cons.mp text
    obtain ⟨words, eq⟩ := ih others
    cases rest with
    | nil => exact ⟨word, by simp [joinPieces]⟩
    | cons next rest =>
      refine ⟨word ++ ['/'] ++ words, ?_⟩
      rw [joinPieces, List.intercalate_cons_cons, utf8_append, utf8_append, sign, ← eq]
      rfl

theorem filterMap_trimPieces (ps : List (List UInt8)) :
    (trimPieces ps).filterMap pieceComponent? = ps.filterMap pieceComponent? := by
  unfold trimPieces
  induction ps with
  | nil => rfl
  | cons piece rest ih =>
    cases step : pieceComponent? piece with
    | none => rw [List.dropWhile_cons_of_pos (by simp [step]), ih, List.filterMap_cons_none step]
    | some c => rw [List.dropWhile_cons_of_neg (by simp [step])]

theorem filterMap_trimPiecesRight (ps : List (List UInt8)) :
    (trimPiecesRight ps).filterMap pieceComponent? = ps.filterMap pieceComponent? := by
  rw [trimPiecesRight, List.filterMap_reverse, filterMap_trimPieces, ← List.filterMap_reverse,
    List.reverse_reverse]

theorem filterMap_piecesAfter (n : Nat) (ps : List (List UInt8)) :
    (piecesAfter n ps).filterMap pieceComponent? = (ps.filterMap pieceComponent?).drop n := by
  fun_induction piecesAfter n ps with
  | case1 ps => rfl
  | case2 n => simp
  | case3 n piece rest isStep ih =>
    obtain ⟨c, step⟩ := Option.isSome_iff_exists.mp isStep
    rw [ih, List.filterMap_cons_some step, List.drop_succ_cons]
  | case4 n piece rest noStep ih =>
    rw [ih, List.filterMap_cons_none (by simpa using noStep)]

theorem sublist_trimPieces (ps : List (List UInt8)) : (trimPieces ps).Sublist ps :=
  List.dropWhile_sublist _

theorem sublist_trimPiecesRight (ps : List (List UInt8)) : (trimPiecesRight ps).Sublist ps := by
  have sub := (sublist_trimPieces ps.reverse).reverse
  rwa [List.reverse_reverse] at sub

theorem sublist_piecesAfter (n : Nat) (ps : List (List UInt8)) : (piecesAfter n ps).Sublist ps := by
  fun_induction piecesAfter n ps with
  | case1 ps => exact List.Sublist.refl ps
  | case2 n => exact List.Sublist.refl []
  | case3 n piece rest _ ih => exact ih.cons piece
  | case4 n piece rest _ ih => exact ih.cons piece

theorem steps_joinPieces {ps : List (List UInt8)} (free : ∀ piece ∈ ps, slash ∉ piece) :
    steps (joinPieces ps) = ps.filterMap pieceComponent? := by
  by_cases none : ps = []
  · subst none
    decide
  · rw [steps, pieces, joinPieces, List.splitOn_intercalate slash free none]

/-- A path that starts with a step is relative. -/
theorem isAbsolute_trimPieces {ps : List (List UInt8)} (free : ∀ piece ∈ ps, slash ∉ piece) :
    isAbsolute ⟨joinPieces (trimPieces ps)⟩ = false := by
  cases trimmed : trimPieces ps with
  | nil => rfl
  | cons piece rest =>
    have noSlash : slash ∉ piece := free piece ((sublist_trimPieces ps).subset (by simp [trimmed]))
    have isStep : (pieceComponent? piece).isSome := by
      have some : trimPieces ps ≠ [] := by simp [trimmed]
      have kept : (pieceComponent? ((trimPieces ps).head some)).isNone = false :=
        List.head_dropWhile_not (fun piece => (pieceComponent? piece).isNone) some
      have first : (trimPieces ps).head some = piece := by simp [trimmed]
      rw [← first]
      simpa using kept
    obtain ⟨b, others, rfl⟩ : ∃ b others, piece = b :: others := by
      refine List.exists_cons_of_ne_nil fun empty => ?_
      simp [empty, pieceComponent?] at isStep
    have ne : b ≠ slash := fun eq => noSlash (by simp [eq])
    cases rest <;> simp [isAbsolute, joinPieces, List.intercalate_cons_cons, ne]

variable {p root : Path}

theorem pieces_of_absolute (absolute : p.isAbsolute = true) :
    ∃ ps, pieces p.bytes = [] :: ps ∧ steps p.bytes = ps.filterMap pieceComponent? := by
  obtain ⟨bytes⟩ := p
  cases bytes with
  | nil => cases absolute
  | cons b bytes =>
    have first : b = slash := by simpa [isAbsolute] using absolute
    have split : pieces (b :: bytes) = [] :: pieces bytes := by
      rw [pieces, List.splitOn_cons_eq_if_modifyHead, if_pos (by simp [first])]
      rfl
    exact ⟨pieces bytes, split, by rw [steps, split, List.filterMap_cons_none (by simp [pieceComponent?])]⟩

/-- What a path is below another one has the steps that are left of it. -/
theorem below?_of_absolute (absolute : p.isAbsolute = true) (absolute' : root.isAbsolute = true) :
    p.below? root = none ∨ ∃ rest, p.below? root = some rest ∧ rest.isAbsolute = false ∧
      (IsText p.bytes → IsText rest.bytes) ∧
      steps p.bytes = steps root.bytes ++ steps rest.bytes := by
  obtain ⟨ps, split, read⟩ := pieces_of_absolute absolute
  unfold below?
  rw [components_of_absolute absolute, components_of_absolute absolute']
  dsimp only
  by_cases inside : (Component.root :: steps root.bytes).isPrefixOf (.root :: steps p.bytes) = true
  · let left := piecesAfter (steps root.bytes).length ps
    have part : (trimPieces (trimPiecesRight left)).Sublist (pieces p.bytes) := by
      rw [split]
      exact ((sublist_trimPieces _).trans (sublist_trimPiecesRight _)).trans
        ((sublist_piecesAfter _ ps).cons [])
    have free : ∀ piece ∈ pieces p.bytes, slash ∉ piece := fun _ => not_mem_of_mem_splitOn
    have free' : ∀ piece ∈ trimPiecesRight left, slash ∉ piece := fun piece mem =>
      free piece (split ▸ .tail [] ((sublist_piecesAfter _ ps).subset
        ((sublist_trimPiecesRight left).subset mem)))
    refine .inr ⟨⟨joinPieces (trimPieces (trimPiecesRight left))⟩, ?_, isAbsolute_trimPieces free',
      fun text => isText_joinPieces fun piece mem => isText_of_mem_pieces text (part.subset mem), ?_⟩
    · simp [inside, split, left]
    · obtain ⟨-, others⟩ := List.cons_prefix_cons.mp (List.isPrefixOf_iff_prefix.mp inside)
      obtain ⟨tail, eq⟩ := others
      rw [steps_joinPieces fun piece mem => free piece (part.subset mem), filterMap_trimPieces,
        filterMap_trimPiecesRight, filterMap_piecesAfter, ← read, ← eq, List.drop_left]
  · exact .inl (by simp [inside])

theorem ofString_text (text : IsText p.bytes) : ofString p.text = p := by
  obtain ⟨bytes⟩ := p
  obtain ⟨cs, rfl⟩ := text
  rw [Path.text, lossyText_utf8, ofString, utf8Bytes_ofList]

theorem components_normal (absolute : p.isAbsolute = true) (forward : .parent ∉ p.components) :
    p.normal.components = p.components := by
  obtain ⟨names, proper, eq⟩ := exists_place absolute forward
  have named : steps p.bytes = names.map .name := by
    rw [components_of_absolute absolute] at eq
    exact (List.cons.inj eq).2
  have place : p.place = names := by
    rw [Path.place, named, foldl_turn_names, List.nil_append]
  rw [normal_eq absolute, named, oversteps_names, place, components_reduced 0 proper, eq]
  rfl

theorem components_join (absolute : root.isAbsolute = true) {rest : Path}
    (relative : rest.isAbsolute = false) :
    (root.join rest).components = .root :: (steps root.bytes ++ steps rest.bytes) := by
  have nonempty : root.bytes ≠ [] := fun empty => by simp [isAbsolute, empty] at absolute
  have trunk : steps root.trunk = steps root.bytes := by
    unfold Path.trunk
    split
    next last =>
      have split := List.dropLast_append_getLast? slash last
      have noStep : steps [] = [] := by decide
      rw [← split, steps_trunk, List.dropLast_concat, noStep, List.append_nil]
    next => rfl
  rw [components_of_absolute (isAbsolute_join absolute rest), join_of_relative relative nonempty,
    steps_trunk, trunk]

/-- What is shown of a path means, from the root on, that path. -/
theorem components_meant_shown (absolute : p.isAbsolute = true) (absolute' : root.isAbsolute = true)
    (text : IsText p.bytes) (present : Path → Bool) :
    (meant present (p.shown root) ⟨root, root⟩).components = p.components := by
  unfold meant shown
  rcases below?_of_absolute absolute absolute' with outside | ⟨rest, inside, relative, isText, eq⟩
  · rw [outside]
    simp only [ofString_text text, absolute, if_true]
  · rw [inside]
    simp only [ofString_text (isText text), relative, ite_self]
    simp only [Bool.false_eq_true, if_false]
    rw [components_join absolute' relative, components_of_absolute absolute, eq]

end Path

variable {p root : Path}

theorem exists_resolved_shown (absolute : p.isAbsolute = true) (absolute' : root.isAbsolute = true)
    (forward : .parent ∉ p.components) (text : IsText p.bytes)
    (visible : isBlankText (p.shown root).toList = false) (answer : (q : Ask) → q.Reply) :
    ∃ q, (Action.resolvePath (p.shown root) ⟨root, root⟩).run.outcome answer = .ok q ∧
      q.components = p.components := by
  refine ⟨_, Action.outcome_resolvePath visible, ?_⟩
  have same := Path.components_meant_shown absolute absolute' text
    fun path => answer (.present path)
  rw [Path.components_normal (Path.isAbsolute_meant absolute' absolute') (same ▸ forward), same]

/-- What is shown of a path can be given as an argument: from the root on it means that path, step
by step, whatever exists. So two paths of which the same is shown are one. -/
theorem shown_paths_lead_back {text : String} (absolute : p.isAbsolute = true)
    (absolute' : root.isAbsolute = true) (forward : .parent ∉ p.components)
    (utf8 : ofUtf8? p.bytes = some text) (visible : isBlankText (p.shown root).toList = false) :
    (∀ answer : (q : Ask) → q.Reply, ∃ q,
      (Action.resolvePath (p.shown root) ⟨root, root⟩).run.outcome answer = .ok q ∧
        q.components = p.components) ∧
      ∀ (p' : Path) (text' : String), p'.isAbsolute = true → ofUtf8? p'.bytes = some text' →
        p'.shown root = p.shown root → p'.components = p.components := by
  have isText := isText_of_ofUtf8? utf8
  refine ⟨exists_resolved_shown absolute absolute' forward isText visible, ?_⟩
  intro p' text' isAbsolute utf8' alike
  have same := Path.components_meant_shown absolute absolute' isText fun _ => true
  have same' := Path.components_meant_shown isAbsolute absolute' (isText_of_ofUtf8? utf8') fun _ => true
  rw [← same, ← alike, same']

/-- A path beside the root, whose first name starts like that of the root. -/
theorem path_beside_root_leads_back :
    let root := Path.ofString "/work"
    let p := Path.ofString "/workshop/é.go"
    p.isAbsolute = true ∧ root.isAbsolute = true ∧ .parent ∉ p.components ∧
      ofUtf8? p.bytes = some "/workshop/é.go" ∧ isBlankText (p.shown root).toList = false ∧
      ∀ answer : (q : Ask) → q.Reply, ∃ q,
        (Action.resolvePath (p.shown root) ⟨root, root⟩).run.outcome answer = .ok q ∧
          q.components = [.root, .name (utf8Bytes "workshop"), .name (utf8Bytes "é.go")] := by
  intro root p
  have absolute : p.isAbsolute = true := by decide
  have absolute' : root.isAbsolute = true := by decide
  have forward : .parent ∉ p.components := by decide
  have utf8 : ofUtf8? p.bytes = some "/workshop/é.go" := ofUtf8?_utf8Bytes _
  have visible : isBlankText (p.shown root).toList = false := by decide
  have steps : p.components =
      [.root, .name (utf8Bytes "workshop"), .name (utf8Bytes "é.go")] := by decide
  refine ⟨absolute, absolute', forward, utf8, visible, ?_⟩
  rw [← steps]
  exact (shown_paths_lead_back absolute absolute' forward utf8 visible).1

end CodeIntel

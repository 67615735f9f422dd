import CodeIntel.Client.Results
import CodeIntel.Path.Basic
import CodeIntel.Proofs.Basic
import CodeIntel.Proofs.Files.Place
import Mathlib.Tactic.ByContra

namespace CodeIntel.Path

/-- The steps of a path, but for the root or the dot that it may start with. -/
def steps (bytes : List UInt8) : List Component := (pieces bytes).filterMap pieceComponent?

def isLead : Component → Bool
  | .root | .current => true
  | .parent | .name _ => false

theorem isLead_of_pieceComponent? {piece : List UInt8} {c : Component}
    (h : pieceComponent? piece = some c) : isLead c = false := by
  unfold pieceComponent? at h
  split at h
  · cases h
  · split at h <;> cases h <;> rfl

theorem isLead_of_mem_steps {bytes : List UInt8} {c : Component} (mem : c ∈ steps bytes) :
    isLead c = false := by
  obtain ⟨piece, _, eq⟩ := List.mem_filterMap.mp mem
  exact isLead_of_pieceComponent? eq

/-- What stands before the steps. -/
def lead (p : Path) : List Component :=
  if p.isAbsolute then [.root]
  else if (pieces p.bytes).head? = some [0x2E] then [.current]
  else []

theorem components_eq (p : Path) : p.components = p.lead ++ steps p.bytes := by
  unfold components lead steps
  split
  · rfl
  · cases pieces p.bytes with
    | nil => rfl
    | cons first rest =>
      by_cases dot : first = [0x2E]
      · simp [dot, pieceComponent?]
      · simp [dot]

theorem filter_components (p : Path) :
    p.components.filter (fun c => !isLead c) = steps p.bytes := by
  have noStep : p.lead.filter (fun c => !isLead c) = [] := by
    unfold lead
    split
    · rfl
    · split <;> rfl
  rw [components_eq, List.filter_append, noStep, List.nil_append]
  exact List.filter_eq_self.mpr fun c mem => by rw [isLead_of_mem_steps mem]; rfl

theorem isAbsolute_iff (p : Path) : p.isAbsolute = true ↔ .root ∈ p.components := by
  rw [components_eq, lead]
  constructor
  · intro absolute
    simp [absolute]
  · intro root
    by_contra relative
    rw [if_neg relative] at root
    rcases List.mem_append.mp root with leads | mem
    · split at leads <;> simp at leads
    · exact absurd (isLead_of_mem_steps mem) nofun

/-- Paths of the same components have the same steps, and both start at the root or neither does. -/
theorem steps_of_same {a b : Path} (same : a.same b = true) :
    steps a.bytes = steps b.bytes ∧ a.isAbsolute = b.isAbsolute := by
  have components : a.components = b.components := by simpa [Path.same] using same
  refine ⟨by rw [← filter_components, ← filter_components, components], ?_⟩
  rw [Bool.eq_iff_iff, isAbsolute_iff, isAbsolute_iff, components]

/-- A directory without the slash at its end. -/
def trunk (base : Path) : List UInt8 :=
  if base.bytes.getLast? = some slash then base.bytes.dropLast else base.bytes

theorem join_of_relative {base p : Path} (relative : p.isAbsolute = false)
    (nonempty : base.bytes ≠ []) : base.join p = ⟨base.trunk ++ slash :: p.bytes⟩ := by
  unfold join trunk
  rw [relative]
  simp only [Bool.false_eq_true, if_false, nonempty]
  split
  next last =>
    have split := List.dropLast_append_getLast? slash last
    rw [← split]
    simp
  next => rfl

theorem pieces_trunk (trunk bytes : List UInt8) :
    pieces (trunk ++ slash :: bytes) = pieces trunk ++ pieces bytes :=
  List.splitOn_append_cons_self _ _

theorem lead_trunk (trunk bytes : List UInt8) :
    lead ⟨trunk ++ slash :: bytes⟩ = lead ⟨trunk ++ [slash]⟩ := by
  have absolute : isAbsolute ⟨trunk ++ slash :: bytes⟩ = isAbsolute ⟨trunk ++ [slash]⟩ := by
    cases trunk <;> rfl
  have first (bytes : List UInt8) :
      (pieces (trunk ++ slash :: bytes)).head? = (pieces trunk).head? := by
    obtain ⟨piece, others, eq⟩ := List.exists_cons_of_ne_nil (List.splitOn_ne_nil slash trunk)
    rw [pieces_trunk, pieces, eq]
    rfl
  unfold lead
  rw [absolute, first bytes, first []]

theorem steps_trunk (trunk bytes : List UInt8) :
    steps (trunk ++ slash :: bytes) = steps trunk ++ steps bytes := by
  rw [steps, pieces_trunk, List.filterMap_append]
  rfl

/-- The way from a directory to a path depends on the components alone. -/
theorem components_join_of_same (base : Path) {a b : Path} (same : a.same b = true) :
    (base.join a).components = (base.join b).components := by
  obtain ⟨steps', absolute⟩ := steps_of_same same
  have components : a.components = b.components := by simpa [Path.same] using same
  by_cases plain : a.isAbsolute = true ∨ base.bytes = []
  · have here : base.join a = a ∧ base.join b = b := by
      rcases plain with isAbsolute | empty
      · simp [join, isAbsolute, absolute ▸ isAbsolute]
      · simp [join, empty]
    rw [here.1, here.2, components]
  · obtain ⟨relative, nonempty⟩ := not_or.mp plain
    have relative : a.isAbsolute = false := by simpa using relative
    rw [join_of_relative relative nonempty, join_of_relative (absolute ▸ relative) nonempty,
      components_eq, components_eq, lead_trunk, lead_trunk _ b.bytes, steps_trunk,
      steps_trunk, steps']

variable {p : Path}

theorem components_of_absolute (absolute : p.isAbsolute = true) :
    p.components = .root :: steps p.bytes := by
  rw [components_eq, lead, if_pos absolute]
  rfl

theorem slash_not_mem_step {bytes : List UInt8} {step : Component} (mem : step ∈ steps bytes) :
    slash ∉ step.bytes := by
  obtain ⟨piece, here, eq⟩ := List.mem_filterMap.mp mem
  unfold pieceComponent? at eq
  split at eq
  · cases eq
  split at eq
  · cases eq
    decide
  · cases eq
    exact not_mem_of_mem_splitOn here

theorem properName_of_mem_steps {bytes name : List UInt8} (mem : .name name ∈ steps bytes) :
    ProperName name := by
  obtain ⟨piece, here, eq⟩ := List.mem_filterMap.mp mem
  exact properName_of_mem_pieces here eq

/-- A path from the root without steps to a parent leads to a place. -/
theorem exists_place (absolute : p.isAbsolute = true) (forward : .parent ∉ p.components) :
    ∃ place : Place, place.Proper ∧ p.components = .root :: place.map .name := by
  rw [components_of_absolute absolute] at forward ⊢
  have named : ∀ step ∈ steps p.bytes, ∃ name, ProperName name ∧ .name name = step := by
    intro step mem
    cases step with
    | root => exact absurd (isLead_of_mem_steps mem) nofun
    | current => exact absurd (isLead_of_mem_steps mem) nofun
    | parent => exact absurd (.tail _ mem) forward
    | name bytes => exact ⟨bytes, properName_of_mem_steps mem, rfl⟩
  generalize steps p.bytes = rest at named
  induction rest with
  | nil => exact ⟨[], nofun, rfl⟩
  | cons step rest ih =>
    obtain ⟨name, proper, rfl⟩ := named step (by simp)
    obtain ⟨place, others, eq⟩ := ih fun step mem => named step (.tail _ mem)
    refine ⟨name :: place, fun other mem => ?_, by simpa using eq⟩
    rcases List.mem_cons.mp mem with rfl | mem
    · exact proper
    · exact others other mem

end CodeIntel.Path

namespace CodeIntel

namespace Component

variable {a b c : Component}

theorem lt_iff : a.lt b = true ↔ a.rank < b.rank ∨ a.rank = b.rank ∧ a.bytes < b.bytes := by
  simp [lt]

/-- The kind of a step and its bytes tell it from all others. -/
theorem eq_of_rank_of_bytes (rank : a.rank = b.rank) (bytes : a.bytes = b.bytes) : a = b := by
  cases a <;> cases b <;> simp_all [Component.rank, Component.bytes]

theorem lt_irrefl (a : Component) : a.lt a = false := by
  rw [Bool.eq_false_iff, Ne, lt_iff]
  rintro (less | ⟨_, less⟩)
  · exact Nat.lt_irrefl _ less
  · exact List.lt_irrefl _ less

theorem lt_trans (hab : a.lt b = true) (hbc : b.lt c = true) : a.lt c = true := by
  rw [lt_iff] at *
  rcases hab with hab | ⟨rank, hab⟩ <;> rcases hbc with hbc | ⟨rank', hbc⟩
  · exact .inl (Nat.lt_trans hab hbc)
  · exact .inl (rank' ▸ hab)
  · exact .inl (rank ▸ hbc)
  · exact .inr ⟨rank.trans rank', List.lt_trans hab hbc⟩

theorem lt_trichotomy (a b : Component) : a.lt b = true ∨ a = b ∨ b.lt a = true := by
  simp only [lt_iff]
  rcases Nat.lt_trichotomy a.rank b.rank with less | same | greater
  · exact .inl (.inl less)
  · by_cases less : a.bytes < b.bytes
    · exact .inl (.inr ⟨same, less⟩)
    · by_cases greater : b.bytes < a.bytes
      · exact .inr (.inr (.inr ⟨same.symm, greater⟩))
      · exact .inr (.inl (eq_of_rank_of_bytes same (List.le_antisymm greater less)))
  · exact .inr (.inr (.inl greater))

end Component

namespace Path

theorem componentsLe_cons_iff {x y : Component} {xs ys : List Component} :
    componentsLe (x :: xs) (y :: ys) = true ↔
      x.lt y = true ∨ x = y ∧ componentsLe xs ys = true := by
  simp [componentsLe]

theorem componentsLe_total (xs ys : List Component) :
    componentsLe xs ys = true ∨ componentsLe ys xs = true := by
  induction xs generalizing ys with
  | nil => exact .inl rfl
  | cons x xs ih =>
    cases ys with
    | nil => exact .inr rfl
    | cons y ys =>
      simp only [componentsLe_cons_iff]
      rcases Component.lt_trichotomy x y with less | rfl | greater
      · exact .inl (.inl less)
      · exact (ih ys).imp (fun le => .inr ⟨rfl, le⟩) fun ge => .inr ⟨rfl, ge⟩
      · exact .inr (.inl greater)

theorem componentsLe_trans {xs ys zs : List Component} (hxy : componentsLe xs ys = true)
    (hyz : componentsLe ys zs = true) : componentsLe xs zs = true := by
  induction xs generalizing ys zs with
  | nil => rfl
  | cons x xs ih =>
    cases ys with
    | nil => cases hxy
    | cons y ys =>
      cases zs with
      | nil => cases hyz
      | cons z zs =>
        rw [componentsLe_cons_iff] at *
        rcases hxy with hxy | ⟨rfl, hxy⟩ <;> rcases hyz with hyz | ⟨rfl, hyz⟩
        · exact .inl (Component.lt_trans hxy hyz)
        · exact .inl hxy
        · exact .inl hyz
        · exact .inr ⟨rfl, ih hxy hyz⟩

theorem componentsLe_antisymm {xs ys : List Component} (hxy : componentsLe xs ys = true)
    (hyx : componentsLe ys xs = true) : xs = ys := by
  induction xs generalizing ys with
  | nil =>
    cases ys with
    | nil => rfl
    | cons => cases hyx
  | cons x xs ih =>
    cases ys with
    | nil => cases hxy
    | cons y ys =>
      rw [componentsLe_cons_iff] at *
      rcases hxy with hxy | ⟨rfl, hxy⟩ <;> rcases hyx with hyx | ⟨same, hyx⟩
      · exact absurd (Component.lt_trans hxy hyx) (by simp [Component.lt_irrefl])
      · exact absurd (same ▸ hxy) (by simp [Component.lt_irrefl])
      · exact absurd hyx (by simp [Component.lt_irrefl])
      · rw [ih hxy hyx]

/-- Whether a path comes before another in ascending order; two spellings of one path are alike. -/
def Before (a b : Path) : Prop := a.le b = true ∧ a.components ≠ b.components

variable {a b c : Path}

theorem before_irrefl (a : Path) : ¬ a.Before a := fun h => h.2 rfl

theorem Before.asymm (h : a.Before b) : ¬ b.Before a :=
  fun h' => h.2 (componentsLe_antisymm h.1 h'.1)

theorem Before.trans (hab : a.Before b) (hbc : b.Before c) : a.Before c := by
  refine ⟨componentsLe_trans hab.1 hbc.1, fun same => ?_⟩
  have back : b.le a = true := by
    unfold le
    rw [same]
    exact hbc.1
  exact hab.2 (componentsLe_antisymm hab.1 back)

theorem before_of_not_le (h : a.le b = false) : b.Before a := by
  have back : b.le a = true := (componentsLe_total _ _).resolve_left (Bool.eq_false_iff.mp h)
  refine ⟨back, fun same => Bool.eq_false_iff.mp h ?_⟩
  unfold le at back ⊢
  rw [same] at back ⊢
  exact back

end Path

end CodeIntel

namespace CodeIntel

namespace Path

theorem uri_ok_iff {p cwd : Path} {uri : Uri} :
    p.uri cwd = .ok uri ↔ Uri.parse (Uri.textOfPath (cwd.join p)) = .ok uri := by
  have joined : (if p.isAbsolute then p else cwd.join p) = cwd.join p := by
    unfold join
    split <;> rfl
  unfold Path.uri Uri.ofPath
  rw [joined]
  exact mapError_eq_ok_iff.trans mapError_eq_ok_iff

/-- Two spellings of one path are one document for a server. -/
theorem uri_of_same {a b cwd : Path} {uri : Uri} (same : a.same b = true)
    (named : a.uri cwd = .ok uri) : b.uri cwd = .ok uri := by
  have text : Uri.textOfPath (cwd.join a) = Uri.textOfPath (cwd.join b) := by
    unfold Uri.textOfPath
    rw [components_join_of_same cwd same]
  exact uri_ok_iff.mpr (text ▸ uri_ok_iff.mp named)

end Path

end CodeIntel

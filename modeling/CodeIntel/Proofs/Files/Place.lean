import CodeIntel.Files.Tree
import Mathlib.Data.List.Basic

namespace CodeIntel

/-- What a name in a path can be: not empty, without slashes and no dots that are a step of their
own. -/
structure ProperName (name : List UInt8) : Prop where
  nonempty : name ≠ []
  noSlash : Path.slash ∉ name
  notCurrent : name ≠ [0x2E]
  notParent : name ≠ [0x2E, 0x2E]

theorem properName_iff {name : List UInt8} : ProperName name ↔
    name ≠ [] ∧ Path.slash ∉ name ∧ name ≠ [0x2E] ∧ name ≠ [0x2E, 0x2E] :=
  ⟨fun h => ⟨h.nonempty, h.noSlash, h.notCurrent, h.notParent⟩,
    fun ⟨h, h', h'', h'''⟩ => ⟨h, h', h'', h'''⟩⟩

instance (name : List UInt8) : Decidable (ProperName name) := decidable_of_iff _ properName_iff.symm

/-- A place that a path without dots leads to. -/
def Place.Proper (place : Place) : Prop := ∀ name ∈ place, ProperName name

instance (place : Place) : Decidable place.Proper :=
  inferInstanceAs (Decidable (∀ name ∈ place, ProperName name))

theorem Place.Proper.dropLast {place : Place} (proper : place.Proper) :
    Place.Proper place.dropLast :=
  fun name h => proper name (List.mem_of_mem_take (List.dropLast_eq_take ▸ h))

theorem Place.Proper.concat {place : Place} {name : List UInt8} (proper : place.Proper)
    (named : ProperName name) : Place.Proper (place ++ [name]) := by
  intro other h
  rcases List.mem_append.mp h with h | h
  · exact proper other h
  · rwa [List.mem_singleton.mp h]

theorem not_mem_of_mem_splitOn {a : UInt8} {xs piece : List UInt8} (h : piece ∈ xs.splitOn a) :
    a ∉ piece := by
  induction xs generalizing piece with
  | nil => simp at h; simp [h]
  | cons x xs ih =>
    rw [List.splitOn_cons_eq_if_modifyHead] at h
    split at h
    · rcases List.mem_cons.mp h with rfl | h
      · simp
      · exact ih h
    next ne =>
      cases rest : xs.splitOn a with
      | nil => exact absurd rest (List.splitOn_ne_nil a xs)
      | cons first others =>
        rw [rest] at h
        simp only [List.modifyHead_cons] at h
        rcases List.mem_cons.mp h with rfl | h
        · have free := ih (rest ▸ List.mem_cons_self)
          have other : a ≠ x := fun eq => ne (by simp [eq])
          simp [other, free]
        · exact ih (rest ▸ List.mem_cons_of_mem first h)

namespace Path

theorem pieceComponent?_name {piece name : List UInt8}
    (h : pieceComponent? piece = some (.name name)) :
    piece = name ∧ name ≠ [] ∧ name ≠ [0x2E] ∧ name ≠ [0x2E, 0x2E] := by
  unfold pieceComponent? at h
  split at h
  · simp at h
  next other =>
    split at h
    · simp at h
    next notParent =>
      cases h
      exact ⟨rfl, fun eq => other (.inl eq), fun eq => other (.inr eq), notParent⟩

theorem properName_of_mem_pieces {bytes piece name : List UInt8} (mem : piece ∈ pieces bytes)
    (named : pieceComponent? piece = some (.name name)) : ProperName name := by
  obtain ⟨rfl, nonempty, notCurrent, notParent⟩ := pieceComponent?_name named
  exact ⟨nonempty, not_mem_of_mem_splitOn mem, notCurrent, notParent⟩

theorem pieceComponent?_ne_root (piece : List UInt8) : pieceComponent? piece ≠ some .root := by
  unfold pieceComponent?
  split
  · simp
  · split <;> simp

theorem pieces_ofComponents {rest : List Component}
    (noSlash : ∀ step ∈ rest, slash ∉ step.bytes) (hn : rest ≠ []) :
    pieces (ofComponents (.root :: rest)).bytes = [] :: rest.map Component.bytes := by
  have noSlash : ∀ piece ∈ rest.map Component.bytes, slash ∉ piece :=
    List.forall_mem_map.mpr noSlash
  rw [pieces, ofComponents, List.splitOn_cons_eq_if_modifyHead, if_pos (by simp),
    List.splitOn_intercalate slash noSlash (by simpa using hn)]

/-- A path that is spelled from steps has these steps. -/
theorem components_ofComponents {rest : List Component}
    (spelled : ∀ step ∈ rest, slash ∉ step.bytes ∧ pieceComponent? step.bytes = some step) :
    (ofComponents (.root :: rest)).components = .root :: rest := by
  have absolute : (ofComponents (.root :: rest)).isAbsolute = true := rfl
  rw [components, if_pos absolute]
  refine congrArg (Component.root :: ·) ?_
  by_cases none : rest = []
  · subst none
    decide
  · have read : (rest.map Component.bytes).filterMap pieceComponent? = rest := by
      rw [List.filterMap_map]
      exact (List.filterMap_congr fun step mem => (spelled step mem).2).trans List.filterMap_some
    rw [pieces_ofComponents (fun step mem => (spelled step mem).1) none,
      List.filterMap_cons_none (by simp [pieceComponent?]), read]

end Path

theorem ProperName.pieceComponent? {name : List UInt8} (h : ProperName name) :
    Path.pieceComponent? name = some (.name name) := by
  unfold Path.pieceComponent?
  rw [if_neg, if_neg h.notParent]
  rintro (eq | eq)
  · exact h.nonempty eq
  · exact h.notCurrent eq

namespace Tree

open CodeIntel.Path (slash pieces pieceComponent?)

theorem map_bytes_names (place : Place) :
    (place.map Component.name).map Component.bytes = place := by
  rw [List.map_map]
  exact List.map_id place

theorem pathOf_bytes (place : Place) : (pathOf place).bytes = slash :: [slash].intercalate place := by
  rw [pathOf, Path.ofComponents, map_bytes_names]

theorem isAbsolute_pathOf (place : Place) : (pathOf place).isAbsolute = true := by
  rw [Path.isAbsolute, pathOf_bytes]
  rfl

theorem join_pathOf (base : Path) (place : Place) : base.join (pathOf place) = pathOf place := by
  rw [Path.join, if_pos (isAbsolute_pathOf place)]

theorem pieces_pathOf {place : Place} (proper : place.Proper) (hn : place ≠ []) :
    pieces (pathOf place).bytes = [] :: place := by
  have noSlash : ∀ step ∈ place.map Component.name, slash ∉ step.bytes :=
    List.forall_mem_map.mpr fun name mem => (proper name mem).noSlash
  rw [pathOf, Path.pieces_ofComponents noSlash (by simpa using hn), map_bytes_names]

theorem components_pathOf {place : Place} (proper : place.Proper) :
    (pathOf place).components = .root :: place.map .name :=
  Path.components_ofComponents <| List.forall_mem_map.mpr fun name mem =>
    ⟨(proper name mem).noSlash, (proper name mem).pieceComponent?⟩

theorem stepsOf_pathOf {place : Place} (proper : place.Proper) (hn : place ≠ []) :
    stepsOf (pathOf place) = place.map .name := by
  obtain ⟨last, hl⟩ : ∃ last, place.getLast? = some last :=
    ⟨place.getLast hn, List.getLast?_eq_some_getLast hn⟩
  have named := proper last (List.mem_of_getLast? hl)
  have ends : (pieces (pathOf place).bytes).getLast? = some last := by
    rw [pieces_pathOf proper hn, List.getLast?_cons, hl]
    rfl
  simp only [stepsOf, isAbsolute_pathOf, if_true, components_pathOf proper, List.drop_succ_cons,
    List.drop_zero, ends]
  rw [if_neg]
  rintro (eq | eq)
  · exact named.nonempty eq
  · exact named.notCurrent eq

theorem mem_stepsOf {p : Path} {step : Component} (h : step ∈ stepsOf p) :
    step = .current ∨ ∃ piece ∈ pieces p.bytes, pieceComponent? piece = some step := by
  have kept : step = .current ∨
      step ∈ if p.isAbsolute then p.components.drop 1 else p.components := by
    simp only [stepsOf] at h
    split at h
    next =>
      split at h
      · exact (List.mem_append.mp h).symm.imp List.mem_singleton.mp id
      · exact .inr h
    next => exact .inr h
  refine kept.elim .inl fun mem => ?_
  by_cases absolute : p.isAbsolute
  · rw [if_pos absolute, Path.components, if_pos absolute] at mem
    exact .inr (List.mem_filterMap.mp mem)
  · rw [if_neg absolute, Path.components, if_neg absolute] at mem
    split at mem
    next first rest eq =>
      split at mem
      · refine (List.mem_cons.mp mem).imp id fun mem => ?_
        obtain ⟨piece, later, named⟩ := List.mem_filterMap.mp mem
        exact ⟨piece, eq ▸ .tail first later, named⟩
      · exact .inr (eq ▸ List.mem_filterMap.mp mem)
    next => cases mem

theorem properName_of_mem_stepsOf {p : Path} {name : List UInt8} (h : .name name ∈ stepsOf p) :
    ProperName name := by
  obtain eq | ⟨piece, mem, named⟩ := mem_stepsOf h
  · cases eq
  · exact Path.properName_of_mem_pieces mem named

theorem root_not_mem_stepsOf (p : Path) : .root ∉ stepsOf p := by
  intro h
  obtain eq | ⟨piece, _, root⟩ := mem_stepsOf h
  · cases eq
  · exact Path.pieceComponent?_ne_root piece root

end Tree

end CodeIntel

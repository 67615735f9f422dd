import CodeIntel.Proofs.Path.Steps
import CodeIntel.Proofs.Files.Place

namespace CodeIntel.Uri

open CodeIntel.Path (slash)

/-- The bytes that are not escaped in the name of a file although no URI may hold them: the square
brackets, the circumflex and the bar. -/
def strayBytes : List UInt8 := [0x5B, 0x5D, 0x5E, 0x7C]

def isStray (c : Char) : Bool := ['[', ']', '^', '|'].contains c

/-- What stands in a file URI for a byte of a name. -/
def escape (b : UInt8) : List Char :=
  if isPlainInName b then [Char.ofNat b.toNat]
  else ['%', upperHexDigit (b.toNat / 16), upperHexDigit (b.toNat % 16)]

/-- What stands there for a byte of a path. -/
def escapeInPath (b : UInt8) : List Char := if b = slash then ['/'] else escape b

/-- What a check finds of each byte is true of every byte. -/
theorem forall_byte {P : UInt8 → Prop} [DecidablePred P]
    (checked : ((List.range 16).all fun high => (List.range 16).all fun low =>
      decide (P (UInt8.ofNat (16 * high + low)))) = true) (b : UInt8) : P b := by
  have small := b.toNat_lt
  have same : UInt8.ofNat (16 * (b.toNat / 16) + b.toNat % 16) = b := by
    rw [Nat.div_add_mod]
    exact UInt8.ofNat_toNat
  simp only [List.all_eq_true, List.mem_range, decide_eq_true_eq] at checked
  exact same ▸ checked (b.toNat / 16) (by omega) (b.toNat % 16) (by omega)

/-- A byte that stands for itself is no sign of a URI, and a path may hold it unless it is stray. -/
theorem plain_byte (b : UInt8) (plain : isPlainInName b = true) :
    (∀ c ∈ ['%', '/', '?', '#'], Char.ofNat b.toNat ≠ c) ∧
      String.utf8EncodeChar (Char.ofNat b.toNat) = [b] ∧
      inPath (Char.ofNat b.toNat) = (!strayBytes.contains b) ∧
      isStray (Char.ofNat b.toNat) = strayBytes.contains b := by
  have checked : ∀ b : UInt8, isPlainInName b = true →
      ['%', '/', '?', '#'].contains (Char.ofNat b.toNat) = false ∧
        String.utf8EncodeChar (Char.ofNat b.toNat) = [b] ∧
        inPath (Char.ofNat b.toNat) = (!strayBytes.contains b) ∧
        isStray (Char.ofNat b.toNat) = strayBytes.contains b := forall_byte (by decide)
  obtain ⟨noSign, rest⟩ := checked b plain
  refine ⟨fun c sign eq => ?_, rest⟩
  cases noSign.symm.trans (List.contains_iff_mem.mpr (eq ▸ sign))

/-- The two digits of an escaped byte give the byte. -/
theorem escaped_byte : ∀ b : UInt8,
    isHex (upperHexDigit (b.toNat / 16)) = true ∧ isHex (upperHexDigit (b.toNat % 16)) = true ∧
      hexDigit (upperHexDigit (b.toNat / 16)) * 16 + hexDigit (upperHexDigit (b.toNat % 16)) =
        b.toNat :=
  forall_byte (by decide)

theorem stray_is_plain : ∀ b ∈ strayBytes, isPlainInName b = true ∧ b ≠ slash := by
  simp only [strayBytes, List.forall_mem_cons, List.not_mem_nil, false_implies, implies_true]
  decide

/-- No digit is a slash or stray. -/
theorem hex_is_plain {c : Char} (hex : isHex c = true) : c ≠ '/' ∧ isStray c = false := by
  constructor
  · rintro rfl
    exact absurd hex (by decide)
  · by_contra stray
    simp only [isStray, List.contains_eq_mem, List.mem_cons, List.not_mem_nil, or_false,
      Bool.not_eq_false, decide_eq_true_eq] at stray
    rcases stray with rfl | rfl | rfl | rfl <;> exact absurd hex (by decide)

section Skip

variable {allowed : Char → Bool} {index : Nat} {c : Char} {rest : List Char}

theorem skip_octet {x y : Char} (hx : isHex x = true) (hy : isHex y = true) :
    skip allowed index ('%' :: x :: y :: rest) = skip allowed (index + 3) rest := by
  rw [skip]
  simp [hx, hy]

theorem skip_plain (ne : c ≠ '%') :
    skip allowed index (c :: rest) =
      if allowed c then skip allowed (index + 1) rest else .ok (index, c :: rest) := by
  rw [skip]
  · simp [ne]
  · rintro x y rest' eq
    exact absurd eq ne

end Skip

theorem skip_escapeInPath {b : UInt8} (legal : b ∉ strayBytes) (index : Nat) (rest : List Char) :
    skip inPath index (escapeInPath b ++ rest) =
      skip inPath (index + (escapeInPath b).length) rest := by
  unfold escapeInPath escape
  split
  · exact skip_plain (by decide)
  split
  next plain =>
    obtain ⟨noSign, -, path, -⟩ := plain_byte b plain
    refine (skip_plain (noSign '%' (by simp))).trans ?_
    rw [path]
    simp [legal]
  next =>
    obtain ⟨hx, hy, -⟩ := escaped_byte b
    exact skip_octet hx hy

theorem not_isStray_of_mem_escapeInPath {b : UInt8} (legal : b ∉ strayBytes) {c : Char}
    (mem : c ∈ escapeInPath b) : isStray c = false := by
  unfold escapeInPath escape at mem
  split at mem
  · rw [List.mem_singleton.mp mem]
    rfl
  split at mem
  next plain =>
    obtain ⟨-, -, -, stray⟩ := plain_byte b plain
    rw [List.mem_singleton.mp mem, stray]
    simp [legal]
  next =>
    obtain ⟨hx, hy, -⟩ := escaped_byte b
    simp only [List.mem_cons, List.not_mem_nil, or_false] at mem
    rcases mem with rfl | rfl | rfl
    · rfl
    · exact (hex_is_plain hx).2
    · exact (hex_is_plain hy).2

theorem escapeInPath_of_stray {b : UInt8} (stray : b ∈ strayBytes) :
    ∃ c, escapeInPath b = [c] ∧ isStray c = true ∧ inPath c = false ∧
      c ≠ '%' ∧ c ≠ '?' ∧ c ≠ '#' := by
  obtain ⟨plain, ne⟩ := stray_is_plain b stray
  obtain ⟨noSign, -, path, isStray⟩ := plain_byte b plain
  refine ⟨Char.ofNat b.toNat, ?_, ?_, ?_, noSign _ (by simp), noSign _ (by simp),
    noSign _ (by simp)⟩
  · rw [escapeInPath, if_neg ne, escape, if_pos plain]
  · rw [isStray]
    simpa using stray
  · rw [path]
    simpa using stray

/-- A path of a URI that is made of the bytes of a path ends at the first stray byte. -/
theorem skip_path (bytes : List UInt8) (index : Nat) :
    ∃ rest, skip inPath index (bytes.flatMap escapeInPath) =
        .ok (index + (bytes.flatMap escapeInPath).findIdx isStray, rest) ∧
      (rest = [] ∧ (∀ b ∈ bytes, b ∉ strayBytes) ∨
        (∃ b ∈ bytes, b ∈ strayBytes) ∧ ∃ c behind, rest = c :: behind ∧ c ≠ '?' ∧ c ≠ '#') := by
  induction bytes generalizing index with
  | nil => exact ⟨[], rfl, .inl ⟨rfl, nofun⟩⟩
  | cons b bytes ih =>
    rw [List.flatMap_cons]
    by_cases stray : b ∈ strayBytes
    · obtain ⟨c, eq, isStray, path, sign, query, fragment⟩ := escapeInPath_of_stray stray
      refine ⟨c :: bytes.flatMap escapeInPath, ?_, .inr ⟨⟨b, by simp, stray⟩, c, _, rfl, query,
        fragment⟩⟩
      rw [eq, List.singleton_append, skip_plain sign, path, List.findIdx_cons, isStray]
      rfl
    · obtain ⟨rest, skips, ends⟩ := ih (index + (escapeInPath b).length)
      have passes : ∀ c ∈ escapeInPath b, isStray c = false := fun c mem =>
        not_isStray_of_mem_escapeInPath stray mem
      have after : (escapeInPath b ++ bytes.flatMap escapeInPath).findIdx isStray =
          (escapeInPath b).length + (bytes.flatMap escapeInPath).findIdx isStray := by
        rw [List.findIdx_append, List.findIdx_eq_length_of_false passes, if_neg (by omega)]
        omega
      refine ⟨rest, ?_, ?_⟩
      · rw [skip_escapeInPath stray, skips, after, Nat.add_assoc]
      · simpa [stray] using ends

/-- What follows the two slashes in the URI of a file. -/
theorem checkTail_path (bytes : List UInt8) (index : Nat) :
    checkTail index (bytes.flatMap escapeInPath) =
      if ∃ b ∈ bytes, b ∈ strayBytes then
        .error (.character (index + (bytes.flatMap escapeInPath).findIdx isStray))
      else .ok (bytes.flatMap escapeInPath) := by
  obtain ⟨rest, skips, ends⟩ := skip_path bytes index
  unfold checkTail
  rw [skips]
  simp only [ok_bind]
  rcases ends with ⟨rfl, legal⟩ | ⟨stray, c, behind, rfl, query, fragment⟩
  · have none : ¬ ∃ b ∈ bytes, b ∈ strayBytes := fun ⟨b, mem, stray⟩ => legal b mem stray
    have whole : (bytes.flatMap escapeInPath).findIdx isStray =
        (bytes.flatMap escapeInPath).length := by
      refine List.findIdx_eq_length_of_false fun c mem => ?_
      obtain ⟨b, here, mem⟩ := List.mem_flatMap.mp mem
      exact not_isStray_of_mem_escapeInPath (legal b here) mem
    rw [if_neg none, whole, Nat.add_sub_cancel_left, List.take_length]
    rfl
  · rw [if_pos stray]
    split
    next eq => cases eq; exact absurd rfl query
    next =>
      rw [pure_bind]
      split
      next eq => cases eq; exact absurd rfl fragment
      next => rfl

/-- A URI without a host is read up to its path. -/
theorem parse_file {text : String} {tail : List Char}
    (eq : text.toList = "file://".toList ++ '/' :: tail) :
    parse text = (checkTail 7 ('/' :: tail)).map fun path =>
      ⟨text, some "file".toList, some [], path⟩ := by
  have scheme : text.toList.takeWhile inScheme = "file".toList := eq ▸ rfl
  unfold parse
  simp only
  rw [scheme, eq]
  change parseHierarchy text (some "file".toList) 5 ('/' :: '/' :: '/' :: tail) = _
  unfold parseHierarchy
  rfl

end CodeIntel.Uri

namespace CodeIntel

theorem cons_intercalate {α : Type} (a : α) {parts : List (List α)} (some : parts ≠ []) :
    a :: [a].intercalate parts = parts.flatMap (a :: ·) := by
  induction parts with
  | nil => exact absurd rfl some
  | cons part rest ih =>
    cases rest with
    | nil => simp
    | cons next rest =>
      rw [List.intercalate_cons_cons, List.flatMap_cons, ← ih (by simp)]
      simp

namespace Path

variable {p : Path}

/-- A byte that is neither a slash nor a dot stands in a step of a path if it stands in the path. -/
theorem mem_steps_iff {bytes : List UInt8} {b : UInt8} (ne : b ≠ slash) (noDot : b ≠ 0x2E) :
    (∃ step ∈ steps bytes, b ∈ step.bytes) ↔ b ∈ bytes := by
  have whole : slash :: bytes = (pieces bytes).flatMap (slash :: ·) := by
    refine Eq.trans ?_ (cons_intercalate slash (List.splitOn_ne_nil slash bytes))
    exact congrArg (slash :: ·) (List.intercalate_splitOn slash).symm
  have inPiece : b ∈ bytes ↔ ∃ piece ∈ pieces bytes, b ∈ piece := by
    have mem : b ∈ slash :: bytes ↔ ∃ piece ∈ pieces bytes, b ∈ slash :: piece := by
      rw [whole]
      exact List.mem_flatMap
    simpa [ne] using mem
  rw [inPiece]
  constructor
  · rintro ⟨step, mem, here⟩
    obtain ⟨piece, isPiece, eq⟩ := List.mem_filterMap.mp mem
    unfold pieceComponent? at eq
    split at eq
    · cases eq
    split at eq <;> cases eq
    · simp [Component.bytes, noDot] at here
    · exact ⟨piece, isPiece, here⟩
  · rintro ⟨piece, isPiece, here⟩
    refine ⟨.name piece, List.mem_filterMap.mpr ⟨piece, isPiece, ?_⟩, here⟩
    unfold pieceComponent?
    rw [if_neg, if_neg]
    · rintro rfl
      simp [noDot] at here
    · rintro (rfl | rfl) <;> simp [noDot] at here

/-- The spelling of an absolute path without empty names. -/
theorem bytes_ofComponents (absolute : p.isAbsolute = true) :
    (ofComponents p.components).bytes =
      slash :: [slash].intercalate ((steps p.bytes).map Component.bytes) := by
  rw [components_of_absolute absolute]
  rfl

end Path

namespace Uri

open CodeIntel.Path (slash steps)

variable {p cwd : Path}

theorem flatMap_escapeInPath {name : List UInt8} (noSlash : slash ∉ name) :
    name.flatMap escapeInPath = percentEncode name := by
  refine List.flatMap_congr fun b mem => ?_
  have ne : b ≠ slash := fun eq => noSlash (eq ▸ mem)
  rw [escapeInPath, if_neg ne]
  rfl

theorem flatMap_names {names : List (List UInt8)} (noSlash : ∀ name ∈ names, slash ∉ name) :
    (names.flatMap (slash :: ·)).flatMap escapeInPath =
      (names.map percentEncode).flatMap ('/' :: ·) := by
  rw [List.flatMap_assoc, List.flatMap_map]
  refine List.flatMap_congr fun name mem => ?_
  rw [List.flatMap_cons, flatMap_escapeInPath (noSlash name mem)]
  rfl

/-- The URI of an absolute path has the bytes of its spelling without empty names. -/
theorem textOfPath_eq (absolute : p.isAbsolute = true) :
    textOfPath p = String.ofList
      ("file://".toList ++ (Path.ofComponents p.components).bytes.flatMap escapeInPath) := by
  unfold textOfPath
  rw [Path.bytes_ofComponents absolute, Path.components_of_absolute absolute]
  simp only [List.drop_succ_cons, List.drop_zero]
  by_cases none : steps p.bytes = []
  · rw [none]
    rfl
  · have noSlash : ∀ name ∈ (steps p.bytes).map Component.bytes, slash ∉ name := by
      intro name mem
      obtain ⟨step, here, rfl⟩ := List.mem_map.mp mem
      exact Path.slash_not_mem_step here
    rw [if_neg none, cons_intercalate slash (by simpa using none), flatMap_names noSlash,
      List.flatMap_map, List.flatMap_map]

theorem noSlash_noDot_of_stray : ∀ b ∈ strayBytes, b ≠ slash ∧ b ≠ 0x2E := by
  simp only [strayBytes, List.forall_mem_cons, List.not_mem_nil, false_implies, implies_true]
  decide

theorem exists_stray_iff (absolute : p.isAbsolute = true) :
    (∃ b ∈ (Path.ofComponents p.components).bytes, b ∈ strayBytes) ↔
      ∃ b ∈ p.bytes, b ∈ strayBytes := by
  refine exists_congr fun b => and_congr_left fun stray => ?_
  obtain ⟨ne, noDot⟩ := noSlash_noDot_of_stray b stray
  refine Iff.trans ?_ (Path.mem_steps_iff ne noDot)
  rw [Path.bytes_ofComponents absolute]
  by_cases none : steps p.bytes = []
  · simp [none, ne]
  · rw [cons_intercalate slash (by simpa using none)]
    simp [ne]

/-- An absolute path has a URI unless a stray byte stands in it. -/
theorem ofPath_of_absolute (absolute : p.isAbsolute = true) :
    ofPath cwd p = if ∃ b ∈ p.bytes, b ∈ strayBytes then
      .error (p, .character ((textOfPath p).toList.findIdx isStray))
    else .ok ⟨textOfPath p, some "file".toList, some [],
      (Path.ofComponents p.components).bytes.flatMap escapeInPath⟩ := by
  have text : (textOfPath p).toList =
      "file://".toList ++ (Path.ofComponents p.components).bytes.flatMap escapeInPath := by
    rw [textOfPath_eq absolute, String.toList_ofList]
  obtain ⟨tail, path⟩ : ∃ tail,
      (Path.ofComponents p.components).bytes.flatMap escapeInPath = '/' :: tail := by
    rw [Path.bytes_ofComponents absolute]
    exact ⟨_, List.flatMap_cons⟩
  have index : (textOfPath p).toList.findIdx isStray =
      7 + ((Path.ofComponents p.components).bytes.flatMap escapeInPath).findIdx isStray := by
    rw [text, List.findIdx_append]
    exact Nat.add_comm _ _
  unfold ofPath
  simp only [if_pos absolute]
  rw [parse_file (path ▸ text), ← path, checkTail_path, index, apply_ite (Except.map _),
    apply_ite (Except.mapError _)]
  simp only [exists_stray_iff absolute]
  rfl

end Uri

/-- An absolute path can be named to a server if and only if no stray byte stands in it; else the
first of them is what is unexpected. -/
theorem path_has_uri_unless_stray {p cwd : Path} (absolute : p.isAbsolute = true) :
    ((∃ uri, p.uri cwd = .ok uri) ↔ ∀ b ∈ p.bytes, b ∉ Uri.strayBytes) ∧
      (∀ uri, p.uri cwd = .ok uri → uri.text = Uri.textOfPath p) ∧
      ∀ e, p.uri cwd = .error e → ∃ index, e = .invalidUri
        s!"{p.text}: {UriError.message (.character index)}" ∧
          index = (Uri.textOfPath p).toList.findIdx Uri.isStray := by
  unfold Path.uri
  rw [Uri.ofPath_of_absolute absolute]
  split
  next stray =>
    obtain ⟨b, mem, here⟩ := stray
    refine ⟨⟨nofun, fun none => absurd here (none b mem)⟩, nofun, ?_⟩
    rintro _ ⟨⟩
    exact ⟨_, rfl, rfl⟩
  next none =>
    refine ⟨⟨fun _ b mem here => none ⟨b, mem, here⟩, fun _ => ⟨_, rfl⟩⟩, ?_, nofun⟩
    rintro _ ⟨⟩
    rfl

theorem spaced_path_has_uri : ∃ uri, (Path.ofString "/my project/100%.go").isAbsolute = true ∧
    (Path.ofString "/my project/100%.go").uri default = .ok uri ∧
      uri.text = "file:///my%20project/100%25.go" := by
  have absolute : (Path.ofString "/my project/100%.go").isAbsolute = true := by decide
  have legal : ∀ b ∈ (Path.ofString "/my project/100%.go").bytes, b ∉ Uri.strayBytes := by
    have checked : ((Path.ofString "/my project/100%.go").bytes.all fun b =>
        !Uri.strayBytes.contains b) = true := by decide
    simpa using checked
  have text : Uri.textOfPath (Path.ofString "/my project/100%.go") =
      "file:///my%20project/100%25.go" := by decide
  have claim := @path_has_uri_unless_stray _ default absolute
  obtain ⟨uri, named⟩ := claim.1.mpr legal
  exact ⟨uri, absolute, named, (claim.2.1 uri named).trans text⟩

/-- A file whose name has brackets cannot be named to a server. -/
theorem bracketed_path_has_no_uri : (Path.ofString "/a[1].go").isAbsolute = true ∧
    ¬ ∃ uri, (Path.ofString "/a[1].go").uri default = .ok uri := by
  refine ⟨by decide, fun ⟨uri, named⟩ => ?_⟩
  have refused : ((Path.ofString "/a[1].go").uri default).isOk = false := by decide
  rw [named] at refused
  cases refused

end CodeIntel

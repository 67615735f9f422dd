import CodeIntel.Proofs.Settings.Decoding
import CodeIntel.Proofs.Settings.Filling
import Mathlib.Data.Bool.AllAny

namespace CodeIntel.Settings

open Json (IsBare Spells spells_of_bare)
open Json.Loose (onString)
open SettingsFile (ofText? ofText?_eq ofWritten? valueless)

/-- The value of the variable that a reference names. -/
def valueOf (value : String → String) (name : List Char) : List Char :=
  (value (String.ofList name)).toList

/-- A string with the values of variables in the stead of references. -/
def replaced (value : String → String) : String → String := onString (fill (valueOf value))

/-- What a text says if it is parsed first, and the references in its strings are replaced then. -/
def parsedFirst (value : String → String) (text : String) : Option SettingsFile :=
  (Json.Loose.ofChars? valueless text.toList).bind fun written =>
    ofWritten? (written.mapTexts (replaced value) (replaced value))

/-- What the loading of a file comes to. -/
def loaded (path : Path) : Option SettingsFile → Except SettingsError SettingsFile
  | some file => .ok file
  | none => .error (.malformed path)

variable {answer : (q : Lookup) → q.Reply} {path : Path} {text : String}
  {value meaning : String → String} {parts : List Part} {tail : List Char}

theorem outcome_loadFile (read : answer (.readText path) = .ok text)
    (cut : Cut text.toList parts tail)
    (set : ∀ part ∈ parts,
      answer (.envValue (String.ofList part.name)) = some (value (String.ofList part.name))) :
    (loadFile path).run.outcome answer =
      loaded path (ofText? (String.ofList (fill (valueOf value) text.toList))) := by
  have filled : (substituteAll text).run.outcome answer =
      .ok (String.ofList (fill (valueOf value) text.toList)) := by
    rw [outcome_substituteAll cut, assemble_of_set set, cut.fill]
    rfl
  unfold loadFile
  rw [outcome_look_bind, read]
  refine (Plan.outcome_run_bind answer (substituteAll text) _).trans ?_
  rw [filled]
  change Plan.outcome answer (ExceptT.run (match ofText? _ with
    | some file => pure file
    | none => throw (SettingsError.malformed path))) = _
  cases ofText? (String.ofList (fill (valueOf value) text.toList)) <;> rfl

theorem exists_part (cut : Cut text.toList parts tail) {name : List Char}
    (mem : .reference name ∈ pieces text.toList) : ∃ part ∈ parts, part.name = name := by
  rw [cut.pieces, List.mem_append] at mem
  rcases mem with mem | mem
  · obtain ⟨part, part_mem, mem⟩ := List.mem_flatMap.mp mem
    refine ⟨part, part_mem, ?_⟩
    simpa [eq_comm] using mem
  · simp at mem

/-- A value arrives as what it spells between quotes. -/
theorem ofText?_fill (tidy : Tidy text.toList) (cut : Cut text.toList parts tail)
    (spells : ∀ part ∈ parts, Spells (valueOf value part.name) (valueOf meaning part.name)) :
    ofText? (String.ofList (fill (valueOf value) text.toList)) = parsedFirst meaning text := by
  have rewrites : Json.Loose.Rewrites (fill (valueOf meaning)) text.toList
      (fill (valueOf value) text.toList) := by
    refine tidy.rewrites fun name mem => ?_
    obtain ⟨part, part_mem, rfl⟩ := exists_part cut mem
    exact spells part part_mem
  rw [ofText?_eq, String.toList_ofList, rewrites.ofChars? fill_nil rfl, Option.bind_map]
  rfl

/-- Where no name of a member changes, what is parsed first is what the text itself says, with the
references in its strings replaced. -/
theorem parsedFirst_eq (names : ∀ written, Json.Loose.ofChars? valueless text.toList = some written →
      ∀ name ∈ written.names, replaced value name = name) :
    parsedFirst value text = (ofText? text).map (SettingsFile.mapTexts (replaced value)) := by
  rw [parsedFirst, ofText?_eq]
  cases parsed : Json.Loose.ofChars? valueless text.toList with
  | none => rfl
  | some written =>
    simp only [Option.bind_some]
    rw [Json.mapTexts_congr written (names written parsed), SettingsFile.ofWritten?_mapTexts]

/-- In a file whose references all stand in strings, as they are, values that need no escapes arrive
as they are: the file is parsed, and the references in its strings are replaced. Where none of them
names a member, the values change nothing else, and whether the file has settings does not depend on
them. -/
theorem bare_values_arrive_as_they_are (read : answer (.readText path) = .ok text)
    (tidy : Tidy text.toList) (cut : Cut text.toList parts tail)
    (set : ∀ part ∈ parts,
      answer (.envValue (String.ofList part.name)) = some (value (String.ofList part.name)))
    (bare : ∀ part ∈ parts, ∀ c ∈ (value (String.ofList part.name)).toList, IsBare c) :
    (loadFile path).run.outcome answer = loaded path (parsedFirst value text) ∧
      ((∀ written, Json.Loose.ofChars? valueless text.toList = some written →
          ∀ name ∈ written.names, replaced value name = name) →
        parsedFirst value text = (ofText? text).map (SettingsFile.mapTexts (replaced value))) := by
  refine ⟨?_, parsedFirst_eq⟩
  have spells : ∀ part ∈ parts, Spells (valueOf value part.name) (valueOf value part.name) :=
    fun part mem => spells_of_bare (bare part mem)
  rw [outcome_loadFile read cut set, ofText?_fill tidy cut spells]

/-- A machine with one file and one value for all variables. -/
def oneFile (text value : String) : (q : Lookup) → q.Reply
  | .realPath path => .ok path
  | .present _ => true
  | .readText _ => .ok text
  | .envValue _ => some value

/-- A file that takes its level from a variable. -/
def levelFile : List Char :=
  ['\x7b', '"', 'l', 'o', 'g', 'L', 'e', 'v', 'e', 'l', '"', ':', '"', '\x7b', 'e', 'n', 'v', ':', 'A',
    '\x7d', '"', '\x7d']

theorem cut_levelFile : Cut levelFile [⟨levelFile.take 13, ['A']⟩] ['"', '\x7d'] := by
  have first : IsFirst levelFile (levelFile.take 13) ['A'] ['"', '\x7d'] :=
    isFirst_of_findReference? (by decide)
  exact .part first (cut_of_findReference? (by decide))

theorem tidy_levelFile : Tidy levelFile where
  inside := by
    intro before name behind isName split
    have here : reference? (levelFile.drop before.length) = some (name, behind) := by
      rw [split, List.append_assoc, List.drop_left]
      exact reference?_reference isName behind
    have place : before.length = 13 := by
      have within : before.length < 23 := by
        have long := congrArg List.length split
        rw [List.length_append, List.length_append] at long
        have all : levelFile.length = 22 := rfl
        omega
      have places : ∀ i < 23, i ≠ 13 → reference? (levelFile.drop i) = none := by decide
      by_contra other
      rw [places before.length within other] at here
      cases here
    have before_eq : before = levelFile.take 13 := by
      rw [split, ← place, List.append_assoc, List.take_left]
    rw [place] at here
    cases here
    have key : Spells ['l', 'o', 'g', 'L', 'e', 'v', 'e', 'l'] _ :=
      spells_of_bare (List.all_iff_forall_prop.mp rfl)
    have closed : Closed ('\x7b' :: '"' :: (['l', 'o', 'g', 'L', 'e', 'v', 'e', 'l'] ++ '"' :: [':'])) :=
      .other (by decide) (.literal key.isLiteral (.other (by decide) .nil))
    have spells : Spells ([] ++ reference ['A'] ++ []) (reference ['A']) :=
      spells_of_bare (List.all_iff_forall_prop.mp rfl)
    exact ⟨_, [], [], ['\x7d'], _, closed, spells, before_eq, rfl⟩
  unescaped := by
    intro front body back _ split
    have apart : '\\' ∉ levelFile := by decide
    refine unescaped_of_no_backslash fun mem => apart ?_
    rw [split]
    simp [mem]

theorem outcome_levelFile (path : Path) (value : String) :
    (loadFile path).run.outcome (oneFile (String.ofList levelFile) value) =
      loaded path (ofText? (String.ofList (levelFile.take 13 ++ value.toList ++ ['"', '\x7d']))) := by
  have cut : Cut (String.ofList levelFile).toList [⟨levelFile.take 13, ['A']⟩] ['"', '\x7d'] := by
    rw [String.toList_ofList]
    exact cut_levelFile
  have set : ∀ part ∈ [Part.mk (levelFile.take 13) ['A']],
      oneFile (String.ofList levelFile) value (.envValue (String.ofList part.name)) = some value :=
    fun _ _ => rfl
  have outcome : (loadFile path).run.outcome (oneFile (String.ofList levelFile) value) =
      loaded path (ofText? (String.ofList (fill (valueOf fun _ => value) _))) :=
    outcome_loadFile rfl cut set
  rw [outcome, cut.fill]
  simp [valueOf]

theorem parsedFirst_level (value : String) {chars : List Char}
    (written : Json.Loose.ofChars? valueless chars =
      some (.object [("logLevel", .string (String.ofList (reference ['A'])))])) :
    parsedFirst (fun _ => value) (String.ofList chars) =
      some { SettingsFile.empty with logLevel := some value } := by
  have name : replaced (fun _ => value) "logLevel" = "logLevel" := by
    have stays : fill (valueOf fun _ => value) ("logLevel".toList ++ []) = "logLevel".toList ++ [] := by
      rw [fill_skip (by decide), fill_nil]
    rw [List.append_nil] at stays
    rw [replaced, onString, stays, String.ofList_toList]
  have level : replaced (fun _ => value) (String.ofList (reference ['A'])) = value := by
    have isName : IsName ['A'] := ⟨by decide, by decide⟩
    have filled : fill (valueOf fun _ => value) (reference ['A'] ++ []) = value.toList ++ _ :=
      fill_reference isName []
    rw [List.append_nil, fill_nil, List.append_nil] at filled
    rw [replaced, onString, String.toList_ofList, filled, String.ofList_toList]
  rw [parsedFirst, String.toList_ofList, written]
  simp only [Option.bind_some, Json.mapTexts, Json.mapMembers, name, level]
  rfl

theorem parsedFirst_levelFile (value : String) : parsedFirst (fun _ => value)
    (String.ofList levelFile) = some { SettingsFile.empty with logLevel := some value } :=
  parsedFirst_level value rfl

theorem level_without_escapes_arrives : ∃ answer : (q : Lookup) → q.Reply,
    answer (.envValue "A") = some "debug" ∧
      (loadFile (.ofString "lspbridge.json")).run.outcome answer =
        .ok { SettingsFile.empty with logLevel := some "debug" } := by
  let text := String.ofList levelFile
  let part : Part := ⟨levelFile.take 13, ['A']⟩
  have tidy : Tidy text.toList := by
    rw [String.toList_ofList]
    exact tidy_levelFile
  have cut : Cut text.toList [part] ['"', '\x7d'] := by
    rw [String.toList_ofList]
    exact cut_levelFile
  have bare : ∀ p ∈ [part], ∀ c ∈ "debug".toList, IsBare c :=
    fun _ _ => List.all_iff_forall_prop.mp (by decide)
  have arrives := @bare_values_arrive_as_they_are (oneFile text "debug") (.ofString "lspbridge.json")
    text (fun _ => "debug") [part] ['"', '\x7d'] rfl tidy cut (fun _ _ => rfl) bare
  refine ⟨oneFile text "debug", rfl, arrives.1.trans ?_⟩
  rw [parsedFirst_levelFile]
  rfl

/-- A level that is taken from a variable, with an escape in the reference. -/
def escapedFile : List Char :=
  ['\x7b', '"', 'l', 'o', 'g', 'L', 'e', 'v', 'e', 'l', '"', ':', '"', '\\', 'u', '0', '0', '7', 'b', 'e',
    'n', 'v', ':', 'A', '\x7d', '"', '\x7d']

/-- A value with a quote in it ends the string that it should stand in: then the file is malformed,
or the value says more than the level. A reference with an escape in it is left as it is. -/
theorem quote_ends_the_string :
    let path := Path.ofString "lspbridge.json"
    let text := String.ofList levelFile
    let escaped := String.ofList escapedFile
    let broken := "a\"b"
    let more := "x\",\"contextLines\":9,\"y\":\""
    ((loadFile path).run.outcome (oneFile text broken) = .error (.malformed path) ∧
        parsedFirst (fun _ => broken) text =
          some { SettingsFile.empty with logLevel := some broken }) ∧
      ((loadFile path).run.outcome (oneFile text more) =
          .ok { SettingsFile.empty with logLevel := some "x", contextLines := some 9 } ∧
        parsedFirst (fun _ => more) text = some { SettingsFile.empty with logLevel := some more }) ∧
      (loadFile path).run.outcome (oneFile escaped "debug") =
          .ok { SettingsFile.empty with logLevel := some (String.ofList (reference ['A'])) } ∧
        parsedFirst (fun _ => "debug") escaped =
          some { SettingsFile.empty with logLevel := some "debug" } := by
  intro path text escaped broken more
  refine ⟨⟨?_, parsedFirst_levelFile broken⟩, ⟨?_, parsedFirst_levelFile more⟩, ?_,
    parsedFirst_level "debug" rfl⟩
  · have chars : broken.toList = ['a', '"', 'b'] := by decide
    rw [outcome_levelFile, chars, ofText?_eq, String.toList_ofList]
    rfl
  · have chars : more.toList = ['x', '"', ',', '"', 'c', 'o', 'n', 't', 'e', 'x', 't', 'L', 'i', 'n', 'e',
        's', '"', ':', '9', ',', '"', 'y', '"', ':', '"'] := by decide
    rw [outcome_levelFile, chars, ofText?_eq, String.toList_ofList]
    rfl
  · have cut : Cut escaped.toList [] escapedFile := by
      rw [String.toList_ofList]
      exact cut_of_findReference? (by decide)
    have outcome : (loadFile path).run.outcome (oneFile escaped "debug") =
        loaded path (ofText? (String.ofList (fill (valueOf fun _ => "debug") _))) :=
      outcome_loadFile rfl cut nofun
    rw [outcome, cut.fill, ofText?_eq, String.toList_ofList]
    rfl

end CodeIntel.Settings

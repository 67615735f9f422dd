import CodeIntel.Proofs.Json.Texts
import CodeIntel.Proofs.Shape.Reading
import CodeIntel.Settings.Basic

namespace CodeIntel

variable {α β γ : Type} {f : String → String}

theorem toOption_map {ε : Type} (g : α → β) (result : Except ε α) :
    (g <$> result).toOption = result.toOption.map g := by
  cases result <;> rfl

theorem toOption_bind {ε : Type} (result : Except ε α) (g : α → Except ε β) :
    (result >>= g).toOption = result.toOption.bind fun a => (g a).toOption := by
  cases result <;> rfl

theorem toOption_mapM {ε : Type} {decode : α → Except ε β} {h : α → α} {g : β → β}
    (same : ∀ a, (decode (h a)).toOption = (decode a).toOption.map g) (items : List α) :
    ((items.map h).mapM decode).toOption = (items.mapM decode).toOption.map (List.map g) := by
  induction items with
  | nil => rfl
  | cons item rest ih =>
    rw [List.map_cons, List.mapM_cons, List.mapM_cons, toOption_bind, toOption_bind, same]
    cases (decode item).toOption with
    | none => rfl
    | some b =>
      simp only [Option.map_some, Option.bind_some]
      rw [toOption_bind, toOption_bind, ih]
      cases (rest.mapM decode).toOption <;> rfl

namespace Json

theorem sortMembers_map (g : Json → Json) (members : List (String × Json)) :
    sortMembers (members.map (Prod.map id g)) = (sortMembers members).map (Prod.map id g) :=
  foldl_insertEntry_map g members []

mutual

theorem normalize_mapTexts : (value : Json) →
    normalize (mapTexts id f value) = mapTexts id f (normalize value)
  | .null | .bool _ | .number _ | .string _ => rfl
  | .array items => congrArg Json.array (normalizeItems_mapTexts items)
  | .object members => by
    have same : normalizeMembers (mapMembers id f members) = _ := normalizeMembers_mapTexts members
    rw [mapMembers_eq, mapMembers_eq] at same
    rw [mapTexts_object, normalize, normalize, mapTexts_object, same, sortMembers_map]

theorem normalizeItems_mapTexts : (items : List Json) →
    normalizeItems (mapItems id f items) = mapItems id f (normalizeItems items)
  | [] => rfl
  | item :: rest => by
    rw [mapItems, normalizeItems, normalizeItems, mapItems, normalize_mapTexts item,
      normalizeItems_mapTexts rest]

theorem normalizeMembers_mapTexts : (members : List (String × Json)) →
    normalizeMembers (mapMembers id f members) = mapMembers id f (normalizeMembers members)
  | [] => rfl
  | (name, value) :: rest => by
    rw [mapMembers, normalizeMembers, normalizeMembers, mapMembers, normalize_mapTexts value,
      normalizeMembers_mapTexts rest]

end

end Json

namespace Decoder

/-- Whether a decoder reads of other strings what `g` makes of what it reads. -/
def Follows (f : String → String) (g : α → α) (decode : Decoder α) : Prop :=
  ∀ value : Json, (decode (value.mapTexts id f)).toOption = (decode value).toOption.map g

variable {g : α → α} {decode : Decoder α}

theorem follows_string : Follows f f string := by
  intro value
  cases value <;> rfl

theorem follows_integer (low high : Int) (expected : String) :
    Follows f id (integer low high expected) := by
  intro value
  cases value <;> simp [Json.mapTexts, integer, wrongType, Except.toOption]

theorem follows_u64 : Follows f id u64 := by
  intro value
  have number := follows_integer (f := f) 0 0xFFFFFFFFFFFFFFFF "u64" value
  rw [Option.map_id] at number ⊢
  unfold u64
  rw [toOption_bind, toOption_bind, number]
  rfl

theorem follows_u32 : Follows f id u32 := by
  intro value
  have number := follows_integer (f := f) 0 0xFFFFFFFF "u32" value
  rw [Option.map_id] at number ⊢
  unfold u32
  rw [toOption_bind, toOption_bind, number]
  rfl

theorem Follows.nullable (h : Follows f g decode) : Follows f (Option.map g) (nullable decode) := by
  have some_map (value : Json) : (some <$> decode (value.mapTexts id f)).toOption =
      (some <$> decode value).toOption.map (Option.map g) := by
    rw [toOption_map, toOption_map, h value, Option.map_map, Option.map_map]
    rfl
  intro value
  cases value with
  | null => rfl
  | bool b => exact some_map (.bool b)
  | number n => exact some_map (.number n)
  | string s => exact some_map (.string s)
  | array items => exact some_map (.array items)
  | object members => exact some_map (.object members)

theorem Follows.list (h : Follows f g decode) : Follows f (List.map g) (list decode) := by
  intro value
  cases value with
  | array items =>
    rw [Json.mapTexts_array]
    exact toOption_mapM h items
  | _ => rfl

theorem Follows.table (h : Follows f g decode) :
    Follows f (List.map (Prod.map id g)) (table decode) := by
  intro value
  cases value with
  | object members =>
    rw [Json.mapTexts_object]
    refine toOption_mapM (fun member => ?_) members
    change ((member.1, ·) <$> decode (member.2.mapTexts id f)).toOption =
      ((member.1, ·) <$> decode member.2).toOption.map (Prod.map id g)
    rw [toOption_map, toOption_map, h member.2, Option.map_map, Option.map_map]
    rfl
  | _ => rfl

theorem Follows.map {h : α → β} {g' : β → β} (follows : Follows f g decode)
    (same : ∀ a, h (g a) = g' (h a)) : Follows f g' (map h decode) := by
  intro value
  unfold Decoder.map
  rw [toOption_map, toOption_map, follows value, Option.map_map, Option.map_map]
  exact congrArg (Option.map · _) (funext same)

theorem follows_stringTable : Follows f (Table.mapValues f) ServerConfig.stringTable :=
  Follows.map (Follows.table follows_string) (Table.ofList_map f)

end Decoder

def FieldSource.mapTexts (f : String → String) : FieldSource → FieldSource
  | .members entries => .members (entries.map (Prod.map id (Json.mapTexts id f)))
  | .elements items => .elements (items.map (Json.mapTexts id f))

namespace Fields

/-- Whether fields read of other strings something related to what they read, and meet a problem
there just where they do. -/
structure Follows (f : String → String) (related : α → α → Prop) (fields : Fields α) : Prop where
  problems (source : FieldSource) (index : Nat) :
    (fields.read (source.mapTexts f) index).1 = [] ↔ (fields.read source index).1 = []
  value (source : FieldSource) (index : Nat) :
    Option.Rel related (fields.read source index).2 (fields.read (source.mapTexts f) index).2

variable {g : α → α} {decoder : Decoder α} {name : String} {fields : Fields α}
  {related : α → α → Prop} {related' : β → β → Prop}

theorem valueAt?_mapTexts (source : FieldSource) (name : String) (index : Nat) :
    valueAt? (source.mapTexts f) name index =
      (valueAt? source name index).map (Json.mapTexts id f) := by
  cases source with
  | members members => exact findEntry_map (Json.mapTexts id f) name members
  | elements items => exact List.getElem?_map

theorem follows_defaulted (follows : decoder.Follows f g) {value : α} (same : g value = value) :
    Follows f (fun a b => b = g a) (defaulted name decoder value) := by
  have both (source : FieldSource) (index : Nat) :
      (((defaulted name decoder value).read (source.mapTexts f) index).1 = [] ↔
        ((defaulted name decoder value).read source index).1 = []) ∧
      Option.Rel (fun a b => b = g a) ((defaulted name decoder value).read source index).2
        ((defaulted name decoder value).read (source.mapTexts f) index).2 := by
    rw [read_defaulted, read_defaulted, valueAt?_mapTexts]
    cases valueAt? source name index with
    | none => exact ⟨Iff.rfl, .some same.symm⟩
    | some found =>
      have reads := follows found
      simp only [Option.map_some]
      cases here : decoder found <;> cases there : decoder (found.mapTexts id f) <;>
        simp_all [Except.toOption]
  exact ⟨fun source index => (both source index).1, fun source index => (both source index).2⟩

theorem rel_map {h : α → β} {a b : Option α} (same : ∀ a b, related a b → related' (h a) (h b))
    (rel : Option.Rel related a b) : Option.Rel related' (a.map h) (b.map h) := by
  cases rel with
  | none => exact .none
  | some rel => exact .some (same _ _ rel)

theorem rel_bind {h h' : Option (α → β)} {a b : Option α}
    (rel : Option.Rel (fun h h' => ∀ a b, related a b → related' (h a) (h' b)) h h')
    (rel' : Option.Rel related a b) :
    Option.Rel related' (h.bind fun h => a.map h) (h'.bind fun h => b.map h) := by
  cases rel with
  | none => exact .none
  | some rel =>
    cases rel' with
    | none => exact .none
    | some rel' => exact .some (rel _ _ rel')

theorem Follows.seq {x : Fields α} {h : Fields (α → β)}
    (follows : Follows f (fun h h' => ∀ a b, related a b → related' (h a) (h' b)) h)
    (follows' : Follows f related x) : Follows f related' (h <*> x) where
  problems source index := by
    have problems (source : FieldSource) : ((h <*> x).read source index).1 =
        (h.read source index).1 ++ (x.read source (index + h.count)).1 := rfl
    rw [problems, problems, List.append_eq_nil_iff, List.append_eq_nil_iff,
      follows.problems, follows'.problems]
  value source index := by
    rw [read_seq, read_seq]
    exact rel_bind (follows.value source index) (follows'.value source (index + h.count))

theorem Follows.map {x : Fields α} {h : α → β} (follows : Follows f related x)
    (same : ∀ a b, related a b → related' (h a) (h b)) : Follows f related' (h <$> x) where
  problems source index := follows.problems source index
  value source index := by
    rw [read_map, read_map]
    exact rel_map same (follows.value source index)

theorem follows_decode (follows : Follows f (fun a b => b = g a) fields) :
    Decoder.Follows f g (fields.decode name) := by
  have mapped {a b : Option α} (h : Option.Rel (fun a b => b = g a) a b) : b = a.map g := by
    cases h with
    | none => rfl
    | some same => rw [same]; rfl
  intro value
  cases value with
  | object members =>
    rw [Json.mapTexts_object, toOption_decode, toOption_decode]
    exact mapped (follows.value (.members members) 0)
  | array items =>
    rw [Json.mapTexts_array]
    have problems := follows.problems (.elements items) 0
    have same := mapped (follows.value (.elements items) 0)
    unfold FieldSource.mapTexts at problems same
    simp only [decode, toOption_ofElements, problems, same, List.length_map]
    split <;> rfl
  | _ => rfl

end Fields

namespace SettingsFile

/-- What a file says, with other strings. -/
def mapTexts (f : String → String) (file : SettingsFile) : SettingsFile :=
  { file with
    command := file.command.map f
    args := file.args.map (List.map f)
    env := file.env.mapValues f
    languageIds := file.languageIds.mapValues f
    logLevel := file.logLevel.map f }

def ServerPart.mapTexts (f : String → String) (part : ServerPart) : ServerPart where
  command := part.command.map f
  args := part.args.map (List.map f)
  env := part.env.mapValues f
  languageIds := part.languageIds.mapValues f

open Decoder (follows_string follows_stringTable follows_u64 follows_u32)

theorem ServerPart.follows_decode : Decoder.Follows f (mapTexts f) decode := by
  have command : Fields.Follows f (fun a b => b = Option.map f a) (.omittable "command" .string) :=
    Fields.follows_defaulted follows_string.nullable rfl
  have args : Fields.Follows f (fun a b => b = Option.map (List.map f) a)
      (.omittable "args" (.list .string)) :=
    Fields.follows_defaulted follows_string.list.nullable rfl
  have env : Fields.Follows f (fun a b => b = Table.mapValues f a)
      (.defaulted "env" ServerConfig.stringTable .empty) :=
    Fields.follows_defaulted follows_stringTable rfl
  have languageIds : Fields.Follows f (fun a b => b = Table.mapValues f a)
      (.defaulted "languageIds" ServerConfig.stringTable .empty) :=
    Fields.follows_defaulted follows_stringTable rfl
  refine Fields.follows_decode ((((command.map ?_).seq args).seq env).seq languageIds)
  rintro command _ rfl args _ rfl env _ rfl languageIds _ rfl
  rfl

theorem follows_decode : Decoder.Follows f (mapTexts f) decode := by
  have server : Fields.Follows f (fun a b => b = ServerPart.mapTexts f a)
      (.defaulted serverName ServerPart.decode .empty) :=
    Fields.follows_defaulted ServerPart.follows_decode rfl
  have timeout : Fields.Follows f (fun a b => b = Option.map id a)
      (.omittable "requestTimeoutSecs" .u64) :=
    Fields.follows_defaulted follows_u64.nullable rfl
  have wait : Fields.Follows f (fun a b => b = Option.map id a)
      (.omittable "diagnosticsWaitMs" .u64) :=
    Fields.follows_defaulted follows_u64.nullable rfl
  have lines : Fields.Follows f (fun a b => b = Option.map id a)
      (.omittable "contextLines" .u32) :=
    Fields.follows_defaulted follows_u32.nullable rfl
  have level : Fields.Follows f (fun a b => b = Option.map f a) (.omittable "logLevel" .string) :=
    Fields.follows_defaulted follows_string.nullable rfl
  refine Fields.follows_decode (((((server.map ?_).seq timeout).seq wait).seq lines).seq level)
  rintro server _ rfl timeout _ rfl wait _ rfl lines _ rfl level _ rfl
  simp only [Option.map_id]
  rfl

/-- The settings that a parsed text holds. -/
def ofWritten? (written : Json) : Option SettingsFile :=
  if eachOnce memberNames written && eachOnce ServerPart.memberNames (writtenServer written) then
    (decode written.normalize).toOption
  else none

theorem ofText?_eq (text : String) :
    ofText? text = (Json.Loose.ofChars? valueless text.toList).bind ofWritten? := rfl

theorem eachOnce_mapTexts (names : List String) (written : Json) :
    eachOnce names (written.mapTexts id f) = eachOnce names written := by
  cases written with
  | object members =>
    have count (name : String) :
        ((members.map (Prod.map id (Json.mapTexts id f))).filter fun m => m.1 == name).length =
          (members.filter fun m => m.1 == name).length := by
      rw [List.filter_map, List.length_map]
      rfl
    rw [Json.mapTexts_object]
    simp only [eachOnce, count]
  | _ => rfl

theorem writtenServer_mapTexts (written : Json) :
    writtenServer (written.mapTexts id f) = (writtenServer written).mapTexts id f := by
  cases written with
  | object members =>
    have server := findEntry_map (Json.mapTexts id f) serverName members
    rw [Json.mapTexts_object]
    simp only [writtenServer, server]
    cases findEntry serverName members <;> rfl
  | array items => cases items <;> rfl
  | _ => rfl

/-- Where only strings that are values differ, so do the settings. -/
theorem ofWritten?_mapTexts (written : Json) :
    ofWritten? (written.mapTexts id f) = (ofWritten? written).map (mapTexts f) := by
  unfold ofWritten?
  rw [eachOnce_mapTexts, writtenServer_mapTexts, eachOnce_mapTexts, Json.normalize_mapTexts,
    follows_decode]
  split <;> rfl

end SettingsFile

end CodeIntel

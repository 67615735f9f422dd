import CodeIntel.Client.Features
import CodeIntel.Proofs.Shape.Reading
import CodeIntel.Server.Query

namespace CodeIntel

/-- Whether a feature is on by what is told of it: there is something, and it is not off. -/
def IsOn (told : Option Json) : Prop := ∃ value, told = some value ∧ value ≠ .null ∧ value ≠ .bool false

section Features

open Fields ServerOptions

variable {α : Type} {value : Json} {source : FieldSource} {index : Nat} {name : String}
  {told : Option Json}

theorem not_isOn_of_null (null : ∀ value ∈ told, value = .null) : ¬ IsOn told :=
  fun ⟨value, here, given, _⟩ => given (null value here)

theorem switch_eq_true_iff {union : String} {options : Decoder Unit} {on : Bool}
    (read : switch union options value = .ok on) : on = true ↔ value ≠ .bool false := by
  rw [switch, Decoder.firstOf_cons] at read
  cases value with
  | bool b =>
    cases read
    simp
  | _ =>
    refine iff_of_true ?_ nofun
    -- It is no truth value, so it has to be the options of a feature that is on.
    change Decoder.firstOf union [.map (fun _ => true) options] _ = .ok on at read
    rw [Decoder.firstOf_cons, Decoder.map] at read
    cases checked : options _ with
    | ok _ =>
      rw [checked] at read
      cases read
      rfl
    | error e =>
      rw [checked] at read
      cases read

theorem sees_switched (name : String) (options : Decoder Unit) :
    (Features.switched name options).Sees source index fun on =>
      (on = true ↔ IsOn (valueAt? source name index)) := by
  refine (sees_optional name _).map fun on? taken => ?_
  cases on? with
  | none => exact iff_of_false nofun (not_isOn_of_null taken)
  | some on =>
    obtain ⟨value, given, some, read⟩ := taken
    rw [Option.getD_some, switch_eq_true_iff read, given]
    constructor
    · exact fun on => ⟨value, rfl, some, on⟩
    · rintro ⟨_, ⟨⟩, _, on⟩
      exact on

/-- A feature that cannot be told off is on if it is there. -/
theorem sees_offered (name : String) {decoder : Decoder α}
    (refuses : ∀ a, decoder (.bool false) ≠ .ok a) :
    (optional name decoder).Sees source index fun a? =>
      (a?.isSome = true ↔ IsOn (valueAt? source name index)) := by
  intro a? read
  have taken := sees_optional name decoder a? read
  cases a? with
  | none => exact iff_of_false nofun (not_isOn_of_null taken)
  | some a =>
    obtain ⟨value, given, some, read⟩ := taken
    refine iff_of_true rfl ⟨value, given, some, ?_⟩
    rintro rfl
    exact refuses a read

end Features

/-- What a server has to tell for a query to be made: the method that is asked for, and the name of
its feature and its place among all features. -/
structure Need where
  method : String
  feature : String
  place : Nat

def Query.need? : Query → Option Need
  | .workspaceSymbols _ => some ⟨"workspace/symbol", "workspaceSymbolProvider", 13⟩
  | .definition .. => some ⟨"textDocument/definition", "definitionProvider", 7⟩
  | .references .. => some ⟨"textDocument/references", "referencesProvider", 10⟩
  | .documentSymbols _ => some ⟨"textDocument/documentSymbol", "documentSymbolProvider", 12⟩
  | .codeLenses _ => some ⟨"textDocument/codeLens", "codeLensProvider", 15⟩
  | .execute _ => some ⟨"workspace/executeCommand", "executeCommandProvider", 24⟩
  | .sync _ | .changed .. | .diagnostics _ => none

namespace Features

/-- Whether a query may be made of a server. -/
def offers (features : Features) : Query → Bool
  | .workspaceSymbols _ => features.workspaceSymbols
  | .definition .. => features.definition
  | .references .. => features.references
  | .documentSymbols _ => features.documentSymbols
  | .codeLenses _ => features.lenses.isSome
  | .execute _ => features.execution
  | .sync _ | .changed .. | .diagnostics _ => true

open Fields

variable {value : Json}

/-- What is held of a server's features is what the server told of them. -/
theorem isOn_of_decode : ∀ features, decode value = .ok features →
    (features.workspaceSymbols = true ↔ IsOn (value.fieldAt? "workspaceSymbolProvider" 13)) ∧
    (features.definition = true ↔ IsOn (value.fieldAt? "definitionProvider" 7)) ∧
    (features.references = true ↔ IsOn (value.fieldAt? "referencesProvider" 10)) ∧
    (features.documentSymbols = true ↔ IsOn (value.fieldAt? "documentSymbolProvider" 12)) ∧
    (features.lenses.isSome = true ↔ IsOn (value.fieldAt? "codeLensProvider" 15)) ∧
    (features.execution = true ↔ IsOn (value.fieldAt? "executeCommandProvider" 24)) := by
  refine holds_of_decode fun source given => ?_
  simp only [← given]
  have present : (present "executeCommandProvider" ServerOptions.execution).Sees source 24 fun on =>
      (on = true ↔ IsOn (valueAt? source "executeCommandProvider" 24)) :=
    (sees_offered _ nofun).map fun _ on => on
  -- One after the other, in the order of the fields; those of no interest are passed over.
  refine ((((((((sees_true _ _ _).map ?_).skip.skip.skip.skip.skip.skip.seq
    (sees_switched "definitionProvider" _)).skip.skip.seq
    (sees_switched "referencesProvider" _)).skip.seq
    (sees_switched "documentSymbolProvider" _)).seq
    (sees_switched "workspaceSymbolProvider" _)).skip.seq
    (sees_offered "codeLensProvider" nofun)).skip.skip.skip.skip.skip.skip.skip.skip.seq
    present).skip.skip.skip.skip.skip.skip.skip.skip.skip
  exact fun _ _ _ _ _ _ _ _ definition definitionOn _ _ references referencesOn _ documentSymbols
    documentSymbolsOn workspaceSymbols workspaceSymbolsOn _ lenses lensesOn _ _ _ _ _ _ _ _
    execution executionOn _ _ _ _ _ _ _ _ _ =>
      ⟨workspaceSymbolsOn, definitionOn, referencesOn, documentSymbolsOn, lensesOn, executionOn⟩

end Features

theorem offers_iff {q : Query} {need : Need} {told : Json} {features : Features}
    (read : Features.decode told = .ok features) (needs : q.need? = some need) :
    features.offers q = true ↔ IsOn (told.fieldAt? need.feature need.place) := by
  obtain ⟨symbols, definition, references, document, lenses, execution⟩ :=
    Features.isOn_of_decode features read
  cases q with
  | workspaceSymbols => cases needs; exact symbols
  | definition => cases needs; exact definition
  | references => cases needs; exact references
  | documentSymbols => cases needs; exact document
  | codeLenses => cases needs; exact lenses
  | execute => cases needs; exact execution
  | sync | changed | diagnostics => cases needs

end CodeIntel

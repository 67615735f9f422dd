import CodeIntel.Position
import CodeIntel.Symbol.Basic
import CodeIntel.Uri.FilePath

namespace CodeIntel

/-- Reads a text that is a URI. -/
def Uri.decode : Decoder Uri := fun value => do
  let text ← Decoder.string value
  (Uri.parse text).mapError fun e => .refused e.message

/-- A range of a document that a URI names. -/
structure UriLocation where
  uri : Uri
  range : Range
deriving DecidableEq, Repr

namespace UriLocation

def decode : Decoder UriLocation :=
  Fields.decode "Location" <|
    UriLocation.mk <$> .required "uri" Uri.decode <*> .required "range" Range.decode

end UriLocation

/-- A link from an occurrence to a target: the whole target and the name inside it. -/
structure LocationLink where
  originRange : Option Range
  target : Uri
  targetRange : Range
  selectionRange : Range
deriving DecidableEq, Repr

namespace LocationLink

def decode : Decoder LocationLink :=
  Fields.decode "LocationLink" <|
    LocationLink.mk <$> .optional "originSelectionRange" Range.decode
      <*> .required "targetUri" Uri.decode
      <*> .required "targetRange" Range.decode
      <*> .required "targetSelectionRange" Range.decode

end LocationLink

/-- A number or a text that names a kind of diagnostic. -/
inductive DiagnosticCode
  | number (n : Int)
  | text (s : String)
deriving DecidableEq, Repr

namespace DiagnosticCode

def decode : Decoder DiagnosticCode :=
  .firstOf "NumberOrString" [.map number .i32, .map text .string]

def display : DiagnosticCode → String
  | number n => n.repr
  | text s => s

def toJson : DiagnosticCode → Json
  | number n => .int n
  | text s => .string s

end DiagnosticCode

/-- What a server has to say about a range of a document. -/
structure Diagnostic where
  range : Range
  severity : Option Int
  code : Option DiagnosticCode
  source : Option String
  message : String
deriving DecidableEq, Repr

namespace Diagnostic

def relatedInformation : Decoder Unit :=
  Fields.decode "DiagnosticRelatedInformation" <|
    (fun _ _ => ()) <$> .required "location" UriLocation.decode <*> .required "message" .string

def codeDescription : Decoder Unit :=
  Fields.decode "CodeDescription" ((fun _ => ()) <$> .required "href" Uri.decode)

def decode : Decoder Diagnostic :=
  Fields.decode "Diagnostic" <|
    (fun range severity code _ source message _ _ _ => ⟨range, severity, code, source, message⟩)
      <$> .required "range" Range.decode
      <*> .optional "severity" .i32
      <*> .optional "code" DiagnosticCode.decode
      <*> .optional "codeDescription" codeDescription
      <*> .optional "source" .string
      <*> .required "message" .string
      <*> .optional "relatedInformation" (.list relatedInformation)
      <*> .optional "tags" (.list .i32)
      <*> .optional "data" .json

/-- The place of a severity in reports: errors first, unknown severities last. -/
def rank (d : Diagnostic) : Nat :=
  match d.severity with
  | some 1 => 0
  | some 2 => 1
  | some 3 => 2
  | some 4 => 3
  | _ => 4

end Diagnostic

structure PublishedDiagnostics where
  uri : Uri
  diagnostics : List Diagnostic

namespace PublishedDiagnostics

def decode : Decoder PublishedDiagnostics :=
  Fields.decode "PublishDiagnosticsParams" <|
    (fun uri diagnostics _ => ⟨uri, diagnostics⟩) <$> .required "uri" Uri.decode
      <*> .required "diagnostics" (.list Diagnostic.decode)
      <*> .optional "version" .i32

end PublishedDiagnostics

end CodeIntel

import CodeIntel.Shape.Fields

namespace CodeIntel.ServerOptions

/-! The options of a server's features, as far as they are checked. -/

/-- The option that features share: whether progress is reported. -/
def progress : Decoder Unit :=
  Fields.decodeObject "WorkDoneProgressOptions" <|
    (fun _ => ()) <$> .optional "workDoneProgress" .bool

/-- Options of a feature that stand beside the shared one. -/
def options {α : Type} (name : String) (own : Fields α) : Decoder α := fun value => do
  let a ← own.decodeObject name value
  progress value
  pure a

/-- A feature without options of its own. -/
def plain (name : String) : Decoder Unit := options name (pure ())

/-- A feature that is told on or off, or is on with options. -/
def switch (union : String) (decode : Decoder Unit) : Decoder Bool :=
  .firstOf union [.bool, .map (fun _ => true) decode]

def texts : Decoder Unit := .check (.list .string)

def optionalTexts (name : String) : Fields (Option Unit) := .optional name texts

def flag (name : String) : Fields (Option Bool) := .optional name .bool

/-- The documents that a feature is meant for. -/
def selector : Decoder Unit :=
  .check <| .list <| Fields.decode "DocumentFilter" <|
    (fun _ _ _ => ()) <$> .optional "language" .string <*> .optional "scheme" .string
      <*> .optional "pattern" .string

/-- A registration of a feature for some documents. -/
def registration (name : String) : Decoder Unit :=
  Fields.decode name <|
    (fun _ _ => ()) <$> .optional "documentSelector" selector <*> .optional "id" .string

def empty (name : String) : Decoder Unit := Fields.decode name (pure ())

def save : Decoder Unit :=
  .firstOf "TextDocumentSyncSaveOptions"
    [.check .bool, Fields.decode "SaveOptions" ((fun _ => ()) <$> flag "includeText")]

def synchronization : Decoder Unit :=
  .firstOf "TextDocumentSyncCapability"
    [.check .i32,
      Fields.decode "TextDocumentSyncOptions" <|
        (fun _ _ _ _ _ => ()) <$> flag "openClose" <*> .optional "change" .i32
          <*> flag "willSave" <*> flag "willSaveWaitUntil" <*> .optional "save" save]

/-- A kind of notebook: by its type, its scheme or its pattern, of which one has to be told. -/
def notebookFilter : Decoder Unit :=
  let filter (main second third : String) : Decoder Unit :=
    Fields.decodeObject "NotebookDocumentFilter" <|
      (fun _ _ _ => ()) <$> .required main .string <*> .optional second .string
        <*> .optional third .string
  .firstOf "NotebookDocumentFilter"
    [filter "notebook_type" "scheme" "pattern", filter "scheme" "notebook_type" "pattern",
      filter "pattern" "notebook_type" "scheme"]

def notebook : Decoder Unit := .firstOf "Notebook" [.check .string, notebookFilter]

def notebookCells : Decoder Unit :=
  .check <| .list <| Fields.decode "NotebookCellSelector" <|
    (fun _ => ()) <$> .required "language" .string

/-- Some notebooks with some of their cells. One of the two may be left open. -/
def notebookSelector : Decoder Unit :=
  .firstOf "NotebookSelector"
    [Fields.decodeObject "ByNotebook" <|
      (fun _ _ => ()) <$> .required "notebook" notebook <*> .optional "cells" notebookCells,
    Fields.decodeObject "ByCells" <|
      (fun _ _ => ()) <$> .optional "notebook" notebook <*> .required "cells" notebookCells]

def notebooks : Decoder Unit :=
  let selectors : Fields (List Unit) := .required "notebookSelector" (.list notebookSelector)
  .firstOf "OneOf"
    [Fields.decode "NotebookDocumentSyncOptions" <| (fun _ _ => ()) <$> selectors <*> flag "save",
    Fields.decode "NotebookDocumentSyncRegistrationOptions" <|
      (fun _ _ _ => ()) <$> selectors <*> flag "save" <*> .optional "id" .string]

def completion : Decoder Unit :=
  options "CompletionOptions" <|
    (fun _ _ _ _ => ()) <$> flag "resolveProvider" <*> optionalTexts "triggerCharacters"
      <*> optionalTexts "allCommitCharacters"
      <*> .optional "completionItem"
        (Fields.decode "CompletionOptionsCompletionItem" (flag "labelDetailsSupport"))

def signatureHelp : Decoder Unit :=
  options "SignatureHelpOptions" <|
    (fun _ _ => ()) <$> optionalTexts "triggerCharacters" <*> optionalTexts "retriggerCharacters"

def codeActions : Decoder Unit :=
  options "CodeActionOptions" <|
    (fun _ _ => ()) <$> optionalTexts "codeActionKinds" <*> flag "resolveProvider"

def typing : Decoder Unit :=
  Fields.decode "DocumentOnTypeFormattingOptions" <|
    (fun _ _ => ()) <$> .required "firstTriggerCharacter" .string
      <*> optionalTexts "moreTriggerCharacter"

def colors (union provider : String) : Decoder Unit :=
  .firstOf union [.check .bool, empty provider, registration "StaticTextDocumentColorProviderOptions"]

def execution : Decoder Unit :=
  options "ExecuteCommandOptions" (.required "commands" texts)

/-- A pattern for paths: what it says, what it is for, and how it is read. -/
def filePattern : Decoder Unit :=
  Fields.decode "FileOperationPattern" <|
    (fun _ _ _ => ()) <$> .required "glob" .string
      <*> .optional "matches" (.choice [("file", ()), ("folder", ())])
      <*> .optional "options"
        (Fields.decode "FileOperationPatternOptions" ((fun _ => ()) <$> flag "ignoreCase"))

def fileFilter : Decoder Unit :=
  Fields.decode "FileOperationFilter" <|
    (fun _ _ => ()) <$> .optional "scheme" .string <*> .required "pattern" filePattern

def fileOperation (name : String) : Fields (Option Unit) :=
  .optional name <|
    Fields.decode "FileOperationRegistrationOptions" (.required "filters" (.check (.list fileFilter)))

def workspace : Decoder Unit :=
  Fields.decode "WorkspaceServerCapabilities" <|
    (fun _ _ => ())
      <$> .optional "workspaceFolders"
        (Fields.decode "WorkspaceFoldersServerCapabilities" <|
          (fun _ _ => ()) <$> flag "supported"
            <*> .optional "changeNotifications" (.firstOf "OneOf" [.check .bool, .check .string]))
      <*> .optional "fileOperations"
        (Fields.decode "WorkspaceFileOperationsServerCapabilities" <|
          (fun _ _ _ _ _ _ => ()) <$> fileOperation "didCreate" <*> fileOperation "willCreate"
            <*> fileOperation "didRename" <*> fileOperation "willRename"
            <*> fileOperation "didDelete" <*> fileOperation "willDelete")

def semanticTokens : Decoder Unit :=
  .firstOf "SemanticTokensServerCapabilities"
    [options "SemanticTokensOptions" <|
      (fun _ _ _ => ())
        <$> .required "legend"
          (Fields.decode "SemanticTokensLegend" <|
            (fun _ _ => ()) <$> .required "tokenTypes" texts <*> .required "tokenModifiers" texts)
        <*> flag "range"
        <*> .optional "full"
          (.firstOf "SemanticTokensFullOptions"
            [.check .bool, Fields.decodeObject "Delta" ((fun _ => ()) <$> flag "delta")])]

def diagnostics : Decoder Unit :=
  .firstOf "DiagnosticServerCapabilities"
    [options "DiagnosticOptions" <|
      (fun _ _ _ => ()) <$> .optional "identifier" .string
        <*> .required "interFileDependencies" .bool <*> .required "workspaceDiagnostics" .bool]

end CodeIntel.ServerOptions

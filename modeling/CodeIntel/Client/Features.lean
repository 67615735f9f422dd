import CodeIntel.Client.Options

namespace CodeIntel

/-- What a server can do, as far as it is asked for. -/
structure Features where
  workspaceSymbols : Bool
  definition : Bool
  references : Bool
  documentSymbols : Bool
  /-- Whether there are lenses, and if so, whether the server resolves them. -/
  lenses : Option Bool
  execution : Bool
  /-- Whether diagnostics can be asked for. -/
  diagnostics : Bool
deriving DecidableEq, Repr, Inhabited

namespace Features

open ServerOptions

/-- A feature that is on unless it is absent or told off. -/
def switched (name : String) (options : Decoder Unit) : Fields Bool :=
  (fun on => on.getD false) <$> .optional name (switch "OneOf" options)

/-- A feature that is on if it is there at all. -/
def present (name : String) (options : Decoder Unit) : Fields Bool :=
  Option.isSome <$> .optional name options

/-- A feature of no interest, which has to be well formed all the same. -/
def other (name : String) (options : Decoder Unit) : Fields (Option Unit) := .optional name options

def otherSwitch (name union : String) (options : Decoder Unit) : Fields (Option Unit) :=
  .optional name (.check (switch union options))

/-- Whether lenses can be resolved. -/
def lensOptions : Decoder Bool :=
  Fields.decode "CodeLensOptions" ((fun resolve => resolve.getD false) <$> flag "resolveProvider")

def decode : Decoder Features :=
  Fields.decode "ServerCapabilities" <|
    (fun _ _ _ _ _ _ _ definition _ _ references _ documentSymbols workspaceSymbols _ lenses
        _ _ _ _ _ _ _ _ execution _ _ _ _ _ _ _ diagnostics _ =>
      { workspaceSymbols, definition, references, documentSymbols, lenses, execution, diagnostics })
      <$> other "positionEncoding" (.check .string)
      <*> other "textDocumentSync" synchronization
      <*> other "notebookDocumentSync" notebooks
      <*> otherSwitch "selectionRangeProvider" "SelectionRangeProviderCapability"
        (plain "SelectionRangeOptions")
      <*> otherSwitch "hoverProvider" "HoverProviderCapability" (plain "HoverOptions")
      <*> other "completionProvider" completion
      <*> other "signatureHelpProvider" signatureHelp
      <*> switched "definitionProvider" (plain "DefinitionOptions")
      <*> otherSwitch "typeDefinitionProvider" "TypeDefinitionProviderCapability"
        (registration "StaticTextDocumentRegistrationOptions")
      <*> otherSwitch "implementationProvider" "ImplementationProviderCapability"
        (registration "StaticTextDocumentRegistrationOptions")
      <*> switched "referencesProvider" (plain "ReferencesOptions")
      <*> otherSwitch "documentHighlightProvider" "OneOf" (plain "DocumentHighlightOptions")
      <*> switched "documentSymbolProvider"
        (.check (options "DocumentSymbolOptions" (.optional "label" .string)))
      <*> switched "workspaceSymbolProvider"
        (.check (options "WorkspaceSymbolOptions" (flag "resolveProvider")))
      <*> otherSwitch "codeActionProvider" "CodeActionProviderCapability" codeActions
      <*> .optional "codeLensProvider" lensOptions
      <*> otherSwitch "documentFormattingProvider" "OneOf" (plain "DocumentFormattingOptions")
      <*> otherSwitch "documentRangeFormattingProvider" "OneOf"
        (plain "DocumentRangeFormattingOptions")
      <*> other "documentOnTypeFormattingProvider" typing
      <*> otherSwitch "renameProvider" "OneOf"
        (.check (options "RenameOptions" (flag "prepareProvider")))
      <*> other "documentLinkProvider"
        (.check (options "DocumentLinkOptions" (flag "resolveProvider")))
      <*> other "colorProvider" (colors "ColorProviderCapability" "ColorProviderOptions")
      <*> other "foldingRangeProvider"
        (colors "FoldingRangeProviderCapability" "FoldingProviderOptions")
      <*> otherSwitch "declarationProvider" "DeclarationCapability" (plain "DeclarationOptions")
      <*> present "executeCommandProvider" ServerOptions.execution
      <*> other "workspace" workspace
      <*> otherSwitch "callHierarchyProvider" "CallHierarchyServerCapability"
        (plain "CallHierarchyOptions")
      <*> other "semanticTokensProvider" semanticTokens
      <*> otherSwitch "monikerProvider" "OneOf" (plain "MonikerOptions")
      <*> otherSwitch "linkedEditingRangeProvider" "LinkedEditingRangeServerCapabilities"
        (plain "LinkedEditingRangeOptions")
      <*> otherSwitch "inlineValueProvider" "OneOf" (plain "InlineValueOptions")
      <*> otherSwitch "inlayHintProvider" "OneOf"
        (.check (options "InlayHintOptions" (flag "resolveProvider")))
      <*> present "diagnosticProvider" ServerOptions.diagnostics
      <*> other "experimental" (.check .json)

/-- The features told in the answer to the first request. -/
def ofStartResult : Decoder Features :=
  Fields.decode "InitializeResult" <|
    (fun features _ => features) <$> .required "capabilities" decode
      <*> .optional "serverInfo"
        (Fields.decode "ServerInfo" <|
          (fun _ _ => ()) <$> .required "name" .string <*> .optional "version" .string)

end Features

end CodeIntel

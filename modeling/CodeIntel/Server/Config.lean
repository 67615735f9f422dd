import CodeIntel.Shape.Fields

namespace CodeIntel

/-- How to start a language server and how long to wait for it. -/
structure ServerConfig where
  command : String
  args : List String
  env : Table String
  /-- File extensions with a language identifier of their own. -/
  languageIds : Table String
  requestTimeoutSecs : Nat
  initializeTimeoutSecs : Nat
  diagnosticsWaitMs : Nat

/-- The language identifiers of known file extensions. -/
def languageTable : List (String × String) :=
  [("rs", "rust"), ("ts", "typescript"), ("tsx", "typescriptreact"), ("js", "javascript"),
    ("jsx", "javascriptreact"), ("py", "python"), ("go", "go"), ("java", "java"), ("c", "c"),
    ("h", "c"), ("cpp", "cpp"), ("hpp", "cpp"), ("cc", "cpp"), ("cxx", "cpp"), ("cs", "csharp"),
    ("rb", "ruby"), ("php", "php"), ("swift", "swift"), ("kt", "kotlin"), ("kts", "kotlin"),
    ("scala", "scala"), ("lua", "lua"), ("sh", "shellscript"), ("bash", "shellscript"),
    ("json", "json"), ("yaml", "yaml"), ("yml", "yaml"), ("toml", "toml"), ("md", "markdown"),
    ("html", "html"), ("css", "css"), ("scss", "scss"), ("sql", "sql")]

def languageOfExtension (extension : String) : String :=
  (findEntry extension languageTable).getD "plaintext"

namespace ServerConfig

def ofCommand (command : String) : ServerConfig :=
  { command := command
    args := []
    env := .empty
    languageIds := .empty
    requestTimeoutSecs := 30
    initializeTimeoutSecs := 60
    diagnosticsWaitMs := 3000 }

def preset? (command : String) : Option ServerConfig :=
  let base := ofCommand command
  match command with
  | "rust-analyzer" | "gopls" => some base
  | "typescript-language-server" | "pyright-langserver" => some { base with args := ["--stdio"] }
  | "clangd" => some { base with languageIds := .ofList [("h", "cpp")] }
  | _ => none

def stringTable : Decoder (Table String) := .map Table.ofList (.table .string)

def decode : Decoder ServerConfig :=
  Fields.decode "LspConfig" <|
    ServerConfig.mk <$> .required "command" .string
      <*> .defaulted "args" (.list .string) []
      <*> .defaulted "env" stringTable .empty
      <*> .defaulted "languageIds" stringTable .empty
      <*> .defaulted "requestTimeoutSecs" .u64 30
      <*> .defaulted "initializeTimeoutSecs" .u64 60
      <*> .defaulted "diagnosticsWaitMs" .u64 3000

def tableJson (t : Table String) : Json := .ofMembers (t.entries.map fun (k, v) => (k, .string v))

def toJson (c : ServerConfig) : Json :=
  .ofMembers
    [("command", .string c.command), ("args", .array (c.args.map .string)),
      ("env", tableJson c.env), ("languageIds", tableJson c.languageIds),
      ("requestTimeoutSecs", .nat c.requestTimeoutSecs),
      ("initializeTimeoutSecs", .nat c.initializeTimeoutSecs),
      ("diagnosticsWaitMs", .nat c.diagnosticsWaitMs)]

/-- Requests wait whole seconds, one at the least. -/
def withRequestTimeout (c : ServerConfig) (milliseconds : Nat) : ServerConfig :=
  { c with requestTimeoutSecs := max (milliseconds / 1000) 1 }

def withDiagnosticsWait (c : ServerConfig) (milliseconds : Nat) : ServerConfig :=
  { c with diagnosticsWaitMs := milliseconds % UInt64.size }

/-- The language identifier of files with the given extension. -/
def languageId (c : ServerConfig) (extension : String) : String :=
  (c.languageIds.get? extension).getD (languageOfExtension extension)

end ServerConfig

end CodeIntel

namespace CodeIntel.Agent

/-- What ends a conversation with an agent. Failures of single calls are answered instead. -/
inductive ServeError
  | protocol (reason : String)
  | connectionClosed (reason : String)
  | io (cause : String)
deriving DecidableEq, Repr

def ServeError.message : ServeError → String
  | protocol reason => s!"Protocol error: {reason}"
  | connectionClosed reason => s!"Connection closed: {reason}"
  | io cause => s!"IO error: {cause}"

end CodeIntel.Agent

import CodeIntel.Main
import CodeIntel.Proofs.Agent.Cancellation
import CodeIntel.Proofs.Agent.EveryLine
import CodeIntel.Proofs.Agent.RoundTrip
import CodeIntel.Proofs.Client.Answers
import CodeIntel.Proofs.Client.Offers
import CodeIntel.Proofs.Client.PulledDiagnostics
import CodeIntel.Proofs.Diff.Shown
import CodeIntel.Proofs.Documents.Protocol
import CodeIntel.Proofs.Edit.ByteSpans
import CodeIntel.Proofs.Edit.DisjointLines
import CodeIntel.Proofs.Edit.LineReplacement
import CodeIntel.Proofs.Edit.Positions
import CodeIntel.Proofs.Edit.Resolution
import CodeIntel.Proofs.Edit.Substitution
import CodeIntel.Proofs.EditFile.AllOrNothing
import CodeIntel.Proofs.EditFile.Effect
import CodeIntel.Proofs.Excerpt.Merging
import CodeIntel.Proofs.Frame.Decoding
import CodeIntel.Proofs.Json.Text
import CodeIntel.Proofs.Link.Delivery
import CodeIntel.Proofs.Link.Silence
import CodeIntel.Proofs.Path.Shown
import CodeIntel.Proofs.Plan
import CodeIntel.Proofs.Publications.Freshness
import CodeIntel.Proofs.Publications.Watching
import CodeIntel.Proofs.Session.Abort
import CodeIntel.Proofs.Session.Deadlock
import CodeIntel.Proofs.Session.FileLocks
import CodeIntel.Proofs.Session.NoLostUpdate
import CodeIntel.Proofs.Session.Replies
import CodeIntel.Proofs.Session.Serial
import CodeIntel.Proofs.Settings.Arrival
import CodeIntel.Proofs.Settings.Layers
import CodeIntel.Proofs.Symbol.Nesting
import CodeIntel.Proofs.Symbol.Selection
import CodeIntel.Proofs.Sync.Convergence
import CodeIntel.Proofs.Tool.Arguments
import CodeIntel.Proofs.Tool.LensCommands
import CodeIntel.Proofs.Tool.OneBased
import CodeIntel.Proofs.Tool.Prompts
import CodeIntel.Proofs.Tool.ReferenceReport
import CodeIntel.Proofs.Tool.Sources
import CodeIntel.Proofs.Uri.RoundTrip
import CodeIntel.Proofs.Wire.Handling
import CodeIntel.Rehearsal.Program
import CodeIntel.Rehearsal.Workspace

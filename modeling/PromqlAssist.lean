import PromqlAssist.Main
import PromqlAssist.Proofs.Server.Publication
import PromqlAssist.Proofs.Server.Timers
import PromqlAssist.Proofs.Server.Silence
import PromqlAssist.Proofs.Server.Debounce
import PromqlAssist.Proofs.Session.Projection
import PromqlAssist.Proofs.Template.Snippet
import PromqlAssist.Proofs.Validation
import PromqlAssist.Server.Channel
import PromqlAssist.Server.Socket
import PromqlAssist.Session.Entry
import PromqlAssist.Session.Workbench
import PromqlAssist.Proofs.Text.Boundary
import PromqlAssist.Proofs.Text.Position
import PromqlAssist.Proofs.Finding
import PromqlAssist.Proofs.Server.Diagnostic
import PromqlAssist.Proofs.Server.Header
import PromqlAssist.Proofs.Server.Framing
import PromqlAssist.Proofs.Template.Pattern
import PromqlAssist.Proofs.Completion.Placement
import PromqlAssist.Proofs.Completion.Ranking
import PromqlAssist.Proofs.Rule.Span
import PromqlAssist.Proofs.Offset.Cut
import PromqlAssist.Proofs.Offset.Scan
import PromqlAssist.Proofs.Offset.LabelMatcher
import PromqlAssist.Proofs.Offset.TimeRange
import PromqlAssist.Proofs.Offset.Arithmetic
import PromqlAssist.Proofs.Offset.Call
import PromqlAssist.Proofs.Offset.Builtin
import PromqlAssist.Proofs.Session.Submission
import PromqlAssist.Proofs.Rule.Masked
import PromqlAssist.Proofs.Context.Nesting
import PromqlAssist.Proofs.Completion.Recognition
import PromqlAssist.Proofs.Completion.Locality
import PromqlAssist.Proofs.Text.Line
import PromqlAssist.Proofs.Context.Dyck
import PromqlAssist.Proofs.Rule.Bracket
import PromqlAssist.Proofs.Server.Item
import PromqlAssist.Proofs.Rule.Group
import PromqlAssist.Proofs.Rule.Range
import PromqlAssist.Proofs.Rule.Matcher
import PromqlAssist.Proofs.Rule.Quote
import PromqlAssist.Proofs.Rule.Gate
import PromqlAssist.Proofs.Rule.Leading
import PromqlAssist.Proofs.Session.Delivery
import PromqlAssist.Proofs.Context.Scope
import PromqlAssist.Proofs.Context.Persistence
import PromqlAssist.Proofs.Context.Keyword
import PromqlAssist.Proofs.Session.Freshness
import PromqlAssist.Proofs.Vocabulary.Union
import PromqlAssist.Proofs.Settings.Expansion
import PromqlAssist.Proofs.Server.Document
import PromqlAssist.Proofs.Server.SortText
import PromqlAssist.Proofs.Template.Lossless
import PromqlAssist.Proofs.Server.Extraction
import PromqlAssist.Proofs.Server.Reader
import PromqlAssist.Proofs.Server.Writer
import PromqlAssist.Proofs.Text.Contents
import PromqlAssist.Proofs.Text.Run
import PromqlAssist.Proofs.Template.Pass

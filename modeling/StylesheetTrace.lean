import StylesheetTrace.Command
import StylesheetTrace.Main
import StylesheetTrace.Proofs.Command.Ending
import StylesheetTrace.Proofs.Document
import StylesheetTrace.Proofs.Finding.Missing
import StylesheetTrace.Proofs.Finding.Opening
import StylesheetTrace.Proofs.Finding.Order
import StylesheetTrace.Proofs.Finding.Retracing
import StylesheetTrace.Proofs.Location.Descent
import StylesheetTrace.Proofs.Location.Dialect
import StylesheetTrace.Proofs.Location.Extension
import StylesheetTrace.Proofs.Location.Window
import StylesheetTrace.Proofs.Output.Encoding
import StylesheetTrace.Proofs.Output.Fixpoint
import StylesheetTrace.Proofs.Output.Interleaving
import StylesheetTrace.Proofs.Output.Truncation
import StylesheetTrace.Proofs.Report.Recognition
import StylesheetTrace.Proofs.Report.StartTag
import StylesheetTrace.Proofs.RuleTable.Anchor
import StylesheetTrace.Proofs.Run
import StylesheetTrace.Proofs.Run.Bounds
import StylesheetTrace.Proofs.Run.Concatenation
import StylesheetTrace.Proofs.Run.LineEnd
import StylesheetTrace.Proofs.Run.Refusal
import StylesheetTrace.Proofs.Run.Verdict
import StylesheetTrace.Proofs.RunStore.Recording
import StylesheetTrace.Proofs.Service.Instrument
import StylesheetTrace.Proofs.Service.Limit
import StylesheetTrace.Proofs.Session.Isolation
import StylesheetTrace.Proofs.Session.Liveness
import StylesheetTrace.Proofs.Session.Purge
import StylesheetTrace.Proofs.Stylesheet.Erasure
import StylesheetTrace.Proofs.Stylesheet.TemplateReport
import StylesheetTrace.Service
import StylesheetTrace.Validation.Model

import DotHttp.Main
import DotHttp.Proofs.CommandLine.Ending
import DotHttp.Proofs.CommandLine.Settings
import DotHttp.Proofs.RequestFile.Canonical
import DotHttp.Proofs.RequestFile.Concatenation
import DotHttp.Proofs.RequestFile.Effect
import DotHttp.Proofs.RequestFile.Fault
import DotHttp.Proofs.Run.Cancellation
import DotHttp.Proofs.Run.Completion
import DotHttp.Proofs.Run.Dependency
import DotHttp.Proofs.Run.Dispatching
import DotHttp.Proofs.Run.EarlyStop
import DotHttp.Proofs.Run.Expansion
import DotHttp.Proofs.Run.Isolation
import DotHttp.Proofs.Run.Timing
import DotHttp.Proofs.Assertion
import DotHttp.Proofs.Run.Verdict
import DotHttp.Proofs.Placeholder.Scan
import DotHttp.Proofs.Placeholder.Template
import DotHttp.Proofs.Placeholder.Rescan
import DotHttp.Proofs.Numeral
import DotHttp.Proofs.Json.Local
import DotHttp.Proofs.Json.Distinct
import DotHttp.Proofs.Json.Overlong
import DotHttp.Proofs.Json.Written
import DotHttp.Proofs.Json.Rereading
import DotHttp.Proofs.JsonPath
import DotHttp.Proofs.Report
import DotHttp.Proofs.Environment
import DotHttp.Proofs.Resolution.Missing
import DotHttp.Proofs.Resolution.Unanswered
import DotHttp.Proofs.Store.History
import DotHttp.Proofs.Run.Timeouts
import DotHttp.Proofs.RequestFile.Attachment
import DotHttp.Proofs.Run.Naming
import DotHttp.Proofs.RequestFile.Referable
import DotHttp.Proofs.Run.Alternatives
import DotHttp.Proofs.RequestFile.ConditionGrammar
import DotHttp.Proofs.RequestFile.RequestLine
import DotHttp.Proofs.RequestFile.BareMethod
import DotHttp.Proofs.RequestFile.Spacing
import DotHttp.Proofs.RequestFile.Override
import DotHttp.Proofs.RequestFile.BodyLines
import DotHttp.Proofs.Function.Value
import DotHttp.Proofs.Function.Call
import DotHttp.Proofs.Function.Passes
import DotHttp.Proofs.Function.Separated
import DotHttp.Proofs.Function.Adjacent
import DotHttp.Proofs.Text.Base64
import DotHttp.Proofs.Text.LetterCase
import DotHttp.Proofs.Function.Quoted
import DotHttp.Proofs.Dispatch
import DotHttp.Proofs.CommandLine.Work
import DotHttp.Proofs.CommandLine.Verification
import DotHttp.Proofs.CommandLine.Success
import DotHttp.Proofs.FileTree.Discovery

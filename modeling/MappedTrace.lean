import MappedTrace.Hooks
import MappedTrace.Main
import MappedTrace.Proofs.MapCache.Query
import MappedTrace.Proofs.MapCache.Transparency
import MappedTrace.Proofs.MapCache.Stability
import MappedTrace.Proofs.MapCache.Reads
import MappedTrace.Proofs.Numeral.Plain
import MappedTrace.Proofs.SourceMap.Closest
import MappedTrace.Proofs.SourceMap.Sections
import MappedTrace.Proofs.CallSite.Alike
import MappedTrace.Proofs.Text.Cut
import MappedTrace.Proofs.Text.Lines
import MappedTrace.Proofs.StackFrame.ReadBack
import MappedTrace.Proofs.StackFrame.RoundTrip
import MappedTrace.Proofs.StackTrace.Remapping
import MappedTrace.Proofs.Position.Rendering
import MappedTrace.Proofs.EvalOrigin.Plain
import MappedTrace.Proofs.StackFrame.Steady
import MappedTrace.Proofs.StackFrame.Evaluated
import MappedTrace.Proofs.StackTrace.Unmoved
import MappedTrace.Proofs.Report.Header
import MappedTrace.Proofs.Report.Shape
import MappedTrace.Proofs.StackTrace.Concatenation
import MappedTrace.Proofs.StackTrace.Edit
import MappedTrace.Proofs.Directive.Search
import MappedTrace.Proofs.Directive.Last
import MappedTrace.Proofs.MapCache.Inline
import MappedTrace.Proofs.EvalOrigin.Edit
import MappedTrace.Proofs.EvalOrigin.Nesting
import MappedTrace.Proofs.SourceMap.Decoded
import MappedTrace.Proofs.SourceMap.OnLine
import MappedTrace.Proofs.SourceMap.SourceLines
import MappedTrace.Proofs.SourceMap.Overflow
import MappedTrace.Proofs.Report.TopFrame
import MappedTrace.Proofs.CallSite.Repeated
import MappedTrace.Proofs.CallSite.Alias
import MappedTrace.Proofs.Path.Clean
import MappedTrace.Proofs.MapCache.Spelling
import MappedTrace.Proofs.FileSystem.Directory
import MappedTrace.Proofs.Position.Reading
import MappedTrace.Proofs.Text.Utf8
import MappedTrace.Proofs.Output.Limit
import MappedTrace.Proofs.Command.Limit
import MappedTrace.Proofs.Command.Batch
import MappedTrace.Proofs.Json.Written
import MappedTrace.Proofs.Position.Json
import MappedTrace.Proofs.Command.JsonLines
import MappedTrace.Proofs.StackFrame.Agreement
import MappedTrace.Proofs.Text.LineEnds
import MappedTrace.Proofs.Report.SourceLine
import MappedTrace.Proofs.Hooks.History

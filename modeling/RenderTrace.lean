import RenderTrace.Expansion.Recursive
import RenderTrace.Json.Parse
import RenderTrace.Readers.Php.Outline
import RenderTrace.Readers.Yaml.Document
import RenderTrace.Report
import RenderTrace.Settings.Load
import RenderTrace.Trace
import RenderTrace.Proofs.Argument.Literal
import RenderTrace.Proofs.Argument.Split
import RenderTrace.Proofs.Catalog.Agreement
import RenderTrace.Proofs.Catalog.Indexed
import RenderTrace.Proofs.Catalog.Located
import RenderTrace.Proofs.Catalog.Spelled
import RenderTrace.Proofs.ClassShape.Balanced
import RenderTrace.Proofs.ClassShape.Context
import RenderTrace.Proofs.ClassShape.DeclaredType
import RenderTrace.Proofs.ClassShape.Methods
import RenderTrace.Proofs.ClassShape.Named
import RenderTrace.Proofs.ClassShape.Places
import RenderTrace.Proofs.ClassShape.RoundTrip
import RenderTrace.Proofs.ClassShape.Slices
import RenderTrace.Proofs.ClassShape.Stray
import RenderTrace.Proofs.ClassShape.Truncated
import RenderTrace.Proofs.ClassShape.Unclosed
import RenderTrace.Proofs.Expansion.Bounded
import RenderTrace.Proofs.Expansion.Depth
import RenderTrace.Proofs.Expansion.Marks
import RenderTrace.Proofs.Expansion.Namesakes
import RenderTrace.Proofs.Expansion.Nodes
import RenderTrace.Proofs.Expansion.OneView
import RenderTrace.Proofs.Expansion.Reachability
import RenderTrace.Proofs.Report
import RenderTrace.Proofs.Settings.Load
import RenderTrace.Proofs.Settings.Scan
import RenderTrace.Proofs.SourceTree.Order
import RenderTrace.Proofs.Site.Cover
import RenderTrace.Proofs.Site.Lines
import RenderTrace.Proofs.Site.Occurrence
import RenderTrace.Proofs.Site.Written
import RenderTrace.Proofs.Template
import RenderTrace.Proofs.Text.Splitting
import RenderTrace.Proofs.Trace.Provenance
import RenderTrace.Proofs.Trace.MethodLines
import RenderTrace.Proofs.ViewFolders.Below
import RenderTrace.Proofs.ClassShape.BlockEnd
import RenderTrace.Proofs.Reference.Readings
import RenderTrace.Proofs.Settings.Keys
import RenderTrace.Proofs.Catalog.Namespaces

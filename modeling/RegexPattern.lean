import RegexPattern.Proofs.Workbench
import RegexPattern.Main
import RegexPattern.Proofs.Reader.Tree
import RegexPattern.Proofs.CanonicalForm
import RegexPattern.Proofs.Writing
import RegexPattern.Proofs.ReadBack
import RegexPattern.Proofs.Shortest
import RegexPattern.Proofs.RoundTrip
import RegexPattern.Proofs.Image
import RegexPattern.Proofs.Exchange
import RegexPattern.Proofs.FaultPlace
import RegexPattern.Proofs.NestingLimit
import RegexPattern.Proofs.Graph.Postorder
import RegexPattern.Proofs.Unescape
import RegexPattern.Proofs.Dot.Names
import RegexPattern.Proofs.Dot.Lossless
import RegexPattern.Proofs.Graph.Label
import RegexPattern.Proofs.Graph.Numbering
import RegexPattern.Proofs.Graph.Faithful
import RegexPattern.Proofs.Joined
import RegexPattern.Proofs.BarePattern
import RegexPattern.Proofs.Report
import RegexPattern.Proofs.LiteralRun
import RegexPattern.Proofs.Composition
import RegexPattern.Proofs.Failure
import RegexPattern.Proofs.ValidPrefix
import RegexPattern.Proofs.LeafFault
import RegexPattern.Proofs.Continuation
import RegexPattern.Proofs.Charset.Grouping
import RegexPattern.Proofs.Charset.Legible
import RegexPattern.Proofs.Quantified
import RegexPattern.Proofs.Charset.Spelled
import RegexPattern.Proofs.Graph.Census
import RegexPattern.Proofs.Graph.Assembly

import Interconnect.Binding
import Interconnect.Command.Check
import Interconnect.Command.Generate
import Interconnect.Document.Load
import Interconnect.Engine
import Interconnect.Files.Tree
import Interconnect.Json.Reader
import Interconnect.Json.Writer
import Interconnect.Log
import Interconnect.Main
import Interconnect.Topology.Basic
import Interconnect.Word
import Interconnect.Proofs.Topology.Counts
import Interconnect.Proofs.Binding.Acceptance
import Interconnect.Proofs.Binding.Inverse
import Interconnect.Proofs.Json.Grammar
import Interconnect.Proofs.Json.Reading
import Interconnect.Proofs.Document.Scalars
import Interconnect.Proofs.Document.RoundTrip
import Interconnect.Proofs.Topology.Attachment
import Interconnect.Proofs.Command.Arguments
import Interconnect.Proofs.Command.Agreement
import Interconnect.Proofs.Topology.Numbering
import Interconnect.Proofs.Binding.Customary
import Interconnect.Proofs.Text.Lines
import Interconnect.Proofs.Command.Stages
import Interconnect.Proofs.Command.Diagnostics
import Interconnect.Proofs.Json.Numerals
import Interconnect.Proofs.Json.Soundness
import Interconnect.Proofs.Document.Contents
import Interconnect.Proofs.Document.Rearrangement
import Interconnect.Proofs.Json.Truncation
import Interconnect.Proofs.Document.Truncation
import Interconnect.Proofs.Text.Splitting
import Interconnect.Proofs.Topology.Labels
import Interconnect.Proofs.Binding.NodeMap
import Interconnect.Proofs.Topology.Trapping
import Interconnect.Proofs.Command.Output
import Interconnect.Proofs.Topology.Coordinates
import Interconnect.Proofs.Document.Positional
import Interconnect.Proofs.Topology.Partition
import Interconnect.Proofs.Document.Paths
import Interconnect.Proofs.Topology.Overflow
import Interconnect.Proofs.Json.Tokens
import Interconnect.Proofs.Document.Integers
import Interconnect.Proofs.Document.Exchange
import Interconnect.Proofs.Document.Numbers
import Interconnect.Proofs.Document.Repetition
import Interconnect.Proofs.Command.Log

import WaveCollapse.Benchmark.Report
import WaveCollapse.Benchmark.Scenario
import WaveCollapse.Decimal
import WaveCollapse.Duration
import WaveCollapse.Files
import WaveCollapse.Journal
import WaveCollapse.Json.Basic
import WaveCollapse.Json.Parser
import WaveCollapse.Json.Printer
import WaveCollapse.Json.Token
import WaveCollapse.Main
import WaveCollapse.Numbers
import WaveCollapse.Output
import WaveCollapse.Proofs.Duration
import WaveCollapse.Proofs.Except
import WaveCollapse.Proofs.Files
import WaveCollapse.Proofs.Json.RoundTrip
import WaveCollapse.Proofs.Json.Scanning
import WaveCollapse.Proofs.Numbering
import WaveCollapse.Proofs.Output.GridText
import WaveCollapse.Proofs.Propagation.Coverage
import WaveCollapse.Proofs.Propagation.Largest
import WaveCollapse.Proofs.Propagation.Origin
import WaveCollapse.Proofs.Propagation.Run
import WaveCollapse.Proofs.Propagation.Solutions
import WaveCollapse.Proofs.Propagation.Step
import WaveCollapse.Proofs.Propagation.Work
import WaveCollapse.Proofs.Registry
import WaveCollapse.Proofs.RuleFile.Accepted
import WaveCollapse.Proofs.RuleFile.Duals
import WaveCollapse.Proofs.RuleFile.Meaning
import WaveCollapse.Proofs.Rules.Admitted
import WaveCollapse.Proofs.Rules.Cached
import WaveCollapse.Proofs.Rules.Closure
import WaveCollapse.Proofs.Rules.Served
import WaveCollapse.Proofs.Rules.Symmetric
import WaveCollapse.Proofs.Rules.Tables
import WaveCollapse.Proofs.Run.Act
import WaveCollapse.Proofs.Run.Border
import WaveCollapse.Proofs.Run.Comparison
import WaveCollapse.Proofs.Run.Result
import WaveCollapse.Proofs.Run.Setup
import WaveCollapse.Proofs.Run.Standard
import WaveCollapse.Proofs.Search.Bounded
import WaveCollapse.Proofs.Search.Calls
import WaveCollapse.Proofs.Search.Confined
import WaveCollapse.Proofs.Search.Containment
import WaveCollapse.Proofs.Search.Decisions
import WaveCollapse.Proofs.Search.Drivers
import WaveCollapse.Proofs.Search.Effects
import WaveCollapse.Proofs.Search.Exhaustion
import WaveCollapse.Proofs.Search.Guided
import WaveCollapse.Proofs.Search.Invariant
import WaveCollapse.Proofs.Search.Leftovers
import WaveCollapse.Proofs.Search.Move
import WaveCollapse.Proofs.Search.Observed
import WaveCollapse.Proofs.Search.Opening
import WaveCollapse.Proofs.Search.Outcome
import WaveCollapse.Proofs.Search.Path
import WaveCollapse.Proofs.Search.Protocol
import WaveCollapse.Proofs.Search.Reach
import WaveCollapse.Proofs.Search.Ready
import WaveCollapse.Proofs.Search.Regeneration
import WaveCollapse.Proofs.Search.Restored
import WaveCollapse.Proofs.Search.Ring
import WaveCollapse.Proofs.Search.Script
import WaveCollapse.Proofs.Search.Stacks
import WaveCollapse.Proofs.Search.Success
import WaveCollapse.Proofs.Search.Termination
import WaveCollapse.Proofs.Search.Upkeep
import WaveCollapse.Proofs.Search.Volume
import WaveCollapse.Proofs.Selection
import WaveCollapse.Proofs.Settings.CommandLine
import WaveCollapse.Proofs.Settings.Layers
import WaveCollapse.Proofs.System.Laid
import WaveCollapse.Proofs.System.Network
import WaveCollapse.Proofs.System.Pasted
import WaveCollapse.Proofs.System.Reciprocal
import WaveCollapse.Proofs.System.Snapshot
import WaveCollapse.Proofs.System.Vector
import WaveCollapse.Proofs.Topology.Cutout
import WaveCollapse.Proofs.Topology.Grid
import WaveCollapse.Proofs.Topology.Induced
import WaveCollapse.Proofs.Topology.Words
import WaveCollapse.Proofs.Wave.Document
import WaveCollapse.Proofs.Wave.Members
import WaveCollapse.Proofs.Wave.Refinement
import WaveCollapse.Proofs.Wave.WellFormed
import WaveCollapse.Proofs.Wave.Words
import WaveCollapse.Propagation
import WaveCollapse.Random
import WaveCollapse.Registry
import WaveCollapse.Ron.Basic
import WaveCollapse.Ron.Skipped
import WaveCollapse.RuleFile.Basic
import WaveCollapse.RuleFile.Json
import WaveCollapse.RuleFile.Load
import WaveCollapse.RuleFile.Ron
import WaveCollapse.Rules.Adjacency
import WaveCollapse.Rules.Basic
import WaveCollapse.Rules.Cache
import WaveCollapse.Rules.Sockets
import WaveCollapse.Run.Act
import WaveCollapse.Run.Comparison
import WaveCollapse.Run.Error
import WaveCollapse.Run.Note
import WaveCollapse.Run.Setup
import WaveCollapse.Run.Standard
import WaveCollapse.Search.Config
import WaveCollapse.Search.Descent
import WaveCollapse.Search.Drive
import WaveCollapse.Search.Event
import WaveCollapse.Search.Solver
import WaveCollapse.Selection
import WaveCollapse.Settings.Basic
import WaveCollapse.Settings.CommandLine
import WaveCollapse.Settings.Environment
import WaveCollapse.Settings.Field
import WaveCollapse.Settings.Resolve
import WaveCollapse.Statistics
import WaveCollapse.System.Basic
import WaveCollapse.System.Error
import WaveCollapse.System.Snapshot
import WaveCollapse.Text.Quoted
import WaveCollapse.Text.Reader
import WaveCollapse.Toml.Basic
import WaveCollapse.Toml.Document
import WaveCollapse.Toml.Scalar
import WaveCollapse.Topology.Basic
import WaveCollapse.Topology.Grid
import WaveCollapse.Wave
import WaveCollapse.Wave.Components
import WaveCollapse.Wave.Document

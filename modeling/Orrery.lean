import Orrery.Artifact.Export
import Orrery.Artifact.Instant
import Orrery.Artifact.RunId
import Orrery.Clocks
import Orrery.Config.Basic
import Orrery.Config.Schema
import Orrery.Decimal.Basic
import Orrery.Decimal.Layout
import Orrery.Decimal.Shortest
import Orrery.Declaration
import Orrery.Filter.Basic
import Orrery.Filter.Script
import Orrery.LogFilter
import Orrery.Main
import Orrery.Observer
import Orrery.Physics
import Orrery.Producer
import Orrery.Proofs.Acceptance
import Orrery.Proofs.DeclarationOrder
import Orrery.Proofs.FloatOrder
import Orrery.Proofs.Isolation
import Orrery.Proofs.Path
import Orrery.Proofs.Reading
import Orrery.Proofs.Resolution
import Orrery.Proofs.Table
import Orrery.Proofs.Timeline
import Orrery.Proofs.WriteOnce
import Orrery.Provider
import Orrery.Query.Basic
import Orrery.Query.Scope
import Orrery.Query.Wire
import Orrery.RuleGraph
import Orrery.Session
import Orrery.Simulation
import Orrery.Step
import Orrery.Store
import Orrery.Table
import Orrery.Text.Named
import Orrery.Text.Shown
import Orrery.Text.Space
import Orrery.Value.Basic
import Orrery.Value.Numeral
import Orrery.Value.Printer
import Orrery.Value.Reader
import Orrery.Value.Tree
import Orrery.Yaml.Cursor
import Orrery.Yaml.Node
import Orrery.Yaml.Scalar
import Orrery.Yaml.Token
import Orrery.Yaml.Token.Block
import Orrery.Yaml.Token.Plain
import Orrery.Yaml.Token.Property
import Orrery.Yaml.Token.Quoted
import Orrery.Yaml.Token.Scan
import Orrery.Yaml.View
import Orrery.Proofs.ReadBack
import Orrery.Proofs.Commit
import Orrery.Proofs.Barrier
import Orrery.Proofs.Audit
import Orrery.Proofs.Footprint
import Orrery.Proofs.LostUpdate
import Orrery.Proofs.FloatRange
import Orrery.Proofs.Finality
import Orrery.Proofs.Failure
import Orrery.Proofs.Progress
import Orrery.Proofs.Interleaving
import Orrery.Proofs.Observation
import Orrery.Proofs.ConstantStep
import Orrery.Proofs.JsonText
import Orrery.Proofs.Nesting
import Orrery.Proofs.FieldOrder
import Orrery.Proofs.Building
import Orrery.Proofs.Artifact
import Orrery.Proofs.Replay
import Orrery.Proofs.Accounting
import Orrery.Proofs.Engines
import Orrery.Proofs.Shape
import Orrery.Proofs.TwoBody
import Orrery.Proofs.WireText
import Orrery.Proofs.Circularity
import Orrery.Proofs.Verdict
import Orrery.Proofs.Assignment
import Orrery.Proofs.History
import Orrery.Proofs.HistoryText
import Orrery.Proofs.Composition
import Orrery.Proofs.Readiness
import Orrery.Proofs.Arguments

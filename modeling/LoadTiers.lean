import LoadTiers.Arguments
import LoadTiers.Catalog
import LoadTiers.Classification
import LoadTiers.Command
import LoadTiers.Command.Run
import LoadTiers.Config
import LoadTiers.Digest
import LoadTiers.Disk
import LoadTiers.Environment
import LoadTiers.Error
import LoadTiers.Failure
import LoadTiers.Feature
import LoadTiers.FileTree
import LoadTiers.Json
import LoadTiers.Json.Pretty
import LoadTiers.Main
import LoadTiers.Outcome
import LoadTiers.Path
import LoadTiers.Registry
import LoadTiers.Registry.Markup
import LoadTiers.Report
import LoadTiers.Report.Json
import LoadTiers.Report.Summary
import LoadTiers.Request
import LoadTiers.Resolution
import LoadTiers.Resolution.Json
import LoadTiers.Roster
import LoadTiers.Source
import LoadTiers.Text.Blank
import LoadTiers.Text.Numeral
import LoadTiers.Text.Reading
import LoadTiers.Text.Separated
import LoadTiers.Text.Uppercase
import LoadTiers.Tier
import LoadTiers.Timestamp
import LoadTiers.Timestamp.Text
import LoadTiers.Toml.DateTime
import LoadTiers.Toml.Document
import LoadTiers.Toml.Number
import LoadTiers.Toml.Scalar
import LoadTiers.Toml.Table
import LoadTiers.Toml.Text
import LoadTiers.TypeGraph
import LoadTiers.TypeGraph.Walk
import LoadTiers.Version
import LoadTiers.Xml.Char
import LoadTiers.Xml.Document
import LoadTiers.Xml.Node
import LoadTiers.Xml.Text
import LoadTiers.Xml.Token
import LoadTiers.Proofs.First
import LoadTiers.Proofs.TypeGraph.Acyclic
import LoadTiers.Proofs.AliasChain
import LoadTiers.Proofs.Catalog
import LoadTiers.Proofs.FeatureOrder
import LoadTiers.Proofs.Uses
import LoadTiers.Proofs.Markup.Types
import LoadTiers.Proofs.Acceptance
import LoadTiers.Proofs.Resolution.Enabled
import LoadTiers.Proofs.Resolution.Refusal
import LoadTiers.Proofs.Resolution.Removes
import LoadTiers.Proofs.Resolution.Sets
import LoadTiers.Proofs.Markup.Parts
import LoadTiers.Proofs.Markup.Tiers
import LoadTiers.Proofs.Markup.Order
import LoadTiers.Proofs.Coherence
import LoadTiers.Proofs.Resolution.Partition
import LoadTiers.Proofs.Resolution.Loading
import LoadTiers.Proofs.Resolution.Removed
import LoadTiers.Proofs.Resolution.Selection
import LoadTiers.Proofs.Resolution.Ceiling
import LoadTiers.Proofs.Resolution.Disabled
import LoadTiers.Proofs.Timestamp
import LoadTiers.Proofs.Version
import LoadTiers.Proofs.ExtensionList
import LoadTiers.Proofs.Resolution.Json
import LoadTiers.Proofs.Summary
import LoadTiers.Proofs.Command.Classification
import LoadTiers.Proofs.Report
import LoadTiers.Proofs.Arguments
import LoadTiers.Proofs.Command.Output
import LoadTiers.Proofs.CyclicTypes
import LoadTiers.Proofs.ChainOutcome
import LoadTiers.Proofs.Command.Flags
import LoadTiers.Proofs.Growth
import LoadTiers.Proofs.Resolution.Tables
import LoadTiers.Proofs.Resolution.Respelling
import LoadTiers.Proofs.Markup.Unspared
import LoadTiers.Proofs.Markup.Unread
import LoadTiers.Proofs.Markup.Revision
import LoadTiers.Proofs.FeatureHistory
import LoadTiers.Proofs.TypeGraph.State
import LoadTiers.Proofs.Environment
import LoadTiers.Proofs.Command.Location

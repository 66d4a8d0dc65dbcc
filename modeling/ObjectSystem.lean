import ObjectSystem.Block.Build
import ObjectSystem.Object.Equality
import ObjectSystem.Object.Method
import ObjectSystem.Object.Text
import ObjectSystem.Registry.Edit
import ObjectSystem.TypeTest
import ObjectSystem.Workspace
import ObjectSystem.Proofs.Interning.Growth
import ObjectSystem.Proofs.Interning.Room
import ObjectSystem.Proofs.Interning.Packing
import ObjectSystem.Proofs.Interning.Shards
import ObjectSystem.Proofs.Interning.Indexed
import ObjectSystem.Proofs.Interning.History
import ObjectSystem.Proofs.Graph.Basic
import ObjectSystem.Proofs.Graph.Agreement
import ObjectSystem.Proofs.Graph.Updates
import ObjectSystem.Proofs.Graph.Declaration
import ObjectSystem.Proofs.Linearization.Lineage
import ObjectSystem.Proofs.Linearization.FirstOccurrences
import ObjectSystem.Proofs.Linearization.Agreement
import ObjectSystem.Proofs.Linearization.Search
import ObjectSystem.Proofs.Linearization.Order
import ObjectSystem.Proofs.Linearization.Levels
import ObjectSystem.Proofs.Conflict.Provision
import ObjectSystem.Proofs.Conflict.Provider
import ObjectSystem.Proofs.Conflict.Indexed
import ObjectSystem.Proofs.Conflict.DepthFirst
import ObjectSystem.Proofs.Conflict.Locality
import ObjectSystem.Proofs.Conflict.Lookup
import ObjectSystem.Proofs.Conflict.Widening
import ObjectSystem.Proofs.Linearization.Retention
import ObjectSystem.Proofs.Linearization.Members
import ObjectSystem.Proofs.Linearization.MemberGroups
import ObjectSystem.Proofs.Linearization.Ancestry
import ObjectSystem.Proofs.Naming.Generated
import ObjectSystem.Proofs.Naming.Binding
import ObjectSystem.Proofs.Naming.Segments
import ObjectSystem.Proofs.TypeTest.Table
import ObjectSystem.Proofs.TypeTest.Bearers
import ObjectSystem.Proofs.Sealing.Seals
import ObjectSystem.Proofs.Sealing.Frozen
import ObjectSystem.Proofs.Growth.Types
import ObjectSystem.Proofs.Growth.Queries
import ObjectSystem.Proofs.Registry.Change
import ObjectSystem.Proofs.Registry.Granting
import ObjectSystem.Proofs.Registry.Extending
import ObjectSystem.Proofs.Registry.Construction
import ObjectSystem.Proofs.Run.Basic
import ObjectSystem.Proofs.Run.Step
import ObjectSystem.Proofs.Run.Editing
import ObjectSystem.Proofs.Run.Graph
import ObjectSystem.Proofs.Run.Linearization
import ObjectSystem.Proofs.Run.Ancestry
import ObjectSystem.Proofs.Run.Conflict
import ObjectSystem.Proofs.Run.Names
import ObjectSystem.Proofs.Run.Sealing
import ObjectSystem.Proofs.Run.Consumption
import ObjectSystem.Proofs.Run.Validity
import ObjectSystem.Proofs.Run.Extending
import ObjectSystem.Proofs.Run.Providers
import ObjectSystem.Proofs.Run.Refusals
import ObjectSystem.Proofs.Run.Naming
import ObjectSystem.Proofs.Run.HelperTables
import ObjectSystem.Proofs.Registry.Calling
import ObjectSystem.Proofs.Registry.Answers
import ObjectSystem.Proofs.Run.Caution
import ObjectSystem.Proofs.Run.InPlace
import ObjectSystem.Proofs.Run.MemberIndex
import ObjectSystem.Proofs.Run.Members
import ObjectSystem.Proofs.Run.Tagging
import ObjectSystem.Proofs.Run.Growth
import ObjectSystem.Proofs.Run.Sparing
import ObjectSystem.Proofs.Run.Blocks
import ObjectSystem.Proofs.Block.References
import ObjectSystem.Proofs.Block.Heads
import ObjectSystem.Proofs.Block.Roles
import ObjectSystem.Proofs.Block.Trees
import ObjectSystem.Proofs.Run.Segments
import ObjectSystem.Proofs.Block.InTurn
import ObjectSystem.Proofs.Run.Instances
import ObjectSystem.Proofs.Run.Making
import ObjectSystem.Proofs.Run.Handouts
import ObjectSystem.Proofs.Run.Views
import ObjectSystem.Proofs.Interning.Matching
import ObjectSystem.Proofs.Twin.Value
import ObjectSystem.Proofs.Twin.Catalog
import ObjectSystem.Proofs.Twin.Lookup
import ObjectSystem.Proofs.Twin.Registry
import ObjectSystem.Proofs.Twin.Change
import ObjectSystem.Proofs.Twin.Construction
import ObjectSystem.Proofs.Twin.Tandem
import ObjectSystem.Proofs.Twin.Editing
import ObjectSystem.Proofs.Twin.Blocks
import ObjectSystem.Proofs.Twin.Run
import ObjectSystem.Proofs.Workspace.Slots
import ObjectSystem.Proofs.Workspace.Sharing
import ObjectSystem.Proofs.Workspace.Freezing

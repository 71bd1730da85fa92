import SnapshotIndex.Assoc
import SnapshotIndex.Catalog
import SnapshotIndex.Catalog.Label
import SnapshotIndex.Config
import SnapshotIndex.Element.Ident
import SnapshotIndex.Element.Identified
import SnapshotIndex.Element.Json
import SnapshotIndex.Element.KeyOrder
import SnapshotIndex.Element.Record
import SnapshotIndex.Fault
import SnapshotIndex.Index
import SnapshotIndex.Index.Bag
import SnapshotIndex.Index.RangeView
import SnapshotIndex.Index.Shared
import SnapshotIndex.Index.Sorted
import SnapshotIndex.Index.Traversal
import SnapshotIndex.Proofs.Bag.Capacity
import SnapshotIndex.Proofs.Bag.Renewal
import SnapshotIndex.Proofs.Bag.TableRuns
import SnapshotIndex.Proofs.Catalog.Definitions
import SnapshotIndex.Proofs.Catalog.Registers
import SnapshotIndex.Proofs.Catalog.Registry
import SnapshotIndex.Proofs.Catalog.Routing
import SnapshotIndex.Proofs.Catalog.Unison
import SnapshotIndex.Proofs.Label.Closest
import SnapshotIndex.Proofs.Label.Distance
import SnapshotIndex.Proofs.Label.EditScripts
import SnapshotIndex.Proofs.Label.LetterCase
import SnapshotIndex.Proofs.Run
import SnapshotIndex.Proofs.Snapshot.Accounts
import SnapshotIndex.Proofs.Snapshot.Agreement
import SnapshotIndex.Proofs.Snapshot.Alike
import SnapshotIndex.Proofs.Snapshot.Captures
import SnapshotIndex.Proofs.Snapshot.Changes
import SnapshotIndex.Proofs.Snapshot.Copies
import SnapshotIndex.Proofs.Snapshot.Counting
import SnapshotIndex.Proofs.Snapshot.Edits
import SnapshotIndex.Proofs.Snapshot.Idle
import SnapshotIndex.Proofs.Snapshot.InStep
import SnapshotIndex.Proofs.Snapshot.Interleaving
import SnapshotIndex.Proofs.Snapshot.Isolation
import SnapshotIndex.Proofs.Snapshot.Ledger
import SnapshotIndex.Proofs.Snapshot.Reached
import SnapshotIndex.Proofs.Snapshot.Sharing
import SnapshotIndex.Proofs.Snapshot.Shelves
import SnapshotIndex.Proofs.Snapshot.Staleness
import SnapshotIndex.Proofs.Snapshot.Thrift
import SnapshotIndex.Proofs.Snapshot.Transparency
import SnapshotIndex.Proofs.Sorted.ByKeys
import SnapshotIndex.Proofs.Sorted.Canonical
import SnapshotIndex.Proofs.Sorted.Hashing
import SnapshotIndex.Proofs.Sorted.Matching
import SnapshotIndex.Proofs.Sorted.Neighbours
import SnapshotIndex.Proofs.Sorted.Order
import SnapshotIndex.Proofs.Sorted.Performing
import SnapshotIndex.Proofs.Sorted.Reachable
import SnapshotIndex.Proofs.Sorted.Refinement
import SnapshotIndex.Proofs.Sorted.Search
import SnapshotIndex.Proofs.Sorted.Set
import SnapshotIndex.Proofs.Sorted.Shows
import SnapshotIndex.Proofs.Sorted.Span
import SnapshotIndex.Proofs.Sorted.Straining
import SnapshotIndex.Proofs.Sorted.TieBreak
import SnapshotIndex.Proofs.Table.Capacity
import SnapshotIndex.Proofs.Table.FiniteMap
import SnapshotIndex.Proofs.Table.Generations
import SnapshotIndex.Proofs.Table.Growth
import SnapshotIndex.Proofs.Table.Operations
import SnapshotIndex.Proofs.Table.Probing
import SnapshotIndex.Proofs.Table.Rebuild
import SnapshotIndex.Proofs.Table.Rebuilds
import SnapshotIndex.Proofs.Table.Relocation
import SnapshotIndex.Proofs.Table.Renewal
import SnapshotIndex.Proofs.Table.Slots
import SnapshotIndex.Proofs.Table.WellFormed
import SnapshotIndex.Proofs.Traversal.ArrayPlaces
import SnapshotIndex.Proofs.Traversal.BothEnds
import SnapshotIndex.Proofs.Traversal.Chain
import SnapshotIndex.Proofs.Traversal.Cursors
import SnapshotIndex.Proofs.Traversal.Handles
import SnapshotIndex.Proofs.Traversal.ListHandles
import SnapshotIndex.Proofs.Traversal.Marks
import SnapshotIndex.Proofs.Traversal.Spots
import SnapshotIndex.Proofs.Traversal.Stepping
import SnapshotIndex.Proofs.Traversal.TablePlaces
import SnapshotIndex.Proofs.Traversal.Tours
import SnapshotIndex.Proofs.Traversal.Unstamped
import SnapshotIndex.Proofs.Traversal.Walks
import SnapshotIndex.Proofs.Views.Bounds
import SnapshotIndex.Proofs.Views.Changing
import SnapshotIndex.Proofs.Views.Narrowing
import SnapshotIndex.Proofs.Views.Reading
import SnapshotIndex.Session
import SnapshotIndex.Session.Notice
import SnapshotIndex.Snapshot.Backing
import SnapshotIndex.Snapshot.Cursor
import SnapshotIndex.Snapshot.Lender
import SnapshotIndex.Snapshot.Tracked
import SnapshotIndex.Snapshot.Walk
import SnapshotIndex.Store.Bisect
import SnapshotIndex.Store.Bound
import SnapshotIndex.Store.IdentTable
import SnapshotIndex.Store.Position
import SnapshotIndex.Store.Sieve
import SnapshotIndex.Store.SortedArray
import SnapshotIndex.Text.CaseTable
import SnapshotIndex.Text.Json
import SnapshotIndex.Text.Lowercase

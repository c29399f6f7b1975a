import PagedStore.Bits
import PagedStore.Cache
import PagedStore.Cache.Recency
import PagedStore.Catalog
import PagedStore.Content
import PagedStore.Database
import PagedStore.Database.Completion
import PagedStore.Database.Update
import PagedStore.Fault
import PagedStore.HeapPage
import PagedStore.Identity
import PagedStore.Locks
import PagedStore.Locks.WaitGraph
import PagedStore.Page
import PagedStore.Page.Layout
import PagedStore.PageFile
import PagedStore.Proofs.Bits
import PagedStore.Proofs.Cache
import PagedStore.Proofs.Cache.Eviction
import PagedStore.Proofs.Cache.Idle
import PagedStore.Proofs.Cache.Recency
import PagedStore.Proofs.Cache.Recent
import PagedStore.Proofs.Cache.Tidy
import PagedStore.Proofs.Cache.Touches
import PagedStore.Proofs.Catalog
import PagedStore.Proofs.Catalog.Calls
import PagedStore.Proofs.Database.Alone
import PagedStore.Proofs.Database.Approach
import PagedStore.Proofs.Database.Completion
import PagedStore.Proofs.Database.Crowded
import PagedStore.Proofs.Database.Faults
import PagedStore.Proofs.Database.Fetch
import PagedStore.Proofs.Database.FirstFit
import PagedStore.Proofs.Database.Growth
import PagedStore.Proofs.Database.Placement
import PagedStore.Proofs.Database.Placing
import PagedStore.Proofs.Database.Progress
import PagedStore.Proofs.Database.Quiet
import PagedStore.Proofs.Database.Search
import PagedStore.Proofs.Database.Turns
import PagedStore.Proofs.Database.Twin
import PagedStore.Proofs.Database.Twin.Scan
import PagedStore.Proofs.Database.Twin.Update
import PagedStore.Proofs.Database.Underway
import PagedStore.Proofs.HeapPage
import PagedStore.Proofs.HeapPage.SlotMap
import PagedStore.Proofs.Locks
import PagedStore.Proofs.Locks.Decision
import PagedStore.Proofs.Locks.Denials
import PagedStore.Proofs.Locks.Independence
import PagedStore.Proofs.Locks.Order
import PagedStore.Proofs.Locks.WaitGraph
import PagedStore.Proofs.Page.Acceptance
import PagedStore.Proofs.Page.Calls
import PagedStore.Proofs.Page.Capacity
import PagedStore.Proofs.Page.Image
import PagedStore.Proofs.Page.Layout
import PagedStore.Proofs.Page.Locality
import PagedStore.Proofs.Page.Nameless
import PagedStore.Proofs.Page.RoundTrip
import PagedStore.Proofs.Page.Update
import PagedStore.Proofs.PageFile
import PagedStore.Proofs.PageFile.Calls
import PagedStore.Proofs.Run
import PagedStore.Proofs.Run.Agreement
import PagedStore.Proofs.Run.AnyOrder
import PagedStore.Proofs.Run.Browsing
import PagedStore.Proofs.Run.Capacity
import PagedStore.Proofs.Run.Changes
import PagedStore.Proofs.Run.Committed
import PagedStore.Proofs.Run.Completion
import PagedStore.Proofs.Run.Failure
import PagedStore.Proofs.Run.FirstFit
import PagedStore.Proofs.Run.Footprint
import PagedStore.Proofs.Run.Isolation
import PagedStore.Proofs.Run.Ledger
import PagedStore.Proofs.Run.Mirror
import PagedStore.Proofs.Run.NoSteal
import PagedStore.Proofs.Run.Progress
import PagedStore.Proofs.Run.Recovery
import PagedStore.Proofs.Run.Repeat
import PagedStore.Proofs.Run.Schemas
import PagedStore.Proofs.Run.Session
import PagedStore.Proofs.Run.Tidy
import PagedStore.Proofs.Run.Whole
import PagedStore.Proofs.Run.Writers
import PagedStore.Proofs.Scan
import PagedStore.Proofs.Scan.Calls
import PagedStore.Proofs.Schema
import PagedStore.Proofs.Table
import PagedStore.Proofs.Text.Utf8
import PagedStore.Proofs.Tuple.Acceptance
import PagedStore.Proofs.Tuple.Append
import PagedStore.Proofs.Tuple.Codec
import PagedStore.Proofs.Tuple.RoundTrip
import PagedStore.Scan
import PagedStore.Schema
import PagedStore.Settings
import PagedStore.Table
import PagedStore.Text.Extending
import PagedStore.Text.Quoted
import PagedStore.Text.Unprintable
import PagedStore.Text.Utf8
import PagedStore.Tuple
import PagedStore.Value
import PagedStore.Volume
import PagedStore.Word

import RowStore.FinMap
import RowStore.Page
import RowStore.PageFile
import RowStore.Recency
import RowStore.Lock.Room
import RowStore.Pool
import RowStore.Disk
import RowStore.Settings
import RowStore.Store.Rows
import RowStore.Store.Completion
import RowStore.Store.Tables
import RowStore.Query.Plan
import RowStore.Histogram
import RowStore.Session
import RowStore.Main
import RowStore.Proofs.Lock.Effects
import RowStore.Proofs.Lock.Exclusion
import RowStore.Proofs.Lock.Parking
import RowStore.Proofs.Lock.WaitFor
import RowStore.Proofs.Page.Contents
import RowStore.Proofs.Pool.Consistency
import RowStore.Proofs.Store.Moves
import RowStore.Proofs.Store.Files
import RowStore.Proofs.Store.Calls
import RowStore.Proofs.Store.Completion
import RowStore.Proofs.Store.Ledger
import RowStore.Proofs.Store.Agreement
import RowStore.Proofs.Store.Prepared
import RowStore.Proofs.Store.Fresh
import RowStore.Proofs.Store.Listing
import RowStore.Proofs.Store.Places
import RowStore.Proofs.Store.Isolation
import RowStore.Proofs.Store.Alone
import RowStore.Proofs.Store.Lone
import RowStore.Proofs.Store.Overrun
import RowStore.Proofs.Store.Effects
import RowStore.Proofs.Store.Ownership
import RowStore.Proofs.Store.Mirror
import RowStore.Proofs.Store.Pinned
import RowStore.Proofs.Store.Repeat
import RowStore.Proofs.Schema.StoredForm
import RowStore.Proofs.Page.Reload
import RowStore.Proofs.Store.Accesses
import RowStore.Proofs.Store.Frames
import RowStore.Proofs.Store.Replacement
import RowStore.Proofs.Catalog.Inverse
import RowStore.Proofs.Store.SameTables
import RowStore.Proofs.Store.Renaming
import RowStore.Proofs.Cursor.Position
import RowStore.Proofs.Cursor.Retry
import RowStore.Proofs.Store.Loading
import RowStore.Proofs.CommandLine.Load
import RowStore.Proofs.Lock.Verdicts
import RowStore.Proofs.Pool.History
import RowStore.Proofs.Store.Eviction
import RowStore.Proofs.Store.Steady
import RowStore.Proofs.Store.TypeSafe
import RowStore.Proofs.Query.Steps
import RowStore.Proofs.Query.Typing
import RowStore.Proofs.Query.Runs
import RowStore.Proofs.Store.Faithful
import RowStore.Proofs.Query.Forecast
import RowStore.Proofs.Query.Replay
import RowStore.Proofs.Store.Uniform
import RowStore.Proofs.Query.Bounds
import RowStore.Proofs.Store.Sight
import RowStore.Proofs.Store.Endings
import RowStore.Proofs.Store.Attempts
import RowStore.Proofs.Store.FirstFit
import RowStore.Proofs.Store.Refusal
import RowStore.Proofs.Store.Filling
import RowStore.Proofs.Cursor.OwnChanges
import RowStore.Proofs.Query.Changes
import RowStore.Proofs.Query.Deletion
import RowStore.Proofs.Query.Insertion
import RowStore.Proofs.Store.AtHand
import RowStore.Proofs.Query.Doubling
import RowStore.Proofs.Query.Overtaking
import RowStore.Proofs.Lock.Ring
import RowStore.Proofs.Query.Tallies
import RowStore.Proofs.Query.Grouping
import RowStore.Proofs.Query.Interruption
import RowStore.Proofs.Page.SlotMap
import RowStore.Proofs.PageFile.Pages
import RowStore.Proofs.PageFile.Growth
import RowStore.Proofs.Value.Order
import RowStore.Proofs.Query.Selection
import RowStore.Proofs.Path.TableIds
import RowStore.Proofs.Page.Capacity
import RowStore.Proofs.Pool.LeastRecent
import RowStore.Proofs.Histogram.Counts
import RowStore.Proofs.Histogram.Estimates
import RowStore.Proofs.Histogram.Lookups

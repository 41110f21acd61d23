import Tenancy.Cache.Description
import Tenancy.Cache.Form
import Tenancy.Cache.Kind
import Tenancy.Cache.MuxId
import Tenancy.Cache.Registry
import Tenancy.Cache.Table
import Tenancy.Cluster.Basic
import Tenancy.Cluster.Queue
import Tenancy.Cluster.Step
import Tenancy.Duration
import Tenancy.Failure
import Tenancy.Ledger.Basic
import Tenancy.Ledger.Form
import Tenancy.Ledger.Request
import Tenancy.Ledger.Slots
import Tenancy.Lock
import Tenancy.Metrics
import Tenancy.Node.Basic
import Tenancy.Node.Counters
import Tenancy.Node.Settings
import Tenancy.Node.Transaction
import Tenancy.Octets.Field
import Tenancy.Octets.Utf8
import Tenancy.Octets.Word
import Tenancy.Routing.Key
import Tenancy.Routing.Names
import Tenancy.Routing.Router
import Tenancy.Routing.Traffic
import Tenancy.Store.Basic
import Tenancy.Store.Faulty
import Tenancy.Store.FileName
import Tenancy.Text.Blank
import Tenancy.Text.Printable
import Tenancy.Text.Quoted
import Tenancy.Proofs.Octets.Utf8
import Tenancy.Proofs.Octets.Field
import Tenancy.Proofs.Octets.Order
import Tenancy.Proofs.Octets.Cut
import Tenancy.Proofs.Ledger.RoundTrip
import Tenancy.Proofs.Store.Kept
import Tenancy.Proofs.Store.Saved
import Tenancy.Proofs.Ledger.Change
import Tenancy.Proofs.Node.Transaction
import Tenancy.Proofs.Node.Ending
import Tenancy.Proofs.Cluster.Reachable
import Tenancy.Proofs.Ledger.SlotSets
import Tenancy.Proofs.Ledger.Sound
import Tenancy.Proofs.Ledger.Reading
import Tenancy.Proofs.Node.Version
import Tenancy.Proofs.Ledger.Partition
import Tenancy.Proofs.Ledger.Origin
import Tenancy.Proofs.Ledger.Taking
import Tenancy.Proofs.Cluster.Slots
import Tenancy.Proofs.Cluster.Starts
import Tenancy.Proofs.Cluster.Atomicity
import Tenancy.Proofs.Ledger.Effect
import Tenancy.Proofs.Cluster.Log
import Tenancy.Proofs.Cluster.History
import Tenancy.Proofs.Cache.Verified
import Tenancy.Proofs.Cluster.Interleaving
import Tenancy.Proofs.Cluster.Caches
import Tenancy.Proofs.Node.CacheStart
import Tenancy.Proofs.Cluster.References
import Tenancy.Proofs.Routing.Tagged
import Tenancy.Proofs.Cluster.CacheNames
import Tenancy.Proofs.Ledger.Room
import Tenancy.Proofs.Store.Medium
import Tenancy.Proofs.Cluster.Restarts
import Tenancy.Proofs.Cluster.Calls
import Tenancy.Proofs.Cluster.HandedOut
import Tenancy.Proofs.Cluster.Ranges
import Tenancy.Proofs.Ledger.Pool
import Tenancy.Proofs.Store.Agree
import Tenancy.Proofs.Cluster.StartOrder
import Tenancy.Proofs.Cluster.Isolation
import Tenancy.Proofs.Cluster.Meters
import Tenancy.Proofs.Cache.Exact
import Tenancy.Proofs.Cache.Verdict
import Tenancy.Proofs.Cache.Overlap
import Tenancy.Proofs.Routing.Occurrence
import Tenancy.Proofs.Routing.Batch
import Tenancy.Proofs.Text.Trim
import Tenancy.Proofs.Routing.Properties
import Tenancy.Proofs.Routing.Lines
import Tenancy.Proofs.Routing.Layout
import Tenancy.Proofs.Routing.NameTable
import Tenancy.Proofs.Ledger.Layout
import Tenancy.Proofs.Ledger.Truncated
import Tenancy.Proofs.Cluster.Unreadable
import Tenancy.Proofs.Cache.Types
import Tenancy.Proofs.Ledger.Canonical
import Tenancy.Proofs.Cluster.TypeResolution
import Tenancy.Proofs.Store.FileNames
import Tenancy.Proofs.Cache.SpecForm
import Tenancy.Proofs.Store.Faults
import Tenancy.Proofs.Routing.Classified

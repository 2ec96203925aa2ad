import RecordStore.Embedded
import RecordStore.Service.Router
import RecordStore.Store.Call
import RecordStore.Proofs.Codec.Bytes
import RecordStore.Proofs.Codec.Key
import RecordStore.Proofs.Codec.Natural
import RecordStore.Proofs.Codec.RoundTrip
import RecordStore.Proofs.Collection.Denied
import RecordStore.Proofs.Collection.Distinct
import RecordStore.Proofs.Collection.Merge
import RecordStore.Proofs.Collection.OrderPolicy
import RecordStore.Proofs.Collection.Placement
import RecordStore.Proofs.Collection.PutItems
import RecordStore.Proofs.Collection.Ranges
import RecordStore.Proofs.Counters
import RecordStore.Proofs.Descriptor
import RecordStore.Proofs.Engine.Atomic
import RecordStore.Proofs.Engine.Creation
import RecordStore.Proofs.Engine.Decomposition
import RecordStore.Proofs.Engine.Identity
import RecordStore.Proofs.Engine.Legal
import RecordStore.Proofs.Engine.Put
import RecordStore.Proofs.Engine.Reordering
import RecordStore.Proofs.Key.Overlap
import RecordStore.Proofs.Key.Spelling
import RecordStore.Proofs.Policy.WireForm
import RecordStore.Proofs.Selection.Addresses
import RecordStore.Proofs.Selection.Picks
import RecordStore.Proofs.Selection.Spans
import RecordStore.Proofs.Service.Isolation
import RecordStore.Proofs.Service.OneStore
import RecordStore.Proofs.Store.BinRemoval
import RecordStore.Proofs.Store.Expiry
import RecordStore.Proofs.Store.Failure
import RecordStore.Proofs.Store.Generation
import RecordStore.Proofs.Store.Identity
import RecordStore.Proofs.Store.Lifetime
import RecordStore.Proofs.Store.ReadBack
import RecordStore.Proofs.Store.WellFormed
import RecordStore.Proofs.Store.WriteCount
import RecordStore.Proofs.Trap.Operation
import RecordStore.Proofs.Truncation
import RecordStore.Proofs.Value.FiniteMap
import RecordStore.Proofs.Value.Linear

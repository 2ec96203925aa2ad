import RecordStore.Codec.Operation
import RecordStore.Codec.Policy
import RecordStore.Codec.Reply
import RecordStore.Service.Request
import RecordStore.Service.Settings

/-!
# The service

The service keeps one store for each of its namespaces. A request names the
namespace in its key, or, for a truncation, by itself; a request for a namespace
that is not served fails. A batch may mix namespaces, and each of its entries
fails by itself.

Of a request that is wrong in several ways the key is reported first, then what
the verb brings, and then the policy; only then a store is looked for.
-/

namespace RecordStore

/-- The state of the service. -/
structure Service where
  /-- The stores under the names of their namespaces. -/
  stores : Named Store
  /-- The codec of all requests. -/
  codec : Codec

namespace Service

/-- **The service without records**, as its settings say. -/
def start (settings : ServiceSettings) (codec : Codec) : Service where
  stores := Named.ofList
    (settings.namespaces.map fun ns => (ns, Store.empty (settings.storeSettings ns)))
  codec

/-- The reply to a request, and the service afterwards. -/
abbrev Answer := Attempt Service Json

/-- Runs something on the store of a namespace. -/
def withStore {α : Type} (service : Service) (ns : String)
    (run : Store → Attempt Store α) : Attempt Service α :=
  match service.stores.get? ns with
  | none => .fail (.namespaceNotFound ns) service
  | some store =>
    (run store).within fun store => { service with stores := service.stores.insert ns store }

/-- Reads from the store of a namespace. -/
def onStore {α : Type} (service : Service) (ns : String) (read : Store → Except Error α) :
    Except Error α :=
  match service.stores.get? ns with
  | none => .error (.namespaceNotFound ns)
  | some store => read store

/-- Drops every expired record; answers their number. -/
def reapExpired (service : Service) (now : UInt64) : Nat × Service :=
  let swept := service.stores.map (·.reapExpired now)
  (swept.entries.foldl (fun n e => n + e.2.1) 0, { service with stores := swept.map (·.2) })

/-! ### Reading -/

/-- Reads a record. -/
def get (service : Service) (key : Json) (now : UInt64) : Except Error Json := do
  let key ← service.codec.parseKey key
  let record ← service.onStore key.ns (·.get key now)
  return service.codec.recordToJson record now

/-- Reads some bins. -/
def select (service : Service) (key bins : Json) (now : UInt64) : Except Error Json := do
  let key ← service.codec.parseKey key
  let bins ← Codec.parseBinNames bins
  let record ← service.onStore key.ns (·.select key bins now)
  return service.codec.recordToJson record now

/-- Reads metadata. -/
def metadata (service : Service) (key : Json) (now : UInt64) : Except Error Json := do
  let key ← service.codec.parseKey key
  let metadata ← service.onStore key.ns (·.metadata key now)
  return Codec.metadataToJson metadata now

/-- Answers the digest of a key, without looking at any store. -/
def digest (service : Service) (key : Json) : Except Error Json := do
  let key ← service.codec.parseKey key
  return .string key.digest.toHex

/-- The keys of a batch; there must be one. -/
def parseKeys (service : Service) (keys : List Json) : Except Error (List Key) :=
  if keys.isEmpty then .error (.param .keysEmpty) else keys.mapM service.codec.parseKey

/-- Reads many records. -/
def getMany (service : Service) (keys : List Json) (bins : Option Json) (now : UInt64) :
    Except Error Json := do
  let keys ← service.parseKeys keys
  let bins ← bins.mapM Codec.parseBinNames
  return .array <| keys.map fun key =>
    -- a namespace that is not served fails the key and not the batch
    let record := service.onStore key.ns fun store =>
      match bins with
      | some bins => store.select key bins now
      | none => store.get key now
    service.codec.entryToJson key (record.map (service.codec.recordToJson · now))

/-- Reads the metadata of many records. -/
def metadataMany (service : Service) (keys : List Json) (now : UInt64) : Except Error Json := do
  let keys ← service.parseKeys keys
  return .array <| keys.map fun key =>
    let metadata := service.onStore key.ns (·.metadata key now)
    service.codec.entryToJson key (metadata.map (Codec.metadataToJson · now))

/-! ### Writing -/

/-- Writes bins. -/
def put (service : Service) (key bins : Json) (policy : Option Json) (now : UInt64) :
    Answer :=
  .needing service (do
    let key ← service.codec.parseKey key
    let bins ← service.codec.parseBins bins
    return (key, bins, ← WritePolicy.ofRequest policy)) fun (key, bins, policy) =>
      (service.withStore key.ns (·.put key bins policy now)).map fun _ => .null

/-- Deletes a record. -/
def remove (service : Service) (key : Json) (policy : Option Json) (now : UInt64) :
    Answer :=
  .needing service (do
    let key ← service.codec.parseKey key
    return (key, ← WritePolicy.ofRequest policy)) fun (key, policy) =>
      (service.withStore key.ns (·.remove key policy now)).map fun _ => .null

/-- Drops bins. -/
def removeBins (service : Service) (key bins : Json) (policy : Option Json) (now : UInt64) :
    Answer :=
  .needing service (do
    let key ← service.codec.parseKey key
    let bins ← Codec.parseBinNames bins
    return (key, bins, ← WritePolicy.ofRequest policy)) fun (key, bins, policy) =>
      (service.withStore key.ns (·.removeBins key bins policy now)).map fun _ => .null

/-- Sets the lifetime anew; the default of the namespace if none is sent. -/
def touch (service : Service) (key : Json) (ttl : Option Int64) (now : UInt64) : Answer :=
  .needing service (do
    let key ← service.codec.parseKey key
    return (key, ← ttl.elim (.ok .namespaceDefault) Expiration.ofInt64)) fun (key, ttl) =>
      (service.withStore key.ns (·.touch key ttl now)).map (Codec.metadataToJson · now)

/-- Changes one bin. -/
def modify (service : Service) (verb : ModifyVerb) (key : Json) (bin : String) (val : Json)
    (policy : Option Json) (now : UInt64) : Answer :=
  .needing service (do
    let key ← service.codec.parseKey key
    let value ← service.codec.toValue val
    return (key, value, ← WritePolicy.ofRequest policy)) fun (key, value, policy) =>
      let change (store : Store) : Attempt Store Unit :=
        match verb with
        | .append => store.append key bin value policy now
        | .prepend => store.prepend key bin value policy now
        | .increment => store.increment key bin value policy now
      (service.withStore key.ns change).map fun _ => .null

/-- Applies operations. -/
def operate (service : Service) (key ops : Json) (policy : Option Json) (ordered : Bool)
    (now : UInt64) : Answer :=
  .needing service (do
    let key ← service.codec.parseKey key
    let ops ← service.codec.parseOperations ops
    return (key, ops, ← WritePolicy.ofRequest policy)) fun (key, ops, policy) =>
      (service.withStore key.ns (·.operate key ops policy now)).map
        (service.codec.outcomeToJson · ordered)

/-- Removes many records. -/
def truncate (service : Service) (ns : String) (set : Option String) (before : Option UInt64)
    (now : UInt64) : Answer :=
  (service.withStore ns (·.truncate set before now)).map
    fun (removed : Nat) => .integer removed

/-! ### Requests -/

/-- **Handles a request.** -/
def handle (service : Service) (request : Request) (now : UInt64) : Answer :=
  match request with
  | .onKey .get key _ => ⟨service.get key now, service⟩
  | .onKey .exists key _ => ⟨service.metadata key now, service⟩
  | .onKey .digest key _ => ⟨service.digest key, service⟩
  | .onKey .remove key policy => service.remove key policy now
  | .onBins .put key bins policy => service.put key bins policy now
  | .onBins .select key bins _ => ⟨service.select key bins now, service⟩
  | .onBins .removeBin key bins policy => service.removeBins key bins policy now
  | .modify verb key bin val policy => service.modify verb key bin val policy now
  | .touch key ttl => service.touch key ttl now
  | .operate key ops policy ordered => service.operate key ops policy ordered now
  | .batch .getMany keys bins => ⟨service.getMany keys bins now, service⟩
  | .batch .existsMany keys _ => ⟨service.metadataMany keys now, service⟩
  | .truncate ns set before => service.truncate ns set before now

end Service

end RecordStore

import RecordStore.Service.Handler
import RecordStore.Proofs.Attempt
import RecordStore.Proofs.Named

/-!
# Namespaces do not see each other

A digest says nothing about a namespace: a set and a user key have the same digest in all of
them. What keeps the namespaces of a service apart is that each has its own store, and that
a request gets no further than the stores of the namespaces that it names.

This file runs a service through requests and sweeps, and looks at the answers to those of
the requests that name one namespace and no other. They are what a service answers that is
given nothing but these requests and the sweeps (`RecordStore.Service.serve_isolated`).
There are two steps to it. Services that agree on a namespace answer alike what names it
alone, and agree on it afterwards (`RecordStore.Service.AgreeOn.handle`). And nothing else
changes the store of the namespace (`RecordStore.Service.AgreeOn.skip`).
-/

namespace RecordStore

/-! ### The namespaces of a request -/

/-- The namespace that a key names. -/
def Json.namespace? (key : Json) : Option String := (key.field? "ns").bind toText?

namespace Request

/-- The namespaces that a request names, once for each of its keys. -/
def namespaces : Request → List String
  | onKey _ key _ | onBins _ key _ _ | modify _ key _ _ _ | touch key _ | operate key _ _ _ =>
    key.namespace?.toList
  | batch _ keys _ => keys.filterMap Json.namespace?
  | truncate ns _ _ => [ns]

/-- **Whether a request names a namespace and no other.** -/
def namesOnly (request : Request) (ns : String) : Bool :=
  !request.namespaces.isEmpty && request.namespaces.all (· == ns)

end Request

/-- A key that can be read is in the namespace that it names. -/
theorem Codec.namespace?_of_parseKey {c : Codec} {json : Json} {key : Key}
    (h : c.parseKey json = .ok key) : json.namespace? = some key.ns := by
  cases json with
  | object fields =>
    rw [parseKey] at h
    split at h
    · rename_i ns hns
      have hkey : key.ns = ns := by
        obtain ⟨set, -, h⟩ := bind_eq_ok_iff.mp h
        split at h
        · obtain ⟨value, -, h⟩ := bind_eq_ok_iff.mp h
          obtain ⟨userKey, -, h⟩ := bind_eq_ok_iff.mp h
          obtain ⟨-, h⟩ := check_bind_eq_ok_iff.mp h
          rw [← Except.ok.inj h]
        · obtain ⟨digest, -, h⟩ := bind_eq_ok_iff.mp h
          obtain ⟨-, h⟩ := check_bind_eq_ok_iff.mp h
          rw [← Except.ok.inj h]
        · cases h
      rw [Json.namespace?, Json.field?, hns, hkey]
      rfl
    · cases h
  | _ => cases h

namespace Service

variable {s s' : Service} {codec : Codec} {ns : String} {request : Request} {now : UInt64}

/-! ### The forms of requests -/

/-- **What a request does**, to any service with a codec. -/
inductive Form (codec : Codec) (request : Request) (now : UInt64) : Prop where
  /-- It reads, and answers the same where the stores are the same that it names. -/
  | reads (hstate : ∀ s : Service, s.codec = codec → (s.handle request now).state = s)
      (hresult : ∀ s s' : Service, s.codec = codec → s'.codec = codec →
        (∀ ns ∈ request.namespaces, s.stores.get? ns = s'.stores.get? ns) →
          (s.handle request now).result = (s'.handle request now).result)
  /-- It runs something on the store of the one namespace that it names. -/
  | runs (ns : String) (hns : request.namespaces = [ns]) (run : Store → Attempt Store Json)
      (hrun : ∀ s : Service, s.codec = codec → s.handle request now = s.withStore ns run)

theorem onStore_congr {α : Type} (h : s.stores.get? ns = s'.stores.get? ns)
    (read : Store → Except Error α) : s.onStore ns read = s'.onStore ns read := by
  rw [onStore, onStore, h]

/-- The answer of what runs on a store, in another form. -/
theorem map_withStore {α β : Type} (s : Service) (ns : String) (run : Store → Attempt Store α)
    (f : α → β) : (s.withStore ns run).map f = s.withStore ns fun store => (run store).map f := by
  rw [withStore, withStore]
  cases s.stores.get? ns <;> rfl

/-- **A verb that reads under one key** reads the key first; then it looks at the store of
the key, if at any. -/
theorem Form.of_read {key : Json} (next : Service → Key → Except Error Json)
    (hnamespaces : request.namespaces = key.namespace?.toList)
    (hnext : ∀ (s s' : Service) (key : Key), s.codec = s'.codec →
      s.stores.get? key.ns = s'.stores.get? key.ns → next s key = next s' key)
    (hhandle : ∀ s : Service,
      s.handle request now = ⟨s.codec.parseKey key >>= next s, s⟩) :
    Form codec request now := by
  refine .reads (fun s _ => ?_) (fun s s' hs hs' h => ?_)
  · rw [hhandle]
  · have hcodec : s.codec = s'.codec := hs.trans hs'.symm
    rw [hhandle, hhandle, ← hcodec]
    cases hparse : s.codec.parseKey key with
    | error e => rfl
    | ok parsed =>
      have hmem : parsed.ns ∈ request.namespaces := by
        rw [hnamespaces, Codec.namespace?_of_parseKey hparse]
        exact List.mem_singleton_self _
      exact hnext s s' parsed hcodec (h _ hmem)

/-- **A verb that writes under one key** reads the key first and then whatever else it is
given, and runs on the store of the key. If something cannot be read it fails, and changes
nothing. -/
theorem Form.of_write {α β : Type} {key : Json} (more : Key → Except Error (Key × α))
    (run : Key × α → Store → Attempt Store β) (render : β → Json)
    (hnamespaces : request.namespaces = key.namespace?.toList)
    (hmore : ∀ key a, more key = .ok a → a.1 = key)
    (hhandle : ∀ s : Service, s.codec = codec → s.handle request now =
      .needing s (codec.parseKey key >>= more) fun a => (s.withStore a.1.ns (run a)).map render) :
    Form codec request now := by
  cases hchecks : codec.parseKey key >>= more with
  | error e =>
    have hfail : ∀ s : Service, s.codec = codec → s.handle request now = .fail e s := by
      intro s hs
      rw [hhandle s hs, hchecks]
      rfl
    refine .reads (fun s hs => ?_) (fun s s' hs hs' _ => ?_)
    · rw [hfail s hs]
      rfl
    · rw [hfail s hs, hfail s' hs']
      rfl
  | ok a =>
    obtain ⟨parsed, hparse, hmore'⟩ := bind_eq_ok_iff.mp hchecks
    refine .runs a.1.ns ?_ (fun store => (run a store).map render) (fun s hs => ?_)
    · rw [hnamespaces, Codec.namespace?_of_parseKey hparse, hmore _ _ hmore']
      rfl
    · rw [hhandle s hs, hchecks, ← map_withStore]
      rfl

/-- What is read after a key leaves the key as it is. -/
theorem fst_of_pair {α : Type} {key : Key} {x : Except Error α} {a : Key × α}
    (h : (do return (key, ← x)) = .ok a) : a.1 = key := by
  obtain ⟨b, -, h⟩ := bind_eq_ok_iff.mp h
  rw [← Except.ok.inj h]

theorem fst_of_triple {α β : Type} {key : Key} {x : Except Error α} {y : Except Error β}
    {a : Key × α × β} (h : (do let b ← x; return (key, b, ← y)) = .ok a) : a.1 = key := by
  obtain ⟨b, -, h⟩ := bind_eq_ok_iff.mp h
  obtain ⟨c, -, h⟩ := bind_eq_ok_iff.mp h
  rw [← Except.ok.inj h]

/-- The keys of a batch are in the namespaces that the batch names. -/
theorem mem_namespaces_of_parseKeys {keys : List Json} {parsed : List Key}
    (h : s.parseKeys keys = .ok parsed) {key : Key} (hkey : key ∈ parsed) :
    key.ns ∈ keys.filterMap Json.namespace? := by
  obtain ⟨-, h⟩ := ite_error_eq_ok_iff.mp h
  obtain ⟨json, hjson, hparse⟩ := exists_of_mem_mapM h hkey
  exact List.mem_filterMap.mpr ⟨json, hjson, Codec.namespace?_of_parseKey hparse⟩

/-- **A verb on many keys** reads the keys first and then whatever else it is given; each entry
of its answer looks at the store of its key. -/
theorem Form.of_batch {α : Type} {keys : List Json} (more : Except Error α)
    (entry : Service → α → Key → Json)
    (hnamespaces : request.namespaces = keys.filterMap Json.namespace?)
    (hentry : ∀ (s s' : Service) (a : α) (key : Key), s.codec = s'.codec →
      s.stores.get? key.ns = s'.stores.get? key.ns → entry s a key = entry s' a key)
    (hhandle : ∀ s : Service, s.handle request now =
      ⟨do let parsed ← s.parseKeys keys; return .array (parsed.map (entry s (← more))), s⟩) :
    Form codec request now := by
  refine .reads (fun s _ => ?_) (fun s s' hs hs' h => ?_)
  · rw [hhandle]
  · have hcodec : s.codec = s'.codec := hs.trans hs'.symm
    have hparse : s.parseKeys keys = s'.parseKeys keys := by rw [parseKeys, parseKeys, hcodec]
    rw [hhandle, hhandle, ← hparse]
    cases hkeys : s.parseKeys keys with
    | error e => simp only [bind, Except.bind]
    | ok parsed =>
      have hsame : ∀ a, parsed.map (entry s a) = parsed.map (entry s' a) := fun a =>
        List.map_congr_left fun key hkey => hentry s s' a key hcodec
          (h _ (hnamespaces ▸ mem_namespaces_of_parseKeys hkeys hkey))
      simp only [bind, Except.bind, hsame]

/-- The change of one bin that a verb makes. -/
def changeBin (verb : ModifyVerb) (store : Store) (key : Key) (bin : String) (value : Value)
    (policy : WritePolicy) (now : UInt64) : Attempt Store Unit :=
  match verb with
  | .append => store.append key bin value policy now
  | .prepend => store.prepend key bin value policy now
  | .increment => store.increment key bin value policy now

/-- **Every request has one of the two forms.** -/
theorem handle_form (codec : Codec) (request : Request) (now : UInt64) :
    Form codec request now := by
  cases request with
  | onKey verb key policy =>
    cases verb with
    | get =>
      refine .of_read (fun s key => do
        let record ← s.onStore key.ns (·.get key now)
        return s.codec.recordToJson record now) rfl ?_ fun s => rfl
      intro s s' key hcodec hstore
      rw [onStore_congr hstore, hcodec]
    | «exists» =>
      refine .of_read (fun s key => do
        let metadata ← s.onStore key.ns (·.metadata key now)
        return Codec.metadataToJson metadata now) rfl ?_ fun s => rfl
      intro s s' key hcodec hstore
      rw [onStore_congr hstore]
    | remove =>
      refine .of_write (fun key => do return (key, ← WritePolicy.ofRequest policy))
        (fun a store => store.remove a.1 a.2 now) (fun _ => .null) rfl
        (fun key a => fst_of_pair) ?_
      rintro s rfl
      rfl
    | digest =>
      refine .of_read (fun s key => .ok (.string key.digest.toHex)) rfl ?_ fun s => rfl
      intro s s' key hcodec hstore
      rfl
  | onBins verb key bins policy =>
    cases verb with
    | put =>
      refine .of_write (fun key => do
          let bins ← codec.parseBins bins
          return (key, bins, ← WritePolicy.ofRequest policy))
        (fun a store => store.put a.1 a.2.1 a.2.2 now) (fun _ => .null) rfl
        (fun key a => fst_of_triple) ?_
      rintro s rfl
      rfl
    | select =>
      refine .of_read (fun s key => do
        let bins ← Codec.parseBinNames bins
        let record ← s.onStore key.ns (·.select key bins now)
        return s.codec.recordToJson record now) rfl ?_ fun s => rfl
      intro s s' key hcodec hstore
      simp only [onStore_congr hstore, hcodec]
    | removeBin =>
      refine .of_write (fun key => do
          let bins ← Codec.parseBinNames bins
          return (key, bins, ← WritePolicy.ofRequest policy))
        (fun a store => store.removeBins a.1 a.2.1 a.2.2 now) (fun _ => .null) rfl
        (fun key a => fst_of_triple) ?_
      rintro s rfl
      rfl
  | modify verb key bin val policy =>
    refine .of_write (fun key => do
        let value ← codec.toValue val
        return (key, value, ← WritePolicy.ofRequest policy))
      (fun a store => changeBin verb store a.1 bin a.2.1 a.2.2 now) (fun _ => .null) rfl
      (fun key a => fst_of_triple) ?_
    rintro s rfl
    rfl
  | touch key ttl =>
    refine .of_write (fun key => do
        return (key, ← ttl.elim (.ok .namespaceDefault) Expiration.ofInt64))
      (fun a store => store.touch a.1 a.2 now) (Codec.metadataToJson · now) rfl
      (fun key a => fst_of_pair) ?_
    rintro s rfl
    rfl
  | operate key ops policy ordered =>
    refine .of_write (fun key => do
        let ops ← codec.parseOperations ops
        return (key, ops, ← WritePolicy.ofRequest policy))
      (fun a store => store.operate a.1 a.2.1 a.2.2 now) (codec.outcomeToJson · ordered) rfl
      (fun key a => fst_of_triple) ?_
    rintro s rfl
    rfl
  | batch verb keys bins =>
    cases verb with
    | getMany =>
      refine .of_batch (bins.mapM Codec.parseBinNames) (fun s bins key =>
        s.codec.entryToJson key ((s.onStore key.ns fun store =>
          bins.elim (store.get key now) (store.select key · now)).map
            (s.codec.recordToJson · now))) rfl ?_ ?_
      · intro s s' bins key hcodec hstore
        rw [onStore_congr hstore, hcodec]
      · intro s
        rw [handle, getMany]
        refine congrArg (Attempt.mk · s) (bind_congr fun parsed => bind_congr fun names => ?_)
        cases names <;> rfl
    | existsMany =>
      refine .of_batch (.ok ()) (fun s _ key =>
        s.codec.entryToJson key ((s.onStore key.ns (·.metadata key now)).map
          (Codec.metadataToJson · now))) rfl ?_ fun s => rfl
      intro s s' _ key hcodec hstore
      rw [onStore_congr hstore, hcodec]
  | truncate ns set before =>
    refine .runs ns rfl (fun store => (store.truncate set before now).map
      fun (removed : Nat) => .integer removed) fun s _ => ?_
    exact map_withStore ..

/-! ### Services that agree on a namespace -/

/-- **Two services agree on a namespace** if they have the same codec and the same store under
its name, or none. -/
structure AgreeOn (ns : String) (s s' : Service) : Prop where
  /-- Requests are read in the same way. -/
  codec : s.codec = s'.codec
  /-- The stores are the same. -/
  store : s.stores.get? ns = s'.stores.get? ns

theorem AgreeOn.refl (ns : String) (s : Service) : AgreeOn ns s s := ⟨rfl, rfl⟩

theorem codec_withStore {α : Type} (s : Service) (ns : String) (run : Store → Attempt Store α) :
    (s.withStore ns run).state.codec = s.codec := by
  rw [withStore]
  split <;> rfl

/-- What runs on the store of a namespace leaves every other store as it is. -/
theorem get?_withStore_of_ne {α : Type} {other : String} (h : ns ≠ other) (s : Service)
    (run : Store → Attempt Store α) :
    (s.withStore other run).state.stores.get? ns = s.stores.get? ns := by
  rw [withStore]
  split
  · rfl
  · exact (Named.get?_insert ..).trans (if_neg h)

/-- What runs on stores that are the same answers the same, and leaves the same. -/
theorem AgreeOn.withStore {α : Type} (h : AgreeOn ns s s') (run : Store → Attempt Store α) :
    (s.withStore ns run).result = (s'.withStore ns run).result ∧
      AgreeOn ns (s.withStore ns run).state (s'.withStore ns run).state := by
  have hcodec : (s.withStore ns run).state.codec = (s'.withStore ns run).state.codec := by
    rw [codec_withStore, codec_withStore, h.codec]
  suffices hstore : (s.withStore ns run).result = (s'.withStore ns run).result ∧
      (s.withStore ns run).state.stores.get? ns = (s'.withStore ns run).state.stores.get? ns from
    ⟨hstore.1, hcodec, hstore.2⟩
  rw [Service.withStore, Service.withStore, ← h.store]
  cases hfound : s.stores.get? ns with
  | none => exact ⟨rfl, h.store⟩
  | some store => simp [Attempt.within]

/-! ### One step -/

/-- **A request that names one namespace** gets the same answer from services that agree on
it, which agree on it afterwards. -/
theorem AgreeOn.handle (h : AgreeOn ns s s') (hnames : request.namesOnly ns) (now : UInt64) :
    (s.handle request now).result = (s'.handle request now).result ∧
      AgreeOn ns (s.handle request now).state (s'.handle request now).state := by
  obtain ⟨-, hall⟩ := (Bool.and_eq_true _ _).mp hnames
  have hns : ∀ other ∈ request.namespaces, other = ns := fun other hother =>
    beq_iff_eq.mp (List.all_eq_true.mp hall other hother)
  cases handle_form s.codec request now with
  | reads hstate hresult =>
    refine ⟨hresult s s' rfl h.codec.symm fun other hother => ?_, ?_⟩
    · rw [hns other hother, h.store]
    · rw [hstate s rfl, hstate s' h.codec.symm]
      exact h
  | runs other hother run hrun =>
    have hsame : other = ns := hns other (hother ▸ List.mem_singleton_self other)
    subst hsame
    rw [hrun s rfl, hrun s' h.codec.symm]
    exact h.withStore run

/-- **A request that names another namespace**, or none, or several, leaves the store of a
namespace as it is. -/
theorem AgreeOn.skip (h : AgreeOn ns s s') (hnames : request.namesOnly ns = false)
    (now : UInt64) : AgreeOn ns (s.handle request now).state s' := by
  cases handle_form s.codec request now with
  | reads hstate hresult =>
    rw [hstate s rfl]
    exact h
  | runs other hother run hrun =>
    have hne : ns ≠ other := by
      rintro rfl
      simp [Request.namesOnly, hother] at hnames
    rw [hrun s rfl]
    exact ⟨(codec_withStore ..).trans h.codec, (get?_withStore_of_ne hne ..).trans h.store⟩

/-- Sweeps treat every store by itself. -/
theorem AgreeOn.reapExpired (h : AgreeOn ns s s') (now : UInt64) :
    AgreeOn ns (s.reapExpired now).2 (s'.reapExpired now).2 := by
  have hmap : ∀ s : Service, (s.reapExpired now).2.stores.get? ns =
      (s.stores.get? ns).map fun store => (store.reapExpired now).2 := by
    intro s
    rw [Service.reapExpired, Named.get?_map, Named.get?_map, Option.map_map]
    rfl
  refine ⟨h.codec, ?_⟩
  rw [hmap, hmap, h.store]

/-! ### Runs -/

/-- **A step of a service.** -/
inductive Step where
  /-- A request is handled. -/
  | request (request : Request)
  /-- Every expired record is dropped. -/
  | sweep

/-- Whether a step is a sweep or a request that names a namespace and no other. -/
def Step.concerns (ns : String) : Step → Bool
  | .request r => r.namesOnly ns
  | .sweep => true

/-- **Runs a service** through steps, each at its time, and answers the requests among them. -/
def serve (service : Service) :
    (steps : List (Step × UInt64)) → List (Request × Except Error Json)
  | [] => []
  | (.request request, now) :: rest =>
    let answer := service.handle request now
    (request, answer.result) :: answer.state.serve rest
  | (.sweep, now) :: rest => (service.reapExpired now).2.serve rest

/-- **The steps that concern a namespace are answered as if there were no others**, by services
that agree on the namespace. -/
theorem AgreeOn.serve (h : AgreeOn ns s s') (steps : List (Step × UInt64)) :
    (s.serve steps).filter (fun answered => answered.1.namesOnly ns) =
      s'.serve (steps.filter fun step => step.1.concerns ns) := by
  induction steps generalizing s s' with
  | nil => rfl
  | cons step rest ih =>
    obtain ⟨step, now⟩ := step
    cases step with
    | request request =>
      cases hnames : request.namesOnly ns with
      | true =>
        obtain ⟨hresult, hstate⟩ := h.handle hnames now
        simp [Service.serve, Step.concerns, hnames, hresult, ih hstate]
      | false => simp [Service.serve, Step.concerns, hnames, ih (h.skip hnames now)]
    | sweep => simp [Service.serve, Step.concerns, ih (h.reapExpired now)]

/-- **Namespaces do not interfere.** Of the answers to a run, those to the requests that name
one namespace are the answers to a run of these requests and the sweeps alone, whatever the
other requests do in other namespaces under the same digests. -/
theorem serve_isolated (settings : ServiceSettings) (codec : Codec) (ns : String)
    (steps : List (Step × UInt64)) :
    ((start settings codec).serve steps).filter (fun answered => answered.1.namesOnly ns) =
      (start settings codec).serve (steps.filter fun step => step.1.concerns ns) :=
  (AgreeOn.refl ns (start settings codec)).serve steps

end Service

end RecordStore

import RecordStore.Proofs.Store.ReadBack

/-!
# Removing bins by name

To remove some bins of a record is to write null in each of them
(`RecordStore.Engine.removalOps`). So a removal has to pass the checks that every list of
operations has to pass, and these let a bin be written once. A list of names in which no name is
repeated passes them, and of the bins of the record those are left that are not named
(`RecordStore.Store.removeBins_drops_named`); names that the record does not have make no
difference, and a record of which nothing is left is deleted. A list in which a name is repeated
is refused, although it is clear what is to be removed, and the store is what it was
(`RecordStore.Store.removeBins_refuses_repeated`).
-/

namespace RecordStore

namespace Engine

variable {engine : Engine} {existing : Option Record} {key : Key} {base : Bins}
  {policy : WritePolicy} {now : UInt64} {names : List String}

/-! ### The operations of a removal -/

/-- The operations of a removal of bins, one for each name. -/
def removalOps (names : List String) : List Operation := names.map (.write · .null)

theorem mem_removalOps {op : Operation} :
    op ∈ removalOps names ↔ ∃ name ∈ names, .write name .null = op :=
  List.mem_map

theorem onlyWrites_removalOps (names : List String) : OnlyWrites (removalOps names) :=
  fun op hop => by
    obtain ⟨name, -, rfl⟩ := mem_removalOps.mp hop
    exact ⟨name, .null, rfl⟩

/-- The bins that a removal writes are those that are named. -/
theorem binsOf_removalOps (names : List String) :
    (Plan.writesOf (removalOps names)).filterMap Operation.bin? = names := by
  rw [(onlyWrites_removalOps names).writesOf_eq, removalOps, List.filterMap_map]
  exact List.filterMap_some

theorem validate_removalOps (hvalid : ∀ name ∈ names, checkBinName name = .ok ()) :
    ∀ op ∈ removalOps names, op.validate = .ok () := by
  intro op hop
  obtain ⟨name, hname, rfl⟩ := mem_removalOps.mp hop
  exact check_bind_eq_ok_iff.mpr ⟨hvalid name hname, rfl⟩

theorem removalOps_ne_nil (hne : names ≠ []) : removalOps names ≠ [] := fun h =>
  hne (List.map_eq_nil_iff.mp h)

/-- **A removal succeeds** if no name is repeated, whether there are bins with the names or
not. -/
theorem exists_outcome_removal (hne : names ≠ [])
    (hvalid : ∀ name ∈ names, checkBinName name = .ok ()) (hdistinct : names.Nodup)
    (engine : Engine) (existing : Option Record) (key : Key) (now : UInt64) :
    ∃ outcome, engine.operate existing key (removalOps names) {} now = .ok outcome := by
  have hops := onlyWrites_removalOps names
  have hcheck : Plan.check (removalOps names) = .ok ⟨!(Plan.writesOf (removalOps names)).isEmpty,
      Plan.recordLevelOf (removalOps names)⟩ := by
    refine Plan.check_eq_ok_iff.mpr ⟨removalOps_ne_nil hne, validate_removalOps hvalid, ?_, ?_, rfl⟩
    · rwa [binsOf_removalOps]
    · rw [hops.recordLevelOf_eq]
      exact nofun
  have hplan := hops.plan_eq hcheck
  rw [hplan] at hcheck
  exact hops.exists_outcome hcheck rfl

/-- **A removal fails** if a name is repeated. -/
theorem operate_removal_of_repeated (hne : names ≠ [])
    (hvalid : ∀ name ∈ names, checkBinName name = .ok ()) (hrepeated : ¬names.Nodup)
    (engine : Engine) (existing : Option Record) (key : Key) (policy : WritePolicy)
    (now : UInt64) :
    ∃ name, List.Duplicate name names ∧ engine.operate existing key (removalOps names) policy now =
      .error (.param (.binWrittenTwice name)) := by
  rw [← binsOf_removalOps names] at hrepeated
  obtain ⟨name, hname, herror⟩ :=
    Plan.exists_of_check (removalOps_ne_nil hne) (validate_removalOps hvalid) hrepeated
  rw [binsOf_removalOps] at hname
  refine ⟨name, hname, ?_⟩
  rw [operate, herror]
  rfl

/-- **The bins after a removal**, bin by bin. -/
theorem Written.get?_removal {written : Bins} (h : engine.Written base (removalOps names) written)
    (name : String) : written.get? name = if name ∈ names then none else base.get? name := by
  split
  · rename_i hname
    rw [h.addressed _ (mem_removalOps.mpr ⟨name, hname, rfl⟩) rfl name rfl]
    exact base.get?_write_self name .null
  · rename_i hname
    refine h.others name fun op hop _ hbin => ?_
    obtain ⟨other, hother, rfl⟩ := mem_removalOps.mp hop
    obtain rfl := Option.some_inj.mp hbin
    exact hname hother

end Engine

namespace Store

variable {s : Store} {key : Key} {now : UInt64} {record : Record} {names : List String}

/-! ### What a removal leaves -/

/-- **What a store shows after a removal** in which no name is repeated. -/
theorem live?_removeBins (hnow : now.toNat + 1 < UInt64.size)
    (hrecord : s.get key now = .ok record) (hne : names ≠ [])
    (hvalid : ∀ name ∈ names, checkBinName name = .ok ()) (hdistinct : names.Nodup) :
    (s.removeBins key names {} now).result = .ok () ∧ ∃ kept : Bins,
      (∀ name, kept.get? name = if name ∈ names then none else record.bins.get? name) ∧
      (s.removeBins key names {} now).state.live? key.digest now =
        if kept.isEmpty then none
        else some (s.engine.putRecord (some record) key {} now kept) := by
  obtain ⟨hns, hlive⟩ := get_eq_ok_iff.mp hrecord
  obtain ⟨outcome, houtcome⟩ := Engine.exists_outcome_removal hne hvalid hdistinct s.engine
    (s.live? key.digest now) key now
  have hrun : (s.operate key (Engine.removalOps names) {} now).result = .ok outcome :=
    run_result_eq_ok_iff.mpr ⟨hns, houtcome⟩
  obtain ⟨kept, hwritten, hafter⟩ := live?_run_of_onlyWrites
    (Engine.onlyWrites_removalOps names) hnow (by decide) hrun houtcome
  rw [hlive] at hwritten hafter
  exact ⟨map_eq_ok_iff.mpr ⟨outcome, hrun, rfl⟩, kept, hwritten.get?_removal, hafter⟩

/-- **A removal drops the bins that are named**, and no others. If the names are valid and none
is repeated, the removal succeeds, in whatever order they are and whether the record has such
bins or not. A reader then finds the record with the bins that are not named, unless there are
none. If a name is repeated, the removal is refused for it, and nothing is changed. -/
theorem removeBins_drops_named (hnow : now.toNat + 1 < UInt64.size)
    (hrecord : s.get key now = .ok record) (hne : names ≠ [])
    (hvalid : ∀ name ∈ names, checkBinName name = .ok ()) :
    let removal := s.removeBins key names {} now
    let left := fun name => if name ∈ names then none else record.bins.get? name
    (names.Nodup → removal.result = .ok () ∧
        ((∀ name, left name = none) → removal.state.get key now = .error .recordNotFound) ∧
        ((∃ name, left name ≠ none) → ∃ kept, removal.state.get key now = .ok kept ∧
          (∀ name, kept.bins.get? name = left name) ∧ kept.key = record.key ∧
          kept.metadata.lastUpdateTime = now ∧ kept.generation = record.generation + 1)) ∧
      (¬names.Nodup → ∃ name, List.Duplicate name names ∧
        removal = .fail (.param (.binWrittenTwice name)) s) := by
  intro removal left
  refine ⟨fun hdistinct => ?_, fun hrepeated => ?_⟩
  · obtain ⟨hresult, kept, hkept, hlive⟩ := live?_removeBins hnow hrecord hne hvalid hdistinct
    have hsettings : removal.state.settings = s.settings := settings_runOn s key _ now
    have hns : removal.state.checkNamespace key = .ok () := by
      rw [checkNamespace, hsettings]
      exact (get_eq_ok_iff.mp hrecord).1
    have hget := get_of_live? hns hlive
    have hempty : kept.isEmpty = true ↔ ∀ name, left name = none :=
      Named.isEmpty_iff_get?.trans (forall_congr' fun name => by rw [hkept])
    refine ⟨hresult, fun hnone => ?_, fun hsome => ?_⟩
    · rwa [if_pos (hempty.mpr hnone)] at hget
    · obtain ⟨name, hname⟩ := hsome
      rw [if_neg fun h => hname (hempty.mp h name)] at hget
      exact ⟨_, hget, hkept, rfl, rfl, rfl⟩
  · obtain ⟨hns, hlive⟩ := get_eq_ok_iff.mp hrecord
    obtain ⟨name, hname, herror⟩ := Engine.operate_removal_of_repeated hne hvalid hrepeated
      s.engine (s.live? key.digest now) key {} now
    refine ⟨name, hname, ?_⟩
    change (s.run key (s.engine.operate · key (Engine.removalOps names) {} now) now).forget = _
    rw [run_eq, hns]
    simp only [herror]
    rw [reap_of_live? hlive]
    rfl

/-- Of a record with two bins one is removed, beside one that is not there; or both are, and the
record is gone. -/
theorem removeBins_drops_named_of_two :
    let key : Key := ⟨"test", "demo", none, ⟨List.replicate 20 0, rfl⟩⟩
    let bins : Bins := Named.ofList [("a", .integer 1), ("b", .integer 2)]
    let s := (replay (empty {}) [(.put key bins { ttl := .after 10 }, 0)]).2
    let one := s.removeBins key ["c", "a"] {} 5000
    let both := s.removeBins key ["b", "a"] {} 5000
    s.Reachable ∧ (∃ record, s.get key 5000 = .ok record) ∧
      one.result = .ok () ∧ (∃ kept, one.state.get key 5000 = .ok kept ∧
        kept.bins.get? "a" = none ∧ kept.bins.get? "b" = some (.integer 2)) ∧
      both.result = .ok () ∧ both.state.get key 5000 = .error .recordNotFound := by
  intro key bins s one both
  obtain ⟨record, hrecord, hbins⟩ : ∃ record, s.get key 5000 = .ok record ∧ record.bins = bins :=
    ⟨_, rfl, rfl⟩
  have hc : checkBinName "c" = .ok () := rfl
  have hb : checkBinName "b" = .ok () := rfl
  have ha : checkBinName "a" = .ok () := rfl
  obtain ⟨hone, -, hsome⟩ := (removeBins_drops_named (by decide) hrecord
    (List.cons_ne_nil "c" ["a"]) (by simp [hc, ha])).1 (by decide)
  obtain ⟨hboth, hnone, -⟩ := (removeBins_drops_named (by decide) hrecord
    (List.cons_ne_nil "b" ["a"]) (by simp [hb, ha])).1 (by decide)
  rw [hbins] at hsome hnone
  obtain ⟨kept, hget, hkept, -⟩ := hsome ⟨"b", by decide +kernel⟩
  refine ⟨⟨{}, _, rfl⟩, ⟨record, hrecord⟩, hone, ⟨kept, hget, hkept "a", hkept "b"⟩, hboth, ?_⟩
  refine hnone fun name => ite_eq_left_iff.mpr fun hname => ?_
  obtain ⟨hnotb, hnota⟩ : name ≠ "b" ∧ name ≠ "a" := by simpa using hname
  exact (Named.get?_insert ..).trans <| (if_neg hnotb).trans <|
    (Named.get?_insert ..).trans (if_neg hnota)

/-- **A name that is repeated is refused**, and the bin stays. -/
theorem removeBins_refuses_repeated :
    let key : Key := ⟨"test", "demo", none, ⟨List.replicate 20 0, rfl⟩⟩
    let bins : Bins := Named.ofList [("a", .integer 1), ("b", .integer 2)]
    let s := (replay (empty {}) [(.put key bins {}, 0)]).2
    let removal := s.removeBins key ["a", "a"] {} 1000
    s.Reachable ∧ (∀ name ∈ ["a", "a"], checkBinName name = .ok ()) ∧
      removal.result = .error (.param (.binWrittenTwice "a")) ∧
      ∃ record, s.get key 1000 = .ok record ∧ removal.state.get key 1000 = .ok record ∧
        record.bins.get? "a" = some (.integer 1) :=
  ⟨⟨{}, _, rfl⟩, by simp [show checkBinName "a" = .ok () from rfl], rfl, _, rfl, rfl, rfl⟩

end Store

end RecordStore

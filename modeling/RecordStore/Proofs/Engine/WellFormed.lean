import RecordStore.Proofs.Collection.WellFormed
import RecordStore.Proofs.Engine.Outcome
import RecordStore.Proofs.Status

/-!
# Calls keep records well-formed

A bin is well-formed (`RecordStore.WellFormedBin`) when its name has a legal length and
its value is well-formed and not null. A legal operation keeps the bins of a record so
(`RecordStore.Engine.wellFormed_apply`): that the name of a bin is legal and that a number
is added to a number are among the checks that it has passed, a null that is written
removes its bin, and what lists and maps come to is a matter of their own operations.

Nothing else in a call touches the bins, so that the record that it leaves has well-formed
bins again (`RecordStore.Engine.wellFormed_operate`), and a key that names the same
digest (`RecordStore.Engine.key_operate`).
-/

namespace RecordStore

/-! ### Well-formed bins -/

/-- **A bin is well-formed**: its name has one to fourteen bytes, and its value is not
null and well-formed. -/
structure WellFormedBin (bin : String × Value) : Prop where
  /-- The name is not empty. -/
  nameFilled : 1 ≤ bin.1.utf8ByteSize
  /-- The name is not too long. -/
  nameBounded : bin.1.utf8ByteSize ≤ 14
  /-- The bin holds something. -/
  filled : bin.2 ≠ .null
  /-- Every map in the bin is well-formed, at any depth. -/
  wellFormed : bin.2.WellFormed

namespace Bins

variable {bins : Bins}

/-- Every bin is well-formed. -/
def WellFormed (bins : Bins) : Prop := ∀ bin ∈ bins.entries, WellFormedBin bin

theorem WellFormed.empty : WellFormed Named.empty := fun _ h => absurd h List.not_mem_nil

theorem WellFormed.insert (h : WellFormed bins) {name : String} {value : Value}
    (hname : checkBinName name = .ok ()) (hfilled : value ≠ .null) (hvalue : value.WellFormed) :
    WellFormed (bins.insert name value) := by
  obtain ⟨hlow, hhigh⟩ := checkBinName_eq_ok_iff.mp hname
  intro bin hbin
  rcases Named.mem_insertEntry hbin with rfl | hbin
  · exact ⟨hlow, hhigh, hfilled, hvalue⟩
  · exact h bin hbin

theorem WellFormed.erase (h : WellFormed bins) (name : String) : WellFormed (bins.erase name) :=
  fun bin hbin => h bin (List.mem_filter.mp hbin).1

theorem WellFormed.of_get? (h : WellFormed bins) {name : String} {value : Value}
    (hget : bins.get? name = some value) : value.WellFormed :=
  (h _ (Named.get?_eq_some_iff.mp hget)).wellFormed

/-- A number is not null. -/
theorem ne_null_of_isNumeric {v : Value} (h : v.isNumeric) : v ≠ .null := by
  rintro rfl
  cases h

theorem WellFormed.write (h : WellFormed bins) {name : String} {value : Value}
    (hname : checkBinName name = .ok ()) (hvalue : value.WellFormed) :
    WellFormed (bins.write name value) := by
  rw [Bins.write]
  split
  · exact h.erase name
  · rename_i hnull
    refine h.insert hname ?_ hvalue
    rintro rfl
    exact hnull rfl

theorem WellFormed.increment (h : WellFormed bins) {name : String} {delta : Value}
    (hname : checkBinName name = .ok ()) (hdelta : delta.isNumeric) :
    WellFormed (bins.increment name delta).state := by
  rw [Bins.increment]
  split
  · exact h.insert hname (ne_null_of_isNumeric hdelta) (.of_isNumeric hdelta)
  · rename_i current hget
    cases hadd : current.add delta with
    | error e => exact h
    | ok sum =>
      have hsum := Value.isNumeric_of_add hadd
      exact h.insert hname (ne_null_of_isNumeric hsum) (.of_isNumeric hsum)

/-- What is added to a text or to bytes makes a text or bytes. -/
theorem checkConcat_of_joined {name : String} {place : End} {current value content : Value}
    (h : joined name place current value = .ok content) :
    Operation.checkConcat content = .ok () := by
  unfold joined at h
  split at h
  · cases h
    rfl
  · cases h
    rfl
  · cases h

/-- A text and bytes hold no map and are not null. -/
theorem wellFormed_of_checkConcat {v : Value} (h : Operation.checkConcat v = .ok ()) :
    v ≠ .null ∧ v.WellFormed := by
  cases v with
  | string s => exact ⟨nofun, .string s⟩
  | bytes b => exact ⟨nofun, .bytes b⟩
  | _ => cases h

theorem WellFormed.concat (h : WellFormed bins) {name : String} {value : Value}
    (hname : checkBinName name = .ok ()) (hvalue : Operation.checkConcat value = .ok ())
    (place : End) : WellFormed (bins.concat name value place).state := by
  rw [Bins.concat]
  split
  · obtain ⟨hfilled, hvalue⟩ := wellFormed_of_checkConcat hvalue
    exact h.insert hname hfilled hvalue
  · rename_i current hget
    cases hjoined : joined name place current value with
    | error e => exact h
    | ok content =>
      obtain ⟨hfilled, hcontent⟩ := wellFormed_of_checkConcat (checkConcat_of_joined hjoined)
      exact h.insert hname hfilled hcontent

end Bins

/-! ### Operations -/

/-- The values that an operation brings. -/
def Operation.values : Operation → List Value
  | write _ value | increment _ value | append _ value | prepend _ value => [value]
  | list _ op => op.values
  | map _ op => op.values
  | read _ | touch _ | delete => []

/-- **An operation is legal** when it passes its checks and brings well-formed values. -/
structure Operation.Legal (op : Operation) : Prop where
  /-- It passes its checks. -/
  valid : op.validate = .ok ()
  /-- What it brings is well-formed. -/
  wellFormed : ∀ v ∈ op.values, v.WellFormed

/-- What is added to a number is a number. -/
theorem isNumeric_of_check {v : Value} {e : Error}
    (h : (if v.isNumeric then .ok () else .error e) = Except.ok ()) : v.isNumeric := by
  by_contra hnumeric
  rw [if_neg hnumeric] at h
  cases h

namespace Engine

variable {engine : Engine} {bins : Bins}

theorem wellFormed_applyList (h : bins.WellFormed) {name : String} {op : ListOp}
    (hname : checkBinName name = .ok ()) (hvalues : ∀ v ∈ op.values, v.WellFormed) :
    Bins.WellFormed (engine.applyList bins name op).state := by
  have hop : ∀ items : List Value, (∀ v ∈ items, v.WellFormed) →
      Value.WellFormed (.list (op.apply items).state) := fun items hitems =>
    .list (ListOp.forall_mem_apply .null hitems hvalues)
  rw [applyList]
  split
  · rename_i items hget
    exact h.insert hname nofun (hop items (Value.wellFormed_list_iff.mp (h.of_get? hget)))
  · exact h
  · split
    · rw [fillBin]
      cases (op.apply []).result with
      | error e => exact h
      | ok answer => exact h.insert hname nofun (hop [] fun v hv => absurd hv List.not_mem_nil)
    · exact h

theorem wellFormed_applyMap (h : bins.WellFormed) {name : String} {op : MapOp}
    (hname : checkBinName name = .ok ()) (hvalues : ∀ v ∈ op.values, v.WellFormed) :
    Bins.WellFormed (engine.applyMap bins name op).state := by
  rw [applyMap]
  split
  · rename_i m hget
    exact h.insert hname nofun (MapOp.wellFormed_apply (h.of_get? hget) hvalues)
  · exact h
  · split
    · rename_i policy hcreates
      have hempty : Value.WellFormed (.map (Dict.empty policy.order)) :=
        .map (.empty policy.order) (fun e he => absurd he List.not_mem_nil)
          fun e he => absurd he List.not_mem_nil
      rw [fillBin]
      cases (op.apply (Dict.empty policy.order)).result with
      | error e => exact h
      | ok answer => exact h.insert hname nofun (MapOp.wellFormed_apply hempty hvalues)
    · exact h

/-- **A legal operation keeps bins well-formed**, whether it fails or not. -/
theorem wellFormed_apply (h : bins.WellFormed) {op : Operation} (hop : op.Legal) :
    Bins.WellFormed (engine.apply bins op).state := by
  obtain ⟨hvalid, hvalues⟩ := hop
  cases op with
  | read name => exact h
  | touch ttl => exact h
  | delete => exact h
  | write name value =>
    obtain ⟨hname, -⟩ := check_bind_eq_ok_iff.mp hvalid
    exact h.write hname (hvalues value List.mem_cons_self)
  | increment name delta =>
    obtain ⟨hname, hdelta⟩ := check_bind_eq_ok_iff.mp hvalid
    exact h.increment hname (isNumeric_of_check hdelta)
  | append name value =>
    obtain ⟨hname, hvalue⟩ := check_bind_eq_ok_iff.mp hvalid
    exact h.concat hname hvalue .back
  | prepend name value =>
    obtain ⟨hname, hvalue⟩ := check_bind_eq_ok_iff.mp hvalid
    exact h.concat hname hvalue .front
  | list name op =>
    obtain ⟨hname, -⟩ := check_bind_eq_ok_iff.mp hvalid
    exact wellFormed_applyList h hname hvalues
  | map name op =>
    obtain ⟨hname, -⟩ := check_bind_eq_ok_iff.mp hvalid
    exact wellFormed_applyMap h hname hvalues

/-! ### Phases and calls -/

/-- **What every operation keeps, a phase keeps.** -/
theorem runClass_invariant {P : Bins → Prop} {Q : Operation → Prop}
    (hstep : ∀ bins op, Q op → P bins → P (engine.apply bins op).state) {writes : Bool}
    {slots : List (Operation × Option OpResult)} (hops : ∀ slot ∈ slots, Q slot.1) (h : P bins)
    {phase : Phase} (hphase : engine.runClass writes bins slots = .ok phase) :
    P phase.bins ∧ ∀ slot ∈ phase.slots, Q slot.1 := by
  induction slots generalizing bins phase with
  | nil =>
    cases hphase
    exact ⟨h, hops⟩
  | cons slot rest ih =>
    obtain ⟨op, answer⟩ := slot
    obtain ⟨hop, hrest⟩ := List.forall_mem_cons.mp hops
    rw [runClass] at hphase
    split at hphase
    · obtain ⟨⟨result, after⟩, happly, hlater⟩ := bind_eq_ok_iff.mp hphase
      obtain ⟨later, hlater, hresult⟩ := bind_eq_ok_iff.mp hlater
      have hafter : after = (engine.apply bins op).state := by
        rw [Attempt.toExcept] at happly
        cases hresult : (engine.apply bins op).result with
        | error e =>
          rw [hresult] at happly
          cases happly
        | ok r =>
          rw [hresult] at happly
          cases happly
          rfl
      subst hafter
      obtain ⟨hbins, hslots⟩ := ih hrest (hstep bins op hop h) hlater
      obtain rfl := Except.ok.inj hresult
      exact ⟨hbins, List.forall_mem_cons.mpr ⟨hop, hslots⟩⟩
    · obtain ⟨later, hlater, hphase⟩ := bind_eq_ok_iff.mp hphase
      obtain ⟨hbins, hslots⟩ := ih hrest h hlater
      obtain rfl := Except.ok.inj hphase
      exact ⟨hbins, List.forall_mem_cons.mpr ⟨hop, hslots⟩⟩

/-- Both phases of legal operations keep bins well-formed. -/
theorem wellFormed_run (h : bins.WellFormed) {ops : List Operation} (hops : ∀ op ∈ ops, op.Legal)
    {phase : Phase} (hphase : engine.run bins ops = .ok phase) : Bins.WellFormed phase.bins := by
  obtain ⟨written, hwritten, hread⟩ := bind_eq_ok_iff.mp hphase
  have hstep : ∀ bins op, Operation.Legal op → Bins.WellFormed bins →
      Bins.WellFormed (engine.apply bins op).state := fun _ _ hop h => wellFormed_apply h hop
  obtain ⟨hbins, hslots⟩ := runClass_invariant hstep (List.forall_mem_map.mpr hops) h hwritten
  exact (runClass_invariant hstep hslots hbins hread).1

variable {existing : Option Record} {key : Key} {ops : List Operation} {policy : WritePolicy}
  {now : UInt64} {outcome : Outcome} {record : Record}

/-- A call starts with the bins of the record, or with none. -/
theorem wellFormed_startingRecord (plan : Plan) (key : Key) (policy : WritePolicy)
    (h : ∀ record, existing = some record → record.bins.WellFormed) :
    Bins.WellFormed (startingRecord plan existing key policy).bins := by
  cases existing with
  | none =>
    rw [startingRecord]
    split <;> exact .empty
  | some record =>
    rw [startingRecord]
    split
    · exact .empty
    · split <;> exact h record rfl

/-- **A record that a writing call leaves has well-formed bins**, if what the call brings
and what was there is well-formed. -/
theorem wellFormed_operate (h : engine.operate existing key ops policy now = .ok outcome)
    (hwrote : outcome.wrote) (hrecord : outcome.record = some record)
    (hvalues : ∀ op ∈ ops, ∀ v ∈ op.values, v.WellFormed)
    (hexisting : ∀ record, existing = some record → record.bins.WellFormed) :
    record.bins.WellFormed := by
  obtain ⟨plan, phase, hplan, hrun, -, rfl⟩ := record_of_operate h hwrote hrecord
  obtain ⟨-, hvalid, -⟩ := Plan.check_eq_ok_iff.mp hplan
  exact wellFormed_run (wellFormed_startingRecord plan key policy hexisting)
    (fun op hop => ⟨hvalid op hop, hvalues op hop⟩) hrun

/-- **The key of a record that a writing call leaves** has the digest and the namespace of
the key that the call was made with, if the key of the record that was there has them. -/
theorem key_operate (h : engine.operate existing key ops policy now = .ok outcome)
    (hwrote : outcome.wrote) (hrecord : outcome.record = some record)
    (hexisting : ∀ record, existing = some record →
      record.key.digest = key.digest ∧ record.key.ns = key.ns) :
    record.key.digest = key.digest ∧ record.key.ns = key.ns := by
  obtain ⟨plan, phase, -, -, -, rfl⟩ := record_of_operate h hwrote hrecord
  change (startingRecord plan existing key policy).key.digest = _ ∧
    (startingRecord plan existing key policy).key.ns = _
  rcases startingRecord_key plan existing key policy with hkey | hkey | ⟨record, hsome, hkey⟩
  · rw [hkey]
    exact ⟨rfl, rfl⟩
  · rw [hkey]
    exact ⟨rfl, rfl⟩
  · rw [hkey]
    exact hexisting record hsome

end Engine

end RecordStore

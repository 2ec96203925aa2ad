import RecordStore.Descriptor.Basic
import RecordStore.Proofs.Status

/-!
# What becomes of a descriptor

A descriptor is an operation as a caller sends it, with fields that may be missing, of the wrong
type, or not meant for the operation at all. This file says what can become of it
(`RecordStore.Descriptor.toOperation_status`). Reading the fields finds bad parameters and nothing
else, whichever of the names the descriptor has and in whichever order its fields are looked at
(`RecordStore.Descriptor.failsWithin_decode`). What was read is then checked again, and there, and
only there, another status turns up: an operation that counts is not applicable if it counts by
something that is no number. As everything else has been looked at by then, that is reported
only if nothing else is wrong (`RecordStore.Descriptor.CountsByNoNumber`).

The operation is about the bin that the descriptor names, with two exceptions that are easily
missed: a touch and a delete are about the record as a whole, so that they need no bin, and one
that is sent along is not looked at.
-/

namespace RecordStore

/-- Whether the operations of a kind count. -/
def OpKind.counts : OpKind → Bool
  | incr | mapIncrement | mapDecrement => true
  | _ => false

theorem OpKind.counts_iff {kind : OpKind} :
    kind.counts = true ↔ kind = .incr ∨ kind = .mapIncrement ∨ kind = .mapDecrement := by
  cases kind <;> simp [counts]

/-- Whether the operations of a kind are about the record as a whole. -/
def OpKind.isRecordLevel : OpKind → Bool
  | touch | delete => true
  | _ => false

namespace Descriptor

variable {d : Descriptor} {op : Operation}

/-! ### Single fields -/

section Fields

variable {field : Option Value} {name : String}

theorem need_eq_ok_iff {v : Value} : d.need field name = .ok v ↔ field = some v := by
  cases field <;> simp [need]

/-- The bin is the text in its field. -/
theorem needBin_eq_ok_iff {bin : String} :
    d.needBin = .ok bin ↔ d.bin = some (.string bin) := by
  rw [needBin, bind_eq_ok_iff]
  constructor
  · rintro ⟨v, hv, hbin⟩
    rw [need_eq_ok_iff.mp hv]
    cases v with
    | string s => rw [Except.ok.inj hbin]
    | _ => cases hbin
  · exact fun h => ⟨_, need_eq_ok_iff.mpr h, rfl⟩

theorem needMapPolicy_eq_ok_iff {policy : MapPolicy} :
    d.needMapPolicy = .ok policy ↔
      ∃ v, d.mapPolicy = some v ∧ MapPolicy.ofValue v = .ok policy := by
  rw [needMapPolicy, bind_eq_ok_iff]
  exact exists_congr fun v => and_congr_left fun _ => need_eq_ok_iff

@[simp] theorem failsWithin_need (d : Descriptor) (field : Option Value) (name : String) :
    FailsWithin [.param] (d.need field name) := by
  cases field with
  | none => exact .param _
  | some v => exact .ok v

@[simp] theorem failsWithin_needInteger (d : Descriptor) (field : Option Value) (name : String) :
    FailsWithin [.param] (d.needInteger field name) := by
  refine (d.failsWithin_need field name).bind fun v => ?_
  cases v with
  | integer n => exact .pure n
  | _ => exact .throw_param _

@[simp] theorem failsWithin_needList (d : Descriptor) (field : Option Value) (name : String) :
    FailsWithin [.param] (d.needList field name) := by
  refine (d.failsWithin_need field name).bind fun v => ?_
  cases v with
  | list items => exact .pure items
  | _ => exact .throw_param _

@[simp] theorem failsWithin_needBin (d : Descriptor) : FailsWithin [.param] d.needBin := by
  refine (d.failsWithin_need _ _).bind fun v => ?_
  cases v with
  | string bin => exact .pure bin
  | _ => exact .throw_param _

@[simp] theorem failsWithin_needItems (d : Descriptor) : FailsWithin [.param] d.needItems := by
  refine (d.failsWithin_need _ _).bind fun v => ?_
  cases v with
  | map m => exact .pure m.entries
  | _ => exact .throw_param _

@[simp] theorem failsWithin_needVal (d : Descriptor) : FailsWithin [.param] d.needVal :=
  d.failsWithin_need _ _

@[simp] theorem failsWithin_needKey (d : Descriptor) : FailsWithin [.param] d.needKey :=
  d.failsWithin_need _ _

@[simp] theorem failsWithin_needIndex (d : Descriptor) : FailsWithin [.param] d.needIndex :=
  d.failsWithin_needInteger _ _

@[simp] theorem failsWithin_needRank (d : Descriptor) : FailsWithin [.param] d.needRank :=
  d.failsWithin_needInteger _ _

@[simp] theorem failsWithin_countOf (n : Int64) : FailsWithin [.param] (countOf n) := by
  rw [countOf]
  split <;> simp

@[simp] theorem failsWithin_needCount (d : Descriptor) : FailsWithin [.param] d.needCount :=
  (d.failsWithin_needInteger _ _).bind failsWithin_countOf

@[simp] theorem failsWithin_needRangeCount (d : Descriptor) :
    FailsWithin [.param] d.needRangeCount := by
  rw [needRangeCount]
  split <;> simp

@[simp] theorem failsWithin_needRangeEnd (d : Descriptor) : FailsWithin [.param] d.needRangeEnd :=
  (d.failsWithin_need _ _).bind fun _ => .pure _

@[simp] theorem failsWithin_needReturnType (d : Descriptor) :
    FailsWithin [.param] d.needReturnType :=
  (d.failsWithin_needInteger _ _).bind failsWithin_ofBits

@[simp] theorem failsWithin_needMapPolicy (d : Descriptor) : FailsWithin [.param] d.needMapPolicy :=
  (d.failsWithin_need _ _).bind MapPolicy.failsWithin_ofValue

@[simp] theorem failsWithin_listPolicyOrDefault (d : Descriptor) :
    FailsWithin [.param] d.listPolicyOrDefault := by
  rw [listPolicyOrDefault]
  split <;> simp

@[simp] theorem failsWithin_lifetime? (d : Descriptor) : FailsWithin [.param] d.lifetime? := by
  rw [lifetime?]
  split <;> simp

end Fields

/-! ### Whole descriptors -/

/-- **A selector that cannot be read** has a bad parameter. -/
@[simp] theorem failsWithin_selector (d : Descriptor) (shape : Shape) :
    FailsWithin [.param] (d.selector shape) := by
  cases shape
  all_goals
    rw [selector]
    repeat refine .bind (by simp) fun _ => ?_
    exact .pure _

/-- A selecting operation that cannot be read, on a list or on a map, has a bad parameter. -/
@[simp] theorem failsWithin_selection (d : Descriptor) (shape : Shape) {α : Type}
    (op : Selector → ReturnType → α) :
    FailsWithin [.param] (do
      let selector ← d.selector shape
      let returnType ← d.needReturnType
      return op selector returnType) :=
  (d.failsWithin_selector shape).bind fun _ => d.failsWithin_needReturnType.bind fun _ => .pure _

theorem failsWithin_onList (d : Descriptor) {op : Except Error ListOp}
    (h : FailsWithin [.param] op) : FailsWithin [.param] (d.onList op) :=
  d.failsWithin_needBin.bind fun _ => h.bind fun _ => .pure _

theorem failsWithin_onMap (d : Descriptor) {op : Except Error MapOp}
    (h : FailsWithin [.param] op) : FailsWithin [.param] (d.onMap op) :=
  d.failsWithin_needBin.bind fun _ => h.bind fun _ => .pure _

/-- **A descriptor that cannot be read** has a bad parameter, whatever its name. -/
theorem failsWithin_decode (d : Descriptor) : FailsWithin [.param] d.decode := by
  rw [decode]
  split
  all_goals first
    | refine d.failsWithin_onList ?_
    | refine d.failsWithin_onMap ?_
    | skip
  all_goals first
    | exact d.failsWithin_selection _ _
    | exact .ok _
    | repeat refine .bind (by simp) fun _ => ?_
      exact .pure _

/-! ### What was read -/

theorem onList_eq_ok_iff {x : Except Error ListOp} :
    d.onList x = .ok op ↔ ∃ bin lop, d.needBin = .ok bin ∧ x = .ok lop ∧ op = .list bin lop := by
  simp only [onList, bind_eq_ok_iff, pure_eq_ok_iff, exists_and_left]

theorem onMap_eq_ok_iff {x : Except Error MapOp} :
    d.onMap x = .ok op ↔ ∃ bin mop, d.needBin = .ok bin ∧ x = .ok mop ∧ op = .map bin mop := by
  simp only [onMap, bind_eq_ok_iff, pure_eq_ok_iff, exists_and_left]

theorem mapSelection_eq_ok_iff {remove : Bool} {shape : Shape} {mop : MapOp} :
    d.mapSelection remove shape = .ok mop ↔ ∃ selector returnType,
      d.selector shape = .ok selector ∧ d.needReturnType = .ok returnType ∧
        mop = if remove then .removeBy selector returnType else .getBy selector returnType := by
  simp only [mapSelection, bind_eq_ok_iff, pure_eq_ok_iff, exists_and_left]

/-- A selecting operation counts nothing. -/
theorem amount?_of_mapSelection {remove : Bool} {shape : Shape} {mop : MapOp}
    (h : d.mapSelection remove shape = .ok mop) (bin : String) :
    (Operation.map bin mop).amount? = none := by
  obtain ⟨selector, returnType, -, -, rfl⟩ := mapSelection_eq_ok_iff.mp h
  cases remove <;> rfl

/-- **The bin that is addressed** is the one that the descriptor names; a write on the record as
a whole addresses none. -/
theorem bin?_of_decode (h : d.decode = .ok op) :
    (d.op.isRecordLevel = true ∧ op.bin? = none) ∨
      (d.op.isRecordLevel = false ∧ ∃ bin, d.needBin = .ok bin ∧ op.bin? = some bin) := by
  rw [decode] at h
  split at h
  all_goals
    simp only [onList_eq_ok_iff, onMap_eq_ok_iff, bind_eq_ok_iff, pure_eq_ok_iff] at h
    grind [OpKind.isRecordLevel, Operation.bin?]

/-- What is counted by is the value of the descriptor. -/
theorem amount?_of_decode (h : d.decode = .ok op) :
    op.amount? = if d.op.counts then d.val else none := by
  rw [decode] at h
  split at h
  all_goals
    simp only [onList_eq_ok_iff, onMap_eq_ok_iff, needVal, need_eq_ok_iff, bind_eq_ok_iff,
      pure_eq_ok_iff] at h
    grind [OpKind.counts, Operation.amount?, amount?_of_mapSelection]

/-! ### Counting -/

/-- **The descriptor asks for counting by an amount** in a bin, with every field that this needs,
and every one of them of the right type. -/
structure CountsBy (d : Descriptor) (bin : String) (amount : Value) : Prop where
  counts : d.op.counts = true
  bin : d.bin = some (.string bin)
  amount : d.val = some amount
  /-- A number in a map has a key, and there is a policy for writing it. -/
  entry : d.op ≠ .incr → ∃ key v policy,
    d.key = some key ∧ d.mapPolicy = some v ∧ MapPolicy.ofValue v = .ok policy

/-- The fields that counting in a map needs, beside the bin and the amount. -/
theorem exists_entry_of_decode (hop : d.op = .mapIncrement ∨ d.op = .mapDecrement)
    (h : d.decode = .ok op) :
    ∃ key v policy, d.key = some key ∧ d.mapPolicy = some v ∧ MapPolicy.ofValue v = .ok policy := by
  rcases hop with hop | hop
  all_goals
    rw [decode, hop] at h
    simp only [onMap_eq_ok_iff, needKey, need_eq_ok_iff, needMapPolicy_eq_ok_iff, bind_eq_ok_iff]
      at h
    obtain ⟨-, -, -, ⟨key, hkey, -, -, policy, ⟨v, hv, hpolicy⟩, -⟩, -⟩ := h
    exact ⟨key, v, policy, hkey, hv, hpolicy⟩

/-- **A descriptor that asks for counting** is read exactly when it has all the fields. -/
theorem exists_decode_iff {bin : String} {amount : Value} :
    (∃ op, d.decode = .ok op ∧ op.bin? = some bin ∧ op.amount? = some amount) ↔
      d.CountsBy bin amount := by
  constructor
  · rintro ⟨op, h, hbin, hamount⟩
    obtain ⟨hcounts, hval⟩ :=
      Option.ite_none_right_eq_some.mp ((amount?_of_decode h).symm.trans hamount)
    obtain ⟨-, hnone⟩ | ⟨-, bin', hbin', hsome⟩ := bin?_of_decode h
    · cases hnone.symm.trans hbin
    obtain rfl := Option.some_inj.mp (hsome.symm.trans hbin)
    refine ⟨hcounts, needBin_eq_ok_iff.mp hbin', hval, fun hnot => ?_⟩
    exact exists_entry_of_decode ((OpKind.counts_iff.mp hcounts).resolve_left hnot) h
  · rintro ⟨hcounts, hbin, hval, hentry⟩
    have hbin := needBin_eq_ok_iff.mpr hbin
    have hval : d.needVal = .ok amount := need_eq_ok_iff.mpr hval
    rcases OpKind.counts_iff.mp hcounts with hop | hop
    · refine ⟨.increment bin amount, ?_, rfl, rfl⟩
      rw [decode, hop]
      simp only [hbin, hval]
      rfl
    · obtain ⟨key, v, policy, hkey, hv, hpolicy⟩ := hentry (by rcases hop with h | h <;> simp [h])
      have hkey : d.needKey = .ok key := need_eq_ok_iff.mpr hkey
      have hpolicy := needMapPolicy_eq_ok_iff.mpr ⟨v, hv, hpolicy⟩
      rcases hop with hop | hop
      · refine ⟨.map bin (.increment key amount policy), ?_, rfl, rfl⟩
        rw [decode, hop]
        simp only [onMap, hbin, hkey, hval, hpolicy]
        rfl
      · refine ⟨.map bin (.decrement key amount policy), ?_, rfl, rfl⟩
        rw [decode, hop]
        simp only [onMap, hbin, hkey, hval, hpolicy]
        rfl

/-! ### The operation -/

theorem toOperation_eq_ok_iff :
    d.toOperation = .ok op ↔ d.decode = .ok op ∧ op.validate = .ok () := by
  rw [toOperation, bind_eq_ok_iff]
  constructor
  · rintro ⟨op', hread, h⟩
    obtain ⟨hvalid, h⟩ := check_bind_eq_ok_iff.mp h
    obtain rfl := pure_eq_ok_iff.mp h
    exact ⟨hread, hvalid⟩
  · exact fun ⟨hread, hvalid⟩ =>
      ⟨op, hread, check_bind_eq_ok_iff.mpr ⟨hvalid, rfl⟩⟩

theorem toOperation_eq_error_iff {e : Error} : d.toOperation = .error e ↔
    d.decode = .error e ∨ ∃ op, d.decode = .ok op ∧ op.validate = .error e := by
  simp [toOperation, bind_eq_error_iff, pure, Except.pure]

/-- **The descriptor counts by something that is no number**, and nothing else is wrong with it. -/
def CountsByNoNumber (d : Descriptor) : Prop :=
  ∃ bin amount, d.CountsBy bin amount ∧ (1 ≤ bin.utf8ByteSize ∧ bin.utf8ByteSize ≤ 14) ∧
    amount.isNumeric = false

/-- A descriptor is not applicable exactly when it counts by something that is no number. -/
theorem exists_notApplicable_iff :
    (∃ e, d.toOperation = .error e ∧ e.status = .opNotApplicable) ↔ d.CountsByNoNumber := by
  constructor
  · rintro ⟨e, h, hstatus⟩
    rcases toOperation_eq_error_iff.mp h with h | ⟨op, hread, h⟩
    · have hparam := d.failsWithin_decode e h
      simp [hstatus] at hparam
    · obtain ⟨hbin, amount, hamount, hnumeric⟩ :=
        Operation.validate_notApplicable_iff.mp ⟨e, h, hstatus⟩
      obtain ⟨bin, hopBin⟩ := Operation.exists_bin_of_amount hamount
      exact ⟨bin, amount, exists_decode_iff.mp ⟨op, hread, hopBin, hamount⟩,
        checkBinName_eq_ok_iff.mp (hbin bin hopBin), hnumeric⟩
  · rintro ⟨bin, amount, hcounts, hname, hnumeric⟩
    obtain ⟨op, hread, hopBin, hamount⟩ := exists_decode_iff.mpr hcounts
    have hbin : ∀ bin', op.bin? = some bin' → checkBinName bin' = .ok () := by
      intro bin' h
      rw [← Option.some_inj.mp (hopBin.symm.trans h)]
      exact checkBinName_eq_ok_iff.mpr hname
    obtain ⟨e, h, hstatus⟩ :=
      Operation.validate_notApplicable_iff.mpr ⟨hbin, amount, hamount, hnumeric⟩
    exact ⟨e, toOperation_eq_error_iff.mpr (.inr ⟨op, hread, h⟩), hstatus⟩

theorem failsWithin_toOperation (d : Descriptor) :
    FailsWithin [.param, .opNotApplicable] d.toOperation :=
  (d.failsWithin_decode.mono (by simp)).bind fun op =>
    op.failsWithin_validate.bind fun _ => .pure op

/-- **What becomes of a descriptor.** It is read as an operation that passes its checks, about the
bin that the descriptor names, or about no bin if it is a touch or a delete; or it has a bad
parameter; or it is not applicable, which it is exactly when it counts by something that is no
number and nothing else is wrong with it. -/
theorem toOperation_status (d : Descriptor) :
    (∀ op, d.toOperation = .ok op → op.validate = .ok () ∧
      if d.op.isRecordLevel then op.bin? = none
      else ∃ bin, d.bin = some (.string bin) ∧ op.bin? = some bin) ∧
    (∀ e, d.toOperation = .error e → e.status = .param ∨ e.status = .opNotApplicable) ∧
    ((∃ e, d.toOperation = .error e ∧ e.status = .opNotApplicable) ↔ d.CountsByNoNumber) := by
  refine ⟨fun op h => ?_, fun e h => ?_, exists_notApplicable_iff⟩
  · obtain ⟨hread, hvalid⟩ := toOperation_eq_ok_iff.mp h
    refine ⟨hvalid, ?_⟩
    obtain ⟨hlevel, hnone⟩ | ⟨hlevel, bin, hbin, hsome⟩ := bin?_of_decode hread
    · rwa [if_pos hlevel]
    · rw [if_neg (by simp [hlevel])]
      exact ⟨bin, needBin_eq_ok_iff.mp hbin, hsome⟩
  · simpa using d.failsWithin_toOperation e h

/-- Adding a number is about the bin that is named, and adding a text is not applicable. -/
theorem toOperation_status_incr :
    let d : Descriptor := { op := .incr, bin := some (.string "n"), val := some (.integer 1) }
    let d' : Descriptor := { op := .incr, bin := some (.string "n"), val := some (.string "1") }
    (∃ bin, d.bin = some (.string bin) ∧
      (Operation.increment "n" (.integer 1)).bin? = some bin) ∧ d'.CountsByNoNumber := by
  intro d d'
  have hread : d.toOperation = .ok (.increment "n" (.integer 1)) := rfl
  have hfails : d'.toOperation = .error (.notApplicable (.incrementDelta .string)) := rfl
  exact ⟨((toOperation_status d).1 _ hread).2, (toOperation_status d').2.2.mp ⟨_, hfails, rfl⟩⟩

/-- A bin that is sent along with a touch is not looked at. -/
theorem toOperation_touch_with_bin :
    let d : Descriptor := { op := .touch, bin := some (.string "a") }
    OpKind.ofName? "touch" = some d.op ∧ d.toOperation = .ok (.touch none) ∧
      ¬∃ bin, d.bin = some (.string bin) ∧ (Operation.touch none).bin? = some bin := by
  refine ⟨by decide, rfl, ?_⟩
  rintro ⟨bin, -, hbin⟩
  cases hbin

end Descriptor

end RecordStore

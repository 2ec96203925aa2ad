import RecordStore.Operation
import RecordStore.Proofs.Attempt

/-!
# Which statuses a check fails with

A caller acts on the status of an error and not on its message, so it matters which statuses a
check can end with. This file says it of a check as a whole (`RecordStore.FailsWithin`): a row
of checks fails with what its checks fail with, so that nothing has to be followed through a row
step by step. Most checks of what a caller sends can fail in one way only, as a bad parameter;
the exception is the amount of an operation that counts
(`RecordStore.Operation.validate_notApplicable_iff`).
-/

namespace RecordStore

/-- **All failures have one of some statuses.** -/
def FailsWithin {α : Type} (statuses : List Status) (x : Except Error α) : Prop :=
  ∀ e, x = .error e → e.status ∈ statuses

/-! ### Rows of checks -/

namespace FailsWithin

variable {α β : Type} {statuses statuses' : List Status} {x : Except Error α}

@[simp] theorem ok (a : α) : FailsWithin statuses (.ok a) := nofun

@[simp] theorem pure (a : α) : FailsWithin statuses (Pure.pure a : Except Error α) := nofun

theorem error {e : Error} (h : e.status ∈ statuses) :
    FailsWithin statuses (.error e : Except Error α) := by
  rintro _ ⟨⟩
  exact h

@[simp] theorem param (cause : ParamError) :
    FailsWithin [.param] (.error (.param cause) : Except Error α) :=
  error List.mem_cons_self

@[simp] theorem throw_param (cause : ParamError) :
    FailsWithin [.param] (throw (.param cause) : Except Error α) :=
  error List.mem_cons_self

@[simp] theorem bind {f : α → Except Error β} (hx : FailsWithin statuses x)
    (hf : ∀ a, FailsWithin statuses (f a)) : FailsWithin statuses (x >>= f) := by
  intro e he
  rcases bind_eq_error_iff.mp he with he | ⟨a, -, he⟩
  · exact hx e he
  · exact hf a e he

@[simp] theorem map (f : α → β) (hx : FailsWithin statuses x) : FailsWithin statuses (x.map f) := by
  rcases x with e | a
  · exact error (hx e rfl)
  · exact ok _

@[simp] theorem functor_map (f : α → β) (hx : FailsWithin statuses x) :
    FailsWithin statuses (f <$> x) :=
  hx.map f

theorem mono (hx : FailsWithin statuses x) (h : statuses ⊆ statuses') :
    FailsWithin statuses' x :=
  fun e he => h (hx e he)

/-- A check that is repeated with what it has answered so far. -/
theorem foldlM {f : β → α → Except Error β} (hf : ∀ b a, FailsWithin statuses (f b a))
    (as : List α) (b : β) : FailsWithin statuses (as.foldlM f b) := by
  induction as generalizing b with
  | nil => exact pure b
  | cons a as ih =>
    rw [List.foldlM_cons]
    exact (hf b a).bind ih

end FailsWithin

/-! ### What a caller sends -/

@[simp] theorem failsWithin_ofBits (bits : Int64) :
    FailsWithin [.param] (ReturnType.ofBits bits) := by
  rw [ReturnType.ofBits]
  split <;> simp

@[simp] theorem failsWithin_ofInt64 (ttl : Int64) :
    FailsWithin [.param] (Expiration.ofInt64 ttl) := by
  rw [Expiration.ofInt64]
  repeat' split
  all_goals simp

@[simp] theorem failsWithin_policyEntries (policy : String) (value : Value) :
    FailsWithin [.param] (policyEntries policy value) := by
  cases value with
  | map m =>
    rw [policyEntries]
    split <;> simp
  | _ => exact .param _

@[simp] theorem failsWithin_policyInteger (name : String) (value : Value) :
    FailsWithin [.param] (policyInteger name value) := by
  cases value with
  | integer n => exact .ok n
  | _ => exact .param _

@[simp] theorem failsWithin_ofCode (code : Int64) :
    FailsWithin [.param] (MapOrder.ofCode code) := by
  rw [MapOrder.ofCode]
  repeat' split
  all_goals simp

/-- **A map policy that cannot be read** is a bad parameter. -/
@[simp] theorem MapPolicy.failsWithin_ofValue (value : Value) :
    FailsWithin [.param] (MapPolicy.ofValue value) := by
  refine (failsWithin_policyEntries _ _).bind fun entries => .foldlM (fun p e => ?_) entries _
  rw [withEntry]
  split
  · simp
  · split
    · refine (failsWithin_policyInteger _ _).bind fun bits => ?_
      rw [withFlags]
      repeat' split
      all_goals simp
    · simp

/-- **A list policy that cannot be read** is a bad parameter. -/
@[simp] theorem ListPolicy.failsWithin_ofValue (value : Value) :
    FailsWithin [.param] (ListPolicy.ofValue value) := by
  refine (failsWithin_policyEntries _ _).bind fun entries => .foldlM (fun p e => ?_) entries _
  rw [withEntry]
  split
  · refine (failsWithin_policyInteger _ _).bind fun code => ?_
    split <;> simp
  · split
    · refine (failsWithin_policyInteger _ _).bind fun bits => ?_
      rw [withFlags]
      split <;> simp
    · simp

/-! ### The checks of an operation -/

@[simp] theorem failsWithin_checkBinName (name : String) :
    FailsWithin [.param] (checkBinName name) := by
  rw [checkBinName]
  repeat' split
  all_goals simp

/-- A bin name passes its check when it has between one and fourteen bytes. -/
theorem checkBinName_eq_ok_iff {name : String} :
    checkBinName name = .ok () ↔ 1 ≤ name.utf8ByteSize ∧ name.utf8ByteSize ≤ 14 := by
  have hempty : name.isEmpty = true ↔ name.utf8ByteSize = 0 := by
    rw [String.isEmpty, beq_iff_eq]
  rw [checkBinName, ite_error_eq_ok_iff, ite_error_eq_ok_iff, hempty, maxBinNameBytes]
  constructor
  · rintro ⟨hne, hle, -⟩
    omega
  · rintro ⟨hlow, hhigh⟩
    exact ⟨by omega, by omega, rfl⟩

/-- A list operation that is refused has a bad parameter. -/
@[simp] theorem ListOp.failsWithin_validate (op : ListOp) : FailsWithin [.param] op.validate := by
  have hindex : ∀ index, FailsWithin [.param] (checkIndex index) := fun index => by
    rw [checkIndex]
    split <;> simp
  have hselection : ∀ selector returnType,
      FailsWithin [.param] (checkSelection selector returnType) := fun selector returnType => by
    rw [checkSelection]
    repeat' split
    all_goals simp
  cases op with
  | getBy selector returnType | removeBy selector returnType => exact hselection _ _
  | append | merge | clear | size => exact .ok ()
  | _ => exact hindex _

namespace Operation

variable {op : Operation}

/-- **The amount of an operation that counts.** -/
def amount? : Operation → Option Value
  | increment _ delta => some delta
  | map _ (.increment _ delta _) | map _ (.decrement _ delta _) => some delta
  | _ => none

/-- What counts does so in a bin. -/
theorem exists_bin_of_amount {amount : Value} (h : op.amount? = some amount) :
    ∃ bin, op.bin? = some bin := by
  cases op with
  | increment bin delta | map bin op => exact ⟨bin, rfl⟩
  | _ => cases h

/-- The checks of an operation that come after the name of its bin. -/
def checkArguments : Operation → Except Error Unit
  | increment _ delta =>
    if delta.isNumeric then .ok () else .error (.notApplicable (.incrementDelta delta.kind))
  | append _ value | prepend _ value => checkConcat value
  | list _ op => op.validate
  | map _ op => op.validate
  | write .. | read _ | touch _ | delete => .ok ()

theorem validate_eq (op : Operation) :
    op.validate = (op.bin?.elim (.ok ()) checkBinName) >>= fun _ => op.checkArguments := by
  cases op <;> rfl

/-- What an operation counts by has to be a number. -/
theorem checkArguments_of_amount {amount : Value} (h : op.amount? = some amount) :
    ∃ cause, op.checkArguments =
      if amount.isNumeric then .ok () else .error (.notApplicable cause) := by
  cases op with
  | increment bin delta =>
    obtain rfl := Option.some_inj.mp h
    exact ⟨_, rfl⟩
  | map bin op =>
    cases op with
    | increment key delta policy | decrement key delta policy =>
      obtain rfl := Option.some_inj.mp h
      exact ⟨_, rfl⟩
    | _ => cases h
  | _ => cases h

/-- An operation that counts nothing and is refused has a bad parameter. -/
theorem failsWithin_checkArguments (h : op.amount? = none) :
    FailsWithin [.param] op.checkArguments := by
  have hconcat : ∀ value, FailsWithin [.param] (checkConcat value) := fun value => by
    cases value with
    | string | bytes => exact .ok ()
    | _ => exact .param _
  cases op with
  | increment bin delta => cases h
  | append bin value | prepend bin value => exact hconcat value
  | list bin op => exact op.failsWithin_validate
  | map bin op =>
    cases op with
    | increment key delta policy | decrement key delta policy => cases h
    | putItems items policy =>
      rw [checkArguments, MapOp.validate]
      split <;> simp
    | _ => exact .ok ()
  | _ => exact .ok ()

theorem failsWithin_checkBin (op : Operation) :
    FailsWithin [.param] (op.bin?.elim (.ok ()) checkBinName) := by
  cases op.bin? <;> simp

/-- **An operation that is refused** has a bad parameter, or counts by what is no number. -/
theorem failsWithin_validate (op : Operation) :
    FailsWithin [.param, .opNotApplicable] op.validate := by
  rw [validate_eq]
  refine (op.failsWithin_checkBin.mono (by simp)).bind fun _ => ?_
  cases hamount : op.amount? with
  | none => exact (failsWithin_checkArguments hamount).mono (by simp)
  | some amount =>
    obtain ⟨cause, heq⟩ := checkArguments_of_amount hamount
    rw [heq]
    split
    · exact .ok ()
    · exact .error (by simp [Error.status])

/-- **An operation is not applicable** exactly when it counts by something that is no number, and
has nothing wrong with the name of its bin, which is looked at first. -/
theorem validate_notApplicable_iff :
    (∃ e, op.validate = .error e ∧ e.status = .opNotApplicable) ↔
      (∀ bin, op.bin? = some bin → checkBinName bin = .ok ()) ∧
        ∃ amount, op.amount? = some amount ∧ amount.isNumeric = false := by
  have hbinOk : op.bin?.elim (.ok ()) checkBinName = .ok () ↔
      ∀ bin, op.bin? = some bin → checkBinName bin = .ok () := by
    cases op.bin? <;> simp
  rw [validate_eq, ← hbinOk]
  constructor
  · rintro ⟨e, he, hstatus⟩
    have hnot : ¬e.status ∈ [Status.param] := by simp [hstatus]
    rcases bind_eq_error_iff.mp he with hbin | ⟨_, hbin, hargs⟩
    · exact absurd (op.failsWithin_checkBin e hbin) hnot
    · refine ⟨hbin, ?_⟩
      cases hamount : op.amount? with
      | none => exact absurd (failsWithin_checkArguments hamount e hargs) hnot
      | some amount =>
        obtain ⟨cause, heq⟩ := checkArguments_of_amount hamount
        refine ⟨amount, rfl, ?_⟩
        cases hnumeric : amount.isNumeric with
        | false => rfl
        | true =>
          rw [heq, hnumeric] at hargs
          cases hargs
  · rintro ⟨hbin, amount, hamount, hnumeric⟩
    obtain ⟨cause, heq⟩ := checkArguments_of_amount hamount
    rw [hbin, heq, hnumeric]
    exact ⟨.notApplicable cause, rfl, rfl⟩

end Operation

end RecordStore

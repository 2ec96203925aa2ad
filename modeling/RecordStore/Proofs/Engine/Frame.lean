import RecordStore.Engine.Operate
import RecordStore.Proofs.Named

/-!
# Operations are about one bin

An operation reads the bin that it addresses and no other one, and it changes no
other one: what it answers, and what it leaves in its bin, depend on what the bin
holds alone (`RecordStore.Engine.confined_apply`). A read-class operation leaves all
bins as they are (`RecordStore.Engine.apply_state_of_read`). The order of operations
on different bins can therefore make no difference.

Being about one bin is a property of verbs on bins (`RecordStore.Confined`). Every
operation is built in the same way: it looks at its bin, and depending on what is
there it answers and keeps the bins, or answers and replaces the content of the
bin. So it is enough to prove the property of these (`RecordStore.Confined.of_get?`).
-/

namespace RecordStore

/-! ### Verbs that are about one bin -/

/-- **A verb is about one bin.** -/
structure Confined {α : Type} (bin : String) (verb : Bins → Attempt Bins α) : Prop where
  /-- It keeps the other bins. -/
  frame : ∀ bins other, other ≠ bin → (verb bins).state.get? other = bins.get? other
  /-- What it answers depends on what the bin holds. -/
  result : ∀ bins bins', bins.get? bin = bins'.get? bin → (verb bins).result = (verb bins').result
  /-- What it leaves in the bin depends on what the bin holds. -/
  content : ∀ bins bins', bins.get? bin = bins'.get? bin →
    (verb bins).state.get? bin = (verb bins').state.get? bin

namespace Confined

variable {α β : Type} {bin : String}

theorem keep (result : Except Error α) : Confined bin fun bins => ⟨result, bins⟩ where
  frame _ _ _ := rfl
  result _ _ _ := rfl
  content _ _ h := h

theorem insert (result : Except Error α) (value : Value) :
    Confined bin fun bins => ⟨result, bins.insert bin value⟩ where
  frame bins other h := by simp [h]
  result _ _ _ := rfl
  content bins bins' _ := by simp

theorem erase (result : Except Error α) : Confined bin fun bins => ⟨result, bins.erase bin⟩ where
  frame bins other h := by simp [h]
  result _ _ _ := rfl
  content bins bins' _ := by simp

/-- Going on from the bins with something that does not depend on them. -/
theorem needing (need : Except Error β) {next : β → Bins → Attempt Bins α}
    (h : ∀ b, Confined bin (next b)) :
    Confined bin fun bins => .needing bins need fun b => next b bins := by
  cases need with
  | error e => exact keep (.error e)
  | ok b => exact h b

theorem map {verb : Bins → Attempt Bins α} (h : Confined bin verb) (f : α → β) :
    Confined bin fun bins => (verb bins).map f where
  frame := h.frame
  result bins bins' hget := congrArg (·.map f) (h.result bins bins' hget)
  content := h.content

/-- **A verb that looks at its bin** is about that bin if it is for everything that
may be there. -/
theorem of_get? {verb : Bins → Attempt Bins α}
    (h : ∀ content, ∃ next, Confined bin next ∧
      ∀ bins, bins.get? bin = content → verb bins = next bins) : Confined bin verb where
  frame bins other hne := by
    obtain ⟨next, hnext, heq⟩ := h (bins.get? bin)
    rw [heq bins rfl]
    exact hnext.frame bins other hne
  result bins bins' hget := by
    obtain ⟨next, hnext, heq⟩ := h (bins'.get? bin)
    rw [heq bins hget, heq bins' rfl]
    exact hnext.result bins bins' hget
  content bins bins' hget := by
    obtain ⟨next, hnext, heq⟩ := h (bins'.get? bin)
    rw [heq bins hget, heq bins' rfl]
    exact hnext.content bins bins' hget

end Confined

/-! ### Operations -/

namespace Engine

variable {engine : Engine} {bins : Bins} {op : Operation}

theorem confined_write (bin : String) (value : Value) :
    Confined (α := Option OpResult) bin fun bins => .done none (bins.write bin value) := by
  by_cases h : value.isNull
  · simp only [Bins.write, if_pos h]
    exact .erase (.ok none)
  · simp only [Bins.write, if_neg h]
    exact .insert (.ok none) value

theorem confined_read (bin : String) :
    Confined bin fun bins => .done (some (bins.read bin)) bins := by
  refine .of_get? fun content => ⟨_, .keep (.ok (some (.scalar (content.getD .null)))), ?_⟩
  rintro bins rfl
  rfl

theorem confined_increment (bin : String) (delta : Value) :
    Confined bin fun bins => bins.increment bin delta := by
  refine .of_get? fun content => ?_
  cases content with
  | none => exact ⟨_, .insert (.ok ()) delta, fun bins h => by rw [Bins.increment, h]; rfl⟩
  | some current =>
    refine ⟨_, .needing ((current.add delta).mapError (Bins.nameBin bin))
      fun sum => .insert (.ok ()) sum, fun bins h => ?_⟩
    rw [Bins.increment, h]
    rfl

theorem confined_concat (bin : String) (value : Value) (place : End) :
    Confined bin fun bins => bins.concat bin value place := by
  refine .of_get? fun content => ?_
  cases content with
  | none => exact ⟨_, .insert (.ok ()) value, fun bins h => by rw [Bins.concat, h]; rfl⟩
  | some current =>
    refine ⟨_, .needing (Bins.joined bin place current value)
      fun joined => .insert (.ok ()) joined, fun bins h => ?_⟩
    rw [Bins.concat, h]
    rfl

/-- A collection that begins empty. -/
theorem confined_fillBin {σ : Type} (bin : String) (content : σ → Value)
    (attempt : Attempt σ (Option OpResult)) :
    Confined bin fun bins => fillBin bins bin content attempt :=
  .needing attempt.result fun result => .insert (.ok result) (content attempt.state)

theorem confined_applyList (engine : Engine) (bin : String) (op : ListOp) :
    Confined bin fun bins => engine.applyList bins bin op := by
  refine .of_get? fun content => ?_
  cases content with
  | none =>
    -- the operation creates the bin, or it is turned away whatever the other bins hold
    by_cases h : op.createsBin
    · refine ⟨_, confined_fillBin bin .list (op.apply []), fun bins hget => ?_⟩
      simp only [applyList, hget, if_pos h]
    · refine ⟨_, .keep (engine.missing bin .list op.isWhole), fun bins hget => ?_⟩
      simp only [applyList, hget, if_neg h]
  | some value =>
    cases value with
    | list items =>
      exact ⟨_, .insert (op.apply items).result (.list (op.apply items).state),
        fun bins hget => by rw [applyList, hget]; rfl⟩
    -- a value of another type, whichever it is, is left alone
    | _ => exact ⟨_, .keep (.error _), fun bins hget => by rw [applyList, hget]; rfl⟩

theorem confined_applyMap (engine : Engine) (bin : String) (op : MapOp) :
    Confined bin fun bins => engine.applyMap bins bin op := by
  refine .of_get? fun content => ?_
  cases content with
  | none =>
    cases h : op.createsBin with
    | some policy =>
      refine ⟨_, confined_fillBin bin .map (op.apply (Dict.empty policy.order)), ?_⟩
      intro bins hget
      simp only [applyMap, hget, h]
    | none =>
      refine ⟨_, .keep (engine.missing bin .map op.isWhole), fun bins hget => ?_⟩
      simp only [applyMap, hget, h]
  | some value =>
    cases value with
    | map m =>
      exact ⟨_, .insert (op.apply m).result (.map (op.apply m).state),
        fun bins hget => by rw [applyMap, hget]; rfl⟩
    | _ => exact ⟨_, .keep (.error _), fun bins hget => by rw [applyMap, hget]; rfl⟩

/-- **An operation is about the bin that it addresses.** -/
theorem confined_apply (engine : Engine) {bin : String} (h : op.bin? = some bin) :
    Confined bin fun bins => engine.apply bins op := by
  cases op with
  | write _ value =>
    obtain rfl := Option.some_inj.mp h
    exact confined_write _ value
  | read _ =>
    obtain rfl := Option.some_inj.mp h
    exact confined_read _
  | increment _ delta =>
    obtain rfl := Option.some_inj.mp h
    exact (confined_increment _ delta).map fun _ => none
  | append _ value =>
    obtain rfl := Option.some_inj.mp h
    exact (confined_concat _ value .back).map fun _ => none
  | prepend _ value =>
    obtain rfl := Option.some_inj.mp h
    exact (confined_concat _ value .front).map fun _ => none
  | touch _ => cases h
  | delete => cases h
  | list _ op =>
    obtain rfl := Option.some_inj.mp h
    exact confined_applyList engine _ op
  | map _ op =>
    obtain rfl := Option.some_inj.mp h
    exact confined_applyMap engine _ op

/-- An operation that addresses no bin answers nothing and changes none. -/
theorem apply_of_bin?_eq_none (engine : Engine) (bins : Bins) (h : op.bin? = none) :
    engine.apply bins op = .done none bins := by
  cases op with
  | touch _ => rfl
  | delete => rfl
  | _ => cases h

end Engine

/-! ### Read-class operations -/

/-- **A read of a list** leaves it as it is. -/
theorem ListOp.apply_state_of_read {op : ListOp} (h : op.isWrite = false) (items : List Value) :
    (op.apply items).state = items := by
  cases op with
  | get index =>
    rw [ListOp.apply]
    cases ListOp.valueAt items index <;> rfl
  | getRange index count => rfl
  | size => rfl
  | getBy selector returnType =>
    rw [ListOp.apply]
    cases (View.ofList items).selectAndReport selector returnType <;> rfl
  | _ => cases h

/-- **A read of a map** leaves it as it is. -/
theorem MapOp.apply_state_of_read {op : MapOp} (h : op.isWrite = false) (m : Dict Value) :
    (op.apply m).state = m := by
  cases op with
  | size => rfl
  | getBy selector returnType =>
    rw [MapOp.apply]
    cases (View.ofDict m).selectAndReport selector returnType <;> rfl
  | _ => cases h

theorem ListOp.createsBin_of_read {op : ListOp} (h : op.isWrite = false) :
    op.createsBin = false := by
  cases op <;> first | rfl | cases h

theorem MapOp.createsBin_of_read {op : MapOp} (h : op.isWrite = false) :
    op.createsBin = none := by
  cases op <;> first | rfl | cases h

/-- **A read-class operation** leaves all bins as they are. -/
theorem Engine.apply_state_of_read (engine : Engine) (bins : Bins) {op : Operation}
    (h : op.isWrite = false) : (engine.apply bins op).state = bins := by
  cases op with
  | read bin => rfl
  | list bin op =>
    rw [apply, applyList]
    cases hget : bins.get? bin with
    | none => simp [ListOp.createsBin_of_read h]
    | some value =>
      cases value with
      | list items =>
        change bins.insert bin (.list (op.apply items).state) = bins
        rw [ListOp.apply_state_of_read h, Named.insert_of_get? hget]
      | _ => rfl
  | map bin op =>
    rw [apply, applyMap]
    cases hget : bins.get? bin with
    | none => simp [MapOp.createsBin_of_read h]
    | some value =>
      cases value with
      | map m =>
        change bins.insert bin (.map (op.apply m).state) = bins
        rw [MapOp.apply_state_of_read h, Named.insert_of_get? hget]
      | _ => rfl
  | _ => cases h

end RecordStore

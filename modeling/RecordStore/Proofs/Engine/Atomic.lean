import RecordStore.Engine.Operate
import RecordStore.Proofs.Named

/-!
# Steps that fail change nothing

A step of a call that fails leaves what it was applied to exactly as it was: a list with its
items, a map with its entries in their storage order and with its order policy, and the bins of a
record (`RecordStore.failed_steps_change_nothing`). A caller who keeps a collection needs no copy
of it to be safe from a step that fails.

Nothing in the type of attempts says so. Where one step follows another and fails, what is left
is what the first one has made of the state. What has to be arranged is that everything which may
fail comes before everything which changes: after a step that may change the state no other one
fails (`RecordStore.Attempt.Atomic.andThen`).
-/

namespace RecordStore

/-! ### Atomic attempts -/

namespace Attempt

variable {σ τ α β : Type} {s : σ}

/-- **An attempt is atomic** on a state if it leaves the state as it was when it fails. -/
def Atomic (attempt : Attempt σ α) (s : σ) : Prop :=
  ∀ e, attempt.result = .error e → attempt.state = s

namespace Atomic

/-- What does not fail is atomic, whatever it changes. -/
theorem of_ok {attempt : Attempt σ α} {a : α} (h : attempt.result = .ok a) : attempt.Atomic s := by
  intro e he
  rw [h] at he
  cases he

theorem done (a : α) (s s' : σ) : (Attempt.done a s').Atomic s := .of_ok rfl

theorem fail (e : Error) (s : σ) : (Attempt.fail e s : Attempt σ α).Atomic s := fun _ _ => rfl

/-- What has to be there is looked up before anything is changed. -/
theorem needing {need : Except Error α} {next : α → Attempt σ β} (h : ∀ a, (next a).Atomic s) :
    (Attempt.needing s need next).Atomic s := by
  cases need with
  | error e => exact .fail e s
  | ok a => exact h a

/-- **One step after another**: the first one is atomic, and behind it nothing fails. -/
theorem andThen {attempt : Attempt σ α} {next : α → σ → Attempt σ β} (h : attempt.Atomic s)
    (hnext : ∀ a s', ∃ b, (next a s').result = .ok b) : (attempt.andThen next).Atomic s := by
  rw [Attempt.andThen]
  cases hresult : attempt.result with
  | error e =>
    intro _ _
    exact h e hresult
  | ok a =>
    obtain ⟨b, hb⟩ := hnext a attempt.state
    exact .of_ok hb

/-- Answering something else. -/
theorem map {attempt : Attempt σ α} (h : attempt.Atomic s) (f : α → β) :
    (attempt.map f).Atomic s := by
  intro e he
  obtain ⟨_ | _, s'⟩ := attempt
  · exact h _ rfl
  · cases he

/-- Inside a larger state. -/
theorem within {attempt : Attempt σ α} (h : attempt.Atomic s) (around : σ → τ) :
    (attempt.within around).Atomic (around s) :=
  fun e he => congrArg around (h e he)

end Atomic

end Attempt

/-! ### Lists -/

namespace ListOp

variable (items : List Value) (index : Int64) (policy : ListPolicy)

/-- Filling up is given up before the first null is added. -/
theorem padTo_atomic : (padTo items index policy).Atomic items := by
  rw [padTo]
  split
  · exact .fail _ _
  dsimp only
  split
  · exact .done _ _ _
  split
  · split
    · exact .done _ _ _
    · exact .fail _ _
  split
  · exact .fail _ _
  · exact .done _ _ _

theorem addItems_atomic (values : List Value) : (addItems items values policy).Atomic items := by
  refine .needing fun accepted => ?_
  cases accepted with
  | none => exact .done _ _ _
  | some accepted => exact .done _ _ _

theorem insertAt_atomic (values : List Value) : (insertAt items index values policy).Atomic items := by
  refine .needing fun accepted => ?_
  cases accepted with
  | none => exact .done _ _ _
  | some accepted =>
    refine (padTo_atomic items index policy).andThen fun position padded => ?_
    cases position with
    | none => exact ⟨(), rfl⟩
    | some position => exact ⟨(), rfl⟩

theorem setAt_atomic (value : Value) : (setAt items index value policy).Atomic items := by
  refine .needing fun accepted => ?_
  match accepted with
  | none | some [] => exact .done _ _ _
  | some (value :: _) =>
    refine (padTo_atomic items index policy).andThen fun position padded => ?_
    cases position with
    | none => exact ⟨(), rfl⟩
    | some position =>
      dsimp only
      split <;> exact ⟨(), rfl⟩

/-- **An operation on a list** that fails leaves the list as it was. -/
theorem apply_atomic (op : ListOp) : (op.apply items).Atomic items := by
  cases op with
  | append value policy => exact (addItems_atomic items policy [value]).map _
  | merge values policy => exact (addItems_atomic items policy values).map _
  | insert index value policy => exact (insertAt_atomic items index policy [value]).map _
  | insertItems index values policy => exact (insertAt_atomic items index policy values).map _
  | set index value policy => exact (setAt_atomic items index policy value).map _
  | pop index => exact .needing fun _ => .done _ _ _
  | remove index => exact .needing fun _ => .done _ _ _
  | get index => exact .needing fun _ => .done _ _ _
  | getBy selector returnType => exact .needing fun _ => .done _ _ _
  | removeBy selector returnType => exact .needing fun _ => .done _ _ _
  | popRange index count => exact .done _ _ _
  | removeRange index count => exact .done _ _ _
  | getRange index count => exact .done _ _ _
  | trim index count => exact .done _ _ _
  | clear => exact .done _ _ _
  | size => exact .done _ _ _

end ListOp

/-! ### Maps -/

namespace MapOp

variable (m : Dict Value)

theorem addTo_atomic (key : Value) (amount : Except Error Value) (policy : MapPolicy) :
    (addTo m key amount policy).Atomic m := by
  refine .needing fun accepted => ?_
  cases accepted with
  | false => exact .done _ _ _
  | true => exact .needing fun _ => .done _ _ _

/-- **An operation on a map** that fails leaves the map as it was. -/
theorem apply_atomic (op : MapOp) : (op.apply m).Atomic m := by
  cases op with
  | setPolicy policy => exact .done _ _ _
  | put key value policy => exact .needing fun _ => .done _ _ _
  | putItems items policy => exact .needing fun _ => .done _ _ _
  | increment key delta policy => exact addTo_atomic m key (.ok delta) policy
  | decrement key delta policy => exact addTo_atomic m key delta.negate policy
  | clear => exact .done _ _ _
  | size => exact .done _ _ _
  | getBy selector returnType => exact .needing fun _ => .done _ _ _
  | removeBy selector returnType => exact .needing fun _ => .done _ _ _

end MapOp

/-! ### Bins -/

namespace Bins

variable (bins : Bins) (bin : String)

theorem increment_atomic (delta : Value) : (bins.increment bin delta).Atomic bins := by
  rw [increment]
  split
  · exact .done _ _ _
  · exact .needing fun _ => .done _ _ _

theorem concat_atomic (value : Value) (place : End) : (bins.concat bin value place).Atomic bins := by
  rw [concat]
  split
  · exact .done _ _ _
  · exact .needing fun _ => .done _ _ _

end Bins

namespace Engine

variable (engine : Engine) (bins : Bins)

/-- A step on a list in a bin that fails puts the list back that was there. -/
theorem applyList_atomic (bin : String) (op : ListOp) :
    (engine.applyList bins bin op).Atomic bins := by
  rw [applyList]
  split
  · rename_i items hget
    have hwithin := (op.apply_atomic items).within fun items => bins.insert bin (.list items)
    rwa [Named.insert_of_get? hget] at hwithin
  · exact .fail _ _
  · split
    · exact .needing fun _ => .done _ _ _
    · exact fun _ _ => rfl

/-- A step on a map in a bin that fails puts the map back that was there. -/
theorem applyMap_atomic (bin : String) (op : MapOp) :
    (engine.applyMap bins bin op).Atomic bins := by
  rw [applyMap]
  split
  · rename_i m hget
    have hwithin := (op.apply_atomic m).within fun m => bins.insert bin (.map m)
    rwa [Named.insert_of_get? hget] at hwithin
  · exact .fail _ _
  · split
    · exact .needing fun _ => .done _ _ _
    · exact fun _ _ => rfl

/-- **A step of a call** that fails leaves all bins as they were. -/
theorem apply_atomic (op : Operation) : (engine.apply bins op).Atomic bins := by
  cases op with
  | write bin value => exact .done _ _ _
  | read bin => exact .done _ _ _
  | increment bin delta => exact (bins.increment_atomic bin delta).map _
  | append bin value => exact (bins.concat_atomic bin value .back).map _
  | prepend bin value => exact (bins.concat_atomic bin value .front).map _
  | touch ttl => exact .done _ _ _
  | delete => exact .done _ _ _
  | list bin op => exact engine.applyList_atomic bins bin op
  | map bin op => exact engine.applyMap_atomic bins bin op

end Engine

/-! ### Steps of calls -/

/-- **A step that fails changes nothing.** Operations on lists and on maps, sums in a bin, and
additions at an end of a bin, valid or not, leave what they were applied to exactly as it was
when they fail, and so does every step of a call. -/
theorem failed_steps_change_nothing :
    (∀ (op : ListOp) (items : List Value) (e : Error),
        (op.apply items).result = .error e → (op.apply items).state = items) ∧
      (∀ (op : MapOp) (m : Dict Value) (e : Error),
        (op.apply m).result = .error e → (op.apply m).state = m) ∧
      (∀ (bins : Bins) (bin : String) (delta : Value) (e : Error),
        (bins.increment bin delta).result = .error e → (bins.increment bin delta).state = bins) ∧
      (∀ (bins : Bins) (bin : String) (value : Value) (place : End) (e : Error),
        (bins.concat bin value place).result = .error e →
          (bins.concat bin value place).state = bins) ∧
      ∀ (engine : Engine) (bins : Bins) (op : Operation) (e : Error),
        (engine.apply bins op).result = .error e → (engine.apply bins op).state = bins :=
  ⟨fun op items => op.apply_atomic items, fun op m => op.apply_atomic m, Bins.increment_atomic,
    Bins.concat_atomic, Engine.apply_atomic⟩

/-- The second value of a merge is denied, a position is too far to fill a list up to, an amount
cannot be subtracted from a text, and a number has no end to add to. -/
theorem failed_steps_change_nothing_midway :
    let items : List Value := [.integer 1]
    let merge : ListOp := .merge [.integer 2, .integer 1] { addUnique := true }
    let far : ListOp := .set 70000 (.integer 2) {}
    let m : Dict Value := ⟨.unordered, [(.integer 2, .null), (.string "n", .string "x")]⟩
    let decrement : MapOp := .decrement (.string "n") (.integer 1) {}
    let bins : Bins := Named.ofList [("n", .integer 1)]
    (merge.apply items).result = .error (.elementExists (.item (.integer 1))) ∧
      (merge.apply items).state = items ∧
      (far.apply items).result = .error (.param (.paddingTooLong 70000 1)) ∧
      (far.apply items).state = items ∧ (decrement.apply m).state = m ∧
      (bins.concat "n" (.string "x") .back).state = bins := by
  intro items merge far m decrement bins
  obtain ⟨hlist, hmap, -, hconcat, -⟩ := failed_steps_change_nothing
  have hmerge : (merge.apply items).result = .error (.elementExists (.item (.integer 1))) := rfl
  have hfar : (far.apply items).result = .error (.param (.paddingTooLong 70000 1)) := rfl
  refine ⟨hmerge, hlist merge items _ hmerge, hfar, hlist far items _ hfar, ?_, ?_⟩
  · exact hmap decrement m _ rfl
  · exact hconcat bins "n" (.string "x") .back _ rfl

end RecordStore

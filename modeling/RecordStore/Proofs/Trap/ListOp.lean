import RecordStore.Proofs.Collection.Placement
import RecordStore.Proofs.Trap.Selection

/-!
# Operations on lists meet no trap

This file works out the operations on lists with all their accesses, each of which may be a trap:
windows in words (`RecordStore.Window.forwardWord`), selections through columns
(`RecordStore.Columns`), and the list itself through `RecordStore.Trap`. No operation meets a trap,
whether or not it would pass its checks, and it comes to what the operation is said to do
(`RecordStore.ListOp.run?_eq`).

Where a list may be filled up, what has to be arranged is that the position is one of the filled
list, or its end (`RecordStore.ListOp.padTo_position_le`); everywhere else it is known from the
check before the access.
-/

namespace RecordStore

open Trap

namespace Attempt

variable {σ α β : Type} {s : σ} {need : Except Error α}

/-- Goes on from a state with something that has to be there, and may meet a trap. -/
def needing? (s : σ) (need : Except Error α) (next : α → Option (Attempt σ β)) :
    Option (Attempt σ β) :=
  match need with
  | .ok a => next a
  | .error e => some (.fail e s)

theorem needing?_eq {next? : α → Option (Attempt σ β)} {next : α → Attempt σ β}
    (h : ∀ a, need = .ok a → next? a = some (next a)) :
    needing? s need next? = some (needing s need next) := by
  cases need with
  | ok a => exact h a rfl
  | error e => rfl

end Attempt

/-! ### Removing what is selected -/

section Removing

variable {α : Type} {storage : List α} {v : View} {content : Element → α} {selector : Selector}
  {inverted : Bool} {s : Selection}

/-- **What is selected can be removed** from the store. -/
theorem View.Faithful.removeAll?_eq (h : v.Faithful storage content)
    (hn : (storage.length : Int) ≤ maxPosition) (hs : v.select selector inverted = .ok s) :
    removeAll? storage s.positions = some (survivors storage s.takes) := by
  have hsize : storage.length < UInt64.size := by
    rw [maxPosition_eq] at hn
    have : UInt64.size = 2 ^ 64 := rfl
    omega
  exact Trap.removeAll?_eq (h.positions_lt hs) (h.nodup_positions hs) hsize

/-- Where nothing is selected, everything survives. -/
theorem survivors_of_elements_eq_nil (storage : List α) (h : s.elements = []) :
    survivors storage s.takes = storage := by
  have hall : storage.zipIdx.filter (fun e => !s.takes e.2) = storage.zipIdx := by
    rw [List.filter_eq_self]
    simp [Selection.takes, Selection.positions, h]
  rw [survivors, hall, List.zipIdx_map_fst]

end Removing

/-! ### Lists -/

namespace ListOp

variable {items values : List Value} {value : Value} {policy : ListPolicy} {index : Int64}

/-- Fills a list up as far as a position. -/
def padTo? (items : List Value) (index : Int64) (policy : ListPolicy) :
    Option (Attempt (List Value) (Option Nat)) :=
  if index < 0 then some (.fail (.param .negativePosition) items)
  else
    let position := Word.toPosition index
    let length := items.length
    if position ≤ length then some (.done (some position) items)
    else if policy.insertBounded then
      if policy.noFail then some (.done none items)
      else some (.fail (.notApplicable (.pastEnd position length)) items)
    else do
      let gap ← sub? position length
      return if gap > maxPadding then .fail (.param (.paddingTooLong position length)) items
        else .done (some position) (items ++ List.replicate gap .null)

/-- Puts the values that the policy lets in before a position, or at the end. -/
def insertItems? (items : List Value) (index : Option Int64) (values : List Value)
    (policy : ListPolicy) : Option (Attempt (List Value) (Option OpResult)) :=
  Attempt.needing? items (accept items values policy) fun accepted =>
    match accepted, index with
    | none, _ => some (.done none items)
    | some accepted, none => (insertAll? items items.length accepted).map (.done none)
    | some accepted, some index => do
      let filled ← padTo? items index policy
      Attempt.needing? filled.state filled.result fun position =>
        match position with
        | none => some (.done none filled.state)
        | some position => (insertAll? filled.state position accepted).map (.done none)

/-- Replaces the value at a position, or adds it if the list ends there. -/
def setAt? (items : List Value) (index : Int64) (value : Value) (policy : ListPolicy) :
    Option (Attempt (List Value) (Option OpResult)) :=
  Attempt.needing? items (accept items [value] policy) fun accepted =>
    match accepted with
    | none | some [] => some (.done none items)
    | some (value :: _) => do
      let filled ← padTo? items index policy
      Attempt.needing? filled.state filled.result fun position =>
        match position with
        | none => some (.done none filled.state)
        | some position =>
          if position < filled.state.length then
            (set? filled.state position value).map (.done none)
          else some (.done none (filled.state ++ [value]))

/-- **Applies an operation to a list**, with all accesses. -/
def run? (op : ListOp) (items : List Value) : Option (Attempt (List Value) (Option OpResult)) :=
  match op with
  | append value policy => insertItems? items none [value] policy
  | merge values policy => insertItems? items none values policy
  | insert index value policy => insertItems? items (some index) [value] policy
  | insertItems index values policy => insertItems? items (some index) values policy
  | set index value policy => setAt? items index value policy
  | pop index =>
    Attempt.needing? items (existing items index) fun position => do
      let value ← items[position]?
      return .done (some (.scalar value)) (← erase? items position)
  | popRange index count => do
    let (range, rest) ← drain? items (Window.forwardWord items.length index count)
    return .done (some (.list range)) rest
  | remove index =>
    Attempt.needing? items (existing items index) fun position =>
      (erase? items position).map (.done none)
  | removeRange index count => do
    let (_, rest) ← drain? items (Window.forwardWord items.length index count)
    return .done none rest
  | get index =>
    Attempt.needing? items (existing items index) fun position => do
      return .done (some (.scalar (← items[position]?))) items
  | getRange index count => do
    let range ← slice? items (Window.forwardWord items.length index count)
    return .done (some (.list range)) items
  | trim index count => do
    -- the end is cut off before what is in front of the range is taken out
    let window := Window.forwardWord items.length index (some count)
    let (_, rest) ← drain? (items.take window.bound) ⟨0, window.first⟩
    return .done none rest
  | clear => some (.done none [])
  | size => some (.done (some (.count items.length)) items)
  | getBy selector returnType => do
    let selected ← (Columns.ofList items).selectAndReport? selector returnType
    Attempt.needing? items selected fun (_, answer) => some (.done answer items)
  | removeBy selector returnType => do
    let columns := Columns.ofList items
    let selected ← columns.selectAndReport? selector returnType
    Attempt.needing? items selected fun (picked, answer) => do
      if picked.indices.isEmpty then return .done answer items
      else return .done answer (← removeAll? items (← columns.positions? picked))

/-- Behind the end of a list, its length can be subtracted. -/
theorem padTo?_eq (items : List Value) (index : Int64) (policy : ListPolicy) :
    padTo? items index policy = some (padTo items index policy) := by
  rw [padTo?, padTo]
  by_cases hneg : index.toInt < 0
  · rw [if_pos hneg, if_pos (Int64.lt_iff_toInt_lt.mpr hneg)]
  rw [if_neg hneg, if_neg (mt Int64.lt_iff_toInt_lt.mp hneg),
    Word.toPosition_eq (Int.not_lt.mp hneg)]
  dsimp only
  by_cases hle : index.toInt.toNat ≤ items.length
  · rw [if_pos hle, if_pos hle]
  · have hgap : sub? index.toInt.toNat items.length = some (index.toInt.toNat - items.length) :=
      if_pos (by omega)
    rw [if_neg hle, if_neg hle, hgap]
    cases policy.insertBounded with
    | true => cases policy.noFail <;> rfl
    | false =>
      simp only [Bool.false_eq_true, if_false, Option.bind_eq_bind, Option.bind_some]
      rfl

theorem insertItems?_eq_addItems (items values : List Value) (policy : ListPolicy) :
    insertItems? items none values policy =
      some ((addItems items values policy).map fun _ => none) := by
  rw [insertItems?, addItems]
  cases accept items values policy with
  | error e => rfl
  | ok accepted =>
    cases accepted with
    | none => rfl
    | some accepted =>
      have hinsert : insertAll? items items.length accepted = some (items ++ accepted) := by
        rw [insertAll?, if_pos (Nat.le_refl _), List.take_length, List.drop_length, List.append_nil]
      simp only [Attempt.needing?, hinsert]
      rfl

/-- **Values are put in front of a position** that the list was filled up to. -/
theorem insertItems?_eq_insertAt (items : List Value) (index : Int64) (values : List Value)
    (policy : ListPolicy) : insertItems? items (some index) values policy =
      some ((insertAt items index values policy).map fun _ => none) := by
  rw [insertItems?, insertAt]
  cases accept items values policy with
  | error e => rfl
  | ok accepted =>
    cases accepted with
    | none => rfl
    | some accepted =>
      have hle := @padTo_position_le items policy index
      simp only [Attempt.needing?, padTo?_eq]
      generalize padTo items index policy = filled at hle ⊢
      obtain ⟨_ | _ | position, padded⟩ := filled
      · rfl
      · rfl
      · have hinsert : insertAll? padded position accepted =
            some (padded.take position ++ accepted ++ padded.drop position) :=
          if_pos (hle rfl)
        simp only [Option.bind_eq_bind, Option.bind_some, hinsert]
        rfl

theorem setAt?_eq (items : List Value) (index : Int64) (value : Value) (policy : ListPolicy) :
    setAt? items index value policy =
      some ((setAt items index value policy).map fun _ => none) := by
  rw [setAt?, setAt]
  cases accept items [value] policy with
  | error e => rfl
  | ok accepted =>
    rcases accepted with _ | _ | ⟨value, rest⟩
    · rfl
    · rfl
    · simp only [Attempt.needing?, padTo?_eq]
      obtain ⟨_ | _ | position, padded⟩ := padTo items index policy
      · rfl
      · rfl
      · change (if position < padded.length then (set? padded position value).map _ else _) =
          some (Attempt.map _ (if position < padded.length then _ else _))
        split
        · rename_i hlt
          rw [set?, if_pos hlt]
          rfl
        · rfl

/-- **A position that exists can be looked up**, and taken out. -/
theorem needing?_existing {next? : Nat → Option (Attempt (List Value) (Option OpResult))}
    {next : Value × Nat → Attempt (List Value) (Option OpResult)}
    (h : ∀ value position, items[position]? = some value →
      next? position = some (next (value, position))) :
    Attempt.needing? items (existing items index) next? =
      some (Attempt.needing items (valueAt items index) next) := by
  by_cases hposition : 0 ≤ index.toInt ∧ index.toInt < items.length
  · obtain ⟨value, hvalue, hat⟩ := valueAt_of_lt hposition
    rw [hat, existing_eq, if_pos hposition]
    exact h value _ hvalue
  · rw [valueAt, existing_eq, if_neg hposition]
    rfl

theorem erase?_of_getElem? {position : Nat} (h : items[position]? = some value) :
    erase? items position = some (items.eraseIdx position) :=
  if_pos (List.getElem?_eq_some_iff.mp h).1

theorem lt_of_existing {position : Nat} (h : existing items index = .ok position) :
    position < items.length := by
  rw [existing_eq] at h
  split at h
  · obtain rfl := Except.ok.inj h
    omega
  · cases h

/-- **No operation on a list meets a trap.** -/
theorem run?_eq (hn : (items.length : Int) ≤ maxPosition) (op : ListOp) :
    op.run? items = some (op.apply items) := by
  have hwithin : ∀ index count, (Window.forward items.length index count).Within items.length :=
    Window.within_forward items.length
  cases op with
  | append value policy => exact insertItems?_eq_addItems _ _ _
  | merge values policy => exact insertItems?_eq_addItems _ _ _
  | insert index value policy => exact insertItems?_eq_insertAt _ _ _ _
  | insertItems index values policy => exact insertItems?_eq_insertAt _ _ _ _
  | set index value policy => exact setAt?_eq _ _ _ _
  | pop index =>
    refine needing?_existing fun value position h => ?_
    rw [h, erase?_of_getElem? h]
    rfl
  | popRange index count =>
    rw [run?, Window.forwardWord_eq hn, drain?_of_within (hwithin index count)]
    rfl
  | remove index =>
    refine Attempt.needing?_eq fun position h => ?_
    rw [erase?, if_pos (lt_of_existing h)]
    rfl
  | removeRange index count =>
    rw [run?, Window.forwardWord_eq hn, drain?_of_within (hwithin index count)]
    rfl
  | get index =>
    refine needing?_existing fun value position h => ?_
    rw [h]
    rfl
  | getRange index count =>
    rw [run?, Window.forwardWord_eq hn, slice?_of_within (hwithin index count)]
    rfl
  | trim index count =>
    obtain ⟨hordered, hbounded⟩ := hwithin index (some count)
    have hfront : Window.Within ⟨0, (Window.forward items.length index (some count)).first⟩
        (items.take (Window.forward items.length index (some count)).bound).length :=
      ⟨Nat.zero_le _, by rwa [List.length_take_of_le hbounded]⟩
    rw [run?, Window.forwardWord_eq hn]
    simp only [drain?_of_within hfront]
    rfl
  | clear => rfl
  | size => rfl
  | getBy selector returnType =>
    rw [run?, ← View.columns_ofList,
      (View.columned_ofList items).selectAndReport?_eq (by simpa using hn), apply]
    cases (View.ofList items).selectAndReport selector returnType <;> rfl
  | removeBy selector returnType =>
    rw [run?, ← View.columns_ofList]
    dsimp only
    rw [(View.columned_ofList items).selectAndReport?_eq (by simpa using hn), apply]
    cases hselected : (View.ofList items).selectAndReport selector returnType with
    | error e => rfl
    | ok selected =>
      obtain ⟨s, answer⟩ := selected
      have hs := (View.selectAndReport_eq_ok_iff.mp hselected).1
      have hpositions := View.Columned.positions?_eq (View.shows_ofList items) fun e he =>
        (View.shows_ofList items).mem_of_select hs he
      have hremoved := (View.faithful_ofList items).removeAll?_eq hn hs
      have hothers := View.map_others_ofList hs
      simp only [Except.map, Option.bind_eq_bind, Option.bind_some, Attempt.needing?,
        Attempt.needing, hpositions, hremoved, hothers]
      split
      · rename_i hnone
        have hempty : s.elements = [] := by simpa [Selection.picked] using hnone
        rw [survivors_of_elements_eq_nil items hempty]
        rfl
      · rfl

end ListOp

end RecordStore

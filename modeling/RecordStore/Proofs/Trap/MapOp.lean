import RecordStore.Proofs.Trap.ListOp

/-!
# Operations on maps meet no trap

This file works out the operations on maps with all their accesses, as
`RecordStore.ListOp.run?` does for lists, and shows that none of them is a trap
(`RecordStore.MapOp.run?_eq`).

Writing to a map relies on the place of a key. That the keys are in order is easily thought to be
needed for it, as maps are searched by halving; but what the search relies on to find the right
place, it does not need to find a place in the map (`RecordStore.Dict.within_place`).
-/

namespace RecordStore

open Trap

/-! ### Maps -/

namespace Dict

variable {m : Dict Value} {key value : Value} {position : Nat}

/-- The value at a key, looked up where the key was found. -/
def valueAt? (m : Dict Value) (key : Value) : Option (Option Value) :=
  match m.place key with
  | .found position => m.entries[position]?.map fun e => some e.2
  | .absent _ => some none

/-- **Inserts or overwrites**, at the place of the key. -/
def insert? (m : Dict Value) (key value : Value) : Option (Dict Value) :=
  match m.place key with
  | .found position => do
    let e ← m.entries[position]?
    return { m with entries := ← set? m.entries position (e.1, value) }
  | .absent position => do
    return { m with entries := ← insertAll? m.entries position [(key, value)] }

/-- A place lies in a map, or at its end if the key is absent. -/
def Place.Within (n : Nat) : Place → Prop
  | found position => position < n
  | absent position => position ≤ n

theorem within_search (entries : List (Value × Value)) (key : Value) {lo hi : Nat}
    (bounded : hi ≤ entries.length) (hle : lo ≤ hi) :
    (search entries key lo hi bounded).Within entries.length := by
  fun_induction search entries key lo hi bounded with
  | case1 lo hi bounded h middle inside hcompare ih => exact ih (by omega)
  | case2 lo hi bounded h middle inside hcompare ih => exact ih (by omega)
  | case3 lo hi bounded h middle inside hcompare => exact inside
  | case4 lo hi bounded h => exact Nat.le_trans hle bounded

/-- **Looking for a key does not leave the map**, even if its entries are in no order. -/
theorem within_place (m : Dict Value) (key : Value) : (m.place key).Within m.entries.length := by
  rw [place]
  split
  · exact within_search m.entries key _ (Nat.zero_le _)
  · rw [scan]
    split
    · rename_i position hfound
      exact (List.findIdx?_eq_some_iff_getElem.mp hfound).1
    · exact Nat.le_refl _

theorem valueAt?_eq (m : Dict Value) (key : Value) : m.valueAt? key = some (m.get? key) := by
  have hwithin := m.within_place key
  rw [valueAt?, get?]
  cases hplace : m.place key with
  | found position =>
    rw [hplace] at hwithin
    have hlt : position < m.entries.length := hwithin
    simp [Place.position?, List.getElem?_eq_getElem hlt]
  | absent position => rfl

theorem insert?_eq (m : Dict Value) (key value : Value) :
    m.insert? key value = some (m.insert key value) := by
  have hwithin := m.within_place key
  rw [insert?, insert]
  cases hplace : m.place key with
  | found position =>
    rw [hplace] at hwithin
    have hlt : position < m.entries.length := hwithin
    simp only [List.getElem?_eq_getElem hlt, Option.bind_eq_bind, Option.bind_some, set?,
      if_pos hlt, List.modify_eq_set_get _ hlt]
    rfl
  | absent position =>
    rw [hplace] at hwithin
    have hle : position ≤ m.entries.length := hwithin
    have hinsert := insertIdx_length_append (m.entries.take position) (m.entries.drop position)
      (key, value)
    rw [List.take_append_drop, List.length_take_of_le hle] at hinsert
    simp only [insertAll?, if_pos hle, hinsert, List.append_assoc, List.singleton_append]
    rfl

end Dict

namespace MapOp

variable {m : Dict Value} {key : Value} {policy : MapPolicy}

/-- Adds an amount to the value of an entry. -/
def addTo? (m : Dict Value) (key : Value) (amount : Except Error Value) (policy : MapPolicy) :
    Option (Attempt (Dict Value) (Option OpResult)) :=
  Attempt.needing? m (accept m key policy) fun accepted =>
    if accepted then
      Attempt.needing? m amount fun amount => do
        let sum := (← m.valueAt? key).elim (.ok amount) (Value.add · amount)
        Attempt.needing? m sum fun sum =>
          (m.insert? key sum).map (.done (some (.scalar sum)))
    else some (.done none m)

/-- **Applies an operation to a map**, with all accesses. -/
def run? (op : MapOp) (m : Dict Value) : Option (Attempt (Dict Value) (Option OpResult)) :=
  match op with
  | setPolicy policy => some (.done none (m.setOrder policy.order))
  | put key value policy =>
    Attempt.needing? m (accept m key policy) fun accepted =>
      if accepted then (m.insert? key value).map (.done none) else some (.done none m)
  | putItems items policy =>
    Attempt.needing? m (acceptItems m policy items) fun accepted =>
      ((accepted.getD []).foldlM (fun m e => Dict.insert? m e.1 e.2) m).map (.done none)
  | increment key delta policy => addTo? m key (.ok delta) policy
  | decrement key delta policy => addTo? m key delta.negate policy
  | clear => some (.done none m.clear)
  | size => some (.done (some (.count m.size)) m)
  | getBy selector returnType => do
    let columns ← Columns.ofDict? m
    let selected ← columns.selectAndReport? selector returnType
    Attempt.needing? m selected fun (_, answer) => some (.done answer m)
  | removeBy selector returnType => do
    let columns ← Columns.ofDict? m
    let selected ← columns.selectAndReport? selector returnType
    Attempt.needing? m selected fun (picked, answer) => do
      let left ← removeAll? m.entries (← columns.positions? picked)
      return .done answer { m with entries := left }

theorem foldlM_insert? (items : List (Value × Value)) (m : Dict Value) :
    items.foldlM (fun m e => Dict.insert? m e.1 e.2) m = some (m.insertMany items) := by
  induction items generalizing m with
  | nil => rfl
  | cons e items ih =>
    rw [List.foldlM_cons, Dict.insert?_eq, Option.bind_eq_bind, Option.bind_some, ih]
    rfl

theorem addTo?_eq (m : Dict Value) (key : Value) (amount : Except Error Value)
    (policy : MapPolicy) : addTo? m key amount policy = some (addTo m key amount policy) := by
  refine Attempt.needing?_eq fun accepted _ => ?_
  cases accepted with
  | false => rfl
  | true =>
    simp only [if_true, Dict.valueAt?_eq, Dict.insert?_eq, Option.bind_eq_bind, Option.bind_some]
    cases amount with
    | error e => rfl
    | ok amount =>
      simp only [Except.bind, sumAt, Attempt.needing?]
      cases m.get? key with
      | none => rfl
      | some current =>
        simp only [Option.elim_some]
        cases current.add amount <;> rfl

/-- **No operation on a map meets a trap.** -/
theorem run?_eq (hn : (m.entries.length : Int) ≤ maxPosition) (op : MapOp) :
    op.run? m = some (op.apply m) := by
  have hlength : ((m.byKey.map (·.1)).length : Int) ≤ maxPosition := by
    rwa [List.length_map, m.byKey_perm.length_eq, List.length_zipIdx]
  cases op with
  | setPolicy policy => rfl
  | put key value policy =>
    refine Attempt.needing?_eq fun accepted _ => ?_
    cases accepted with
    | false => rfl
    | true =>
      rw [if_pos rfl, Dict.insert?_eq]
      rfl
  | putItems items policy =>
    refine Attempt.needing?_eq fun accepted _ => ?_
    rw [foldlM_insert?]
    rfl
  | increment key delta policy => exact addTo?_eq _ _ _ _
  | decrement key delta policy => exact addTo?_eq _ _ _ _
  | clear => rfl
  | size => rfl
  | getBy selector returnType =>
    rw [run?, View.columns_ofDict, Option.bind_eq_bind, Option.bind_some,
      (View.columned_ofDict m).selectAndReport?_eq hlength, apply]
    cases (View.ofDict m).selectAndReport selector returnType <;> rfl
  | removeBy selector returnType =>
    have hshows := (View.columned_ofDict m).toShows
    rw [run?, View.columns_ofDict, Option.bind_eq_bind, Option.bind_some,
      (View.columned_ofDict m).selectAndReport?_eq hlength, apply]
    cases hselected : (View.ofDict m).selectAndReport selector returnType with
    | error e => rfl
    | ok selected =>
      obtain ⟨s, answer⟩ := selected
      have hs := (View.selectAndReport_eq_ok_iff.mp hselected).1
      have hpositions := View.Columned.positions?_eq hshows fun e he => hshows.mem_of_select hs he
      have hremoved := (View.faithful_ofDict m).removeAll?_eq hn hs
      simp only [Except.map, Option.bind_eq_bind, Option.bind_some, Attempt.needing?,
        Attempt.needing, hpositions, hremoved]
      rfl

end MapOp

end RecordStore

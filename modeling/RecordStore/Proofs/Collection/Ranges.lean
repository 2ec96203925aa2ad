import Mathlib.Data.List.Basic
import RecordStore.Collection.ListOp

/-!
# Ranges of a list

Four operations on lists take a range that is counted forward: one answers it, one takes it out
and answers it, one removes it, and one keeps nothing else. This file shows that they mean the
same range (`RecordStore.ListOp.forward_ranges_agree`). A range cuts the list into three parts
(`RecordStore.ListOp.Cuts`), and each of the four is said in terms of these: what is answered is
the part in the middle, and what is left are the two others, or the middle alone.

Neither end of the list makes an exception. A start behind the end, or in front of position
zero, stands at the end, where the range is empty; and a count may go beyond the end as far as it
likes. Only operations on a single position fail there, and all three of them do.
-/

namespace RecordStore

variable {items front range rest : List Value} {index : Int64} {count : Option UInt64}

/-! ### Forward windows -/

namespace Window

variable {n : Nat}

/-- A forward window starts at its index, and a negative one stands at the end. -/
theorem first_forward (n : Nat) (index : Int64) (count : Option UInt64) :
    ((forward n index count).first : Int) =
      if 0 ≤ index.toInt then min index.toInt n else n := by
  dsimp only [forward]
  split <;> split <;> omega

/-- A forward window has as many positions as its count says, as long as there are so many. -/
theorem bound_forward (n : Nat) (index : Int64) (c : UInt64) :
    (forward n index (some c)).bound = min ((forward n index (some c)).first + c.toNat) n := rfl

/-- A forward window lies in its container. -/
theorem forward_le (n : Nat) (index : Int64) (count : Option UInt64) :
    (forward n index count).first ≤ (forward n index count).bound ∧
      (forward n index count).bound ≤ n := by
  have hfirst := first_forward n index count
  have hle : (forward n index count).first ≤ n := by
    split at hfirst <;> omega
  cases count with
  | none => exact ⟨hle, Nat.le_refl n⟩
  | some c =>
    rw [bound_forward]
    omega

/-- A window cuts a list into three parts. -/
theorem take_append_drop_take_append_drop {α : Type} {w : Window} (h : w.first ≤ w.bound)
    (l : List α) : l.take w.first ++ (l.take w.bound).drop w.first ++ l.drop w.bound = l := by
  have htake : l.take w.first = (l.take w.bound).take w.first := by
    rw [List.take_take, Nat.min_eq_left h]
  rw [htake, List.take_append_drop, List.take_append_drop]

end Window

namespace ListOp

/-! ### Three parts -/

/-- **A range cuts a list** into what is in front of it, the range, and what is behind it. -/
structure Cuts (items : List Value) (index : Int64) (count : Option UInt64)
    (front range rest : List Value) : Prop where
  /-- The parts make up the list. -/
  eq_append : items = front ++ range ++ rest
  /-- The range starts at its index, and at the end of the list if that is behind the end or
  negative. -/
  length_front : (front.length : Int) =
    if 0 ≤ index.toInt then min index.toInt items.length else items.length
  /-- The range has as many values as its count says, as long as there are so many. -/
  length_range : ∀ c ∈ count, range.length = min c.toNat (items.length - front.length)
  /-- Without a count the range goes to the end. -/
  rest_eq_nil : count = none → rest = []

/-- **A forward window cuts** the list as its range does. -/
theorem cuts_forward (items : List Value) (index : Int64) (count : Option UInt64) :
    Cuts items index count (items.take (Window.forward items.length index count).first)
      (slice items (Window.forward items.length index count))
      (items.drop (Window.forward items.length index count).bound) := by
  obtain ⟨hle, hbound⟩ := Window.forward_le items.length index count
  have hfront : (items.take (Window.forward items.length index count).first).length =
      (Window.forward items.length index count).first :=
    List.length_take_of_le (Nat.le_trans hle hbound)
  refine ⟨(Window.take_append_drop_take_append_drop hle items).symm, ?_, ?_, ?_⟩
  · rw [hfront, Window.first_forward]
  · rintro c rfl
    rw [slice, List.length_drop, List.length_take, hfront, Window.bound_forward]
    omega
  · rintro rfl
    exact List.drop_length

/-! ### Single positions -/

theorem existing_eq (items : List Value) (index : Int64) :
    existing items index =
      if 0 ≤ index.toInt ∧ index.toInt < items.length then .ok index.toInt.toNat
      else .error (.indexOutOfRange index items.length) := rfl

/-- The value at a position of the list. -/
theorem valueAt_of_lt (h : 0 ≤ index.toInt ∧ index.toInt < items.length) :
    ∃ value, items[index.toInt.toNat]? = some value ∧
      valueAt items index = .ok (value, index.toInt.toNat) := by
  have hlt : index.toInt.toNat < items.length := by omega
  refine ⟨items[index.toInt.toNat], List.getElem?_eq_getElem hlt, ?_⟩
  rw [valueAt, existing_eq, if_pos h, List.getElem_eq_getD .null]
  rfl

/-- Taking one value out is removing a range of one. -/
theorem outside_single (h : 0 ≤ index.toInt ∧ index.toInt < items.length) :
    outside items (Window.forward items.length index (some 1)) =
      items.eraseIdx index.toInt.toNat := by
  have hfirst := Window.first_forward items.length index (some 1)
  rw [if_pos h.1, Int.min_eq_left (Int.le_of_lt h.2)] at hfirst
  have hfirst : (Window.forward items.length index (some 1)).first = index.toInt.toNat := by omega
  have hone : UInt64.toNat 1 = 1 := rfl
  have hbound : (Window.forward items.length index (some 1)).bound = index.toInt.toNat + 1 := by
    rw [Window.bound_forward, hfirst]
    omega
  rw [outside, hfirst, hbound, List.eraseIdx_eq_take_drop_succ]

/-- **A position of the list**: all three operations on it succeed, and taking the value out
leaves what removing a range of one leaves. -/
theorem apply_of_position (h : 0 ≤ index.toInt ∧ index.toInt < items.length) :
    ∃ value, items[index.toInt.toNat]? = some value ∧
      (get index).apply items = .done (some (.scalar value)) items ∧
      (pop index).apply items = .done (some (.scalar value))
        ((removeRange index (some 1)).apply items).state ∧
      (remove index).apply items = .done none
        ((removeRange index (some 1)).apply items).state := by
  obtain ⟨value, hvalue, hat⟩ := valueAt_of_lt h
  have hleft : ((removeRange index (some 1)).apply items).state =
      items.eraseIdx index.toInt.toNat := outside_single h
  refine ⟨value, hvalue, ?_, ?_, ?_⟩
  · rw [apply, hat]
    rfl
  · rw [apply, hat, hleft]
    rfl
  · rw [apply, existing_eq, if_pos h, hleft]
    rfl

/-- **No position of the list**: all three operations on it fail, and leave the list. -/
theorem apply_of_not_position (h : ¬(0 ≤ index.toInt ∧ index.toInt < items.length)) :
    ∀ op ∈ [get index, pop index, remove index],
      op.apply items = .fail (.indexOutOfRange index items.length) items := by
  have hexisting : existing items index = .error (.indexOutOfRange index items.length) :=
    if_neg h
  have hat : valueAt items index = .error (.indexOutOfRange index items.length) := by
    rw [valueAt, hexisting]
    rfl
  intro op hop
  simp only [List.mem_cons, List.not_mem_nil, or_false] at hop
  rcases hop with rfl | rfl | rfl
  · rw [apply, hat]
    rfl
  · rw [apply, hat]
    rfl
  · rw [apply, hexisting]
    rfl

/-! ### Ranges -/

/-- **The forward ranges agree.** A range cuts a list into three parts, of which the middle is
answered, taken out, removed, or kept alone. The operations on a single position succeed
exactly if it is one of the list; the value that is answered is then the value that is taken
out, and what is left is left by removing a range of one, too. -/
theorem forward_ranges_agree (items : List Value) (index : Int64) :
    (∀ count : Option UInt64, ∃ front range rest, Cuts items index count front range rest ∧
      (getRange index count).apply items = .done (some (.list range)) items ∧
      (popRange index count).apply items = .done (some (.list range)) (front ++ rest) ∧
      (removeRange index count).apply items = .done none (front ++ rest) ∧
      ∀ c ∈ count, (trim index c).apply items = .done none range) ∧
    (0 ≤ index.toInt ∧ index.toInt < items.length →
      ∃ value, items[index.toInt.toNat]? = some value ∧
        (get index).apply items = .done (some (.scalar value)) items ∧
        (pop index).apply items = .done (some (.scalar value))
          ((removeRange index (some 1)).apply items).state ∧
        (remove index).apply items = .done none
          ((removeRange index (some 1)).apply items).state) ∧
    (¬(0 ≤ index.toInt ∧ index.toInt < items.length) →
      ∀ op ∈ [get index, pop index, remove index],
        op.apply items = .fail (.indexOutOfRange index items.length) items) := by
  refine ⟨fun count => ?_, apply_of_position, apply_of_not_position⟩
  refine ⟨_, _, _, cuts_forward items index count, rfl, rfl, rfl, ?_⟩
  rintro c rfl
  rfl

/-- A range whose count is the greatest there is, and positions at both ends of a list. -/
theorem forward_ranges_agree_three :
    let items : List Value := [.integer 1, .string "a", .null]
    (∃ front range rest, Cuts items 1 (some 18446744073709551615) front range rest ∧
      (popRange 1 (some 18446744073709551615)).apply items =
        .done (some (.list range)) (front ++ rest)) ∧
      (∃ value, (pop 2).apply items =
        .done (some (.scalar value)) ((removeRange 2 (some 1)).apply items).state) ∧
      (pop (-1)).apply items = .fail (.indexOutOfRange (-1) 3) items := by
  intro items
  obtain ⟨front, range, rest, hcuts, -, hpop, -⟩ :=
    (forward_ranges_agree items 1).1 (some 18446744073709551615)
  obtain ⟨value, -, -, hlast, -⟩ := (forward_ranges_agree items 2).2.1 (by decide)
  have hbefore := (forward_ranges_agree items (-1)).2.2 (by decide) (pop (-1)) (by simp)
  exact ⟨⟨front, range, rest, hcuts, hpop⟩, ⟨value, hlast⟩, hbefore⟩

end ListOp

end RecordStore

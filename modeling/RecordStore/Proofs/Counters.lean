import RecordStore.Bins
import RecordStore.Collection.MapOp
import RecordStore.Proofs.Value.Lookup

/-!
# Counters

A bin and an entry of a map can be counted up, and an entry can be counted down. This file
compares what comes of it with the sum and the difference of unbounded integers
(`RecordStore.counting_exact`): where these fit into sixty-four bits they are what is stored and
answered, and where they do not the count fails and nothing is changed.

Counting up is exact for every counter and every amount. Counting down is counting up by the
negative of the amount, and the least integer has no negative of sixty-four bits. So **a counter
below zero cannot be counted down by the least integer**, although the difference fits
(`RecordStore.MapOp.decrement_by_least`); from zero on the difference does not fit either.
-/

namespace RecordStore

/-! ### Integers of sixty-four bits -/

/-- **An integer fits** into sixty-four bits with a sign. -/
def Fits (n : Int) : Prop := Int64.minValue.toInt ≤ n ∧ n ≤ Int64.maxValue.toInt

theorem Word.fits (w : Int64) : Fits w.toInt := ⟨Int64.minValue_le_toInt w, Int64.toInt_le w⟩

/-- Integers that fit have a word. -/
theorem Word.int64?_of_fits {n : Int} (h : Fits n) : ∃ w, Word.int64? n = some w ∧ w.toInt = n := by
  have hword : Word.int64? n = some (Int64.ofInt n) := if_pos h
  exact ⟨Int64.ofInt n, hword, Word.int64?_eq_some_iff.mp hword⟩

/-- Integers that do not fit have none. -/
theorem Word.int64?_of_not_fits {n : Int} (h : ¬Fits n) : Word.int64? n = none := if_neg h

/-! ### Sums -/

namespace Value

/-- **The integer that a counter holds.** Where there is nothing it counts from zero. -/
def counter? : Option Value → Option Int
  | none => some 0
  | some (.integer n) => some n.toInt
  | some _ => none

/-- An amount added to what is there, if anything is. -/
def sum (current : Option Value) (amount : Value) : Except Error Value :=
  match current with
  | none => .ok amount
  | some value => value.add amount

/-- **A computation comes to an integer** when it gives the integer if that fits, and cannot be
applied otherwise. -/
structure ComesTo (x : Except Error Value) (exact : Int) : Prop where
  /-- The integer fits. -/
  fits : Fits exact → ∃ n : Int64, n.toInt = exact ∧ x = .ok (.integer n)
  /-- The integer does not fit. -/
  overflows : ¬Fits exact → ∃ cause, x = .error (.notApplicable cause)

variable {current : Option Value} {c : Int} {d : Int64}

theorem ComesTo.of_word (n : Int64) : ComesTo (.ok (.integer n)) n.toInt :=
  ⟨fun _ => ⟨n, rfl, rfl⟩, fun h => absurd (Word.fits n) h⟩

/-- A counter holds nothing or an integer. -/
theorem counter_cases (h : counter? current = some c) :
    (current = none ∧ c = 0) ∨ ∃ n : Int64, current = some (.integer n) ∧ c = n.toInt := by
  rcases current with _ | value
  · exact Or.inl ⟨rfl, (Option.some_inj.mp h).symm⟩
  · rcases value with _ | n
    case integer => exact Or.inr ⟨n, rfl, (Option.some_inj.mp h).symm⟩
    all_goals cases h

/-- What a counter holds fits. -/
theorem fits_of_counter (h : counter? current = some c) : Fits c := by
  rcases counter_cases h with ⟨-, rfl⟩ | ⟨n, -, rfl⟩
  · exact Word.fits 0
  · exact Word.fits n

/-- **A sum comes to the sum** of the integers. -/
theorem ComesTo.of_counter (h : counter? current = some c) (d : Int64) :
    ComesTo (sum current (.integer d)) (c + d.toInt) := by
  rcases counter_cases h with ⟨rfl, rfl⟩ | ⟨n, rfl, rfl⟩
  · rw [Int.zero_add]
    exact of_word d
  · refine ⟨fun hfits => ?_, fun hfits => ?_⟩
    · obtain ⟨w, hw, heq⟩ := Word.int64?_of_fits hfits
      refine ⟨w, heq, ?_⟩
      rw [sum, add, hw]
    · refine ⟨.integerOverflow, ?_⟩
      rw [sum, add, Word.int64?_of_not_fits hfits]

/-- An error that is named after its bin is the same failure. -/
theorem ComesTo.mapError {x : Except Error Value} {exact : Int} (h : ComesTo x exact)
    (bin : String) : ComesTo (x.mapError (Bins.nameBin bin)) exact where
  fits hexact := by
    obtain ⟨n, hn, hx⟩ := h.fits hexact
    refine ⟨n, hn, ?_⟩
    rw [hx]
    rfl
  overflows hexact := by
    obtain ⟨cause, hx⟩ := h.overflows hexact
    refine ⟨.inBin bin cause, ?_⟩
    rw [hx]
    rfl

/-- Every integer but the least one has a negative. -/
theorem negate_integer (hd : d ≠ Int64.minValue) :
    ∃ n : Int64, n.toInt = -d.toInt ∧ negate (.integer d) = .ok (.integer n) := by
  have hfits : Fits (-d.toInt) := by
    obtain ⟨hlower, hupper⟩ := Word.fits d
    have hne : d.toInt ≠ Int64.minValue.toInt := fun h => hd (Int64.toInt_inj.mp h)
    rw [Int64.toInt_minValue] at hlower hne
    rw [Int64.toInt_maxValue] at hupper
    rw [Fits, Int64.toInt_minValue, Int64.toInt_maxValue]
    omega
  obtain ⟨n, hn, heq⟩ := Word.int64?_of_fits hfits
  refine ⟨n, heq, ?_⟩
  rw [negate, hn]

end Value

/-! ### Counting -/

open Value (counter? ComesTo)

/-- **A count is exact** when it stores and answers the integer that it comes to if that fits, and
otherwise fails and changes nothing. -/
structure CountsTo {σ α : Type} (attempt : Attempt σ α) (exact : Int) (before : σ)
    (after : Value → σ) (answer : Value → α) : Prop where
  /-- The integer fits. -/
  fits : Fits exact →
    ∃ n : Int64, n.toInt = exact ∧ attempt = .done (answer (.integer n)) (after (.integer n))
  /-- The integer does not fit, and the operation is not applicable. -/
  overflows : ¬Fits exact → ∃ cause, attempt = .fail (.notApplicable cause) before

/-- What is stored and answered once it is computed counts when the computation does. -/
theorem CountsTo.of_comesTo {σ α : Type} {x : Except Error Value} {exact : Int}
    (h : ComesTo x exact) (before : σ) (after : Value → σ) (answer : Value → α) :
    CountsTo (.needing before x fun v => .done (answer v) (after v)) exact before after answer where
  fits hexact := by
    obtain ⟨n, hn, hx⟩ := h.fits hexact
    refine ⟨n, hn, ?_⟩
    rw [hx]
    rfl
  overflows hexact := by
    obtain ⟨cause, hx⟩ := h.overflows hexact
    refine ⟨cause, ?_⟩
    rw [hx]
    rfl

variable {c : Int} {d : Int64}

namespace Bins

variable {bins : Bins} {bin : String}

theorem increment_eq (bins : Bins) (bin : String) (delta : Value) :
    bins.increment bin delta =
      .needing bins ((Value.sum (bins.get? bin) delta).mapError (nameBin bin)) fun sum =>
        .done () (bins.insert bin sum) := by
  rw [increment]
  rcases bins.get? bin with _ | current <;> rfl

/-- **A bin is counted up** exactly. -/
theorem increment_countsTo (h : counter? (bins.get? bin) = some c) (d : Int64) :
    CountsTo (bins.increment bin (.integer d)) (c + d.toInt) bins (bins.insert bin)
      fun _ => () := by
  rw [increment_eq]
  exact .of_comesTo ((ComesTo.of_counter h d).mapError bin) ..

end Bins

namespace MapOp

variable {m : Dict Value} {key : Value} {policy : MapPolicy}

theorem sumAt_eq_sum (m : Dict Value) (key amount : Value) :
    sumAt m key amount = Value.sum (m.get? key) amount := by
  rw [sumAt]
  rcases m.get? key with _ | current <;> rfl

/-- What is added to an entry that is let in counts when the sum does. -/
theorem addTo_countsTo {amount : Except Error Value} {exact : Int}
    (haccept : accept m key policy = .ok true) (h : ComesTo (amount.bind (sumAt m key)) exact) :
    CountsTo (addTo m key amount policy) exact m (m.insert key) fun v => some (.scalar v) := by
  rw [addTo, haccept]
  exact .of_comesTo h m (m.insert key) fun v => some (OpResult.scalar v)

/-- **An entry is counted up** exactly. -/
theorem increment_countsTo (haccept : accept m key policy = .ok true)
    (h : counter? (m.get? key) = some c) (d : Int64) :
    CountsTo ((increment key (.integer d) policy).apply m) (c + d.toInt) m (m.insert key)
      fun v => some (.scalar v) := by
  have hsum := ComesTo.of_counter h d
  rw [← sumAt_eq_sum] at hsum
  exact addTo_countsTo haccept hsum

/-- **An entry is counted down** exactly, by an amount that has a negative. -/
theorem decrement_countsTo (haccept : accept m key policy = .ok true)
    (h : counter? (m.get? key) = some c) (hd : d ≠ Int64.minValue) :
    CountsTo ((decrement key (.integer d) policy).apply m) (c - d.toInt) m (m.insert key)
      fun v => some (.scalar v) := by
  obtain ⟨n, hn, hnegate⟩ := Value.negate_integer hd
  have hsum := ComesTo.of_counter h n
  rw [← sumAt_eq_sum] at hsum
  rw [Int.sub_eq_add_neg, ← hn]
  refine addTo_countsTo haccept ?_
  rw [hnegate]
  exact hsum

/-- **No entry is counted down by the least integer.** -/
theorem decrement_by_least (haccept : accept m key policy = .ok true) :
    (decrement key (.integer Int64.minValue) policy).apply m =
      .fail (.notApplicable .decrementOverflow) m := by
  rw [apply, addTo, haccept]
  rfl

/-- Counting down is exact, unless a counter below zero is counted down by the least integer. -/
theorem decrement_countsTo_iff (haccept : accept m key policy = .ok true)
    (h : counter? (m.get? key) = some c) (d : Int64) :
    CountsTo ((decrement key (.integer d) policy).apply m) (c - d.toInt) m (m.insert key)
        (fun v => some (.scalar v)) ↔
      ¬(d = Int64.minValue ∧ c < 0) := by
  by_cases hd : d = Int64.minValue
  · subst hd
    have hexact : Fits (c - Int64.minValue.toInt) ↔ c < 0 := by
      obtain ⟨hlower, -⟩ := Value.fits_of_counter h
      rw [Int64.toInt_minValue] at hlower
      rw [Fits, Int64.toInt_minValue, Int64.toInt_maxValue]
      omega
    rw [decrement_by_least haccept, and_iff_right rfl, ← hexact]
    constructor
    · rintro ⟨hfits, -⟩ hsmall
      obtain ⟨n, -, hdone⟩ := hfits hsmall
      cases hdone
    · exact fun hlarge => ⟨fun hsmall => absurd hsmall hlarge, fun _ => ⟨_, rfl⟩⟩
  · exact iff_of_true (decrement_countsTo haccept h hd) fun hleast => hd hleast.1

end MapOp

/-- **Counting is exact**, in unbounded integers: bins and entries are counted up, and entries are
counted down, with the one exception of an entry below zero and the least integer. What is answered
for an entry is what is stored. -/
theorem counting_exact (c : Int) (d : Int64) :
    (∀ (bins : Bins) (bin : String), counter? (bins.get? bin) = some c →
        CountsTo (bins.increment bin (.integer d)) (c + d.toInt) bins (bins.insert bin)
            (fun _ => ()) ∧
          ∀ v, (bins.insert bin v).get? bin = some v) ∧
      ∀ (m : Dict Value) (key : Value) (policy : MapPolicy), m.WellFormed →
        MapOp.accept m key policy = .ok true → counter? (m.get? key) = some c →
          CountsTo ((MapOp.increment key (.integer d) policy).apply m) (c + d.toInt) m
              (m.insert key) (fun v => some (.scalar v)) ∧
            (CountsTo ((MapOp.decrement key (.integer d) policy).apply m) (c - d.toInt) m
                (m.insert key) (fun v => some (.scalar v)) ↔
              ¬(d = Int64.minValue ∧ c < 0)) ∧
            (d = Int64.minValue → (MapOp.decrement key (.integer d) policy).apply m =
              .fail (.notApplicable .decrementOverflow) m) ∧
            ∀ v, (m.insert key v).get? key = some v := by
  refine ⟨fun bins bin h => ⟨Bins.increment_countsTo h d, fun v => ?_⟩,
    fun m key policy hm haccept h => ⟨MapOp.increment_countsTo haccept h d,
      MapOp.decrement_countsTo_iff haccept h d, ?_, fun v => ?_⟩⟩
  · rw [Named.get?_insert, if_pos rfl]
  · rintro rfl
    exact MapOp.decrement_by_least haccept
  · have hself : (key == key) = true := Value.beq_iff_canonical_eq.mpr rfl
    rw [hm.get?_insert, hself]
    rfl

/-- At the greatest integer there is a step down and none up. -/
theorem counting_exact_greatest :
    let greatest : Value := .integer Int64.maxValue
    let bins : Bins := Named.empty.insert "n" greatest
    let m : Dict Value := .ofList .unordered [(.string "n", greatest)]
    counter? (bins.get? "n") = some Int64.maxValue.toInt ∧
      m.WellFormed ∧ MapOp.accept m (.string "n") {} = .ok true ∧
      counter? (m.get? (.string "n")) = some Int64.maxValue.toInt ∧
      (∃ cause, bins.increment "n" (.integer 1) = .fail (.notApplicable cause) bins) ∧
      (∃ cause, (MapOp.increment (.string "n") (.integer 1) {}).apply m =
        .fail (.notApplicable cause) m) ∧
      ∃ n : Int64, n.toInt = Int64.maxValue.toInt - 1 ∧
        (MapOp.decrement (.string "n") (.integer 1) {}).apply m =
          .done (some (.scalar (.integer n))) (m.insert (.string "n") (.integer n)) := by
  intro greatest bins m
  have hbin : counter? (bins.get? "n") = some Int64.maxValue.toInt := rfl
  have hm : m.WellFormed := (Dict.WellFormed.empty .unordered).insertMany _
  have haccept : MapOp.accept m (.string "n") {} = .ok true := rfl
  have hentry : counter? (m.get? (.string "n")) = some Int64.maxValue.toInt := rfl
  have hlarge : ¬Fits (Int64.maxValue.toInt + (1 : Int64).toInt) := by
    rintro ⟨-, h⟩
    exact absurd h (by decide)
  have hsmall : Fits (Int64.maxValue.toInt - (1 : Int64).toInt) := by
    constructor <;> decide
  have hdown : ¬((1 : Int64) = Int64.minValue ∧ Int64.maxValue.toInt < 0) := by decide
  obtain ⟨hbins, hmaps⟩ := counting_exact Int64.maxValue.toInt 1
  obtain ⟨hup, hexact, -⟩ := hmaps m (.string "n") {} hm haccept hentry
  exact ⟨hbin, hm, haccept, hentry, (hbins bins "n" hbin).1.overflows hlarge,
    hup.overflows hlarge, (hexact.mpr hdown).fits hsmall⟩

/-- **A counter at minus one** is not counted down by the least integer, although what it would
come to is the greatest one. -/
theorem decrement_by_least_fails :
    let m : Dict Value := .ofList .unordered [(.string "n", .integer (-1))]
    let op : MapOp := .decrement (.string "n") (.integer Int64.minValue) {}
    (-1 : Int64).toInt - Int64.minValue.toInt = Int64.maxValue.toInt ∧
      op.apply m = .fail (.notApplicable .decrementOverflow) m ∧
      ¬CountsTo (op.apply m) ((-1 : Int64).toInt - Int64.minValue.toInt) m
        (m.insert (.string "n")) fun v => some (.scalar v) := by
  refine ⟨by decide, rfl, fun h => ?_⟩
  obtain ⟨n, -, hdone⟩ := h.fits (by constructor <;> decide)
  cases hdone

end RecordStore

import RecordStore.Attempt

/-!
# Rows of checks, and attempts

A row of checks succeeds when each of its checks does, and an attempt that is answered
in another way succeeds when it did before and has an answer. The lemmas of this file
take both apart, one step after the other.

The last part puts attempts together: `RecordStore.Attempt.each` takes one step after another,
up to the first that fails, and `RecordStore.Attempt.orBack` takes back what a failed attempt
has done.
-/

namespace RecordStore

/-! ### Rows of checks -/

section Checks

variable {ε α β : Type}

/-- Something that is followed by something else succeeds when both do. -/
theorem bind_eq_ok_iff {x : Except ε α} {f : α → Except ε β} {b : β} :
    (x >>= f) = .ok b ↔ ∃ a, x = .ok a ∧ f a = .ok b := by
  cases x <;> simp [bind, Except.bind]

/-- Something that is followed by something else fails when one of them does. -/
theorem bind_eq_error_iff {x : Except ε α} {f : α → Except ε β} {e : ε} :
    (x >>= f) = .error e ↔ x = .error e ∨ ∃ a, x = .ok a ∧ f a = .error e := by
  cases x <;> simp [bind, Except.bind]

/-- A check that is followed by something else. -/
theorem check_bind_eq_ok_iff {x : Except ε Unit} {f : Unit → Except ε β} {b : β} :
    (x >>= f) = .ok b ↔ x = .ok () ∧ f () = .ok b := by
  rw [bind_eq_ok_iff]
  exact ⟨fun ⟨(), h⟩ => h, fun h => ⟨(), h⟩⟩

theorem pure_eq_ok_iff {a b : α} : (pure a : Except ε α) = .ok b ↔ b = a :=
  ⟨fun h => (Except.ok.inj h).symm, fun h => congrArg Except.ok h.symm⟩

/-- Two checks that both succeed do so in either order. -/
theorem swap_checks {x : Except ε α} {y : Except ε β} {c : α × β}
    (h : (do let a ← x; let b ← y; return (a, b)) = .ok c) :
    (do let b ← y; let a ← x; return (a, b)) = .ok c := by
  obtain ⟨a, hx, h⟩ := bind_eq_ok_iff.mp h
  obtain ⟨b, hy, h⟩ := bind_eq_ok_iff.mp h
  exact bind_eq_ok_iff.mpr ⟨b, hy, bind_eq_ok_iff.mpr ⟨a, hx, h⟩⟩

/-- What a row of checks finds was found by one of them. -/
theorem exists_of_mem_mapM {f : α → Except ε β} {as : List α} {bs : List β} {b : β}
    (h : as.mapM f = .ok bs) (hb : b ∈ bs) : ∃ a ∈ as, f a = .ok b := by
  induction as generalizing bs with
  | nil =>
    obtain rfl := Except.ok.inj h
    exact absurd hb List.not_mem_nil
  | cons a as ih =>
    rw [List.mapM_cons] at h
    obtain ⟨c, hc, h⟩ := bind_eq_ok_iff.mp h
    obtain ⟨cs, hcs, h⟩ := bind_eq_ok_iff.mp h
    obtain rfl := Except.ok.inj h
    rcases List.mem_cons.mp hb with rfl | hb
    · exact ⟨a, List.mem_cons_self, hc⟩
    · obtain ⟨a', ha', hfound⟩ := ih hcs hb
      exact ⟨a', List.mem_cons_of_mem a ha', hfound⟩

/-- What is made of a result is there when the result is. -/
theorem map_eq_ok_iff {x : Except ε α} {f : α → β} {b : β} :
    x.map f = .ok b ↔ ∃ a, x = .ok a ∧ f a = b := by
  cases x <;> simp [Except.map]

/-- A condition that must not hold. -/
theorem ite_error_eq_ok_iff {p : Prop} [Decidable p] {e : ε} {x : Except ε α} {a : α} :
    (if p then .error e else x) = .ok a ↔ ¬p ∧ x = .ok a := by
  by_cases h : p <;> simp [h]

end Checks

/-! ### Attempts -/

namespace Attempt

variable {σ α β γ : Type}

theorem map_eq_mapResult (f : α → β) (attempt : Attempt σ α) :
    attempt.map f = attempt.mapResult fun a => .ok (f a) := by
  obtain ⟨_ | _, s⟩ := attempt <;> rfl

theorem map_map (f : α → β) (g : β → γ) (attempt : Attempt σ α) :
    (attempt.map f).map g = attempt.map (g ∘ f) := by
  obtain ⟨_ | _, s⟩ := attempt <;> rfl

theorem mapResult_mapResult (f : α → Except Error β) (g : β → Except Error γ)
    (attempt : Attempt σ α) :
    (attempt.mapResult f).mapResult g = attempt.mapResult fun a => (f a).bind g := by
  obtain ⟨_ | _, s⟩ := attempt <;> rfl

/-- What is answered in the end is an answer of the attempt, answered otherwise. -/
theorem mapResult_result_eq_ok_iff {f : α → Except Error β} {attempt : Attempt σ α} {b : β} :
    (attempt.mapResult f).result = .ok b ↔ ∃ a, attempt.result = .ok a ∧ f a = .ok b := by
  obtain ⟨e | a, s⟩ := attempt <;> simp [mapResult, Except.bind]

/-- What fails in the end failed before, or its answer has no answer. -/
theorem mapResult_result_eq_error_iff {f : α → Except Error β} {attempt : Attempt σ α}
    {e : Error} :
    (attempt.mapResult f).result = .error e ↔
      attempt.result = .error e ∨ ∃ a, attempt.result = .ok a ∧ f a = .error e := by
  obtain ⟨e | a, s⟩ := attempt <;> simp [mapResult, Except.bind]

/-! ### One step after another -/

/-- **Goes through some things**, with a step for each of them, up to the first step that
fails. -/
def each (step : α → σ → Attempt σ β) : List α → σ → Attempt σ Unit
  | [], s => .done () s
  | a :: as, s => (step a s).andThen fun _ s => each step as s

/-- **The attempt, taken back if it fails**: it then leaves the state that it started from. -/
def orBack (attempt : Attempt σ α) (s : σ) : Attempt σ α :=
  .needing s attempt.result fun a => .done a attempt.state

variable {step : α → σ → Attempt σ β} {a : α} {as : List α} {s s' : σ}

theorem each_cons_of_done {b : β} (h : step a s = .done b s') :
    each step (a :: as) s = each step as s' := by
  rw [each, h]
  rfl

theorem each_cons_of_fail {e : Error} (h : step a s = .fail e s') :
    each step (a :: as) s = .fail e s' := by
  rw [each, h]
  rfl

/-- **What every step keeps**, they keep one after another, also up to one that fails. -/
theorem each_invariant {P : σ → Prop} (hstep : ∀ a s, P s → P (step a s).state) (as : List α)
    (h : P s) : P (each step as s).state := by
  induction as generalizing s with
  | nil => exact h
  | cons a as ih =>
    rw [each, andThen]
    rcases (step a s).result with e | b
    · exact hstep a s h
    · exact ih (hstep a s h)

end Attempt

end RecordStore

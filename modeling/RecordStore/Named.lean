/-!
# Named things

Something under each of some names, in ascending order of the names: the bins of
a record, the results of a call, the stores of a service. That the names ascend
is part of the type, so that two of these are equal when they hold the same under
the same names, however they were built. What building does is said through
`RecordStore.Named.get?`.
-/

namespace RecordStore

/-! ### Lists of pairs -/

section Pairs

variable {κ α : Type} [BEq κ] [LawfulBEq κ]

/-- Looking up in a list of pairs goes past a pair with another key. -/
theorem lookup_cons_eq_ite [DecidableEq κ] (k : κ) (e : κ × α) (es : List (κ × α)) :
    (e :: es).lookup k = if k = e.1 then some e.2 else es.lookup k := by
  rw [List.lookup_cons]
  by_cases h : k = e.1 <;> simp [h, beq_eq_false_iff_ne.mpr]

/-- Where no key stands twice, looking a key up finds what it is paired with. -/
theorem lookup_eq_some_iff_mem {es : List (κ × α)} (h : (es.map (·.1)).Nodup) {k : κ} {a : α} :
    es.lookup k = some a ↔ (k, a) ∈ es := by
  classical
  induction es with
  | nil => simp
  | cons e es ih =>
    obtain ⟨he, hes⟩ := List.nodup_cons.mp h
    rw [lookup_cons_eq_ite, List.mem_cons]
    by_cases hk : k = e.1
    · subst hk
      have hrest : (e.1, a) ∉ es := fun hmem => he (List.mem_map.mpr ⟨_, hmem, rfl⟩)
      rw [if_pos rfl, Option.some_inj]
      exact ⟨fun ha => Or.inl (ha ▸ rfl), fun ha => (ha.resolve_right hrest) ▸ rfl⟩
    · have hhead : (k, a) ≠ e := fun heq => hk (congrArg Prod.fst heq)
      rw [if_neg hk, ih hes]
      exact ⟨Or.inr, fun ha => ha.resolve_left hhead⟩

end Pairs

/-! ### Names -/

/-- Something under each of some names, in ascending order of the names. -/
structure Named (α : Type) where
  /-- The names with what they stand for. -/
  entries : List (String × α)
  /-- The names ascend; in particular no name stands twice. -/
  ascending : entries.Pairwise fun e f => e.1 < f.1

namespace Named

variable {α β : Type}

/-! ### Building -/

/-- Nothing under any name. -/
def empty : Named α := ⟨[], .nil⟩

instance : Inhabited (Named α) := ⟨empty⟩

/-- Whether there is no name. -/
def isEmpty (n : Named α) : Bool := n.entries.isEmpty

/-- What a name stands for. -/
def get? (n : Named α) (name : String) : Option α :=
  n.entries.lookup name

/-- Puts something under a name, in place of what was there. -/
def insertEntry (name : String) (a : α) : List (String × α) → List (String × α)
  | [] => [(name, a)]
  | e :: es =>
    if name < e.1 then (name, a) :: e :: es
    else if name = e.1 then (name, a) :: es
    else e :: insertEntry name a es

theorem mem_insertEntry {name : String} {a : α} {es : List (String × α)} {e : String × α}
    (h : e ∈ insertEntry name a es) : e = (name, a) ∨ e ∈ es := by
  induction es with
  | nil => exact Or.inl (List.mem_singleton.mp h)
  | cons f es ih =>
    rw [insertEntry] at h
    split at h
    · exact List.mem_cons.mp h
    · split at h
      · exact (List.mem_cons.mp h).imp_right (List.mem_cons_of_mem f)
      · rcases List.mem_cons.mp h with rfl | h
        · exact Or.inr List.mem_cons_self
        · exact (ih h).imp_right (List.mem_cons_of_mem f)

/-- A name that neither comes before another one nor is it comes behind it. -/
theorem name_lt_of_not_lt {m n : String} (hlt : ¬n < m) (hne : n ≠ m) : m < n :=
  Std.lt_of_le_of_ne (String.not_lt.mp hlt) hne.symm

theorem ascending_insertEntry (name : String) (a : α) {es : List (String × α)}
    (h : es.Pairwise fun e f => e.1 < f.1) :
    (insertEntry name a es).Pairwise fun e f => e.1 < f.1 := by
  induction es with
  | nil => exact List.pairwise_singleton _ _
  | cons e es ih =>
    obtain ⟨he, hes⟩ := List.pairwise_cons.mp h
    rw [insertEntry]
    split
    · rename_i hlt
      refine List.pairwise_cons.mpr ⟨fun f hf => ?_, h⟩
      rcases List.mem_cons.mp hf with rfl | hf
      · exact hlt
      · exact String.lt_trans hlt (he f hf)
    · rename_i hlt
      split
      · rename_i heq
        exact List.pairwise_cons.mpr ⟨fun f hf => heq ▸ he f hf, hes⟩
      · rename_i hne
        refine List.pairwise_cons.mpr ⟨fun f hf => ?_, ih hes⟩
        rcases mem_insertEntry hf with rfl | hf
        · exact name_lt_of_not_lt hlt hne
        · exact he f hf

/-- Puts something under a name, in place of what was there. -/
def insert (n : Named α) (name : String) (a : α) : Named α :=
  ⟨insertEntry name a n.entries, ascending_insertEntry name a n.ascending⟩

/-- The names that pass a test, with what they stand for. -/
def filter (n : Named α) (keep : String × α → Bool) : Named α :=
  ⟨n.entries.filter keep, n.ascending.filter keep⟩

/-- Removes a name. -/
def erase (n : Named α) (name : String) : Named α :=
  n.filter (·.1 ≠ name)

/-- The names with what they stand for; the last of equal names counts. -/
def ofList (entries : List (String × α)) : Named α :=
  entries.foldl (fun n e => n.insert e.1 e.2) empty

/-- Replaces what each name stands for. -/
def map (f : α → β) (n : Named α) : Named β :=
  ⟨n.entries.map fun e => (e.1, f e.2), n.ascending.map _ fun _ _ h => h⟩

/-! ### Looking up -/

/-- No name stands twice. -/
theorem nodup_names (n : Named α) : (n.entries.map (·.1)).Nodup :=
  List.pairwise_map.mpr (n.ascending.imp String.ne_of_lt)

theorem get?_eq_some_iff {n : Named α} {name : String} {a : α} :
    n.get? name = some a ↔ (name, a) ∈ n.entries :=
  lookup_eq_some_iff_mem n.nodup_names

@[simp] theorem get?_empty (name : String) : (empty : Named α).get? name = none := rfl

@[simp] theorem get?_insert (n : Named α) (name : String) (a : α) (other : String) :
    (n.insert name a).get? other = if other = name then some a else n.get? other := by
  change (insertEntry name a n.entries).lookup other =
    if other = name then some a else n.entries.lookup other
  generalize n.entries = es
  induction es with
  | nil => rw [insertEntry, lookup_cons_eq_ite]
  | cons e es ih =>
    rw [insertEntry]
    split
    · rw [lookup_cons_eq_ite]
    · split
      · rename_i heq
        rw [lookup_cons_eq_ite, lookup_cons_eq_ite, ← heq]
        exact ite_congr rfl (fun _ => rfl) fun h => (if_neg h).symm
      · rename_i hne
        rw [lookup_cons_eq_ite, lookup_cons_eq_ite, ih]
        by_cases he : other = e.1
        · have h : other ≠ name := fun heq => hne (heq.symm.trans he)
          rw [if_pos he, if_neg h, if_pos he]
        · rw [if_neg he, if_neg he]

@[simp] theorem get?_erase (n : Named α) (name other : String) :
    (n.erase name).get? other = if other = name then none else n.get? other := by
  ext a
  rw [get?_eq_some_iff, erase, filter, List.mem_filter]
  by_cases h : other = name
  · simp [h]
  · simp [h, get?_eq_some_iff]

end Named

end RecordStore

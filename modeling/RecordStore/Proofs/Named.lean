import Mathlib.Data.List.Sort
import RecordStore.Named

/-!
# Named things are what they hold

The names of named things ascend, so that these are determined by what stands under
each name (`RecordStore.Named.ext_get?`). This is how two sets of bins are shown to be
equal: bin by bin, and never by how they came about.
-/

namespace RecordStore

namespace Named

variable {α : Type} {m n : Named α}

/-- **Named things are equal** when they hold the same under each name. -/
theorem ext_get? (h : ∀ name, m.get? name = n.get? name) : m = n := by
  have hmem : ∀ e, e ∈ m.entries ↔ e ∈ n.entries := fun ⟨name, a⟩ => by
    rw [← get?_eq_some_iff, ← get?_eq_some_iff, h]
  obtain ⟨entries, ascending⟩ := m
  obtain ⟨entries', ascending'⟩ := n
  -- of two ascending lists with the same members, none can begin with another one
  have hirrefl : Std.Irrefl fun e f : String × α => e.1 < f.1 := ⟨fun e => String.lt_irrefl e.1⟩
  have hasymm : Std.Antisymm fun e f : String × α => e.1 < f.1 :=
    ⟨fun e f hef hfe => absurd (String.lt_trans hef hfe) (String.lt_irrefl e.1)⟩
  have hentries : entries = entries' := ascending.eq_of_mem_iff ascending' hmem
  subst hentries
  rfl

/-- There is nothing when there is nothing under any name. -/
theorem isEmpty_iff_get? : n.isEmpty = true ↔ ∀ name, n.get? name = none := by
  rw [isEmpty, List.isEmpty_iff, List.eq_nil_iff_forall_not_mem]
  constructor
  · exact fun h name => Option.eq_none_iff_forall_ne_some.mpr fun a ha =>
      h (name, a) (get?_eq_some_iff.mp ha)
  · intro h e he
    have hget := get?_eq_some_iff.mpr he
    rw [h] at hget
    cases hget

/-- Putting back what is there changes nothing. -/
theorem insert_of_get? {name : String} {a : α} (h : n.get? name = some a) :
    n.insert name a = n := by
  refine ext_get? fun other => ?_
  rw [get?_insert]
  by_cases hother : other = name
  · rw [if_pos hother, hother, h]
  · rw [if_neg hother]

/-- What a name stands for, once everything is replaced. -/
@[simp] theorem get?_map {β : Type} (f : α → β) (n : Named α) (name : String) :
    (n.map f).get? name = (n.get? name).map f := by
  ext b
  simp only [get?_eq_some_iff, Option.map_eq_some_iff, map, List.mem_map]
  constructor
  · rintro ⟨⟨name, a⟩, ha, ⟨⟩⟩
    exact ⟨a, ha, rfl⟩
  · rintro ⟨a, ha, rfl⟩
    exact ⟨(name, a), ha, rfl⟩

/-- A new name is put in between. -/
theorem insertEntry_perm {name : String} {es : List (String × α)}
    (h : name ∉ es.map (·.1)) (a : α) : (insertEntry name a es).Perm ((name, a) :: es) := by
  induction es with
  | nil => exact .refl _
  | cons e es ih =>
    rw [List.map_cons, List.mem_cons, not_or] at h
    obtain ⟨hne, hnew⟩ := h
    rw [insertEntry]
    split
    · exact .refl _
    · exact ((ih hnew).cons e).trans (.swap _ _ _)

/-- New names, all different, are added to those that are there. -/
theorem foldl_insert_perm (entries : List (String × α)) (n : Named α)
    (h : ((n.entries ++ entries).map (·.1)).Nodup) :
    (entries.foldl (fun n e => n.insert e.1 e.2) n).entries.Perm (n.entries ++ entries) := by
  induction entries generalizing n with
  | nil => exact .of_eq (List.append_nil _).symm
  | cons e entries ih =>
    have hnames : (e.1 :: (n.entries ++ entries).map (·.1)).Nodup :=
      (List.perm_middle.map _).nodup_iff.mp h
    have hnew : e.1 ∉ n.entries.map (·.1) := fun hmem => by
      refine (List.nodup_cons.mp hnames).1 ?_
      rw [List.map_append]
      exact List.mem_append_left _ hmem
    have hinsert : ((n.insert e.1 e.2).entries ++ entries).Perm (e :: (n.entries ++ entries)) :=
      (insertEntry_perm hnew e.2).append_right entries
    have hrest := ih (n.insert e.1 e.2) ((hinsert.map Prod.fst).nodup_iff.mpr hnames)
    exact hrest.trans (hinsert.trans List.perm_middle.symm)

/-- What stands under a name was put there, or was there before. -/
theorem mem_or_mem_of_foldl_insert {entries : List (String × α)} {n : Named α} {e : String × α}
    (h : e ∈ (entries.foldl (fun n e => n.insert e.1 e.2) n).entries) :
    e ∈ n.entries ∨ e ∈ entries := by
  induction entries generalizing n with
  | nil => exact Or.inl h
  | cons f entries ih =>
    rcases ih h with hmem | hmem
    · rcases mem_insertEntry hmem with rfl | hmem
      · exact Or.inr List.mem_cons_self
      · exact Or.inl hmem
    · exact Or.inr (List.mem_cons_of_mem f hmem)

theorem mem_of_mem_ofList {entries : List (String × α)} {e : String × α}
    (h : e ∈ (ofList entries).entries) : e ∈ entries :=
  (mem_or_mem_of_foldl_insert h).resolve_left List.not_mem_nil

/-- **Different names** keep what they are given. -/
theorem ofList_perm {entries : List (String × α)} (h : (entries.map (·.1)).Nodup) :
    (ofList entries).entries.Perm entries :=
  foldl_insert_perm entries empty h

end Named

end RecordStore

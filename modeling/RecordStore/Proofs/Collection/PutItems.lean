import RecordStore.Collection.MapOp
import RecordStore.Proofs.Attempt
import RecordStore.Proofs.Value.Lookup

/-!
# Putting items at once and one by one

A write of some items looks at all of their keys before it changes the map; puts of single items
look at the map that the puts before them have left. This file says when the two come to the same
(`RecordStore.MapOp.putItems_as_puts_iff`).

What makes the difference is whether an insertion changes what the policy lets in
(`RecordStore.MapPolicy.letsIn_insert_iff`). A policy that lets any key in goes on to do so, and
one for present keys is met with the same keys, because it inserts none. A policy for absent keys
is not: the first put of a key makes it present, and the second one is denied, whereas the write
at once has found the key absent both times and lets both items in. Then **the last item with the
key stays** (`RecordStore.MapOp.get?_putItems_of_creating`), also over an item that the same write
has created, and of the puts it is **the first** (`RecordStore.MapOp.get?_puts_of_creating`).
-/

namespace RecordStore

open Dict (firstAt lastAt)

variable {m : Dict Value} {items : List (Value × Value)} {policy : MapPolicy} {key : Value}

/-! ### What a policy lets in -/

namespace MapPolicy

/-- **Whether a policy lets an item into a map**, told from whether its key is present. -/
def letsIn (policy : MapPolicy) (m : Dict Value) (item : Value × Value) : Bool :=
  match policy.writeMode, m.contains item.1 with
  | .updateOnly, false | .createOnly, true => false
  | _, _ => true

/-- What a write of a key that is not let in fails with. -/
def denial (policy : MapPolicy) (key : Value) : Error :=
  match policy.writeMode with
  | .createOnly => .elementExists (.mapKey key)
  | _ => .elementNotFound (.mapKey key)

theorem letsIn_of_creating (hmode : policy.writeMode = .createOnly) (item : Value × Value) :
    policy.letsIn m item = !m.contains item.1 := by
  rw [letsIn, hmode]
  cases m.contains item.1 <;> rfl

/-- **What is let in after an insertion** is what was let in before. Where keys have to be absent
it must differ from the key that is inserted. -/
theorem letsIn_insert_iff (hm : m.WellFormed) {item other : Value × Value}
    (hitem : policy.letsIn m item = true) :
    policy.letsIn (m.insert item.1 item.2) other = true ↔
      policy.letsIn m other = true ∧
        (policy.writeMode = .createOnly → (item.1 == other.1) = false) := by
  rcases hmode : policy.writeMode with _ | _ | _
  · simp [letsIn, hmode]
  · -- the key that is inserted is present, so the insertion adds none
    have hpresent : m.contains item.1 = true := by
      rw [letsIn, hmode] at hitem
      rcases h : m.contains item.1 with _ | _
      · rw [h] at hitem
        cases hitem
      · rfl
    have hsame : (m.insert item.1 item.2).contains other.1 = m.contains other.1 := by
      rw [hm.contains_insert]
      rcases hkey : item.1 == other.1 with _ | _
      · rfl
      · rw [← hm.contains_congr hkey, hpresent]
        rfl
    simp [letsIn, hmode, hsame]
  · rw [letsIn_of_creating hmode, letsIn_of_creating hmode, hm.contains_insert]
    simp [and_comm]

end MapPolicy

namespace MapOp

theorem accept_eq_ite (m : Dict Value) (item : Value × Value) (policy : MapPolicy) :
    accept m item.1 policy =
      if policy.letsIn m item then .ok true
      else if policy.noFail then .ok false else .error (policy.denial item.1) := by
  rw [accept, MapPolicy.letsIn, MapPolicy.denial]
  rcases policy.writeMode with _ | _ | _ <;> cases m.contains item.1 <;> rfl

/-! ### At once -/

/-- Where denied items are left out, those that are let in are written. -/
theorem acceptItems_of_leavingOut (hnoFail : policy.noFail = true)
    (hkeepRest : policy.keepRest = true) :
    acceptItems m policy items = .ok (some (items.filter (policy.letsIn m))) := by
  induction items with
  | nil => rfl
  | cons item rest ih =>
    rw [acceptItems, accept_eq_ite, List.filter_cons, ih, hnoFail, hkeepRest]
    cases policy.letsIn m item <;> rfl

/-- **The first item that is denied** fails the write or has it skipped, where it is not just
left out. -/
theorem acceptItems_of_whole (hwhole : policy.noFail = true → policy.keepRest = false) :
    acceptItems m policy items =
      match items.find? fun item => !policy.letsIn m item with
      | none => .ok (some items)
      | some denied => if policy.noFail then .ok none else .error (policy.denial denied.1) := by
  induction items with
  | nil => rfl
  | cons item rest ih =>
    rw [acceptItems, accept_eq_ite, List.find?_cons, ih]
    rcases hin : policy.letsIn m item with _ | _
    · rcases hnoFail : policy.noFail with _ | _
      · rfl
      · rw [hwhole hnoFail]
        rfl
    · rcases rest.find? fun item => !policy.letsIn m item with _ | denied
      · rfl
      · cases policy.noFail <;> rfl

theorem apply_putItems_of_leavingOut (m : Dict Value) (items : List (Value × Value))
    (hnoFail : policy.noFail = true) (hkeepRest : policy.keepRest = true) :
    (putItems items policy).apply m =
      .done none (m.insertMany (items.filter (policy.letsIn m))) := by
  rw [apply, acceptItems_of_leavingOut hnoFail hkeepRest]
  rfl

/-- Every item is let in, and so all of them are written. -/
theorem apply_putItems_of_letsIn (hwhole : policy.noFail = true → policy.keepRest = false)
    (hall : ∀ item ∈ items, policy.letsIn m item = true) :
    (putItems items policy).apply m = .done none (m.insertMany items) := by
  have hnone : items.find? (fun item => !policy.letsIn m item) = none := by
    refine List.find?_eq_none.mpr fun item hitem => ?_
    rw [hall item hitem]
    exact Bool.false_ne_true
  rw [apply, acceptItems_of_whole hwhole, hnone]
  rfl

/-- An item is denied, and so nothing is written. -/
theorem apply_putItems_of_denied (hwhole : policy.noFail = true → policy.keepRest = false)
    (hdenied : ¬∀ item ∈ items, policy.letsIn m item = true) :
    ∃ denied ∈ items, (putItems items policy).apply m =
      if policy.noFail then .done none m else .fail (policy.denial denied.1) m := by
  rcases hfirst : items.find? fun item => !policy.letsIn m item with _ | denied
  · refine absurd (fun item hitem => ?_) hdenied
    rw [← Bool.not_eq_false', Bool.eq_false_iff]
    exact List.find?_eq_none.mp hfirst item hitem
  · refine ⟨denied, List.mem_of_find?_eq_some hfirst, ?_⟩
    rw [apply, acceptItems_of_whole hwhole, hfirst]
    cases policy.noFail <;> rfl

/-! ### One by one -/

/-- **Puts items one by one**, up to the first that fails. -/
def puts (policy : MapPolicy) :
    List (Value × Value) → Dict Value → Attempt (Dict Value) Unit :=
  Attempt.each fun item => (put item.1 item.2 policy).apply

variable {item : Value × Value}

/-- A put writes its item, leaves it out, or fails. -/
theorem apply_put (item : Value × Value) (policy : MapPolicy) (m : Dict Value) :
    (put item.1 item.2 policy).apply m =
      if policy.letsIn m item then .done none (m.insert item.1 item.2)
      else if policy.noFail then .done none m else .fail (policy.denial item.1) m := by
  rw [apply, accept_eq_ite]
  cases policy.letsIn m item
  · cases policy.noFail <;> rfl
  · rfl

theorem puts_cons_of_letsIn (h : policy.letsIn m item = true) :
    puts policy (item :: items) m = puts policy items (m.insert item.1 item.2) :=
  Attempt.each_cons_of_done ((apply_put item policy m).trans (if_pos h))

theorem puts_cons_of_leftOut (hnoFail : policy.noFail = true) (h : policy.letsIn m item ≠ true) :
    puts policy (item :: items) m = puts policy items m :=
  Attempt.each_cons_of_done
    ((apply_put item policy m).trans ((if_neg h).trans (if_pos hnoFail)))

theorem puts_cons_of_failing (hnoFail : policy.noFail ≠ true) (h : policy.letsIn m item ≠ true) :
    puts policy (item :: items) m = .fail (policy.denial item.1) m :=
  Attempt.each_cons_of_fail
    ((apply_put item policy m).trans ((if_neg h).trans (if_neg hnoFail)))

/-- No key comes twice. -/
def KeysDiffer (items : List (Value × Value)) : Prop :=
  items.Pairwise fun e f => (e.1 == f.1) = false

/-- **Items are let in in turn** when each of them is let in, and no key comes twice where keys
have to be absent. -/
structure LetsInTurn (policy : MapPolicy) (m : Dict Value) (items : List (Value × Value)) :
    Prop where
  /-- Each item is let in by itself. -/
  letsIn : ∀ item ∈ items, policy.letsIn m item = true
  /-- Keys that have to be absent differ. -/
  differ : policy.writeMode = .createOnly → KeysDiffer items

/-- Whether items are let in depends on the mode of writing alone. -/
theorem letsInTurn_congr {strict : MapPolicy} (hmode : strict.writeMode = policy.writeMode) :
    LetsInTurn strict m items ↔ LetsInTurn policy m items := by
  have hletsIn : strict.letsIn m = policy.letsIn m := by
    funext item
    rw [MapPolicy.letsIn, MapPolicy.letsIn, hmode]
  exact ⟨fun h => ⟨hletsIn ▸ h.letsIn, hmode ▸ h.differ⟩,
    fun h => ⟨hletsIn ▸ h.letsIn, hmode ▸ h.differ⟩⟩

/-- The first item is let in, and the others are when it is there. -/
theorem letsInTurn_cons (hm : m.WellFormed) :
    LetsInTurn policy m (item :: items) ↔
      policy.letsIn m item = true ∧ LetsInTurn policy (m.insert item.1 item.2) items := by
  constructor
  · rintro ⟨hletsIn, hdiffer⟩
    have hitem := hletsIn item List.mem_cons_self
    have hkeys := fun hmode => List.pairwise_cons.mp (hdiffer hmode)
    refine ⟨hitem, fun other hother => ?_, fun hmode => (hkeys hmode).2⟩
    refine (MapPolicy.letsIn_insert_iff hm hitem).mpr ⟨?_, fun hmode => ?_⟩
    · exact hletsIn other (List.mem_cons_of_mem item hother)
    · exact (hkeys hmode).1 other hother
  · rintro ⟨hitem, hletsIn, hdiffer⟩
    have hothers := fun other hother =>
      (MapPolicy.letsIn_insert_iff hm hitem).mp (hletsIn other hother)
    refine ⟨List.forall_mem_cons.mpr ⟨hitem, fun other hother => (hothers other hother).1⟩, ?_⟩
    intro hmode
    exact List.pairwise_cons.mpr
      ⟨fun other hother => (hothers other hother).2 hmode, hdiffer hmode⟩

/-- **Items that are let in in turn** are all written. -/
theorem puts_of_letsInTurn (hm : m.WellFormed) (h : LetsInTurn policy m items) :
    puts policy items m = .done () (m.insertMany items) := by
  induction items generalizing m with
  | nil => rfl
  | cons item rest ih =>
    obtain ⟨hitem, hrest⟩ := (letsInTurn_cons hm).mp h
    rw [puts_cons_of_letsIn hitem]
    exact ih (hm.insert item.1 item.2) hrest

/-- Strict puts fail where the items are not let in in turn. -/
theorem letsInTurn_of_puts (hm : m.WellFormed) (hnoFail : policy.noFail ≠ true)
    (h : (puts policy items m).result = .ok ()) : LetsInTurn policy m items := by
  induction items generalizing m with
  | nil => exact ⟨fun item hitem => absurd hitem List.not_mem_nil, fun _ => List.Pairwise.nil⟩
  | cons item rest ih =>
    by_cases hitem : policy.letsIn m item = true
    · rw [puts_cons_of_letsIn hitem] at h
      exact (letsInTurn_cons hm).mpr ⟨hitem, ih (hm.insert item.1 item.2) h⟩
    · rw [puts_cons_of_failing hnoFail hitem] at h
      cases h

/-- Where keys need not be absent, an insertion changes nothing about what is let in, and the
items are written that are let in from the start. -/
theorem puts_of_leavingOut (hm : m.WellFormed) (hmode : policy.writeMode ≠ .createOnly)
    (hnoFail : policy.noFail = true) :
    puts policy items m = .done () (m.insertMany (items.filter (policy.letsIn m))) := by
  induction items generalizing m with
  | nil => rfl
  | cons item rest ih =>
    rw [List.filter_cons]
    split
    · rename_i hitem
      have hsame : policy.letsIn (m.insert item.1 item.2) = policy.letsIn m := by
        refine funext fun other => Bool.eq_iff_iff.mpr ?_
        rw [MapPolicy.letsIn_insert_iff hm hitem]
        exact and_iff_left fun h => absurd h hmode
      rw [puts_cons_of_letsIn hitem, ih (hm.insert item.1 item.2), hsame]
      rfl
    · rename_i hitem
      rw [puts_cons_of_leftOut hnoFail hitem]
      exact ih hm

/-! ### Creating entries -/

/-- **The first item with a key** stays of puts that create entries only. -/
theorem get?_puts_of_creating (hm : m.WellFormed) (hmode : policy.writeMode = .createOnly)
    (hnoFail : policy.noFail = true) (key : Value) :
    (puts policy items m).state.get? key = (m.get? key).or (firstAt items key) := by
  induction items generalizing m with
  | nil => exact Option.or_none.symm
  | cons item rest ih =>
    have hletsIn := MapPolicy.letsIn_of_creating (m := m) hmode item
    rw [hm.contains_eq] at hletsIn
    rw [Dict.firstAt_cons]
    rcases hget : m.get? item.1 with _ | present
    · rw [hget] at hletsIn
      rw [puts_cons_of_letsIn hletsIn, ih (hm.insert item.1 item.2), hm.get?_insert]
      split
      · rename_i hkey
        rw [← hm.get?_congr hkey, hget]
        rfl
      · rfl
    · rw [hget] at hletsIn
      rw [puts_cons_of_leftOut hnoFail (ne_true_of_eq_false hletsIn), ih hm]
      split
      · rename_i hkey
        rw [← hm.get?_congr hkey, hget]
        rfl
      · rfl

theorem wellFormed_puts (hm : m.WellFormed) : (puts policy items m).state.WellFormed := by
  refine Attempt.each_invariant (fun item m hm => ?_) items hm
  rw [apply_put]
  split
  · exact hm.insert item.1 item.2
  · split <;> exact hm

theorem firstAt_filter_letsIn (hm : m.WellFormed) (hmode : policy.writeMode = .createOnly) :
    firstAt (items.filter (policy.letsIn m)) key =
      if m.contains key then none else firstAt items key := by
  induction items with
  | nil => exact (ite_self none).symm
  | cons item rest ih =>
    rw [List.filter_cons, MapPolicy.letsIn_of_creating hmode, Dict.firstAt_cons]
    rcases hkey : item.1 == key with _ | _
    · cases m.contains item.1
      · exact (Dict.firstAt_cons ..).trans ((if_neg (ne_true_of_eq_false hkey)).trans ih)
      · exact ih
    · rw [hm.contains_congr hkey]
      rcases hpresent : m.contains key with _ | _
      · exact (Dict.firstAt_cons ..).trans (if_pos hkey)
      · exact ih.trans (if_pos hpresent)

/-- **The last item with a key** stays of a write at once that creates entries only. -/
theorem get?_putItems_of_creating (hm : m.WellFormed) (hmode : policy.writeMode = .createOnly)
    (hnoFail : policy.noFail = true) (hkeepRest : policy.keepRest = true)
    (items : List (Value × Value)) (key : Value) :
    ((putItems items policy).apply m).state.get? key = (m.get? key).or (lastAt items key) := by
  rw [apply_putItems_of_leavingOut m items hnoFail hkeepRest]
  refine (hm.get?_insertMany (items.filter (policy.letsIn m)) key).trans ?_
  rw [lastAt, ← List.filter_reverse, firstAt_filter_letsIn hm hmode, hm.contains_eq]
  rcases m.get? key with _ | present
  · exact Option.or_none
  · rfl

/-! ### The two compared -/

/-- **A write at once leaves a map** when it succeeds and what it leaves is equal to the map. -/
def Leaves (op : MapOp) (m after : Dict Value) : Prop :=
  ∃ left, op.apply m = .done none left ∧ (left == after) = true

/-- **A write at once follows a run** when it leaves what the run leaves if that does not fail, and
is refused otherwise. -/
structure Follows (op : MapOp) (m : Dict Value) (run : Attempt (Dict Value) Unit)
    (refused : Prop) : Prop where
  /-- The run does not fail. -/
  succeeds : run.result = .ok () → Leaves op m run.state
  /-- The run fails. -/
  fails : run.result ≠ .ok () → refused

/-- **A write of items is a sequence of puts.** Where denied items are left out, it leaves what the
puts leave. Where they fail, it fails if a put does, without a trace, and leaves what the puts
leave if none does. A write that is skipped as a whole when an item is denied leaves what the puts
leave that fail then, or else the map as it was. -/
structure AsPuts (m : Dict Value) (items : List (Value × Value)) (policy : MapPolicy) :
    Prop where
  /-- Denied items are left out. -/
  leavesOut : policy.noFail = true → policy.keepRest = true →
    Leaves (putItems items policy) m (puts policy items m).state
  /-- A denied item fails the write. -/
  fails : policy.noFail = false →
    Follows (putItems items policy) m (puts policy items m)
      (∃ e, (putItems items policy).apply m = .fail e m)
  /-- A denied item has the write skipped. -/
  skips : policy.noFail = true → policy.keepRest = false →
    Follows (putItems items policy) m (puts { policy with noFail := false } items m)
      ((putItems items policy).apply m = .done none m)

/-- **Repetitions agree** with a policy unless it asks for absent keys and the items give one
several times. Then the first and the last value of the key have to be equal where other items
are left out, and some key has to be present in the map where a denied item stops the write. -/
structure RepetitionsAgree (m : Dict Value) (items : List (Value × Value))
    (policy : MapPolicy) : Prop where
  /-- The first and the last value of an absent key are equal. -/
  leftOut : policy.writeMode = .createOnly → policy.noFail = true → policy.keepRest = true →
    ∀ key, m.contains key = false →
      (firstAt items key).map Value.canonical = (lastAt items key).map Value.canonical
  /-- Keys differ, unless one is present. -/
  whole : policy.writeMode = .createOnly → (policy.noFail = true → policy.keepRest = false) →
    (∀ item ∈ items, m.contains item.1 = false) → KeysDiffer items

theorem leaves_iff {op : MapOp} {left after : Dict Value} (h : op.apply m = .done none left) :
    Leaves op m after ↔ (left == after) = true := by
  rw [Leaves, h]
  constructor
  · rintro ⟨n, hn, heq⟩
    obtain rfl : left = n := congrArg Attempt.state hn
    exact heq
  · exact fun heq => ⟨left, rfl, heq⟩

/-- Where denied items are left out, the first and the last item with an absent key decide. -/
theorem leavesOut_iff (hm : m.WellFormed) (hnoFail : policy.noFail = true)
    (hkeepRest : policy.keepRest = true) :
    Leaves (putItems items policy) m (puts policy items m).state ↔
      (policy.writeMode = .createOnly → ∀ key, m.contains key = false →
        (firstAt items key).map Value.canonical = (lastAt items key).map Value.canonical) := by
  have hwritten := apply_putItems_of_leavingOut m items hnoFail hkeepRest
  have hwf := hm.insertMany (items.filter (policy.letsIn m))
  rw [leaves_iff hwritten, hwf.beq_iff_get? (wellFormed_puts hm)]
  by_cases hmode : policy.writeMode = .createOnly
  · rw [forall_prop_of_true hmode]
    refine forall_congr' fun key => ?_
    have hlast := get?_putItems_of_creating hm hmode hnoFail hkeepRest items key
    rw [hwritten, Attempt.done] at hlast
    rw [hlast, get?_puts_of_creating hm hmode hnoFail, hm.contains_eq]
    rcases m.get? key with _ | present
    · exact ⟨fun h _ => h.symm, fun h => (h rfl).symm⟩
    · exact ⟨fun _ => nofun, fun _ => rfl⟩
  · refine ⟨fun _ h => absurd h hmode, fun _ key => ?_⟩
    rw [puts_of_leavingOut hm hmode hnoFail]
    rfl

/-- Strict puts succeed exactly when the items are let in in turn. -/
theorem puts_result_eq_ok_iff (hm : m.WellFormed) (hnoFail : policy.noFail ≠ true) :
    (puts policy items m).result = .ok () ↔ LetsInTurn policy m items :=
  ⟨letsInTurn_of_puts hm hnoFail, fun h => congrArg Attempt.result (puts_of_letsInTurn hm h)⟩

/-- Items that are let in, each by itself, are let in in turn when keys differ that have to be
absent. -/
theorem letsInTurn_iff (hall : ∀ item ∈ items, policy.letsIn m item = true) :
    LetsInTurn policy m items ↔
      (policy.writeMode = .createOnly → (∀ item ∈ items, m.contains item.1 = false) →
        KeysDiffer items) := by
  constructor
  · exact fun h hmode _ => h.differ hmode
  · refine fun h => ⟨hall, fun hmode => h hmode fun item hitem => ?_⟩
    have hletsIn := hall item hitem
    rwa [MapPolicy.letsIn_of_creating hmode, Bool.not_eq_true'] at hletsIn

/-- **A write is refused** when nothing is written because an item is denied. -/
def Refused (m : Dict Value) (items : List (Value × Value)) (policy : MapPolicy) : Prop :=
  ∃ e, (putItems items policy).apply m =
    if policy.noFail then .done none m else .fail e m

/-- Where some keys were absent, the map is another one afterwards. -/
theorem not_refused (hm : m.WellFormed)
    (hwhole : policy.noFail = true → policy.keepRest = false)
    (hall : ∀ item ∈ items, policy.letsIn m item = true)
    (hturn : ¬LetsInTurn policy m items) : ¬Refused m items policy := by
  rintro ⟨e, he⟩
  rw [apply_putItems_of_letsIn hwhole hall] at he
  split at he
  · rw [letsInTurn_iff hall, Classical.not_imp, Classical.not_imp] at hturn
    obtain ⟨-, habsent, hrepeated⟩ := hturn
    rcases items with _ | ⟨item, rest⟩
    · exact hrepeated List.Pairwise.nil
    · have hsame : m.insertMany (item :: rest) = m := congrArg Attempt.state he
      have hmem : item ∈ item :: rest := List.mem_cons_self
      have hkey := hm.contains_insertMany_of_mem hmem
      rw [hsame, habsent item hmem] at hkey
      cases hkey
  · cases he

/-- **Where a denied item stops the write**, it is compared with the strict puts: the two agree when
items that are let in at once are let in in turn. -/
theorem whole_iff {strict : MapPolicy} (hm : m.WellFormed) (hstrict : strict.noFail = false)
    (hmode : strict.writeMode = policy.writeMode)
    (hwhole : policy.noFail = true → policy.keepRest = false) :
    Follows (putItems items policy) m (puts strict items m) (Refused m items policy) ↔
      (policy.writeMode = .createOnly → (∀ item ∈ items, m.contains item.1 = false) →
        KeysDiffer items) := by
  have hturn : (puts strict items m).result = .ok () ↔ LetsInTurn policy m items := by
    rw [puts_result_eq_ok_iff hm (ne_true_of_eq_false hstrict), letsInTurn_congr hmode]
  by_cases hall : ∀ item ∈ items, policy.letsIn m item = true
  · rw [← letsInTurn_iff hall]
    constructor
    · rintro ⟨-, hrefused⟩
      exact by_contra fun h => not_refused hm hwhole hall h (hrefused (mt hturn.mp h))
    · intro h
      refine ⟨fun _ => ?_, fun hnot => absurd (hturn.mpr h) hnot⟩
      rw [puts_of_letsInTurn hm ((letsInTurn_congr hmode).mpr h)]
      have hwf := hm.insertMany items
      refine (leaves_iff (apply_putItems_of_letsIn hwhole hall)).mpr ?_
      exact (hwf.beq_iff_get? hwf).mpr fun _ => rfl
  · refine iff_of_true ⟨fun h => ?_, fun _ => ?_⟩ fun hcreating habsent => ?_
    · exact absurd (hturn.mp h).letsIn hall
    · obtain ⟨denied, -, hwritten⟩ := apply_putItems_of_denied hwhole hall
      exact ⟨_, hwritten⟩
    · refine absurd (fun item hitem => ?_) hall
      rw [MapPolicy.letsIn_of_creating hcreating, habsent item hitem]
      rfl

theorem fails_iff (hm : m.WellFormed) (hnoFail : policy.noFail = false) :
    Follows (putItems items policy) m (puts policy items m)
        (∃ e, (putItems items policy).apply m = .fail e m) ↔
      (policy.writeMode = .createOnly → (∀ item ∈ items, m.contains item.1 = false) →
        KeysDiffer items) := by
  have hrefused : Refused m items policy ↔ ∃ e, (putItems items policy).apply m = .fail e m := by
    rw [Refused, hnoFail]
    rfl
  rw [← hrefused]
  exact whole_iff hm hnoFail rfl fun h => absurd h (ne_true_of_eq_false hnoFail)

theorem skips_iff (hm : m.WellFormed) (hnoFail : policy.noFail = true)
    (hkeepRest : policy.keepRest = false) :
    Follows (putItems items policy) m (puts { policy with noFail := false } items m)
        ((putItems items policy).apply m = .done none m) ↔
      (policy.writeMode = .createOnly → (∀ item ∈ items, m.contains item.1 = false) →
        KeysDiffer items) := by
  have hrefused : Refused m items policy ↔ (putItems items policy).apply m = .done none m := by
    rw [Refused, hnoFail]
    exact ⟨fun ⟨_, h⟩ => h, fun h => ⟨policy.denial .null, h⟩⟩
  rw [← hrefused]
  exact whole_iff hm rfl rfl fun _ => hkeepRest

/-- **A write of items is a sequence of puts** exactly when its repetitions agree with the
policy. -/
theorem putItems_as_puts_iff (hm : m.WellFormed) (items : List (Value × Value))
    (policy : MapPolicy) : AsPuts m items policy ↔ RepetitionsAgree m items policy := by
  constructor
  · intro h
    refine ⟨fun hmode hnoFail hkeepRest => ?_, fun hmode hwhole => ?_⟩
    · exact (leavesOut_iff hm hnoFail hkeepRest).mp (h.leavesOut hnoFail hkeepRest) hmode
    · rcases hnoFail : policy.noFail with _ | _
      · exact (fails_iff hm hnoFail).mp (h.fails hnoFail) hmode
      · exact (skips_iff hm hnoFail (hwhole hnoFail)).mp (h.skips hnoFail (hwhole hnoFail)) hmode
  · intro h
    refine ⟨fun hnoFail hkeepRest => ?_, fun hnoFail => ?_, fun hnoFail hkeepRest => ?_⟩
    · exact (leavesOut_iff hm hnoFail hkeepRest).mpr fun hmode => h.leftOut hmode hnoFail hkeepRest
    · refine (fails_iff hm hnoFail).mpr fun hmode => h.whole hmode fun hskips => ?_
      exact absurd hskips (ne_true_of_eq_false hnoFail)
    · exact (skips_iff hm hnoFail hkeepRest).mpr fun hmode => h.whole hmode fun _ => hkeepRest

/-- The key `2` comes twice with the same value, and the key `1` is present: it is left out. -/
theorem putItems_as_puts_twice :
    let m : Dict Value := .ofList .unordered [(.integer 1, .integer 10)]
    let items : List (Value × Value) :=
      [(.integer 2, .integer 20), (.integer 1, .integer 30), (.integer 2, .integer 20)]
    let policy : MapPolicy := { writeMode := .createOnly, noFail := true, keepRest := true }
    m.WellFormed ∧ AsPuts m items policy := by
  intro m items policy
  have hm : m.WellFormed := (Dict.WellFormed.empty .unordered).insertMany _
  refine ⟨hm, (putItems_as_puts_iff hm items policy).mpr ⟨fun _ _ _ key habsent => ?_, ?_⟩⟩
  · have hother : (Value.integer 1 == key) = false := by
      rcases hkey : Value.integer 1 == key with _ | _
      · rfl
      · rw [← hm.contains_congr hkey] at habsent
        cases habsent
    simp only [items, Dict.firstAt_cons, Dict.lastAt_cons, hother]
    cases Value.integer 2 == key <;> rfl
  · exact fun _ hwhole => nomatch hwhole rfl

/-- **A key that comes twice is overwritten** by a write at once that creates entries only. Of the
puts the second is denied. -/
theorem putItems_overwrites_created :
    let m : Dict Value := .empty .unordered
    let items : List (Value × Value) := [(.integer 1, .integer 10), (.integer 1, .integer 20)]
    let policy : MapPolicy := { writeMode := .createOnly }
    let leavingOut : MapPolicy := { policy with noFail := true, keepRest := true }
    m.WellFormed ∧ ¬AsPuts m items policy ∧ ¬AsPuts m items leavingOut ∧
      (putItems items policy).apply m = .done none (m.insert (.integer 1) (.integer 20)) ∧
      puts policy items m =
        .fail (.elementExists (.mapKey (.integer 1))) (m.insert (.integer 1) (.integer 10)) ∧
      (putItems items leavingOut).apply m = .done none (m.insert (.integer 1) (.integer 20)) ∧
      puts leavingOut items m = .done () (m.insert (.integer 1) (.integer 10)) := by
  intro m items policy leavingOut
  have hm : m.WellFormed := Dict.WellFormed.empty .unordered
  refine ⟨hm, fun h => ?_, fun h => ?_, rfl, rfl, rfl, rfl⟩
  · obtain ⟨e, he⟩ := (h.fails rfl).fails nofun
    cases he
  · cases (leavesOut_iff hm rfl rfl).mp (h.leavesOut rfl rfl) rfl (.integer 1) rfl

end MapOp

end RecordStore

import RecordStore.Proofs.Policy.WriteFlags
import RecordStore.Proofs.Status
import RecordStore.Proofs.Value.Lookup

/-!
# The wire form of collection policies

A policy for lists or maps comes as a map from names to integers. There are two names: the order,
and the write flags, whose bits are the settings of the policy. This file says which values are
read as a policy, and as which (`RecordStore.policies_read_wire_form`).

A policy is no more than its two numbers, and taking an entry in is setting one of the two
(`RecordStore.CollectionPolicy.Settings`). This is all that is used of the two kinds of policies,
so that both are read in one argument. Two things are followed through the entries:

* whether they are taken in, which each entry decides for itself
  (`RecordStore.CollectionPolicy.Settings.exists_takeIn_iff`);
* what becomes of one of the numbers, where the last entry has its way
  (`RecordStore.CollectionPolicy.lastAt_of_takeIn`).

In a well-formed map there is one entry under a name at most, and that is why the order of the
entries does not matter.
-/

namespace RecordStore

namespace CollectionPolicy

/-! ### Entries -/

/-- The entry of a map under a name. -/
def namedEntry (e : String × Value) : Value × Value := (.string e.1, e.2)

/-- Entries under texts are named ones. -/
theorem map_namedEntry_filterMap {entries : List (Value × Value)}
    (h : ∀ e ∈ entries, ¬e.1.toText?.isNone = true) :
    (entries.filterMap fun e => e.1.toText?.map (·, e.2)).map namedEntry = entries := by
  induction entries with
  | nil => rfl
  | cons e entries ih =>
    obtain ⟨hhead, hrest⟩ := List.forall_mem_cons.mp h
    obtain ⟨key, v⟩ := e
    cases key with
    | string name => exact congrArg (namedEntry (name, v) :: ·) (ih hrest)
    | _ => exact absurd rfl hhead

/-- **The entries of a policy** are those of a map with nothing but texts for keys. -/
theorem policyEntries_eq_ok_iff {policy : String} {v : Value} {named : List (String × Value)} :
    policyEntries policy v = .ok named ↔ ∃ m, v = .map m ∧ m.entries = named.map namedEntry := by
  constructor
  · intro h
    cases v with
    | map m =>
      rw [policyEntries] at h
      split at h
      · cases h
      · rename_i hfind
        obtain rfl := Except.ok.inj h
        exact ⟨m, rfl, (map_namedEntry_filterMap (List.find?_eq_none.mp hfind)).symm⟩
    | _ => cases h
  · rintro ⟨m, rfl, hentries⟩
    have hfind : (named.map namedEntry).find? (·.1.toText?.isNone) = none := by
      rw [List.find?_eq_none, List.forall_mem_map]
      exact fun _ _ => Bool.false_ne_true
    rw [policyEntries, hentries, hfind, List.filterMap_map]
    exact congrArg Except.ok List.filterMap_some

/-- A named integer. -/
theorem policyInteger_eq_ok_iff {name : String} {v : Value} {n : Int64} :
    policyInteger name v = .ok n ↔ v = .integer n := by
  cases v with
  | integer => simp [policyInteger]
  | _ => simp [policyInteger]

/-- An entry is looked at by its name, and both names have integers. -/
theorem entry_eq_ok_iff {β : Type} {setOrder setFlags : Int64 → Except Error β} {q : β} {e : Error}
    {m n : Int64} {P Q : Prop} (horder : ∀ code, setOrder code = .ok q ↔ code = m ∧ P)
    (hflags : ∀ bits, setFlags bits = .ok q ↔ bits = n ∧ Q) {name : String} {v : Value} :
    (if name = "order" then policyInteger name v >>= setOrder
      else if name = "write_flags" then policyInteger name v >>= setFlags
      else .error e) = .ok q ↔
      (name = "order" ∧ v = .integer m ∧ P) ∨ (name = "write_flags" ∧ v = .integer n ∧ Q) := by
  have hset : ∀ (set : Int64 → Except Error β) (k : Int64) (R : Prop),
      (∀ i, set i = .ok q ↔ i = k ∧ R) →
        ((policyInteger name v >>= set) = .ok q ↔ v = .integer k ∧ R) := by
    intro set k R h
    rw [bind_eq_ok_iff]
    constructor
    · rintro ⟨i, hi, hq⟩
      obtain ⟨rfl, hR⟩ := (h i).mp hq
      exact ⟨policyInteger_eq_ok_iff.mp hi, hR⟩
    · rintro ⟨hv, hR⟩
      exact ⟨k, policyInteger_eq_ok_iff.mpr hv, (h k).mpr ⟨rfl, hR⟩⟩
  have hnames : ("order" : String) ≠ "write_flags" := by decide
  split
  · rename_i hname
    rw [hset setOrder m P horder, hname]
    simp [hnames]
  split
  · rename_i hname
    rw [hset setFlags n Q hflags, hname]
    simp [hnames.symm]
  · rename_i hother hname
    simp [hother, hname]

/-! ### One setting after the other -/

section Settings

variable {β : Type} {withEntry : β → String → Value → Except Error β}
  {IsOrder IsFlags : Int64 → Prop} {order flags : β → Int64}

/-- **A policy is its two numbers**, and an entry that is taken in sets one of them. -/
structure Settings (withEntry : β → String → Value → Except Error β)
    (IsOrder IsFlags : Int64 → Prop) (order flags : β → Int64) : Prop where
  /-- Every order that is allowed goes with all write flags that are allowed. -/
  exists_iff : ∀ m n, (∃ p, order p = m ∧ flags p = n) ↔ IsOrder m ∧ IsFlags n
  /-- No two policies have the same numbers. -/
  determined : ∀ p q, order p = order q → flags p = flags q → p = q
  /-- An entry says which number it sets, and leaves the other one. -/
  withEntry_eq_ok_iff : ∀ p q name v, withEntry p name v = .ok q ↔
    (name = "order" ∧ v = .integer (order q) ∧ flags q = flags p) ∨
      (name = "write_flags" ∧ v = .integer (flags q) ∧ order q = order p)

/-- Takes in some entries, the first one first. -/
def takeIn (withEntry : β → String → Value → Except Error β) (p : β)
    (named : List (String × Value)) : Except Error β :=
  named.foldlM (fun p e => withEntry p e.1 e.2) p

/-- Reads the entries of a map. -/
def readEntries (policy : String) (withEntry : β → String → Value → Except Error β) (start : β)
    (v : Value) : Except Error β :=
  policyEntries policy v >>= takeIn withEntry start

/-- **An entry of a policy** that is allowed. -/
def IsSetting (IsOrder IsFlags : Int64 → Prop) (e : Value × Value) : Prop :=
  (e.1 = .string "order" ∧ ∃ n, e.2 = .integer n ∧ IsOrder n) ∨
    (e.1 = .string "write_flags" ∧ ∃ n, e.2 = .integer n ∧ IsFlags n)

variable {named : List (String × Value)} {p q : β}

/-- **The last entry under a name** says the number, if there is one; otherwise the number is the
one from before. -/
theorem lastAt_of_takeIn {number : β → Int64} {key : String}
    (hstep : ∀ p q name v, withEntry p name v = .ok q →
      if name = key then v = .integer (number q) else number q = number p)
    (h : takeIn withEntry p named = .ok q) :
    (Dict.lastAt (named.map namedEntry) (.string key)).getD (.integer (number p)) =
      .integer (number q) := by
  induction named generalizing p with
  | nil =>
    obtain rfl := Except.ok.inj h
    rfl
  | cons e named ih =>
    rw [takeIn, List.foldlM_cons] at h
    obtain ⟨r, hr, hrest⟩ := bind_eq_ok_iff.mp h
    have hlast := ih hrest
    have hkey : ((namedEntry e).1 == .string key) = true ↔ e.1 = key := by
      rw [namedEntry, Value.beq_iff_canonical_eq, Value.canonical, Value.canonical,
        Value.string.injEq]
    have hhead := hstep p r e.1 e.2 hr
    rw [List.map_cons, Dict.lastAt_cons]
    split at hhead
    · rename_i hname
      -- this entry counts unless there is another one behind it
      rw [if_pos (hkey.mpr hname), ← hlast, ← hhead]
      cases Dict.lastAt (named.map namedEntry) (.string key) <;> rfl
    · rename_i hname
      rw [if_neg (mt hkey.mp hname), Option.or_none, ← hhead]
      exact hlast

namespace Settings

variable (h : Settings withEntry IsOrder IsFlags order flags)
include h

theorem lastAt_order (htake : takeIn withEntry p named = .ok q) :
    (Dict.lastAt (named.map namedEntry) (.string "order")).getD (.integer (order p)) =
      .integer (order q) := by
  refine lastAt_of_takeIn (fun p q name v hstep => ?_) htake
  rcases (h.withEntry_eq_ok_iff p q name v).mp hstep with ⟨rfl, hv, -⟩ | ⟨rfl, -, horder⟩
  · exact hv
  · exact horder

theorem lastAt_flags (htake : takeIn withEntry p named = .ok q) :
    (Dict.lastAt (named.map namedEntry) (.string "write_flags")).getD (.integer (flags p)) =
      .integer (flags q) := by
  refine lastAt_of_takeIn (fun p q name v hstep => ?_) htake
  rcases (h.withEntry_eq_ok_iff p q name v).mp hstep with ⟨rfl, -, hflags⟩ | ⟨rfl, hv, -⟩
  · exact hflags
  · exact hv

/-- **One entry is taken in** when it is allowed, whatever the policy is so far. -/
theorem exists_withEntry_iff {e : String × Value} :
    (∃ q, withEntry p e.1 e.2 = .ok q) ↔ IsSetting IsOrder IsFlags (namedEntry e) := by
  obtain ⟨name, v⟩ := e
  -- the number that the entry leaves is allowed, so it goes with any other
  obtain ⟨horder, hflags⟩ := (h.exists_iff (order p) (flags p)).mp ⟨p, rfl, rfl⟩
  constructor
  · rintro ⟨q, hq⟩
    obtain ⟨horder', hflags'⟩ := (h.exists_iff (order q) (flags q)).mp ⟨q, rfl, rfl⟩
    rcases (h.withEntry_eq_ok_iff p q name v).mp hq with ⟨rfl, rfl, -⟩ | ⟨rfl, rfl, -⟩
    · exact Or.inl ⟨rfl, order q, rfl, horder'⟩
    · exact Or.inr ⟨rfl, flags q, rfl, hflags'⟩
  · rintro (⟨hname, n, hv, hn⟩ | ⟨hname, n, hv, hn⟩)
    · obtain ⟨q, rfl, hsame⟩ := (h.exists_iff n (flags p)).mpr ⟨hn, hflags⟩
      exact ⟨q, (h.withEntry_eq_ok_iff p q name v).mpr
        (Or.inl ⟨Value.string.inj hname, hv, hsame⟩)⟩
    · obtain ⟨q, hsame, rfl⟩ := (h.exists_iff (order p) n).mpr ⟨horder, hn⟩
      exact ⟨q, (h.withEntry_eq_ok_iff p q name v).mpr
        (Or.inr ⟨Value.string.inj hname, hv, hsame⟩)⟩

/-- **Some entries are taken in** when each of them is allowed. -/
theorem exists_takeIn_iff :
    (∃ q, takeIn withEntry p named = .ok q) ↔
      ∀ e ∈ named, IsSetting IsOrder IsFlags (namedEntry e) := by
  induction named generalizing p with
  | nil => exact ⟨fun _ => List.forall_mem_nil _, fun _ => ⟨p, rfl⟩⟩
  | cons e named ih =>
    rw [List.forall_mem_cons, takeIn, List.foldlM_cons]
    constructor
    · rintro ⟨q, hq⟩
      obtain ⟨r, hr, hrest⟩ := bind_eq_ok_iff.mp hq
      exact ⟨h.exists_withEntry_iff.mp ⟨r, hr⟩, ih.mp ⟨q, hrest⟩⟩
    · rintro ⟨hhead, hrest⟩
      obtain ⟨r, hr⟩ := (h.exists_withEntry_iff (p := p)).mpr hhead
      obtain ⟨q, hq⟩ := ih.mpr hrest
      exact ⟨q, bind_eq_ok_iff.mpr ⟨r, hr, hq⟩⟩

end Settings

/-! ### Whole policies -/

/-- **The wire form of a policy**: a map with no other keys than the two names, with an order and
write flags that are allowed, where there are any. -/
def WireForm (IsOrder IsFlags : Int64 → Prop) (v : Value) : Prop :=
  ∃ m, v = .map m ∧ ∀ e ∈ m.entries, IsSetting IsOrder IsFlags e

/-- What a map answers under a name of a policy; a number that is not mentioned is zero. -/
def setting (m : Dict Value) (name : String) : Value :=
  (m.get? (.string name)).getD (.integer 0)

/-- What the last entry under a name of a policy says. -/
def lastSetting (m : Dict Value) (name : String) : Value :=
  (Dict.lastAt m.entries (.string name)).getD (.integer 0)

/-- **Values are read as policies** by their wire form. -/
structure ReadsWireForm (read : Value → Except Error β) (IsOrder IsFlags : Int64 → Prop)
    (order flags : β → Int64) : Prop where
  /-- The wire form is read, and nothing else. -/
  accepts : ∀ v, (∃ p, read v = .ok p) ↔ WireForm IsOrder IsFlags v
  /-- What is read has the numbers that the last entries say, and zero for a number that none
  says. -/
  decodes : ∀ m p, read (.map m) = .ok p →
    lastSetting m "order" = .integer (order p) ∧ lastSetting m "write_flags" = .integer (flags p)
  /-- These are the numbers that the map answers. -/
  answers : ∀ m p, m.WellFormed → read (.map m) = .ok p →
    setting m "order" = .integer (order p) ∧ setting m "write_flags" = .integer (flags p)
  /-- There is no other policy with these numbers. -/
  determined : ∀ p q, order p = order q → flags p = flags q → p = q
  /-- The order of the entries does not matter, nor does the order policy of the map. -/
  unordered : ∀ m n p, m.WellFormed → m.entries.Perm n.entries → read (.map m) = .ok p →
    read (.map n) = .ok p
  /-- What is not read is a bad parameter. -/
  refuses : ∀ v e, read v = .error e → e.status = .param

variable {policy : String} {start : β}

/-- A value that is read is a map under texts. -/
theorem readEntries_eq_ok_iff {v : Value} :
    readEntries policy withEntry start v = .ok p ↔
      ∃ m named, v = .map m ∧ m.entries = List.map namedEntry named ∧
        takeIn withEntry start named = .ok p := by
  rw [readEntries, bind_eq_ok_iff]
  constructor
  · rintro ⟨named, hnamed, htake⟩
    obtain ⟨m, hv, hentries⟩ := policyEntries_eq_ok_iff.mp hnamed
    exact ⟨m, named, hv, hentries, htake⟩
  · rintro ⟨m, named, hv, hentries, htake⟩
    exact ⟨named, policyEntries_eq_ok_iff.mpr ⟨m, hv, hentries⟩, htake⟩

namespace Settings

variable (h : Settings withEntry IsOrder IsFlags order flags)
include h

theorem exists_readEntries_iff (v : Value) :
    (∃ p, readEntries policy withEntry start v = .ok p) ↔ WireForm IsOrder IsFlags v := by
  constructor
  · rintro ⟨p, hp⟩
    obtain ⟨m, named, hv, hentries, htake⟩ := readEntries_eq_ok_iff.mp hp
    refine ⟨m, hv, ?_⟩
    rw [hentries, List.forall_mem_map]
    exact h.exists_takeIn_iff.mp ⟨p, htake⟩
  · rintro ⟨m, hv, hm⟩
    have htexts : ∀ e ∈ m.entries, ¬e.1.toText?.isNone = true := by
      intro e he
      rcases hm e he with ⟨hkey, -⟩ | ⟨hkey, -⟩ <;> rw [hkey] <;> exact Bool.false_ne_true
    have hnamed := map_namedEntry_filterMap htexts
    rw [← hnamed, List.forall_mem_map] at hm
    obtain ⟨p, hp⟩ := (h.exists_takeIn_iff (p := start)).mpr hm
    exact ⟨p, readEntries_eq_ok_iff.mpr ⟨m, _, hv, hnamed.symm, hp⟩⟩

/-- **The numbers of a policy that is read** are those of the last entries. -/
theorem lastSetting_eq (horder : order start = 0) (hflags : flags start = 0) {m : Dict Value}
    (hread : readEntries policy withEntry start (.map m) = .ok p) :
    lastSetting m "order" = .integer (order p) ∧
      lastSetting m "write_flags" = .integer (flags p) := by
  obtain ⟨m', named, hm, hentries, htake⟩ := readEntries_eq_ok_iff.mp hread
  obtain rfl := Value.map.inj hm
  rw [lastSetting, lastSetting, hentries]
  constructor
  · rw [← h.lastAt_order htake, horder]
  · rw [← h.lastAt_flags htake, hflags]

/-- A map answers what the last entries say, also if they stand in another order. -/
theorem setting_eq (horder : order start = 0) (hflags : flags start = 0) {m n : Dict Value}
    (hm : m.WellFormed) (hperm : m.entries.Perm n.entries)
    (hread : readEntries policy withEntry start (.map n) = .ok p) :
    setting m "order" = .integer (order p) ∧ setting m "write_flags" = .integer (flags p) := by
  have hlast : ∀ name, lastSetting n name = setting m name := by
    intro name
    rw [lastSetting, setting, hm.lastAt_of_perm hperm]
  rw [← hlast, ← hlast]
  exact h.lastSetting_eq horder hflags hread

theorem readEntries_of_perm (horder : order start = 0) (hflags : flags start = 0)
    {m n : Dict Value} (hm : m.WellFormed) (hperm : m.entries.Perm n.entries)
    (hread : readEntries policy withEntry start (.map m) = .ok p) :
    readEntries policy withEntry start (.map n) = .ok p := by
  obtain ⟨m', hm', hsettings⟩ := (h.exists_readEntries_iff _).mp ⟨p, hread⟩
  obtain rfl := Value.map.inj hm'
  have hwire : WireForm IsOrder IsFlags (.map n) :=
    ⟨n, rfl, fun e he => hsettings e (hperm.mem_iff.mpr he)⟩
  obtain ⟨q, hq⟩ : ∃ q, readEntries policy withEntry start (.map n) = .ok q :=
    (h.exists_readEntries_iff _).mpr hwire
  -- both have the numbers that the first map answers
  obtain ⟨hpo, hpf⟩ := h.setting_eq horder hflags hm (.refl _) hread
  obtain ⟨hqo, hqf⟩ := h.setting_eq horder hflags hm hperm hq
  rw [hpo] at hqo
  rw [hpf] at hqf
  rw [h.determined p q (Value.integer.inj hqo) (Value.integer.inj hqf)]
  exact hq

/-- **Policies are read by their wire form**, if nothing is refused but bad parameters. -/
theorem readsWireForm (horder : order start = 0) (hflags : flags start = 0)
    (hparam : ∀ v, FailsWithin [.param] (readEntries policy withEntry start v)) :
    ReadsWireForm (readEntries policy withEntry start) IsOrder IsFlags order flags where
  accepts := h.exists_readEntries_iff
  decodes _ _ hread := h.lastSetting_eq horder hflags hread
  answers _ _ hm hread := h.setting_eq horder hflags hm (.refl _) hread
  determined := h.determined
  unordered _ _ _ hm hperm hread := h.readEntries_of_perm horder hflags hm hperm hread
  refuses v e he := List.mem_singleton.mp (hparam v e he)

end Settings

end Settings

end CollectionPolicy

open CollectionPolicy

/-! ### Policies for maps and lists -/

/-- The codes of order policies differ. -/
theorem MapOrder.code_injective {order order' : MapOrder} (h : order.code = order'.code) :
    order = order' := by
  have hread := ofCode_eq_ok_iff.mpr h
  rw [ofCode_eq_ok_iff.mpr rfl] at hread
  exact Except.ok.inj hread

/-- An order that is set leaves the write flags. -/
theorem MapPolicy.withOrder_eq_ok_iff {p q : MapPolicy} {code : Int64} :
    (MapOrder.ofCode code >>= fun order => Except.ok { p with order }) = .ok q ↔
      code = q.order.code ∧ q.writeFlags = p.writeFlags := by
  rw [bind_eq_ok_iff]
  constructor
  · rintro ⟨order, horder, hq⟩
    obtain rfl := Except.ok.inj hq
    exact ⟨MapOrder.ofCode_eq_ok_iff.mp horder, rfl⟩
  · rintro ⟨hcode, hflags⟩
    refine ⟨q.order, MapOrder.ofCode_eq_ok_iff.mpr hcode, congrArg Except.ok ?_⟩
    exact eq_of_numbers rfl hflags.symm

/-- Taking in an entry of a map policy. -/
theorem MapPolicy.settings :
    Settings MapPolicy.withEntry (fun n => n = 0 ∨ n = 1 ∨ n = 3)
      (fun bits => FourBits bits ∧ OneMode bits) (fun p => p.order.code) MapPolicy.writeFlags where
  exists_iff m n := by
    rw [← MapOrder.exists_code_iff]
    constructor
    · rintro ⟨p, hm, hn⟩
      exact ⟨⟨p.order, hm⟩, exists_writeFlags_iff.mp ⟨p, rfl, hn⟩⟩
    · rintro ⟨⟨order, hm⟩, hn⟩
      obtain ⟨p, rfl, hflags⟩ : ∃ p : MapPolicy, p.order = order ∧ p.writeFlags = n :=
        exists_writeFlags_iff.mpr hn
      exact ⟨p, hm, hflags⟩
  determined p q horder hflags := eq_of_numbers (MapOrder.code_injective horder) hflags
  withEntry_eq_ok_iff p q name v := by
    rw [withEntry]
    refine entry_eq_ok_iff (fun code => ?_) fun bits => ?_
    · exact withOrder_eq_ok_iff
    · rw [withFlags_eq_ok_iff]
      exact and_congr_right fun _ => ⟨congrArg MapOrder.code, MapOrder.code_injective⟩

/-- Taking in an entry of a list policy. -/
theorem ListPolicy.settings :
    Settings ListPolicy.withEntry (fun n => n = 0) FourBits (fun _ => 0) ListPolicy.writeFlags where
  exists_iff m n := by
    rw [← exists_writeFlags_iff]
    constructor
    · rintro ⟨p, hm, hn⟩
      exact ⟨hm.symm, p, hn⟩
    · rintro ⟨hm, p, hn⟩
      exact ⟨p, hm.symm, hn⟩
  determined p q _ hflags := eq_of_writeFlags hflags
  withEntry_eq_ok_iff p q name v := by
    rw [withEntry]
    refine entry_eq_ok_iff (fun code => ?_) fun bits => ?_
    · split
      · rename_i hcode
        rw [pure_eq_ok_iff]
        constructor
        · rintro rfl
          exact ⟨hcode, rfl⟩
        · rintro ⟨-, hflags⟩
          exact eq_of_writeFlags hflags
      · rename_i hcode
        constructor
        · intro h
          cases h
        · rintro ⟨h, -⟩
          exact absurd h hcode
    · rw [withFlags_eq_ok_iff]
      exact (and_iff_left rfl).symm

/-- **Collection policies are read by their wire form.** The order of a map policy is one of three
codes, and its write flags have four bits, of which the lowest two exclude each other; a list
policy has the order zero and any four bits. -/
theorem policies_read_wire_form :
    ReadsWireForm MapPolicy.ofValue (fun n => n = 0 ∨ n = 1 ∨ n = 3)
        (fun bits => FourBits bits ∧ OneMode bits) (fun p => p.order.code) MapPolicy.writeFlags ∧
      ReadsWireForm ListPolicy.ofValue (fun n => n = 0) FourBits (fun _ => 0)
        ListPolicy.writeFlags :=
  ⟨MapPolicy.settings.readsWireForm rfl rfl MapPolicy.failsWithin_ofValue,
    ListPolicy.settings.readsWireForm rfl rfl ListPolicy.failsWithin_ofValue⟩

/-- A map policy with its entries in either order, which is no list policy for its order. -/
theorem policies_read_wire_form_reversed :
    let m : Dict Value :=
      ⟨.unordered, [(.string "write_flags", .integer 5), (.string "order", .integer 1)]⟩
    let n : Dict Value :=
      ⟨.keyOrdered, [(.string "order", .integer 1), (.string "write_flags", .integer 5)]⟩
    let p : MapPolicy :=
      { order := .keyOrdered, writeMode := .createOnly, noFail := true, keepRest := false }
    m.WellFormed ∧ m.entries.Perm n.entries ∧ MapPolicy.ofValue (.map m) = .ok p ∧
      MapPolicy.ofValue (.map n) = .ok p ∧ setting m "order" = .integer p.order.code ∧
      setting m "write_flags" = .integer p.writeFlags ∧
      (∃ e, ListPolicy.ofValue (.map m) = .error e ∧ e.status = .param) ∧
      ¬WireForm (fun n => n = 0) FourBits (.map m) := by
  intro m n p
  obtain ⟨hmaps, hlists⟩ := policies_read_wire_form
  have hm : m.WellFormed := ⟨by decide, nofun⟩
  have hperm : m.entries.Perm n.entries := .swap _ _ []
  have hread : MapPolicy.ofValue (.map m) = .ok p := by rfl
  obtain ⟨horder, hflags⟩ := hmaps.answers m p hm hread
  have hrefused : ListPolicy.ofValue (.map m) = .error (.param .listOrder) := by rfl
  refine ⟨hm, hperm, hread, hmaps.unordered m n p hm hperm hread, horder, hflags,
    ⟨_, hrefused, hlists.refuses _ _ hrefused⟩, ?_⟩
  rw [← hlists.accepts]
  rintro ⟨q, hq⟩
  rw [hrefused] at hq
  cases hq

end RecordStore

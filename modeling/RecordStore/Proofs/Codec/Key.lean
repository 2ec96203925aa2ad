import RecordStore.Codec.Record
import RecordStore.Proofs.Codec.Value
import RecordStore.Proofs.Text.Hex
import RecordStore.Store.Basic

/-!
# Keys are read as they are sent

A key is sent with everything that it has: its namespace, its set, its digest, and its user
key if it has one. The reader takes the user key, if there is one, and hashes it again; the
digest that was sent is looked at only without a user key. Both ways lead back to the key
(`RecordStore.Codec.parseKey_keyToJson`), because a key that was built is at a valid location
and has the digest of its user key (`RecordStore.Key.built_iff`). Without the user key what
was sent is another key at the same record.

A user key of bytes is sent as bytes are, so that a serializer could take it for its own.
-/

namespace RecordStore

/-! ### Keys that are built -/

/-- **A key is built** from a user key or from a digest. -/
def Key.Built (key : Key) : Prop :=
  (∃ ns set userKey, ofUserKey ns set userKey = .ok key) ∨
    ∃ ns set digest, ofDigest ns set digest = .ok key

/-- **A built key** is at a valid location, and its digest is that of its user key. -/
theorem Key.built_iff {key : Key} :
    key.Built ↔ checkLocation key.ns key.set = .ok () ∧
      ∀ userKey ∈ key.userKey, key.digest = Digest.compute key.set userKey := by
  constructor
  · rintro (⟨ns, set, userKey, hkey⟩ | ⟨ns, set, digest, hkey⟩)
    · obtain ⟨hlocation, hkey⟩ := check_bind_eq_ok_iff.mp hkey
      obtain rfl := Except.ok.inj hkey
      refine ⟨hlocation, fun other hother => ?_⟩
      rw [Option.mem_some_iff.mp hother]
    · obtain ⟨hlocation, hkey⟩ := check_bind_eq_ok_iff.mp hkey
      obtain rfl := Except.ok.inj hkey
      exact ⟨hlocation, nofun⟩
  · obtain ⟨ns, set, userKey, digest⟩ := key
    rintro ⟨hlocation, hdigest⟩
    cases userKey with
    | none => exact Or.inr ⟨ns, set, digest, check_bind_eq_ok_iff.mpr ⟨hlocation, rfl⟩⟩
    | some userKey =>
      obtain rfl : digest = Digest.compute set userKey := hdigest userKey rfl
      exact Or.inl ⟨ns, set, userKey, check_bind_eq_ok_iff.mpr ⟨hlocation, rfl⟩⟩

/-- Without its user key a built key is the key of its digest. -/
theorem Key.Built.ofDigest_eq {key : Key} (h : key.Built) :
    ofDigest key.ns key.set key.digest = .ok key.digestOnly :=
  check_bind_eq_ok_iff.mpr ⟨(built_iff.mp h).1, rfl⟩

/-- A built key is the key of its user key. -/
theorem Key.Built.ofUserKey_eq {key : Key} (h : key.Built) {userKey : UserKey}
    (huser : key.userKey = some userKey) : ofUserKey key.ns key.set userKey = .ok key := by
  obtain ⟨hlocation, hdigest⟩ := built_iff.mp h
  obtain ⟨ns, set, _, digest⟩ := key
  obtain rfl := huser
  obtain rfl : digest = Digest.compute set userKey := hdigest userKey rfl
  exact check_bind_eq_ok_iff.mpr ⟨hlocation, rfl⟩

/-! ### Keys that are sent -/

/-- **An object without a field.** -/
def Json.without (j : Json) (name : String) : Json :=
  match j with
  | .object fields => .object ⟨fields.entries.filter (·.1 ≠ name)⟩
  | j => j

namespace Codec

variable {c : Codec} {fields : Named Json} {ns set : String}

/-- **What is sent of a key**: the user key if there is one, and the rest in any case. -/
theorem exists_fields_keyToJson (c : Codec) (key : Key) :
    ∃ fields : Named Json, c.keyToJson key = .ofNamed fields ∧
      fields.get? "ns" = some (.string key.ns) ∧ fields.get? "set" = some (.string key.set) ∧
      fields.get? "key" = key.userKey.map (fun userKey => c.toJson userKey.toValue) ∧
      fields.get? "digest" = some (.string key.digest.toHex) := by
  refine ⟨_, rfl, ?_⟩
  cases key.userKey with
  | none => simp [Named.ofList]
  | some userKey => simp [Named.ofList]

/-- A user key comes back as a value, unless the serializer takes its bytes for its own. -/
theorem toValue_toJson_userKey {userKey : UserKey}
    (h : ∀ bytes, userKey = .bytes bytes → c.serializer.decode bytes = none) :
    c.toValue (c.toJson userKey.toValue) = .ok userKey.toValue := by
  cases userKey with
  | integer n => exact toValue_toJson_integer n
  | string s => simp [UserKey.toValue]
  | bytes b => exact toValue_toJson_bytes (h b rfl)

/-- No user key is sent as `null`, which would be no user key. -/
theorem isNull_toJson_userKey {userKey : UserKey}
    (h : ∀ bytes, userKey = .bytes bytes → c.serializer.decode bytes = none) :
    (c.toJson userKey.toValue).isNull = false := by
  cases userKey with
  | integer n => simp [UserKey.toValue, Json.isNull]
  | string s => simp [UserKey.toValue, Json.isNull]
  | bytes b => simp [UserKey.toValue, bytesToJson, h b rfl, Json.isNull]

theorem ofValue_toValue (userKey : UserKey) : UserKey.ofValue userKey.toValue = .ok userKey := by
  cases userKey <;> rfl

/-! ### Keys that are read -/

/-- The fields of an object that is made of named things are these. -/
theorem get?_fields (fields : Named Json) (name : String) :
    Fields.get? ⟨fields.entries⟩ name = fields.get? name :=
  rfl

/-- **The user key counts** where there is one, whatever is sent as the digest. -/
theorem parseKey_of_userKey {userKey : UserKey} {sent : Json}
    (hns : fields.get? "ns" = some (.string ns)) (hset : fields.get? "set" = some (.string set))
    (hsent : fields.get? "key" = some sent) (hnull : sent.isNull = false)
    (hread : c.toValue sent = .ok userKey.toValue) :
    c.parseKey (.ofNamed fields) = Key.ofUserKey ns set userKey := by
  rw [parseKey.eq_def, Json.ofNamed]
  simp only [get?_fields, hns, hset, hsent, parseSet, Option.filter_some, hnull, Bool.not_false,
    ↓reduceIte, bind, Except.bind, hread, ofValue_toValue]

/-- Otherwise the digest counts. -/
theorem parseKey_of_digest {digest : Digest} (hns : fields.get? "ns" = some (.string ns))
    (hset : fields.get? "set" = some (.string set)) (hsent : fields.get? "key" = none)
    (hdigest : fields.get? "digest" = some (.string digest.toHex)) :
    c.parseKey (.ofNamed fields) = Key.ofDigest ns set digest := by
  rw [parseKey.eq_def, Json.ofNamed]
  simp only [get?_fields, hns, hset, hsent, parseSet, Option.filter_none, hdigest, Digest.ofHex_toHex]
  rfl

/-- **Keys are read as they are sent**, if the serializer does not take the bytes of the user
key for its own. Without the user key what was sent is read as the key of its digest alone,
and every store shows the same record for it. -/
theorem parseKey_keyToJson (c : Codec) {key : Key} (hbuilt : key.Built)
    (hforeign : ∀ bytes, key.userKey = some (.bytes bytes) → c.serializer.decode bytes = none) :
    c.parseKey (c.keyToJson key) = .ok key ∧
      c.parseKey ((c.keyToJson key).without "key") = .ok key.digestOnly ∧
      ∀ (s : Store) (now : UInt64), s.get key.digestOnly now = s.get key now := by
  obtain ⟨fields, hfields, hns, hset, hsent, hdigest⟩ := c.exists_fields_keyToJson key
  rw [hfields]
  refine ⟨?_, ?_, fun _ _ => rfl⟩
  · cases huser : key.userKey with
    | none =>
      rw [huser] at hsent
      have hkey : key.digestOnly = key := by rw [Key.digestOnly, ← huser]
      rw [parseKey_of_digest hns hset hsent hdigest, hbuilt.ofDigest_eq, hkey]
    | some userKey =>
      rw [huser] at hsent
      have hforeign : ∀ bytes, userKey = .bytes bytes → c.serializer.decode bytes = none :=
        fun bytes hbytes => hforeign bytes (hbytes ▸ huser)
      rw [parseKey_of_userKey hns hset hsent (isNull_toJson_userKey hforeign)
        (toValue_toJson_userKey hforeign), hbuilt.ofUserKey_eq huser]
  · have hwithout : (Json.ofNamed fields).without "key" = .ofNamed (fields.erase "key") := rfl
    have herase : ∀ name, name ≠ "key" → (fields.erase "key").get? name = fields.get? name :=
      fun name hname => by rw [Named.get?_erase, if_neg hname]
    have hgone : (fields.erase "key").get? "key" = none := by rw [Named.get?_erase, if_pos rfl]
    rw [hwithout, ← hbuilt.ofDigest_eq]
    refine parseKey_of_digest ?_ ?_ hgone ?_
    · rw [herase "ns" (by decide), hns]
    · rw [herase "set" (by decide), hset]
    · rw [herase "digest" (by decide), hdigest]

/-- A user key that is the frame marker, with no JSON behind it for the serializer to take. -/
theorem parseKey_keyToJson_of_marker :
    let c : Codec := ⟨.framed⟩
    ∃ key, Key.ofUserKey "test" "demo" (.bytes Serializer.frameMarker) = .ok key ∧
      c.parseKey (c.keyToJson key) = .ok key ∧
      c.parseKey ((c.keyToJson key).without "key") = .ok key.digestOnly ∧
      key.digestOnly ≠ key := by
  intro c
  have hforeign : Serializer.framed.decode Serializer.frameMarker = none := by decide +kernel
  refine ⟨⟨"test", "demo", some (.bytes Serializer.frameMarker), .compute "demo" _⟩, rfl, ?_⟩
  obtain ⟨hread, hwithout, -⟩ := c.parseKey_keyToJson
    (Or.inl ⟨"test", "demo", .bytes Serializer.frameMarker, rfl⟩) fun bytes hbytes => by
      obtain rfl := UserKey.bytes.inj (Option.some.inj hbytes)
      exact hforeign
  exact ⟨hread, hwithout, fun h => absurd (congrArg Key.userKey h) nofun⟩

end Codec

end RecordStore

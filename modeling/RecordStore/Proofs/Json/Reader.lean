import RecordStore.Json.Reader
import RecordStore.Proofs.Named

/-!
# What is read of a text is no longer than the text

Every reader takes something from the front of a text and leaves the end of it
(`RecordStore.Json.takes_take`). The characters of a text between quotes are among those that
were taken, or escapes of them were, and an escape is longer than what it stands for. So a text
that stands in an object is no longer than the text of the object
(`RecordStore.Json.length_le_of_ofText?`).
-/

namespace RecordStore.Json

variable {cs rest : List Char}

/-! ### Blanks, words and numbers -/

theorem skipBlanks_suffix (cs : List Char) : skipBlanks cs <:+ cs :=
  List.dropWhile_suffix _

/-- What stands behind a character that blanks are followed by. -/
theorem suffix_of_skipBlanks {c : Char} (h : skipBlanks cs = c :: rest) : rest <:+ cs :=
  (List.suffix_cons c rest).trans (h ▸ skipBlanks_suffix cs)

theorem skipWord_suffix {word : List Char} (h : skipWord word cs = some rest) : rest <:+ cs := by
  fun_induction skipWord word cs with
  | case1 cs =>
    obtain rfl := Option.some.inj h
    exact List.suffix_rfl
  | case2 w ws cs ih => exact (ih h).trans (List.suffix_cons _ _)
  | case3 | case4 => cases h

theorem takeDigits_suffix (cs : List Char) : (takeDigits cs).2 <:+ cs := by
  fun_induction takeDigits cs with
  | case1 => exact List.suffix_rfl
  | case2 c cs d hd ds rest hrest ih =>
    rw [hrest] at ih
    exact ih.trans (List.suffix_cons c cs)
  | case3 => exact List.suffix_rfl

theorem takeFraction_suffix {part : Option (List Nat)} (h : takeFraction cs = some (part, rest)) :
    rest <:+ cs := by
  unfold takeFraction at h
  split at h
  · rename_i behind
    have hdigits := takeDigits_suffix behind
    split at h
    · cases h
    · rename_i hread
      cases h
      rw [hread] at hdigits
      exact hdigits.trans (List.suffix_cons _ _)
  · cases h
    exact List.suffix_rfl

theorem takeExponentDigits_suffix {down : Bool} {part : Option (Bool × List Nat)}
    (h : takeExponentDigits down cs = some (part, rest)) : rest <:+ cs := by
  have hdigits := takeDigits_suffix cs
  unfold takeExponentDigits at h
  split at h
  · cases h
  · rename_i hread
    cases h
    rw [hread] at hdigits
    exact hdigits

theorem takeExponent_suffix {part : Option (Bool × List Nat)}
    (h : takeExponent cs = some (part, rest)) : rest <:+ cs := by
  unfold takeExponent at h
  split at h
  · rename_i c behind
    split at h
    · have hbehind : rest <:+ behind := by
        split at h
        · exact (takeExponentDigits_suffix h).trans (List.suffix_cons _ _)
        · exact (takeExponentDigits_suffix h).trans (List.suffix_cons _ _)
        · exact takeExponentDigits_suffix h
      exact hbehind.trans (List.suffix_cons c behind)
    · cases h
      exact List.suffix_rfl
  · cases h
    exact List.suffix_rfl

theorem takeNumber_suffix {negative : Bool} {n : NumberText}
    (h : takeNumber negative cs = some (n, rest)) : rest <:+ cs := by
  have hdigits := takeDigits_suffix cs
  unfold takeNumber at h
  dsimp only at h
  split at h
  · cases h
  · cases h
  · obtain ⟨⟨fraction, afterFraction⟩, hfraction, h⟩ := Option.bind_eq_some_iff.mp h
    obtain ⟨⟨exponent, afterExponent⟩, hexponent, h⟩ := Option.bind_eq_some_iff.mp h
    cases h
    exact (takeExponent_suffix hexponent).trans ((takeFraction_suffix hfraction).trans hdigits)

/-! ### Texts -/

/-- Every piece of a text takes at least one character. -/
theorem takePieces_suffix {pieces : List Piece} (h : takePieces cs = some (pieces, rest)) :
    rest <:+ cs ∧ pieces.length ≤ cs.length := by
  fun_induction takePieces cs generalizing pieces rest with
  | case1 => cases h
  | case2 cs =>
    cases h
    exact ⟨List.suffix_cons _ _, Nat.zero_le _⟩
  | case3 a b c d cs ih =>
    obtain ⟨w, -, h⟩ := Option.bind_eq_some_iff.mp h
    obtain ⟨x, -, h⟩ := Option.bind_eq_some_iff.mp h
    obtain ⟨y, -, h⟩ := Option.bind_eq_some_iff.mp h
    obtain ⟨z, -, h⟩ := Option.bind_eq_some_iff.mp h
    obtain ⟨⟨more, after⟩, hmore, h⟩ := Option.bind_eq_some_iff.mp h
    cases h
    obtain ⟨hsuffix, hlength⟩ := ih hmore
    refine ⟨hsuffix.trans ⟨['\\', 'u', a, b, c, d], rfl⟩, ?_⟩
    simp only [List.length_cons]
    omega
  | case4 c cs hne ih =>
    obtain ⟨e, -, h⟩ := Option.bind_eq_some_iff.mp h
    obtain ⟨⟨more, after⟩, hmore, h⟩ := Option.bind_eq_some_iff.mp h
    cases h
    obtain ⟨hsuffix, hlength⟩ := ih hmore
    refine ⟨hsuffix.trans ⟨['\\', c], rfl⟩, ?_⟩
    simp only [List.length_cons]
    omega
  | case5 => cases h
  | case6 c cs =>
    rename_i ih
    obtain ⟨⟨more, after⟩, hmore, h⟩ := Option.bind_eq_some_iff.mp h
    cases h
    obtain ⟨hsuffix, hlength⟩ := ih hmore
    exact ⟨hsuffix.trans (List.suffix_cons c cs), Nat.succ_le_succ hlength⟩

/-- Every character of a text is a piece, or two. -/
theorem length_joinPieces {pieces : List Piece} {letters : List Char}
    (h : joinPieces pieces = some letters) : letters.length ≤ pieces.length := by
  fun_induction joinPieces pieces generalizing letters with
  | case1 =>
    cases h
    exact Nat.le_refl _
  | case2 c pieces ih =>
    obtain ⟨more, hmore, rfl⟩ := Option.map_eq_some_iff.mp h
    exact Nat.succ_le_succ (ih hmore)
  | case3 high low pieces hhigh hlow ih =>
    obtain ⟨more, hmore, rfl⟩ := Option.map_eq_some_iff.mp h
    exact Nat.succ_le_succ (Nat.le_succ_of_le (ih hmore))
  | case6 high low pieces hhigh hlow ih =>
    obtain ⟨more, hmore, rfl⟩ := Option.map_eq_some_iff.mp h
    exact Nat.succ_le_succ (ih hmore)
  | case8 n pieces hne hsurrogate ih =>
    obtain ⟨more, hmore, rfl⟩ := Option.map_eq_some_iff.mp h
    exact Nat.succ_le_succ (ih hmore)
  | case4 | case5 | case7 => cases h

/-! ### What is taken -/

/-- **A text stands in a tree**, as a value and not as a name. -/
inductive Source.Stands (s : String) : Source → Prop where
  /-- A text stands in itself. -/
  | self : Stands s (.string (some s))
  /-- What stands in an item stands in the array. -/
  | item {item : Source} {items : List Source} (hitem : item ∈ items) (h : Stands s item) :
      Stands s (.array items)
  /-- What stands under a name stands in the object. -/
  | field {field : Option String × Source} {fields : List (Option String × Source)}
      (hfield : field ∈ fields) (h : Stands s field.2) : Stands s (.object fields)

/-- **Something is taken from the front of a text**: the end of the text is left, and no text
in what was taken is longer than it. -/
def Takes (cs rest : List Char) (taken : String → Prop) : Prop :=
  rest <:+ cs ∧ ∀ s, taken s → s.toList.length ≤ cs.length

namespace Takes

variable {α : Type} {taken other : String → Prop} {whole mid : List Char}

/-- What is taken from the end of a text is taken from the text. -/
theorem widen (h : Takes cs rest taken) (hcs : cs <:+ whole) (hother : ∀ s, other s → taken s) :
    Takes whole rest other :=
  ⟨h.1.trans hcs, fun s hs => Nat.le_trans (h.2 s (hother s hs)) hcs.length_le⟩

/-- What has no text in it. -/
theorem nothing (h : rest <:+ cs) (hother : ∀ s, ¬other s) : Takes cs rest other :=
  ⟨h, fun s hs => absurd hs (hother s)⟩

/-- One thing and then some others, none of which has a longer text in it. -/
theorem cons {stands : α → String → Prop} {a : α} {as : List α}
    (h : Takes cs mid (stands a)) (hrest : Takes mid rest fun s => ∃ b ∈ as, stands b s) :
    Takes cs rest fun s => ∃ b ∈ a :: as, stands b s := by
  refine ⟨hrest.1.trans h.1, fun s ⟨b, hb, hs⟩ => ?_⟩
  rcases List.mem_cons.mp hb with rfl | hb
  · exact h.2 s hs
  · exact Nat.le_trans (hrest.2 s ⟨b, hb, hs⟩) h.1.length_le

/-- The items of an array are taken, and so is the array. -/
theorem array {items : List Source} (h : Takes cs rest fun s => ∃ item ∈ items, item.Stands s)
    (hcs : cs <:+ whole) : Takes whole rest (Source.array items).Stands :=
  h.widen hcs fun _ hs => match hs with
    | .item hitem hs => ⟨_, hitem, hs⟩

/-- The fields of an object are taken, and so is the object. -/
theorem object {fields : List (Option String × Source)}
    (h : Takes cs rest fun s => ∃ field ∈ fields, field.2.Stands s) (hcs : cs <:+ whole) :
    Takes whole rest (Source.object fields).Stands :=
  h.widen hcs fun _ hs => match hs with
    | .field hfield hs => ⟨_, hfield, hs⟩

end Takes

theorem takes_takeString {text : Option String} (h : takeString cs = some (text, rest)) :
    Takes cs rest (Source.string text).Stands := by
  obtain ⟨⟨pieces, after⟩, hpieces, h⟩ := Option.bind_eq_some_iff.mp h
  cases h
  obtain ⟨hsuffix, hlength⟩ := takePieces_suffix hpieces
  refine ⟨hsuffix, fun s hs => ?_⟩
  obtain ⟨letters, hletters, hs⟩ : ∃ letters, joinPieces pieces = some letters ∧
      String.ofList letters = s := by
    generalize htext : (joinPieces pieces).map String.ofList = text at hs
    cases hs
    exact Option.map_eq_some_iff.mp htext
  rw [← hs, String.toList_ofList]
  exact Nat.le_trans (length_joinPieces hletters) hlength

/-! ### Values -/

/-- **Values are taken from the front** of a text, as far as the fuel goes. -/
def TakesValues (fuel : Nat) : Prop :=
  ∀ {cs rest : List Char} {source : Source}, takeValue fuel cs = some (source, rest) →
    Takes cs rest source.Stands

/-- Items are taken from the front of a text. -/
def TakesItems (fuel : Nat) : Prop :=
  ∀ {cs rest : List Char} {items : List Source}, takeItems fuel cs = some (items, rest) →
    Takes cs rest fun s => ∃ item ∈ items, item.Stands s

/-- Fields are taken from the front of a text. -/
def TakesFields (fuel : Nat) : Prop :=
  ∀ {cs rest : List Char} {fields : List (Option String × Source)},
    takeFields fuel cs = some (fields, rest) →
      Takes cs rest fun s => ∃ field ∈ fields, field.2.Stands s

variable {fuel : Nat}

/-- A value is a word, a number, a text, or takes what stands between its brackets. -/
theorem takesValues_succ (hitems : TakesItems fuel) (hfields : TakesFields fuel) :
    TakesValues (fuel + 1) := by
  intro cs rest source h
  rw [takeValue] at h
  split at h
  · -- an array
    rename_i inside hopen
    have hinside := suffix_of_skipBlanks hopen
    split at h
    · rename_i hclose
      cases h
      exact (Takes.nothing (suffix_of_skipBlanks hclose) nofun).array hinside
    · obtain ⟨⟨items, after⟩, hread, h⟩ := Option.bind_eq_some_iff.mp h
      cases h
      exact (hitems hread).array ((skipBlanks_suffix inside).trans hinside)
  · -- an object
    rename_i inside hopen
    have hinside := suffix_of_skipBlanks hopen
    split at h
    · rename_i hclose
      cases h
      exact (Takes.nothing (suffix_of_skipBlanks hclose) nofun).object hinside
    · obtain ⟨⟨fields, after⟩, hread, h⟩ := Option.bind_eq_some_iff.mp h
      cases h
      exact (hfields hread).object ((skipBlanks_suffix inside).trans hinside)
  · -- a text
    rename_i hquote
    obtain ⟨⟨text, after⟩, hread, h⟩ := Option.bind_eq_some_iff.mp h
    cases h
    exact (takes_takeString hread).widen (suffix_of_skipBlanks hquote) fun _ => id
  · -- a number with a sign
    rename_i hsign
    obtain ⟨⟨n, after⟩, hread, h⟩ := Option.bind_eq_some_iff.mp h
    cases h
    exact .nothing ((takeNumber_suffix hread).trans (suffix_of_skipBlanks hsign)) nofun
  -- the three words
  iterate 3
    · rename_i hletter
      obtain ⟨after, hread, h⟩ := Option.bind_eq_some_iff.mp h
      cases h
      exact .nothing ((skipWord_suffix hread).trans (suffix_of_skipBlanks hletter)) nofun
  · -- a number without a sign
    obtain ⟨⟨n, after⟩, hread, h⟩ := Option.bind_eq_some_iff.mp h
    cases h
    exact .nothing ((takeNumber_suffix hread).trans (skipBlanks_suffix cs)) nofun

/-- Items are a value, and others behind a comma. -/
theorem takesItems_succ (hvalues : TakesValues fuel) (hitems : TakesItems fuel) :
    TakesItems (fuel + 1) := by
  intro cs rest items h
  rw [takeItems] at h
  obtain ⟨⟨item, after⟩, hread, h⟩ := Option.bind_eq_some_iff.mp h
  dsimp only at h
  split at h
  · rename_i hcomma
    obtain ⟨⟨others, last⟩, hothers, h⟩ := Option.bind_eq_some_iff.mp h
    cases h
    exact (hvalues hread).cons ((hitems hothers).widen (suffix_of_skipBlanks hcomma) fun _ => id)
  · rename_i hclose
    cases h
    exact (hvalues hread).cons (.nothing (suffix_of_skipBlanks hclose) nofun)
  · cases h

/-- Fields are a name with a value, and others behind a comma. -/
theorem takesFields_succ (hvalues : TakesValues fuel) (hfields : TakesFields fuel) :
    TakesFields (fuel + 1) := by
  intro cs rest fields h
  rw [takeFields] at h
  split at h
  · rename_i hquote
    obtain ⟨⟨name, afterName⟩, hname, h⟩ := Option.bind_eq_some_iff.mp h
    have hbehind := (takes_takeString hname).1.trans (suffix_of_skipBlanks hquote)
    dsimp only at h
    split at h
    · rename_i hcolon
      obtain ⟨⟨value, afterValue⟩, hread, h⟩ := Option.bind_eq_some_iff.mp h
      have hfirst : Takes cs afterValue value.Stands :=
        (hvalues hread).widen ((suffix_of_skipBlanks hcolon).trans hbehind) fun _ => id
      dsimp only at h
      split at h
      · rename_i hcomma
        obtain ⟨⟨others, last⟩, hothers, h⟩ := Option.bind_eq_some_iff.mp h
        cases h
        exact hfirst.cons ((hfields hothers).widen (suffix_of_skipBlanks hcomma) fun _ => id)
      · rename_i hclose
        cases h
        exact hfirst.cons (.nothing (suffix_of_skipBlanks hclose) nofun)
      · cases h
    · cases h
  · cases h

/-- **Values, items and fields are taken from the front** of a text, whatever the fuel. -/
theorem takes_take (fuel : Nat) : TakesValues fuel ∧ TakesItems fuel ∧ TakesFields fuel := by
  induction fuel with
  | zero => exact ⟨nofun, nofun, nofun⟩
  | succ fuel ih =>
    obtain ⟨hvalues, hitems, hfields⟩ := ih
    exact ⟨takesValues_succ hitems hfields, takesItems_succ hvalues hitems,
      takesFields_succ hvalues hfields⟩

/-- **A text that stands in a tree** is no longer than the text of the tree. -/
theorem Source.Stands.length_le {text s : String} {source : Source} (hs : source.Stands s)
    (hread : Source.ofText? text = some source) : s.toList.length ≤ text.toList.length := by
  obtain ⟨⟨tree, rest⟩, htree, hread⟩ := Option.bind_eq_some_iff.mp hread
  dsimp only at hread
  split at hread
  · obtain rfl := Option.some.inj hread
    exact ((takes_take _).1 htree).2 s hs
  · cases hread

/-! ### Meanings -/

/-- A number with a point, an exponent or too many digits means a double. -/
theorem eq_float_of_double? {n : NumberText} {j : Json} (h : n.double? = some j) :
    ∃ x, j = .float x := by
  rw [NumberText.double?] at h
  dsimp only at h
  split at h
  · obtain ⟨x, -, h⟩ := Option.bind_eq_some_iff.mp h
    exact ⟨_, (Option.some.inj h).symm⟩
  · split at h
    · obtain ⟨x, -, h⟩ := Option.bind_eq_some_iff.mp h
      exact ⟨_, (Option.some.inj h).symm⟩
    · split at h
      · cases h
      · exact ⟨_, (Option.some.inj h).symm⟩

/-- A number means an integer or a double. -/
theorem eq_integer_or_float_of_value? {n : NumberText} {j : Json} (h : n.value? = some j) :
    (∃ i, j = .integer i) ∨ ∃ x, j = .float x := by
  rw [NumberText.value?] at h
  dsimp only at h
  split at h
  · split at h
    · exact Or.inl ⟨_, (Option.some.inj h).symm⟩
    · split at h
      · exact Or.inl ⟨_, (Option.some.inj h).symm⟩
      · exact Or.inr ⟨_, (Option.some.inj h).symm⟩
  · exact Or.inr (eq_float_of_double? h)

/-- **Only a text means a text, and only an object means an object**, the fields of which mean
what stands under the names of it. -/
theorem Source.eq_of_toJson? {source : Source} {depth : Nat} {j : Json}
    (h : source.toJson? depth = some j) :
    (∀ s, j = .string s → source = .string (some s)) ∧
      ∀ fields, j = .object fields → ∃ written pairs, source = .object written ∧
        fieldsToJson? (depth - 1) written = some pairs ∧ j = ofFields pairs := by
  cases source with
  | null | bool =>
    rw [toJson?] at h
    obtain rfl := Option.some.inj h
    exact ⟨nofun, nofun⟩
  | number n =>
    rw [toJson?] at h
    rcases eq_integer_or_float_of_value? h with ⟨i, rfl⟩ | ⟨x, rfl⟩
    · exact ⟨nofun, nofun⟩
    · exact ⟨nofun, nofun⟩
  | string text =>
    rw [toJson?] at h
    obtain ⟨t, rfl, rfl⟩ := Option.map_eq_some_iff.mp h
    exact ⟨fun s hs => by rw [Json.string.inj hs], nofun⟩
  | array items =>
    rw [toJson?, Option.ite_none_left_eq_some] at h
    obtain ⟨js, -, rfl⟩ := Option.map_eq_some_iff.mp h.2
    exact ⟨nofun, nofun⟩
  | object written =>
    rw [toJson?, Option.ite_none_left_eq_some] at h
    obtain ⟨pairs, hpairs, rfl⟩ := Option.map_eq_some_iff.mp h.2
    exact ⟨nofun, fun fields _ => ⟨written, pairs, rfl, hpairs, rfl⟩⟩

/-- What a field of an object means is the meaning of a field that was sent. -/
theorem exists_of_mem_fieldsToJson? {depth : Nat} {fields : List (Option String × Source)}
    {pairs : List (String × Json)} (h : fieldsToJson? depth fields = some pairs)
    {e : String × Json} (he : e ∈ pairs) :
    ∃ field ∈ fields, field.2.toJson? depth = some e.2 := by
  induction fields generalizing pairs with
  | nil =>
    rw [fieldsToJson?] at h
    cases h
    cases he
  | cons field fields ih =>
    obtain ⟨name, source⟩ := field
    rw [fieldsToJson?] at h
    obtain ⟨word, hword, h⟩ := Option.bind_eq_some_iff.mp h
    obtain ⟨j, hj, h⟩ := Option.bind_eq_some_iff.mp h
    obtain ⟨others, hothers, h⟩ := Option.bind_eq_some_iff.mp h
    obtain rfl := Option.some.inj h
    rcases List.mem_cons.mp he with rfl | he
    · exact ⟨_, List.mem_cons_self, hj⟩
    · obtain ⟨field, hfield, hmeaning⟩ := ih hothers he
      exact ⟨field, List.mem_cons_of_mem _ hfield, hmeaning⟩

/-- **A text that stands in an object** is no longer than the text of the object. -/
theorem length_le_of_ofText? {text name s : String} {fields : List (String × Json)}
    (hread : ofText? text = some (.object ⟨fields⟩)) (hs : (name, .string s) ∈ fields) :
    s.toList.length ≤ text.toList.length := by
  obtain ⟨source, hsource, hvalue⟩ := Option.bind_eq_some_iff.mp hread
  obtain ⟨written, pairs, rfl, hpairs, hobject⟩ := (Source.eq_of_toJson? hvalue).2 _ rfl
  obtain rfl := congrArg Fields.entries (Json.object.inj hobject)
  obtain ⟨field, hfield, hmeaning⟩ :=
    exists_of_mem_fieldsToJson? hpairs (Named.mem_of_mem_ofList hs)
  have hstring : field.2 = .string (some s) := (Source.eq_of_toJson? hmeaning).1 s rfl
  exact (Source.Stands.field hfield (hstring ▸ .self)).length_le hsource

end RecordStore.Json

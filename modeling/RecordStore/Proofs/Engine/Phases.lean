import RecordStore.Proofs.Engine.Frame

/-!
# The two phases of a call

The operations of one class are applied one after the other, each to the bins that
the one before has left. As long as they do not get into each other's way
(`RecordStore.Engine.Apart`), it is as if each of them were applied to the bins that
the phase starts from: that is the specification of a phase
(`RecordStore.Engine.Phase.Applies`), and it does not speak of any order.

The operations of a call do not get in each other's way. Reads never do, and two
writes of a call are about different bins.
-/

namespace RecordStore

namespace Engine

variable {engine : Engine} {writes : Bool} {bins : Bins} {op op' : Operation}
  {ops : List Operation}

/-! ### Operations that are apart -/

/-- **Two operations are apart** when each keeps what the other's bin holds. -/
def Apart (engine : Engine) (op op' : Operation) : Prop :=
  ∀ (bins : Bins) (bin : String),
    (op'.bin? = some bin → (engine.apply bins op).state.get? bin = bins.get? bin) ∧
      (op.bin? = some bin → (engine.apply bins op').state.get? bin = bins.get? bin)

/-- An operation keeps the bins that it does not address. -/
theorem get?_apply (engine : Engine) (bins : Bins) {bin : String} (h : op.bin? ≠ some bin) :
    (engine.apply bins op).state.get? bin = bins.get? bin := by
  cases hbin : op.bin? with
  | none => rw [apply_of_bin?_eq_none engine bins hbin, Attempt.done]
  | some other =>
    have hne : bin ≠ other := fun heq => h (by rw [hbin, heq])
    exact (confined_apply engine hbin).frame bins bin hne

theorem Apart.of_read (engine : Engine) (h : op.isWrite = false) (h' : op'.isWrite = false) :
    engine.Apart op op' := by
  refine fun bins bin => ⟨fun _ => ?_, fun _ => ?_⟩
  · rw [apply_state_of_read engine bins h]
  · rw [apply_state_of_read engine bins h']

theorem Apart.of_bin?_ne (engine : Engine)
    (h : ∀ bin, op.bin? = some bin → op'.bin? ≠ some bin) : engine.Apart op op' :=
  fun bins bin => ⟨fun h' => get?_apply engine bins fun hbin => h bin hbin h',
    fun hbin => get?_apply engine bins (h bin hbin)⟩

/-- An operation answers the same before and after one that is apart from it. -/
theorem Apart.result_apply (h : engine.Apart op op') (bins : Bins) :
    (engine.apply (engine.apply bins op).state op').result = (engine.apply bins op').result := by
  cases hbin : op'.bin? with
  | none => rw [apply_of_bin?_eq_none _ _ hbin, apply_of_bin?_eq_none _ _ hbin]; rfl
  | some bin => exact (confined_apply engine hbin).result _ _ ((h bins bin).1 hbin)

/-- It leaves the same in its bin, too. -/
theorem Apart.get?_apply_apply (h : engine.Apart op op') (bins : Bins) {bin : String}
    (hbin : op'.bin? = some bin) :
    (engine.apply (engine.apply bins op).state op').state.get? bin =
      (engine.apply bins op').state.get? bin :=
  (confined_apply engine hbin).content _ _ ((h bins bin).1 hbin)

/-! ### One phase -/

/-- The answer of an operation; none if it has none or fails. -/
def answer (engine : Engine) (bins : Bins) (op : Operation) : Option OpResult :=
  ((engine.apply bins op).result.toOption).join

theorem answer_eq {r : Option OpResult} (h : (engine.apply bins op).result = .ok r) :
    engine.answer bins op = r := by
  rw [answer, h]
  rfl

/-- **What a phase comes to**: every operation of the class is applied to the bins
that the phase starts from. -/
structure Phase.Applies (engine : Engine) (writes : Bool) (bins : Bins)
    (slots : List (Operation × Option OpResult)) (phase : Phase) : Prop where
  /-- Every operation of the class succeeds. -/
  succeeds : ∀ e ∈ slots, e.1.isWrite = writes →
    (engine.apply bins e.1).result = .ok (engine.answer bins e.1)
  /-- Its answer goes to its slot, and the other slots are as before. -/
  slots_eq : phase.slots = slots.map fun e =>
    if e.1.isWrite = writes then (e.1, engine.answer bins e.1) else e
  /-- Its bin holds what it leaves there. -/
  addressed : ∀ e ∈ slots, e.1.isWrite = writes → ∀ bin, e.1.bin? = some bin →
    phase.bins.get? bin = (engine.apply bins e.1).state.get? bin
  /-- The other bins hold what they held. -/
  others : ∀ bin, (∀ e ∈ slots, e.1.isWrite = writes → e.1.bin? ≠ some bin) →
    phase.bins.get? bin = bins.get? bin

/-- The operations of a class are apart from each other. -/
def AllApart (engine : Engine) (writes : Bool) (slots : List (Operation × Option OpResult)) :
    Prop :=
  slots.Pairwise fun e f => e.1.isWrite = writes → f.1.isWrite = writes → engine.Apart e.1 f.1

theorem Phase.Applies.nil (engine : Engine) (writes : Bool) (bins : Bins) :
    Phase.Applies engine writes bins [] ⟨bins, []⟩ where
  succeeds _ he := absurd he List.not_mem_nil
  slots_eq := rfl
  addressed _ he := absurd he List.not_mem_nil
  others _ _ := rfl

/-- Skipping an operation of the other class. -/
theorem Phase.Applies.skip {e : Operation × Option OpResult}
    {slots : List (Operation × Option OpResult)} {phase : Phase}
    (h : phase.Applies engine writes bins slots) (he : e.1.isWrite ≠ writes) :
    Phase.Applies engine writes bins (e :: slots) { phase with slots := e :: phase.slots } where
  succeeds f hf hclass := by
    rcases List.mem_cons.mp hf with rfl | hf
    · exact absurd hclass he
    · exact h.succeeds f hf hclass
  slots_eq := by rw [List.map_cons, if_neg he, h.slots_eq]
  addressed f hf hclass := by
    rcases List.mem_cons.mp hf with rfl | hf
    · exact absurd hclass he
    · exact h.addressed f hf hclass
  others bin hbin := h.others bin fun f hf => hbin f (List.mem_cons_of_mem e hf)

/-- Applying an operation first that is apart from all that follow. -/
theorem Phase.Applies.apply_first {slot r : Option OpResult}
    {slots : List (Operation × Option OpResult)} {phase : Phase}
    (h : phase.Applies engine writes (engine.apply bins op).state slots)
    (hop : op.isWrite = writes) (hr : (engine.apply bins op).result = .ok r)
    (hapart : ∀ f ∈ slots, f.1.isWrite = writes → engine.Apart op f.1) :
    Phase.Applies engine writes bins ((op, slot) :: slots)
      { phase with slots := (op, r) :: phase.slots } where
  succeeds f hf hclass := by
    rcases List.mem_cons.mp hf with rfl | hf
    · rw [answer_eq hr, hr]
    · have hresult := (hapart f hf hclass).result_apply bins
      rw [answer, ← hresult]
      exact h.succeeds f hf hclass
  slots_eq := by
    rw [List.map_cons, if_pos hop, answer_eq hr, h.slots_eq]
    refine congrArg ((op, r) :: ·) (List.map_congr_left fun f hf => ?_)
    refine if_ctx_congr Iff.rfl (fun hclass => ?_) fun _ => rfl
    rw [answer, (hapart f hf hclass).result_apply, answer]
  addressed f hf hclass bin hbin := by
    rcases List.mem_cons.mp hf with rfl | hf
    · -- what follows either is about another bin or keeps what this one holds
      by_cases hlater : ∃ g ∈ slots, g.1.isWrite = writes ∧ g.1.bin? = some bin
      · obtain ⟨g, hg, hgclass, hgbin⟩ := hlater
        have hgapart := hapart g hg hgclass
        rw [h.addressed g hg hgclass bin hgbin]
        exact (hgapart _ bin).2 hbin
      · exact h.others bin fun g hg hgclass hgbin => hlater ⟨g, hg, hgclass, hgbin⟩
    · rw [h.addressed f hf hclass bin hbin]
      exact (hapart f hf hclass).get?_apply_apply bins hbin
  others bin hbin := by
    rw [h.others bin fun f hf => hbin f (List.mem_cons_of_mem _ hf)]
    exact get?_apply engine bins (hbin (op, slot) List.mem_cons_self hop)

/-- **A phase** applies every operation of its class, or fails as one of them does. -/
theorem runClass_spec (engine : Engine) (writes : Bool) (bins : Bins)
    (slots : List (Operation × Option OpResult)) (hapart : engine.AllApart writes slots) :
    match engine.runClass writes bins slots with
    | .ok phase => phase.Applies engine writes bins slots
    | .error error => ∃ e ∈ slots, e.1.isWrite = writes ∧
        (engine.apply bins e.1).result = .error error := by
  induction slots generalizing bins with
  | nil => exact .nil engine writes bins
  | cons e slots ih =>
    obtain ⟨op, slot⟩ := e
    obtain ⟨hfirst, hrest⟩ := List.pairwise_cons.mp hapart
    rw [runClass]
    by_cases hop : op.isWrite = writes
    · -- the rest of the phase starts from the bins that this operation leaves
      rw [if_pos hop, Attempt.toExcept]
      cases hresult : (engine.apply bins op).result with
      | error error => exact ⟨(op, slot), List.mem_cons_self, hop, hresult⟩
      | ok r =>
        have hspec := ih (engine.apply bins op).state hrest
        have hapart : ∀ f ∈ slots, f.1.isWrite = writes → engine.Apart op f.1 :=
          fun f hf => hfirst f hf hop
        cases hrun : engine.runClass writes (engine.apply bins op).state slots with
        | error error =>
          rw [hrun] at hspec
          obtain ⟨f, hf, hclass, herror⟩ := hspec
          simp only [Except.map, bind, Except.bind, hrun]
          -- what fails there would have failed here
          refine ⟨f, List.mem_cons_of_mem _ hf, hclass, ?_⟩
          rw [← herror, (hapart f hf hclass).result_apply]
        | ok phase =>
          rw [hrun] at hspec
          simp only [Except.map, bind, Except.bind, hrun]
          exact hspec.apply_first hop hresult hapart
    · rw [if_neg hop]
      have hspec := ih bins hrest
      cases hrun : engine.runClass writes bins slots with
      | error error =>
        rw [hrun] at hspec
        obtain ⟨f, hf, hclass, herror⟩ := hspec
        exact ⟨f, List.mem_cons_of_mem _ hf, hclass, herror⟩
      | ok phase =>
        rw [hrun] at hspec
        exact hspec.skip hop

theorem AllApart.of_reads (engine : Engine) (slots : List (Operation × Option OpResult)) :
    engine.AllApart false slots :=
  List.pairwise_of_forall fun _ _ => Apart.of_read engine

/-- Writes about different bins are apart. -/
theorem AllApart.of_distinct (engine : Engine)
    (h : ((ops.filter Operation.isWrite).filterMap Operation.bin?).Nodup) :
    engine.AllApart true (ops.map (·, none)) := by
  rw [List.Nodup, List.pairwise_filterMap, List.pairwise_filter] at h
  refine List.pairwise_map.mpr (h.imp fun hne hop hop' => .of_bin?_ne engine fun bin hbin => ?_)
  exact fun hbin' => hne hop hop' bin hbin bin hbin' rfl

/-! ### Both phases -/

/-- **The bins after the writes** of a call: each addressed one holds what the write
leaves there, and the others hold what they held. -/
structure Written (engine : Engine) (bins : Bins) (ops : List Operation) (written : Bins) :
    Prop where
  /-- The bin of a write. -/
  addressed : ∀ op ∈ ops, op.isWrite = true → ∀ bin, op.bin? = some bin →
    written.get? bin = (engine.apply bins op).state.get? bin
  /-- A bin without a write. -/
  others : ∀ bin, (∀ op ∈ ops, op.isWrite = true → op.bin? ≠ some bin) →
    written.get? bin = bins.get? bin

/-- Only the writes count for the bins after them, and not their order. -/
theorem Written.congr {ops' : List Operation} {written : Bins}
    (h : engine.Written bins ops written)
    (hmem : ∀ op, op.isWrite = true → (op ∈ ops ↔ op ∈ ops')) :
    engine.Written bins ops' written where
  addressed op hop hclass := h.addressed op ((hmem op hclass).mpr hop) hclass
  others bin hbin := h.others bin fun op hop hclass => hbin op ((hmem op hclass).mp hop) hclass

/-- The writes determine the bins after them. -/
theorem Written.unique {written written' : Bins} (h : engine.Written bins ops written)
    (h' : engine.Written bins ops written') : written = written' := by
  refine Named.ext_get? fun bin => ?_
  by_cases hwrite : ∃ op ∈ ops, op.isWrite = true ∧ op.bin? = some bin
  · obtain ⟨op, hop, hclass, hbin⟩ := hwrite
    rw [h.addressed op hop hclass bin hbin, h'.addressed op hop hclass bin hbin]
  · have hnone : ∀ op ∈ ops, op.isWrite = true → op.bin? ≠ some bin :=
      fun op hop hclass hbin => hwrite ⟨op, hop, hclass, hbin⟩
    rw [h.others bin hnone, h'.others bin hnone]

/-- The first phase writes. -/
theorem Phase.Applies.written {phase : Phase}
    (h : phase.Applies engine true bins (ops.map (·, none))) :
    engine.Written bins ops phase.bins where
  addressed op hop := h.addressed (op, none) (List.mem_map_of_mem hop)
  others bin hbin := h.others bin fun e he => by
    obtain ⟨op, hop, rfl⟩ := List.mem_map.mp he
    exact hbin op hop

/-- The second phase leaves the bins as they are. -/
theorem Phase.Applies.bins_eq {slots : List (Operation × Option OpResult)} {phase : Phase}
    (h : phase.Applies engine false bins slots) : phase.bins = bins := by
  refine Named.ext_get? fun bin => ?_
  by_cases hread : ∃ e ∈ slots, e.1.isWrite = false ∧ e.1.bin? = some bin
  · obtain ⟨e, he, hclass, hbin⟩ := hread
    rw [h.addressed e he hclass bin hbin, apply_state_of_read engine bins hclass]
  · exact h.others bin fun e he hclass hbin => hread ⟨e, he, hclass, hbin⟩

/-- **What both phases come to**: the writes are applied to the bins of the record,
and the reads to the bins after the writes. -/
structure Phase.Runs (engine : Engine) (bins : Bins) (ops : List Operation) (phase : Phase) :
    Prop where
  /-- Every write succeeds on the bins of the record. -/
  writes : ∀ op ∈ ops, op.isWrite = true →
    (engine.apply bins op).result = .ok (engine.answer bins op)
  /-- Every read succeeds on the bins after the writes. -/
  reads : ∀ op ∈ ops, op.isWrite = false →
    (engine.apply phase.bins op).result = .ok (engine.answer phase.bins op)
  /-- The bins are those after the writes. -/
  written : engine.Written bins ops phase.bins
  /-- The slots hold the answers, in the order of the operations. -/
  slots_eq : phase.slots = ops.map fun op =>
    (op, engine.answer (if op.isWrite then bins else phase.bins) op)

/-- The two phases, one after the other. -/
theorem Phase.Runs.of_applies {written phase : Phase}
    (hwrites : written.Applies engine true bins (ops.map (·, none)))
    (hreads : phase.Applies engine false written.bins written.slots) :
    phase.Runs engine bins ops where
  writes op hop := hwrites.succeeds (op, none) (List.mem_map_of_mem hop)
  reads op hop hclass := by
    have hmem : (op, none) ∈ written.slots := by
      rw [hwrites.slots_eq, List.map_map]
      exact List.mem_map.mpr ⟨op, hop, by simp [hclass]⟩
    rw [hreads.bins_eq]
    exact hreads.succeeds _ hmem hclass
  written := hreads.bins_eq ▸ hwrites.written
  slots_eq := by
    rw [hreads.slots_eq, hwrites.slots_eq, hreads.bins_eq, List.map_map, List.map_map]
    refine List.map_congr_left fun op _ => ?_
    cases hclass : op.isWrite <;> simp [hclass]

/-- **Both phases** run, or a write fails on the bins of the record, or a read on the
bins after the writes. -/
theorem run_spec (engine : Engine) (bins : Bins)
    (hdistinct : ((ops.filter Operation.isWrite).filterMap Operation.bin?).Nodup) :
    match engine.run bins ops with
    | .ok phase => phase.Runs engine bins ops
    | .error error =>
      (∃ op ∈ ops, op.isWrite = true ∧ (engine.apply bins op).result = .error error) ∨
        ∃ written, engine.Written bins ops written ∧
          ∃ op ∈ ops, op.isWrite = false ∧ (engine.apply written op).result = .error error := by
  have hwrites := engine.runClass_spec true bins (ops.map (·, none)) (.of_distinct engine hdistinct)
  rw [run]
  cases hrun : engine.runClass true bins (ops.map (·, none)) with
  | error error =>
    rw [hrun] at hwrites
    obtain ⟨e, he, hclass, herror⟩ := hwrites
    obtain ⟨op, hop, rfl⟩ := List.mem_map.mp he
    exact Or.inl ⟨op, hop, hclass, herror⟩
  | ok written =>
    rw [hrun] at hwrites
    have hreads := engine.runClass_spec false written.bins written.slots (.of_reads engine _)
    simp only [bind, Except.bind]
    cases hread : engine.runClass false written.bins written.slots with
    | error error =>
      rw [hread] at hreads
      obtain ⟨e, he, hclass, herror⟩ := hreads
      -- the slots that the second phase starts from are still those of the operations
      refine Or.inr ⟨written.bins, hwrites.written, e.1, ?_, hclass, herror⟩
      rw [hwrites.slots_eq, List.map_map] at he
      obtain ⟨op, hop, rfl⟩ := List.mem_map.mp he
      cases hop' : op.isWrite <;> simpa [hop'] using hop
    | ok phase =>
      rw [hread] at hreads
      exact .of_applies hwrites hreads

/-- **Both phases run** exactly to what they come to. -/
theorem run_eq_ok_iff {phase : Phase}
    (hdistinct : ((ops.filter Operation.isWrite).filterMap Operation.bin?).Nodup) :
    engine.run bins ops = .ok phase ↔ phase.Runs engine bins ops := by
  have hspec := engine.run_spec bins hdistinct
  constructor
  · intro hrun
    rw [hrun] at hspec
    exact hspec
  · intro h
    cases hrun : engine.run bins ops with
    | ok phase' =>
      rw [hrun] at hspec
      obtain ⟨written, slots⟩ := phase
      obtain ⟨written', slots'⟩ := phase'
      obtain rfl : written' = written := hspec.written.unique h.written
      obtain rfl : slots' = slots := hspec.slots_eq.trans h.slots_eq.symm
      rfl
    | error error =>
      rw [hrun] at hspec
      rcases hspec with ⟨op, hop, hclass, herror⟩ | ⟨written, hwritten, op, hop, hclass, herror⟩
      · rw [h.writes op hop hclass] at herror
        cases herror
      · obtain rfl : written = phase.bins := hwritten.unique h.written
        rw [h.reads op hop hclass] at herror
        cases herror

/-- **The same operations in another order** run as well, to the same bins and with
the same answers. -/
theorem Phase.Runs.reorder {ops' : List Operation} {phase : Phase}
    (h : phase.Runs engine bins ops) (hmem : ∀ op, op ∈ ops ↔ op ∈ ops')
    (hdistinct : ((ops'.filter Operation.isWrite).filterMap Operation.bin?).Nodup) :
    ∃ phase', engine.run bins ops' = .ok phase' ∧ phase'.bins = phase.bins ∧
      phase'.slots = ops'.map fun op =>
        (op, engine.answer (if op.isWrite then bins else phase.bins) op) := by
  let slots := ops'.map fun op => (op, engine.answer (if op.isWrite then bins else phase.bins) op)
  refine ⟨⟨phase.bins, slots⟩, (run_eq_ok_iff hdistinct).mpr ⟨?_, ?_, ?_, rfl⟩, rfl, rfl⟩
  · exact fun op hop => h.writes op ((hmem op).mpr hop)
  · exact fun op hop => h.reads op ((hmem op).mpr hop)
  · exact h.written.congr fun op _ => hmem op

end Engine

end RecordStore

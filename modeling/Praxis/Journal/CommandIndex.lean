import Mathlib.Data.List.AList
import Mathlib.Data.List.Induction
import Praxis.Journal.Segments

/-!
# The command index

The in-memory index of committed commands (`command_index.rs`): a Bloom filter of
four bits per command over all commands, and the frame pointers of the last 512.

Two facts are all a lookup needs.  The filter has no false negatives
(`CommandIndex.maybeContains_ofPointers`), and a remembered pointer is one that
was inserted for that command (`CommandIndex.mem_of_recentFrame`).  How many
pointers are remembered, and which ones are evicted, only matters for speed: a
command that the filter may contain and that is not remembered is looked up in
the segments.
-/

namespace Praxis.Journal

open Foundation Contracts

/-! ## The filter -/

/-- `FILTER_WORDS`. -/
def filterWords : Nat := 2 ^ 15
/-- One more than `FILTER_MASK`. -/
def filterBits : Nat := filterWords * 64
/-- `RECENT_COMMANDS`. -/
def recentCommands : Nat := 512
/-- `HASH_STEP`. -/
def hashStep : UInt64 := 0x9e3779b97f4a7c15

/-- `mix`. -/
def mix (value : UInt64) : UInt64 :=
  let value := value ^^^ (value >>> 30)
  let value := value * 0xbf58476d1ce4e5b9
  let value := value ^^^ (value >>> 27)
  let value := value * 0x94d049bb133111eb
  value ^^^ (value >>> 31)

/-- `command_bits`.  The mask is one less than a power of two, so masking is
taking the remainder. -/
def commandBits (commandId : CommandId) : List (Fin filterBits) :=
  let value := ofLeBytes commandId.asBytes.reverse
  let low := UInt64.ofNat value
  let high := UInt64.ofNat (value / 2 ^ 64)
  let first := mix (low ^^^ ((high <<< 17) ||| (high >>> 47)))
  let step := mix (high ^^^ ((low >>> 11) ||| (low <<< 53)) ^^^ hashStep) ||| 1
  (List.range 4).map fun index ↦
    let index := UInt64.ofNat index
    ⟨(first + index * step + index * index * hashStep).toNat % filterBits,
      Nat.mod_lt _ (by decide)⟩

abbrev Filter := Vector UInt64 filterWords

namespace Filter

/-- The word a bit is in. -/
def word (bit : Fin filterBits) : Fin filterWords :=
  ⟨bit.val / 64, Nat.div_lt_of_lt_mul (Nat.mul_comm _ _ ▸ bit.isLt)⟩

/-- The bit within its word. -/
def mask (bit : Fin filterBits) : UInt64 := 1 <<< UInt64.ofNat (bit.val % 64)

/-- The body of the loop of `insert`. -/
def setBit (filter : Filter) (bit : Fin filterBits) : Filter :=
  filter.set (word bit) (filter[word bit] ||| mask bit)

/-- The test of `maybe_contains`. -/
def testBit (filter : Filter) (bit : Fin filterBits) : Bool :=
  filter[word bit] &&& mask bit ≠ 0

theorem mask_ne_zero (bit : Fin filterBits) : mask bit ≠ 0 := by
  have hbits : ∀ i < 64, (1 : UInt64) <<< UInt64.ofNat i ≠ 0 := by decide
  exact hbits _ (Nat.mod_lt _ (by decide))

/-- Setting bits in a word keeps the ones that are set. -/
theorem or_and_ne_zero {w x m : UInt64} (h : w &&& m ≠ 0) : (w ||| x) &&& m ≠ 0 := by
  intro hzero
  apply h
  rw [← UInt64.toBitVec_inj] at hzero ⊢
  simp only [UInt64.toBitVec_and, UInt64.toBitVec_or, UInt64.toBitVec_zero] at hzero ⊢
  ext i hi
  have hbit := congrArg (fun v : BitVec 64 ↦ v[i]) hzero
  simp only [BitVec.getElem_and, BitVec.getElem_or, BitVec.getElem_zero] at hbit ⊢
  grind

theorem testBit_setBit_self (filter : Filter) (bit : Fin filterBits) :
    (filter.setBit bit).testBit bit = true := by
  have hword : (filter[word bit] ||| mask bit) &&& mask bit ≠ 0 := by
    rw [UInt64.or_comm]
    exact or_and_ne_zero (by rw [UInt64.and_self]; exact mask_ne_zero bit)
  simpa [testBit, setBit] using hword

theorem testBit_setBit {filter : Filter} {bit other : Fin filterBits}
    (h : filter.testBit other = true) : (filter.setBit bit).testBit other = true := by
  simp only [testBit, setBit, Fin.getElem_fin, decide_eq_true_eq, Vector.getElem_set] at h ⊢
  split
  · rename_i hword
    simp only [hword]
    exact or_and_ne_zero h
  · exact h

/-- Bits that are set stay set while others are added. -/
theorem testBit_foldl {filter : Filter} {bits : List (Fin filterBits)} {bit : Fin filterBits}
    (h : filter.testBit bit = true ∨ bit ∈ bits) : (bits.foldl setBit filter).testBit bit = true := by
  induction bits generalizing filter with
  | nil => simpa using h
  | cons b bits ih =>
    apply ih
    rcases h with h | h
    · exact .inl (testBit_setBit h)
    · rcases List.mem_cons.mp h with rfl | h
      · exact .inl (testBit_setBit_self _ _)
      · exact .inr h

end Filter

/-! ## The index -/

structure CommandIndex where
  filter : Option Filter
  recent : AList fun _ : CommandId ↦ FramePointer
  order : List CommandId

namespace CommandIndex

/-- `CommandIndex::new`. -/
def new : CommandIndex := ⟨none, ∅, []⟩

/-- `insert`. -/
def insert (ix : CommandIndex) (commandId : CommandId) (pointer : FramePointer) : CommandIndex :=
  let filter := (commandBits commandId).foldl Filter.setBit
    (ix.filter.getD (Vector.replicate filterWords 0))
  let recent := ix.recent.insert commandId pointer
  if (ix.recent.lookup commandId).isSome then { ix with filter := some filter, recent }
  else
    let order := ix.order ++ [commandId]
    if recentCommands < order.length then
      match order with
      | expired :: order => ⟨some filter, recent.erase expired, order⟩
      | [] => ⟨some filter, recent, []⟩
    else ⟨some filter, recent, order⟩

/-- `maybe_contains`. -/
def maybeContains (ix : CommandIndex) (commandId : CommandId) : Bool :=
  match ix.filter with
  | none => false
  | some filter => (commandBits commandId).all filter.testBit

/-- `recent_frame`. -/
def recentFrame (ix : CommandIndex) (commandId : CommandId) : Option FramePointer :=
  ix.recent.lookup commandId

variable {ix : CommandIndex} {commandId other : CommandId} {pointer p : FramePointer}

theorem filter_insert : (ix.insert commandId pointer).filter =
    some ((commandBits commandId).foldl Filter.setBit
      (ix.filter.getD (Vector.replicate filterWords 0))) := by
  unfold insert
  simp only
  split
  · rfl
  · split
    · split <;> rfl
    · rfl

theorem maybeContains_insert (h : other = commandId ∨ ix.maybeContains other = true) :
    (ix.insert commandId pointer).maybeContains other = true := by
  simp only [maybeContains, filter_insert, List.all_eq_true]
  intro bit hbit
  apply Filter.testBit_foldl
  rcases h with rfl | h
  · exact .inr hbit
  · unfold maybeContains at h
    split at h
    · cases h
    · rename_i filter hfilter
      rw [hfilter]
      exact .inl (List.all_eq_true.mp h bit hbit)

/-- A remembered pointer was remembered before, or has just been inserted. -/
theorem recentFrame_insert (h : (ix.insert commandId pointer).recentFrame other = some p) :
    (other = commandId ∧ p = pointer) ∨ ix.recentFrame other = some p := by
  have hinsert : (ix.recent.insert commandId pointer).lookup other = some p →
      (other = commandId ∧ p = pointer) ∨ ix.recentFrame other = some p := by
    intro h
    by_cases hid : other = commandId
    · subst hid
      rw [AList.lookup_insert] at h
      exact .inl ⟨rfl, (Option.some.inj h).symm⟩
    · rw [AList.lookup_insert_ne hid] at h
      exact .inr h
  unfold recentFrame insert at h
  simp only at h
  split at h
  · exact hinsert h
  · split at h
    · split at h
      · rename_i expired _ _
        by_cases hexpired : other = expired
        · rw [hexpired, AList.lookup_erase] at h
          cases h
        · rw [AList.lookup_erase_ne hexpired] at h
          exact hinsert h
      · exact hinsert h
    · exact hinsert h

/-- The index after inserting pointers in order. -/
def ofPointers (pointers : List (CommandId × FramePointer)) : CommandIndex :=
  pointers.foldl (fun ix entry ↦ ix.insert entry.1 entry.2) new

variable {pointers : List (CommandId × FramePointer)}

theorem ofPointers_append_singleton (entry : CommandId × FramePointer) :
    ofPointers (pointers ++ [entry]) = (ofPointers pointers).insert entry.1 entry.2 := by
  simp [ofPointers]

/-- No command is missed by the filter. -/
theorem maybeContains_ofPointers (h : (commandId, p) ∈ pointers) :
    (ofPointers pointers).maybeContains commandId = true := by
  induction pointers using List.reverseRecOn with
  | nil => cases h
  | append_singleton pointers entry ih =>
    rw [ofPointers_append_singleton]
    apply maybeContains_insert
    rcases List.mem_append.mp h with h | h
    · exact .inr (ih h)
    · exact .inl (congrArg Prod.fst (List.mem_singleton.mp h))

/-- A remembered pointer is one that was inserted. -/
theorem mem_of_recentFrame (h : (ofPointers pointers).recentFrame commandId = some p) :
    (commandId, p) ∈ pointers := by
  induction pointers using List.reverseRecOn with
  | nil => cases h
  | append_singleton pointers entry ih =>
    rw [ofPointers_append_singleton] at h
    rcases recentFrame_insert h with ⟨rfl, rfl⟩ | h
    · simp
    · exact List.mem_append_left _ (ih h)

end CommandIndex

end Praxis.Journal

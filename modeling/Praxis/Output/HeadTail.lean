import Mathlib.Data.List.DropRight
import Praxis.Output.Truncate

/-!
# The output of a command, capped

The output of a command that is running is kept in a `HeadTailBuffer`
(`core/src/unified_exec/head_tail_buffer.rs`): half of the capacity is for the first bytes, the
other half for the newest, and the bytes between them are only counted.  Output arrives in chunks
of any size, and the buffer may be drained in between.

`capped` says what a buffer holds of all the bytes it was given, and `run_calls` that a buffer is
that after every sequence of calls.
-/

namespace Praxis.Output

/-- `usize::saturating_add`. -/
def saturatingAddUsize (a b : Nat) : Nat := min (a + b) usizeMax

/-- The ring of the tail is the list of its bytes, the oldest first. -/
@[ext]
structure HeadTailBuffer where
  headBudget : Nat
  tailBudget : Nat
  head : List UInt8
  tail : List UInt8
  omittedBytes : Nat

namespace HeadTailBuffer

def new (maxBytes : Nat) : HeadTailBuffer where
  headBudget := maxBytes / 2
  tailBudget := maxBytes - maxBytes / 2
  head := []
  tail := []
  omittedBytes := 0

def retainedBytes (buffer : HeadTailBuffer) : Nat :=
  saturatingAddUsize buffer.head.length buffer.tail.length

def pushToTail (buffer : HeadTailBuffer) (bytes : List UInt8) : HeadTailBuffer :=
  if bytes = [] then buffer
  else if buffer.tailBudget = 0 then
    { buffer with omittedBytes := saturatingAddUsize buffer.omittedBytes bytes.length }
  else if buffer.tailBudget ≤ bytes.length then
    let keepFrom := bytes.length - buffer.tailBudget
    { buffer with
      omittedBytes :=
        saturatingAddUsize (saturatingAddUsize buffer.omittedBytes buffer.tail.length) keepFrom
      tail := bytes.drop keepFrom }
  else
    let tail := buffer.tail ++ bytes
    let overflow := tail.length - buffer.tailBudget
    if overflow ≠ 0 then
      { buffer with
        tail := tail.drop overflow
        omittedBytes := saturatingAddUsize buffer.omittedBytes overflow }
    else { buffer with tail }

def pushChunk (buffer : HeadTailBuffer) (chunk : List UInt8) : HeadTailBuffer :=
  if chunk = [] then buffer
  else
    let headSpace := buffer.headBudget - buffer.head.length
    let split := min headSpace chunk.length
    let buffer := { buffer with head := buffer.head ++ chunk.take split }
    buffer.pushToTail (chunk.drop split)

def snapshotChunks (buffer : HeadTailBuffer) : List (List UInt8) :=
  (if buffer.head ≠ [] then [buffer.head] else []) ++
    if buffer.tail ≠ [] then [buffer.tail] else []

def toBytes (buffer : HeadTailBuffer) : List UInt8 := buffer.head ++ buffer.tail

/-- The chunks, and the buffer that is left. -/
def drainChunks (buffer : HeadTailBuffer) : List (List UInt8) × HeadTailBuffer :=
  ((if buffer.head ≠ [] then [buffer.head] else []) ++
      if buffer.tail ≠ [] then [buffer.tail] else [],
    { buffer with head := [], tail := [], omittedBytes := 0 })

/-! ## Calls -/

/-- A call that changes a buffer. -/
inductive Call where
  | pushChunk (chunk : List UInt8)
  | drainChunks

def call (buffer : HeadTailBuffer) : Call → HeadTailBuffer
  | .pushChunk chunk => buffer.pushChunk chunk
  | .drainChunks => buffer.drainChunks.2

/-- The buffer of a capacity after the calls. -/
def run (maxBytes : Nat) (calls : List Call) : HeadTailBuffer := calls.foldl call (new maxBytes)

/-- The bytes of the chunks since the last drain, when `bytes` were given before. -/
def pushedAfter (bytes : List UInt8) : Call → List UInt8
  | .pushChunk chunk => bytes ++ chunk
  | .drainChunks => []

/-- The bytes of the chunks since the creation or the last drain. -/
def pushed (calls : List Call) : List UInt8 := calls.foldl pushedAfter []

/-! ## What a buffer holds -/

/-- The buffer that was given the bytes. -/
def capped (maxBytes : Nat) (bytes : List UInt8) : HeadTailBuffer where
  headBudget := maxBytes / 2
  tailBudget := maxBytes - maxBytes / 2
  head := bytes.take (maxBytes / 2)
  tail := (bytes.drop (maxBytes / 2)).rtake (maxBytes - maxBytes / 2)
  omittedBytes := min (bytes.length - maxBytes) usizeMax

variable {maxBytes : Nat} {bytes chunk : List UInt8}

/-! ### The last bytes -/

/-- The last bytes of what ends with enough of them. -/
theorem rtake_append_of_le {n : Nat} (h : n ≤ chunk.length) :
    (bytes ++ chunk).rtake n = chunk.rtake n := by
  rw [List.rtake, List.rtake, List.length_append, List.drop_append,
    List.drop_eq_nil_of_le (by omega), List.nil_append]
  congr 1
  omega

/-- Bytes that are not among the last do not come back. -/
theorem rtake_rtake_append (n : Nat) :
    (bytes.rtake n ++ chunk).rtake n = (bytes ++ chunk).rtake n := by
  rw [List.rtake, List.rtake, List.rtake, List.drop_append, List.drop_append, List.drop_drop,
    List.length_append, List.length_append, List.length_drop]
  congr 2 <;> omega

theorem rtake_min_length (n : Nat) : bytes.rtake (min bytes.length n) = bytes.rtake n := by
  rw [List.rtake, List.rtake]
  congr 1
  omega

theorem length_rtake (n : Nat) : (bytes.rtake n).length = min bytes.length n := by
  rw [List.rtake, List.length_drop]
  omega

/-! ### One call -/

/-- More bytes for the tail push the oldest out. -/
theorem pushToTail_eq {buffer : HeadTailBuffer} (htail : buffer.tail.length ≤ buffer.tailBudget)
    (homitted : buffer.omittedBytes ≤ usizeMax) (bytes : List UInt8) :
    buffer.pushToTail bytes =
      { buffer with
        tail := (buffer.tail ++ bytes).rtake buffer.tailBudget
        omittedBytes := min
          (buffer.omittedBytes + (buffer.tail.length + bytes.length - buffer.tailBudget))
          usizeMax } := by
  obtain ⟨headBudget, tailBudget, head, tail, omitted⟩ := buffer
  dsimp only at htail homitted
  unfold pushToTail saturatingAddUsize
  dsimp only
  split_ifs with hnil hzero hlarge hoverflow
  · subst hnil
    have hnone : tail.length - tailBudget = 0 := by omega
    rw [List.append_nil, List.rtake, hnone, List.drop_zero, List.length_nil, Nat.add_zero, hnone,
      Nat.add_zero, min_eq_left homitted]
  · subst hzero
    obtain rfl : tail = [] := List.eq_nil_of_length_eq_zero (Nat.le_zero.mp htail)
    rw [List.rtake_zero, List.length_nil, Nat.zero_add, Nat.sub_zero]
  · rw [rtake_append_of_le hlarge]
    congr 1
    omega
  · rw [List.length_append] at hoverflow ⊢
    rw [List.rtake, List.length_append]
  · rw [List.length_append, not_not] at hoverflow
    rw [List.rtake, List.length_append, hoverflow, List.drop_zero, Nat.add_zero,
      min_eq_left homitted]

/-- A chunk does to the buffer what it would have done together with the bytes before it. -/
theorem capped_pushChunk (maxBytes : Nat) (bytes chunk : List UInt8) :
    (capped maxBytes bytes).pushChunk chunk = capped maxBytes (bytes ++ chunk) := by
  by_cases hnil : chunk = []
  · subst hnil
    rw [List.append_nil]
    exact if_pos rfl
  have hspace : maxBytes / 2 - (bytes.take (maxBytes / 2)).length =
      maxBytes / 2 - bytes.length := by
    rw [List.length_take]
    omega
  rw [pushChunk, if_neg hnil]
  dsimp only [capped]
  have htail : ((bytes.drop (maxBytes / 2)).rtake (maxBytes - maxBytes / 2)).length ≤
      maxBytes - maxBytes / 2 := by
    rw [length_rtake]
    exact min_le_right _ _
  rw [hspace, ← List.take_eq_take_min, ← List.drop_eq_drop_min,
    pushToTail_eq htail (min_le_right _ _), rtake_rtake_append, ← List.take_append,
    ← List.drop_append]
  congr 1
  rw [length_rtake, List.length_drop, List.length_drop, List.length_append]
  dsimp only
  -- the tail gets bytes only when the head is full
  omega

theorem drainChunks_capped (maxBytes : Nat) (bytes : List UInt8) :
    (capped maxBytes bytes).drainChunks.2 = capped maxBytes [] := by
  rw [drainChunks, capped, capped, List.take_nil, List.drop_nil, List.rtake_nil, List.length_nil,
    Nat.zero_sub, Nat.zero_min]

theorem call_capped (maxBytes : Nat) (bytes : List UInt8) (c : Call) :
    (capped maxBytes bytes).call c = capped maxBytes (pushedAfter bytes c) := by
  cases c with
  | pushChunk chunk => exact capped_pushChunk maxBytes bytes chunk
  | drainChunks => exact drainChunks_capped maxBytes bytes

/-! ### All calls -/

theorem new_eq_capped (maxBytes : Nat) : new maxBytes = capped maxBytes [] := by
  rw [new, capped, List.take_nil, List.drop_nil, List.rtake_nil, List.length_nil, Nat.zero_sub,
    Nat.zero_min]

/-- The buffer holds what it should of the bytes since the last drain. -/
theorem run_eq_capped (maxBytes : Nat) (calls : List Call) :
    run maxBytes calls = capped maxBytes (pushed calls) := by
  rw [run, pushed, new_eq_capped]
  generalize ([] : List UInt8) = bytes
  induction calls generalizing bytes with
  | nil => rfl
  | cons c calls ih => rw [List.foldl_cons, List.foldl_cons, call_capped, ih]

theorem flatten_snapshotChunks (buffer : HeadTailBuffer) :
    buffer.snapshotChunks.flatten = buffer.toBytes := by
  unfold snapshotChunks toBytes
  split_ifs with hhead htail htail <;> simp_all

theorem length_toBytes_capped (maxBytes : Nat) (bytes : List UInt8) :
    (capped maxBytes bytes).toBytes.length = min bytes.length maxBytes := by
  rw [toBytes, List.length_append, capped, List.length_take, length_rtake, List.length_drop]
  omega

/-- The length of the head, and that of the tail. -/
def headLength (maxBytes : Nat) (bytes : List UInt8) : Nat := min bytes.length (maxBytes / 2)

@[inherit_doc headLength]
def tailLength (maxBytes : Nat) (bytes : List UInt8) : Nat :=
  min (bytes.length - headLength maxBytes bytes) (maxBytes - maxBytes / 2)

/-- The buffer has the first bytes and the last of the rest, and the count of the others; a count
that no `usize` can hold is the greatest that it can. -/
structure Exact (maxBytes : Nat) (bytes : List UInt8) (buffer : HeadTailBuffer) : Prop where
  toBytes : buffer.toBytes = bytes.take (headLength maxBytes bytes) ++
    (bytes.drop (headLength maxBytes bytes)).rtake (tailLength maxBytes bytes)
  retained : buffer.retainedBytes = headLength maxBytes bytes + tailLength maxBytes bytes
  omitted : buffer.omittedBytes = min (bytes.length - buffer.retainedBytes) usizeMax
  snapshot : buffer.snapshotChunks.flatten = buffer.toBytes
  drain : buffer.drainChunks = (buffer.snapshotChunks, new maxBytes)

theorem exact_capped (hmax : maxBytes ≤ usizeMax) (bytes : List UInt8) :
    Exact maxBytes bytes (capped maxBytes bytes) := by
  have hretained : (capped maxBytes bytes).retainedBytes = min bytes.length maxBytes := by
    rw [retainedBytes, saturatingAddUsize, ← List.length_append]
    change min (capped maxBytes bytes).toBytes.length usizeMax = _
    rw [length_toBytes_capped]
    omega
  refine ⟨?_, ?_, ?_, flatten_snapshotChunks _, ?_⟩
  · rw [tailLength, headLength, ← List.length_drop, rtake_min_length, min_comm,
      ← List.drop_eq_drop_min, ← List.take_eq_take_min]
    rfl
  · rw [hretained, headLength, tailLength, headLength]
    omega
  · rw [hretained, capped]
    dsimp only
    omega
  · rw [new_eq_capped, ← drainChunks_capped maxBytes bytes]
    rfl

/-- Capping is exact after every sequence of calls, and does not depend on the chunks. -/
theorem head_tail_exact (hmax : maxBytes ≤ usizeMax) (calls : List Call) :
    Exact maxBytes (pushed calls) (run maxBytes calls) ∧
      ∀ others, pushed others = pushed calls → run maxBytes others = run maxBytes calls := by
  refine ⟨?_, fun others h ↦ ?_⟩
  · rw [run_eq_capped]
    exact exact_capped hmax _
  · rw [run_eq_capped, run_eq_capped, h]

/-- A drain between chunks. -/
def shortCalls : List Call :=
  [.pushChunk [1, 2, 3], .drainChunks, .pushChunk [4, 5, 6], .pushChunk [7]]

theorem head_tail_exact_short :
    pushed shortCalls = [4, 5, 6, 7] ∧ (run 3 shortCalls).toBytes = [4, 6, 7] ∧
      Exact 3 (pushed shortCalls) (run 3 shortCalls) :=
  ⟨by decide, by decide, (head_tail_exact (by decide) shortCalls).1⟩

/-- More bytes than a `usize` can count, in chunks that a slice can hold. -/
def endlessCalls : List Call :=
  List.replicate 3 (.pushChunk (List.replicate (2 ^ 63 - 1) 0))

/-- The count stops at the greatest `usize`. -/
theorem omitted_saturates :
    (run 0 endlessCalls).omittedBytes ≠
      (pushed endlessCalls).length - (run 0 endlessCalls).retainedBytes := by
  have hlength : (pushed endlessCalls).length = 3 * (2 ^ 63 - 1) := by
    simp only [pushed, endlessCalls, List.replicate_succ, List.replicate_zero, List.foldl_cons,
      List.foldl_nil, pushedAfter, List.nil_append, List.length_append, List.length_replicate]
    decide
  have hexact : Exact 0 (pushed endlessCalls) (run 0 endlessCalls) := by
    rw [run_eq_capped]
    exact exact_capped (Nat.zero_le _) _
  have hretained : (run 0 endlessCalls).retainedBytes = 0 := by
    rw [hexact.retained, tailLength, headLength, hlength]
    decide
  rw [hexact.omitted, hretained, hlength]
  decide

end HeadTailBuffer

end Praxis.Output

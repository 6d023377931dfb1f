import Mathlib.Data.List.Sort
import Praxis.Foundation.FileSystem
import Praxis.Journal.Codec

/-!
# Configuration, errors and the files of a journal

The plain data of `model.rs` and `error.rs`, and `segment_paths`: how the segment
files of a directory are found and ordered.

A segment file is recognised by its name.  `parse::<u64>` accepts a sign and any
number of leading zeros, so one sequence number has many names; the writer uses
the one with twenty digits (`segmentName`).  `Lists d paths` states what a
directory holds without reference to the order of its entries, and
`segmentPaths_eq_ok_iff` that this is what `segment_paths` computes.
-/

namespace Praxis.Journal

open Foundation Contracts

/-! ## Plain data -/

/-- The root directory of the configuration is not modelled: all paths are names
in the segments directory of one thread. -/
structure JournalConfig where
  maxSegmentBytes : UInt64
  maxFramePayloadBytes : UInt64
deriving DecidableEq

/-- The kinds of `io::Error` that occur. -/
inductive IoError where
  | notFound
  | alreadyExists
  | unexpectedEof
  /-- The operation itself failed. -/
  | failed
deriving DecidableEq

inductive JournalError where
  | invalidConfig (reason : String)
  | invalidRange (reason : String)
  | revisionConflict (expected current : ThreadRevision)
  | idempotencyCollision (commandId : CommandId)
  | invalidBatch (reason : String)
  | corruptSegment (path : FileName) (offset : Nat) (reason : String)
  | io (error : IoError)
deriving DecidableEq

structure SegmentInfo where
  sequence : Nat
  firstRevision : ThreadRevision
  lastRevision : ThreadRevision
  path : FileName
  bytes : Nat
deriving DecidableEq

inductive AppendOutcome where
  | committed (receipt : ThreadCommandReceipt) (events : List ThreadEventEnvelope)
  | duplicate (receipt : ThreadCommandReceipt)
deriving DecidableEq

structure DurabilityBarrier where
  through : ThreadHead
  batchCount : Nat
deriving DecidableEq

structure FramePointer where
  previousRecordDigest : Digest
  startRevision : ThreadRevision
  offset : Nat
  len : Nat
deriving DecidableEq

/-- `FramePointer::previous_head`. -/
def FramePointer.previousHead (p : FramePointer) : ThreadHead :=
  { revision := ⟨UInt64.ofNat (p.startRevision.toNat - 1)⟩
    recordDigest := p.previousRecordDigest }

/-- `validate_config`. -/
def validateConfig (config : JournalConfig) : Except JournalError Unit :=
  if config.maxSegmentBytes.toNat ≤ segmentHeaderLen then
    .error (.invalidConfig "max segment bytes must exceed the segment header")
  else if config.maxFramePayloadBytes = 0 then
    .error (.invalidConfig "max frame payload bytes must be non-zero")
  else .ok ()

/-! ## Names -/

/-- The characters behind an optional sign. -/
def stripSign : List Char → List Char
  | '+' :: rest => rest
  | chars => chars

/-- `str::parse::<u64>`. -/
def parseU64 (chars : List Char) : Option Nat :=
  let digits := stripSign chars
  if digits ≠ [] ∧ digits.all Char.isDigit then
    let n := Nat.ofDigitChars 10 digits 0
    if n < 2 ^ 64 then some n else none
  else none

/-- `segment-` -/
def segmentNameHead : List Char := ['s', 'e', 'g', 'm', 'e', 'n', 't', '-']

/-- `.ptj` -/
def segmentNameTail : List Char := ['.', 'p', 't', 'j']

/-- The name `create_segment` gives to a segment, `segment-{sequence:020}.ptj`. -/
def segmentName (sequence : Nat) : FileName :=
  .utf8 (segmentNameHead ++ (List.leftpad 20 '0' (Nat.toDigits 10 sequence) ++ segmentNameTail))

/-- The sequence number `segment_paths` reads off a name. -/
def segmentSequence : FileName → Option Nat
  | .utf8 chars => do
      let value ← chars.dropPrefix? segmentNameHead
      let value ← value.dropSuffix? segmentNameTail
      parseU64 value
  | .raw _ => none

/-- A digit is not a sign. -/
theorem stripSign_of_isDigit {chars : List Char} (h : ∀ c ∈ chars, c.isDigit = true) :
    stripSign chars = chars := by
  unfold stripSign
  split
  · exact absurd (h '+' (by simp)) (by decide)
  · rfl

theorem parseU64_leftpad {n : Nat} (h : n < 2 ^ 64) :
    parseU64 (List.leftpad 20 '0' (Nat.toDigits 10 n)) = some n := by
  have hdigit : ∀ c ∈ List.leftpad 20 '0' (Nat.toDigits 10 n), c.isDigit = true := by
    intro c hc
    rw [List.leftpad, List.mem_append, List.mem_replicate] at hc
    rcases hc with ⟨-, rfl⟩ | hc
    · rfl
    · exact Nat.isDigit_of_mem_toDigits (by decide) (by decide) hc
  have hne : List.leftpad 20 '0' (Nat.toDigits 10 n) ≠ [] := by
    simp [List.leftpad, Nat.toDigits_ne_nil]
  have hread : Nat.ofDigitChars 10 (List.leftpad 20 '0' (Nat.toDigits 10 n)) 0 = n := by
    rw [List.leftpad, Nat.ofDigitChars_append, Nat.ofDigitChars_replicate_zero, Nat.mul_zero,
      Nat.ofDigitChars_ten_toDigits]
  have hstrip := stripSign_of_isDigit hdigit
  unfold parseU64
  rw [hstrip, if_pos ⟨hne, List.all_eq_true.mpr hdigit⟩, hread, if_pos h]

/-- The writer's names are read back. -/
theorem segmentSequence_segmentName {n : Nat} (h : n < 2 ^ 64) :
    segmentSequence (segmentName n) = some n := by
  simp only [segmentSequence, segmentName]
  rw [List.dropPrefix?_append_of_beq _ (by simp), Option.bind_eq_bind, Option.bind_some,
    List.dropSuffix?_eq_some_iff.mpr ⟨segmentNameTail, rfl, by simp⟩, Option.bind_some,
    parseU64_leftpad h]

/-! ## Finding the segments -/

/-- A regular file whose name is not UTF-8, on which `segment_paths` gives up. -/
def isRawFile : (Σ _ : FileName, Node) → Bool
  | ⟨.raw _, .file _⟩ => true
  | _ => false

/-- What the loop of `segment_paths` pushes for an entry. -/
def entryNumber : (Σ _ : FileName, Node) → Option (Nat × FileName)
  | ⟨name, .file _⟩ => (segmentSequence name).map fun sequence ↦ (sequence, name)
  | ⟨_, .other⟩ => none

/-- `segment_paths`.  `sort_by_key` is stable, as insertion sort is. -/
def segmentPaths (d : Directory) : Except JournalError (List (Nat × FileName)) :=
  match d.entries.find? isRawFile with
  | some entry => .error (.corruptSegment entry.1 0 "segment filename is not UTF-8")
  | none => .ok ((d.entries.filterMap entryNumber).insertionSort fun a b ↦ a.1 ≤ b.1)

/-- The segment files of a directory, in the order of their sequence numbers,
which are all different. -/
structure Lists (d : Directory) (paths : List (Nat × FileName)) : Prop where
  raw : ∀ bytes, d.contents (.raw bytes) = none
  mem_iff : ∀ sequence name, (sequence, name) ∈ paths ↔
    (d.contents name).isSome ∧ segmentSequence name = some sequence
  sorted : paths.Pairwise fun a b ↦ a.1 < b.1

theorem mem_entries_iff {d : Directory} {name : FileName} {f : File} :
    ⟨name, .file f⟩ ∈ d.entries ↔ d.file? name = some f := by
  rw [Directory.file?_eq_some_iff]
  exact (List.mem_dlookup_iff d.nodupKeys).symm

theorem mem_filterMap_entryNumber {d : Directory} {sequence : Nat} {name : FileName} :
    (sequence, name) ∈ d.entries.filterMap entryNumber ↔
      (d.contents name).isSome ∧ segmentSequence name = some sequence := by
  rw [List.mem_filterMap, Directory.isSome_contents]
  constructor
  · rintro ⟨⟨name', node⟩, hmem, hnum⟩
    cases node with
    | other => cases hnum
    | file f =>
      simp only [entryNumber, Option.map_eq_some_iff, Prod.mk.injEq] at hnum
      obtain ⟨_, hseq, rfl, rfl⟩ := hnum
      exact ⟨Option.isSome_iff_exists.mpr ⟨f, mem_entries_iff.mp hmem⟩, hseq⟩
  · rintro ⟨hfile, hseq⟩
    obtain ⟨f, hf⟩ := Option.isSome_iff_exists.mp hfile
    exact ⟨⟨name, .file f⟩, mem_entries_iff.mpr hf, by simp [entryNumber, hseq]⟩

/-- No name is collected twice. -/
theorem filterMap_entryNumber_nodup (d : Directory) :
    ((d.entries.filterMap entryNumber).map Prod.snd).Nodup := by
  rw [List.Nodup, List.pairwise_map]
  refine d.nodupKeys.pairwise_ne.filterMap _ ?_
  rintro ⟨a, na⟩ ⟨b, nb⟩ hne p hp q hq
  cases na <;> cases nb <;> simp only [entryNumber, Option.map_eq_some_iff, reduceCtorEq] at hp hq
  obtain ⟨_, -, rfl⟩ := hp
  obtain ⟨_, -, rfl⟩ := hq
  exact hne

theorem find?_isRawFile_eq_none_iff {d : Directory} :
    d.entries.find? isRawFile = none ↔ ∀ bytes, d.contents (.raw bytes) = none := by
  simp only [Directory.contents, Option.map_eq_none_iff]
  rw [List.find?_eq_none]
  constructor
  · intro h bytes
    by_contra hne
    obtain ⟨f, hf⟩ := Option.ne_none_iff_exists'.mp hne
    exact h _ (mem_entries_iff.mpr hf) rfl
  · rintro h ⟨name, node⟩ hmem hraw
    cases name <;> cases node <;> simp only [isRawFile, Bool.false_eq_true] at hraw
    rw [mem_entries_iff, h] at hmem
    cases hmem

/-- Sorting numbered paths whose numbers are all different gives back any sorted
list of the same paths. -/
theorem insertionSort_eq_of_perm {numbered paths : List (Nat × FileName)}
    (hperm : numbered.Perm paths) (hsorted : paths.Pairwise fun a b ↦ a.1 < b.1) :
    numbered.insertionSort (fun a b ↦ a.1 ≤ b.1) = paths := by
  have htotal : Std.Total fun a b : Nat × FileName ↦ a.1 ≤ b.1 := ⟨fun a b ↦ Nat.le_total _ _⟩
  have htrans : IsTrans (Nat × FileName) fun a b ↦ a.1 ≤ b.1 := ⟨fun _ _ _ ↦ Nat.le_trans⟩
  refine List.Perm.eq_of_pairwise ?_ (List.pairwise_insertionSort _ _)
    (hsorted.imp Nat.le_of_lt) ((List.perm_insertionSort _ _).trans hperm)
  intro a b ha hb hab hba
  have ha' : a ∈ paths := hperm.mem_iff.mp ((List.mem_insertionSort _).mp ha)
  have hnodup : (paths.map Prod.fst).Nodup := (List.pairwise_map.mpr hsorted).imp Nat.ne_of_lt
  exact List.inj_on_of_nodup_map hnodup ha' hb (Nat.le_antisymm hab hba)

/-- A directory lists its segments exactly when `segment_paths` returns them. -/
theorem segmentPaths_eq_ok_iff {d : Directory} {paths : List (Nat × FileName)}
    (hsorted : paths.Pairwise fun a b ↦ a.1 < b.1) :
    segmentPaths d = .ok paths ↔ Lists d paths := by
  unfold segmentPaths
  constructor
  · intro h
    split at h
    · cases h
    · rename_i hraw
      refine ⟨find?_isRawFile_eq_none_iff.mp hraw, fun sequence name ↦ ?_, hsorted⟩
      rw [← Except.ok.inj h, List.mem_insertionSort, mem_filterMap_entryNumber]
  · intro h
    have hperm : (d.entries.filterMap entryNumber).Perm paths := by
      rw [List.perm_ext_iff_of_nodup (filterMap_entryNumber_nodup d).of_map
        (hsorted.imp fun hlt heq ↦ absurd (congrArg Prod.fst heq) hlt.ne)]
      rintro ⟨sequence, name⟩
      rw [mem_filterMap_entryNumber, h.mem_iff]
    rw [find?_isRawFile_eq_none_iff.mpr h.raw]
    simp only [insertionSort_eq_of_perm hperm hsorted]

/-- The paths `segment_paths` returns are different files. -/
theorem nodup_of_segmentPaths {d : Directory} {paths : List (Nat × FileName)}
    (h : segmentPaths d = .ok paths) : (paths.map Prod.snd).Nodup := by
  unfold segmentPaths at h
  split at h
  · cases h
  · rw [← Except.ok.inj h]
    exact ((List.perm_insertionSort _ _).map _).nodup_iff.mpr (filterMap_entryNumber_nodup d)

namespace Lists

variable {d d' : Directory} {paths : List (Nat × FileName)} {sequence : Nat} {name : FileName}

/-- What a directory lists depends on which files exist. -/
theorem congr (h : Lists d paths)
    (hsame : ∀ name, (d'.contents name).isSome = (d.contents name).isSome) : Lists d' paths := by
  refine ⟨fun bytes ↦ ?_, fun sequence name ↦ by rw [hsame, h.mem_iff], h.sorted⟩
  have hraw := hsame (.raw bytes)
  rw [h.raw bytes] at hraw
  simpa using hraw

/-- A segment file with a number behind all others is listed last. -/
theorem append_singleton (h : Lists d paths) (hsequence : segmentSequence name = some sequence)
    (hlt : ∀ p ∈ paths, p.1 < sequence) (hname : (d'.contents name).isSome)
    (hother : ∀ other ≠ name, d'.contents other = d.contents other) :
    Lists d' (paths ++ [(sequence, name)]) := by
  refine ⟨fun bytes ↦ ?_, fun i other ↦ ?_, List.pairwise_append.mpr ⟨h.sorted, by simp, ?_⟩⟩
  · rw [hother _ (by rintro rfl; cases hsequence)]
    exact h.raw bytes
  · rw [List.mem_append, List.mem_singleton, Prod.mk.injEq]
    by_cases hne : other = name
    · subst hne
      rw [hsequence, Option.some.injEq]
      constructor
      · rintro (hmem | ⟨rfl, -⟩)
        · have := hsequence.symm.trans ((h.mem_iff i other).mp hmem).2
          exact ⟨hname, Option.some.inj this⟩
        · exact ⟨hname, rfl⟩
      · rintro ⟨-, rfl⟩
        exact .inr ⟨rfl, rfl⟩
    · rw [hother _ hne, ← h.mem_iff]
      simp [hne]
  · intro p hp q hq
    rw [List.mem_singleton.mp hq]
    exact hlt p hp

/-- Without the file of the last segment the others are listed. -/
theorem of_append_singleton (h : Lists d (paths ++ [(sequence, name)]))
    (hname : d'.contents name = none)
    (hother : ∀ other ≠ name, d'.contents other = d.contents other) : Lists d' paths := by
  have hsorted := List.pairwise_append.mp h.sorted
  refine ⟨fun bytes ↦ ?_, fun i other ↦ ?_, hsorted.1⟩
  · by_cases hne : .raw bytes = name
    · rw [hne, hname]
    · rw [hother _ hne]
      exact h.raw bytes
  · by_cases hne : other = name
    · subst hne
      rw [hname]
      refine ⟨fun hmem ↦ ?_, fun h ↦ by cases h.1⟩
      have hi := ((h.mem_iff i other).mp (List.mem_append_left _ hmem)).2
      have hlast := ((h.mem_iff sequence other).mp (by simp)).2
      have hlt := hsorted.2.2 _ hmem _ (List.mem_singleton_self _)
      rw [hi, Option.some.injEq] at hlast
      exact absurd hlt (by simp [hlast])
    · rw [hother _ hne, ← h.mem_iff]
      simp [hne]

/-- A directory that has lost files lists the ones that are left. -/
theorem of_lost {left : List (Nat × FileName)} (h : Lists d paths) (hsub : left.Sublist paths)
    (hleft : ∀ p ∈ paths, p ∈ left ↔ (d'.contents p.2).isSome)
    (hnew : ∀ name, (d'.contents name).isSome → (d.contents name).isSome) : Lists d' left := by
  refine ⟨fun bytes ↦ ?_, fun i other ↦ ?_, h.sorted.sublist hsub⟩
  · by_contra hsome
    have := hnew _ (Option.isSome_iff_ne_none.mpr hsome)
    rw [h.raw bytes] at this
    cases this
  · constructor
    · intro hmem
      exact ⟨(hleft _ (hsub.subset hmem)).mp hmem, ((h.mem_iff i other).mp (hsub.subset hmem)).2⟩
    · rintro ⟨hsome, hsequence⟩
      exact (hleft _ ((h.mem_iff i other).mpr ⟨hnew other hsome, hsequence⟩)).mpr hsome

end Lists

end Praxis.Journal

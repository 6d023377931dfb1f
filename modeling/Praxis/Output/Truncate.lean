import Mathlib
import Praxis.Foundation.Weighted

/-!
# Truncating the middle of a text

Output that is too long keeps its beginning and its end, and a marker says how much was left
out between them (`utils/string`).  The budget is one of bytes, while a text may be cut only
between characters: one pass over the characters finds the end of the prefix, the start of
the suffix and the number of the characters in between.  The text is then sliced at these
offsets, and a slice inside a character would end the program (`none`).

A list of tool output items shares one budget (`utils/output-truncation`): the text items
are kept as long as there is room, the first that has no room is cut to what is left, and
the others are only counted.

The lengths of texts are natural numbers: no text is so long that an addition to its length
saturates.  A budget may be any number, and arithmetic on it saturates as in the source.
-/

namespace Praxis.Output

open Foundation

/-- `usize::MAX` and `u64::MAX` on a 64-bit target. -/
def usizeMax : Nat := 2 ^ 64 - 1

/-- The bytes of a list of characters. -/
def byteSize (text : List Char) : Nat := width Char.utf8Size text

theorem byteSize_cons (c : Char) (text : List Char) :
    byteSize (c :: text) = c.utf8Size + byteSize text :=
  width_cons Char.utf8Size c text

theorem byteSize_append (before after : List Char) :
    byteSize (before ++ after) = byteSize before + byteSize after :=
  width_append Char.utf8Size before after

@[simp] theorem byteSize_toList (s : String) : byteSize s.toList = s.utf8ByteSize := by
  rw [← String.ofList_toList (s := s), String.toList_ofList]
  induction s.toList with
  | nil => rfl
  | cons c text ih =>
    rw [byteSize_cons, ih, String.ofList_cons, String.utf8ByteSize_append,
      String.utf8ByteSize_singleton]

/-- `&s[..n]`. -/
def sliceTo (s : String) (n : Nat) : Option String :=
  (cut Char.utf8Size n s.toList).map fun (before, _) ↦ String.ofList before

/-- `&s[n..]`. -/
def sliceFrom (s : String) (n : Nat) : Option String :=
  (cut Char.utf8Size n s.toList).map fun (_, after) ↦ String.ofList after

theorem cut_byteSize (before after : List Char) :
    cut Char.utf8Size (byteSize before) (before ++ after) = some (before, after) :=
  cut_append Char.utf8Size_pos before after

/-! ## The pass over the characters -/

/-- What the pass of `split_string` keeps. -/
structure Scan where
  prefixEnd : Nat
  suffixStart : Nat
  removedChars : Nat
  suffixStarted : Bool
  deriving DecidableEq

/-- The body of the loop of `split_string`. -/
def Scan.visit (beginningBytes tailStartTarget : Nat) (scan : Scan) :
    Nat × Char → Scan
  | (idx, ch) =>
    let charEnd := idx + ch.utf8Size
    if charEnd ≤ beginningBytes then { scan with prefixEnd := charEnd }
    else if tailStartTarget ≤ idx then
      if scan.suffixStarted then scan
      else { scan with suffixStart := idx, suffixStarted := true }
    else { scan with removedChars := scan.removedChars + 1 }

/-- `split_string`. -/
def splitString (s : String) (beginningBytes endBytes : Nat) : Option (Nat × String × String) :=
  if s.isEmpty then some (0, "", "")
  else do
    let len := s.utf8ByteSize
    let scan := (offsets Char.utf8Size 0 s.toList).foldl
      (Scan.visit beginningBytes (len - endBytes)) ⟨0, len, 0, false⟩
    let suffixStart := if scan.suffixStart < scan.prefixEnd then scan.prefixEnd
      else scan.suffixStart
    let before ← sliceTo s scan.prefixEnd
    let after ← sliceFrom s suffixStart
    return (scan.removedChars, before, after)

/-! ## Truncation -/

/-- `split_budget`. -/
def splitBudget (budget : Nat) : Nat × Nat := (budget / 2, budget - budget / 2)

/-- `APPROX_BYTES_PER_TOKEN`. -/
def approxBytesPerToken : Nat := 4

/-- `approx_token_count`. -/
def approxTokenCount (text : String) : Nat :=
  (text.utf8ByteSize + (approxBytesPerToken - 1)) / approxBytesPerToken

/-- `approx_bytes_for_tokens`. -/
def approxBytesForTokens (tokens : Nat) : Nat := min (tokens * approxBytesPerToken) usizeMax

/-- `approx_tokens_from_byte_count`. -/
def approxTokensFromByteCount (bytes : Nat) : Nat :=
  min (bytes + (approxBytesPerToken - 1)) usizeMax / approxBytesPerToken

/-- `format_truncation_marker`. -/
def formatTruncationMarker (useTokens : Bool) (removedCount : Nat) : String :=
  if useTokens then s!"…{removedCount} tokens truncated…" else s!"…{removedCount} chars truncated…"

/-- `removed_units`. -/
def removedUnits (useTokens : Bool) (removedBytes removedChars : Nat) : Nat :=
  if useTokens then approxTokensFromByteCount removedBytes else removedChars

/-- `assemble_truncated_output`. -/
def assembleTruncatedOutput ( pre suffix marker : String) : String := pre ++ marker ++ suffix

/-- `truncate_with_byte_estimate`. -/
def truncateWithByteEstimate (s : String) (maxBytes : Nat) (useTokens : Bool) : Option String :=
  if s.isEmpty then some ""
  else if maxBytes = 0 then
    some (formatTruncationMarker useTokens
      (removedUnits useTokens s.utf8ByteSize s.toList.length))
  else if s.utf8ByteSize ≤ maxBytes then some s
  else do
    let (leftBudget, rightBudget) := splitBudget maxBytes
    let (removedChars, left, right) ← splitString s leftBudget rightBudget
    let marker := formatTruncationMarker useTokens
      (removedUnits useTokens (s.utf8ByteSize - maxBytes) removedChars)
    return assembleTruncatedOutput left right marker

/-- `truncate_middle_chars`. -/
def truncateMiddleChars (s : String) (maxBytes : Nat) : Option String :=
  truncateWithByteEstimate s maxBytes false

/-- `truncate_middle_with_token_budget`. -/
def truncateMiddleWithTokenBudget (s : String) (maxTokens : Nat) :
    Option (String × Option Nat) :=
  if s.isEmpty then some ("", none)
  else if 0 < maxTokens ∧ s.utf8ByteSize ≤ approxBytesForTokens maxTokens then some (s, none)
  else do
    let truncated ← truncateWithByteEstimate s (approxBytesForTokens maxTokens) true
    if truncated = s then return (truncated, none)
    else return (truncated, some (approxTokenCount s))

/-! ## Tool output items -/

/-- `TruncationPolicy`. -/
inductive TruncationPolicy where
  | bytes (bytes : Nat)
  | tokens (tokens : Nat)
  deriving DecidableEq

namespace TruncationPolicy

/-- `TruncationPolicy::byte_budget`. -/
def byteBudget : TruncationPolicy → Nat
  | .bytes n => n
  | .tokens n => approxBytesForTokens n

/-- `TruncationPolicy::token_budget`. -/
def tokenBudget : TruncationPolicy → Nat
  | .bytes n => approxTokensFromByteCount n
  | .tokens n => n

/-- The budget in the unit of the policy. -/
def budget (policy : TruncationPolicy) : Nat :=
  match policy with
  | bytes _ => policy.byteBudget
  | tokens _ => policy.tokenBudget

/-- What a text costs, in the unit of the policy. -/
def cost (text : String) : TruncationPolicy → Nat
  | bytes _ => text.utf8ByteSize
  | tokens _ => approxTokenCount text

/-- The policy for what is left of the budget. -/
def snippet (remainingBudget : Nat) : TruncationPolicy → TruncationPolicy
  | bytes _ => bytes remainingBudget
  | tokens _ => tokens remainingBudget

end TruncationPolicy

/-- `truncate_text`. -/
def truncateText (content : String) : TruncationPolicy → Option String
  | .bytes bytes => truncateMiddleChars content bytes
  | .tokens tokens => (truncateMiddleWithTokenBudget content tokens).map (·.1)

/-- `FunctionCallOutputContentItem`, with the images as they come. -/
inductive FunctionCallOutputContentItem (ι : Type) where
  | inputText (text : String)
  | inputImage (image : ι)
  deriving DecidableEq

namespace FunctionCallOutputContentItem

variable {ι : Type}

def image? : FunctionCallOutputContentItem ι → Option ι
  | inputText _ => none
  | inputImage image => some image

/-- What the pass of `truncate_function_output_items_with_policy` keeps. -/
structure Pass (ι : Type) where
  out : List (FunctionCallOutputContentItem ι)
  remainingBudget : Nat
  omittedTextItems : Nat

/-- The body of the loop of `truncate_function_output_items_with_policy`. -/
def Pass.visit (policy : TruncationPolicy) (pass : Pass ι) : FunctionCallOutputContentItem ι → Option (Pass ι)
  | inputText text =>
    if pass.remainingBudget = 0 then
      some { pass with omittedTextItems := pass.omittedTextItems + 1 }
    else if policy.cost text ≤ pass.remainingBudget then
      some { pass with
        out := pass.out ++ [inputText text]
        remainingBudget := pass.remainingBudget - policy.cost text }
    else do
      let snippet ← truncateText text (policy.snippet pass.remainingBudget)
      if snippet.isEmpty then
        return { pass with
          remainingBudget := 0
          omittedTextItems := pass.omittedTextItems + 1 }
      else
        return { pass with out := pass.out ++ [inputText snippet], remainingBudget := 0 }
  | inputImage image => some { pass with out := pass.out ++ [inputImage image] }

/-- The note on the text items that were left out. -/
def omissionNote (omittedTextItems : Nat) : List (FunctionCallOutputContentItem ι) :=
  if omittedTextItems > 0 then [inputText s!"[omitted {omittedTextItems} text items ...]"] else []

/-- `truncate_function_output_items_with_policy`. -/
def truncateFunctionOutputItemsWithPolicy (items : List (FunctionCallOutputContentItem ι))
    (policy : TruncationPolicy) : Option (List (FunctionCallOutputContentItem ι)) := do
  let pass ← items.foldlM (Pass.visit policy) ⟨[], policy.budget, 0⟩
  return pass.out ++ omissionNote pass.omittedTextItems

end FunctionCallOutputContentItem

/-! ## What is cut out -/

/-- The pass takes the prefix: every character of it ends within the budget. -/
theorem foldl_visit_prefix {beginningBytes tail : Nat} (scan : Scan) (start : Nat)
    (text : List Char) (h : start + byteSize text ≤ beginningBytes)
    (hstart : scan.prefixEnd = start) :
    (offsets Char.utf8Size start text).foldl (Scan.visit beginningBytes tail) scan =
      { scan with prefixEnd := start + byteSize text } := by
  induction text generalizing scan start with
  | nil => simp [offsets, byteSize, ← hstart]
  | cons c text ih =>
    rw [byteSize_cons] at h
    have hc : start + c.utf8Size + byteSize text ≤ beginningBytes := by omega
    rw [offsets, List.foldl_cons, Scan.visit, if_pos (by omega), ih _ _ hc rfl,
      byteSize_cons, Nat.add_assoc]

/-- The pass counts the characters that are neither in the prefix nor in the suffix. -/
theorem foldl_visit_middle {beginningBytes tail : Nat} (scan : Scan) (chars : List (Nat × Char))
    (hend : ∀ i c, (i, c) ∈ chars → beginningBytes < i + c.utf8Size)
    (htail : ∀ i c, (i, c) ∈ chars → i < tail) :
    chars.foldl (Scan.visit beginningBytes tail) scan =
      { scan with removedChars := scan.removedChars + chars.length } := by
  induction chars generalizing scan with
  | nil => rfl
  | cons head chars ih =>
    obtain ⟨i, c⟩ := head
    have hi := hend i c List.mem_cons_self
    have ht := htail i c List.mem_cons_self
    rw [List.foldl_cons, Scan.visit, if_neg (by omega), if_neg (by omega),
      ih _ (fun i c h ↦ hend i c (List.mem_cons_of_mem _ h))
        fun i c h ↦ htail i c (List.mem_cons_of_mem _ h),
      List.length_cons, Nat.add_right_comm, Nat.add_assoc]

/-- Once the suffix has started, the pass passes over the rest. -/
theorem foldl_visit_started {beginningBytes tail : Nat} (scan : Scan) (start : Nat)
    (text : List Char) (hstart : beginningBytes < start) (htail : tail ≤ start)
    (hstarted : scan.suffixStarted = true) :
    (offsets Char.utf8Size start text).foldl (Scan.visit beginningBytes tail) scan = scan := by
  induction text generalizing start with
  | nil => rfl
  | cons c text ih =>
    rw [offsets, List.foldl_cons, Scan.visit, if_neg (by omega), if_pos htail, if_pos hstarted]
    exact ih _ (by omega) (by omega)

/-- The pass takes the start of the suffix at its first character. -/
theorem foldl_visit_suffix {beginningBytes tail : Nat} (scan : Scan) (start : Nat)
    (text : List Char) (hstart : beginningBytes < start) (htail : tail ≤ start)
    (hnew : scan.suffixStarted = false) (hscan : scan.suffixStart = start + byteSize text) :
    (offsets Char.utf8Size start text).foldl (Scan.visit beginningBytes tail) scan =
      { scan with suffixStart := start, suffixStarted := !text.isEmpty } := by
  cases text with
  | nil =>
    obtain ⟨prefixEnd, suffixStart, removedChars, suffixStarted⟩ := scan
    cases hnew
    cases hscan
    rfl
  | cons c text =>
    rw [offsets, List.foldl_cons, Scan.visit, if_neg (by omega), if_pos htail, hnew,
      if_neg Bool.false_ne_true]
    exact foldl_visit_started _ _ _ (by omega) (by omega) rfl

/-- The pass over a text whose middle has room in neither budget. -/
theorem foldl_visit_spec {p k q : List Char} {m n : Nat}
    (hp : LongestPrefix Char.utf8Size m (p ++ k ++ q) p)
    (hq : LongestSuffix Char.utf8Size n (p ++ k ++ q) q)
    (h : m + n < byteSize (p ++ k ++ q)) :
    (offsets Char.utf8Size 0 (p ++ k ++ q)).foldl
        (Scan.visit m (byteSize (p ++ k ++ q) - n)) ⟨0, byteSize (p ++ k ++ q), 0, false⟩ =
      ⟨byteSize p, byteSize p + byteSize k, k.length, !q.isEmpty⟩ := by
  have hpm : byteSize p ≤ m := hp.fits
  have hqn : byteSize q ≤ n := hq.fits
  have hsize : byteSize (p ++ k ++ q) = byteSize p + byteSize k + byteSize q := by
    rw [byteSize_append, byteSize_append]
  have hmiddle : ∀ i c, (i, c) ∈ offsets Char.utf8Size (0 + width Char.utf8Size p) k →
      m < i + c.utf8Size ∧ i < byteSize (p ++ k ++ q) - n := by
    intro i c hmem
    rw [Nat.zero_add] at hmem
    have hlow := hp.lt_of_mem (List.prefix_append _ q) hmem
    have hhigh : i + n < byteSize p + byteSize k + byteSize q :=
      hq.lt_of_mem ⟨p, (List.append_assoc p k q).symm⟩ hmem
    omega
  rw [offsets_append, offsets_append, List.foldl_append, List.foldl_append,
    foldl_visit_prefix _ 0 p (by omega) rfl,
    foldl_visit_middle _ _ (fun i c hmem ↦ (hmiddle i c hmem).1) fun i c hmem ↦ (hmiddle i c hmem).2]
  have hstart : 0 + width Char.utf8Size (p ++ k) = byteSize p + byteSize k := by
    rw [Nat.zero_add, width_append]
    rfl
  rw [hstart, foldl_visit_suffix _ _ q (by omega) (by omega) rfl hsize]
  simp [length_offsets]

/-- Where the budgets do not cover the text, `split_string` returns the longest prefix and
the longest suffix that fit, and the number of the characters between them. -/
theorem splitString_spec {s : String} {m n : Nat} (h : m + n < s.utf8ByteSize) :
    ∃ p k q, s.toList = p ++ k ++ q ∧ LongestPrefix Char.utf8Size m s.toList p ∧
      LongestSuffix Char.utf8Size n s.toList q ∧ k ≠ [] ∧
      splitString s m n = some (k.length, String.ofList p, String.ofList q) := by
  rw [← byteSize_toList] at h
  obtain ⟨p, k, q, hs, hp, hq, hk⟩ := exists_middle h
  refine ⟨p, k, q, hs, hp, hq, hk, ?_⟩
  have hne : ¬ s.isEmpty := by
    intro hempty
    rw [String.isEmpty_iff.mp hempty] at h
    exact Nat.not_lt_zero _ h
  have hbefore : sliceTo s (byteSize p) = some (String.ofList p) := by
    rw [sliceTo, hs, List.append_assoc, cut_byteSize]
    rfl
  have hafter : sliceFrom s (byteSize p + byteSize k) = some (String.ofList q) := by
    rw [sliceFrom, hs, ← byteSize_append, cut_byteSize]
    rfl
  rw [hs] at hp hq h
  rw [splitString, if_neg hne]
  dsimp only
  rw [← byteSize_toList, hs, foldl_visit_spec hp hq h]
  have hord : ¬ byteSize p + byteSize k < byteSize p := by omega
  simp only [if_neg hord, hbefore, hafter]
  rfl

/-- What the truncation leaves of a text that is too long: the longest beginning and the
longest end that fit the two halves of the budget, with the number of the characters that
are in neither. -/
theorem truncateWithByteEstimate_spec {s : String} {maxBytes : Nat} (useTokens : Bool)
    (hpos : 0 < maxBytes) (h : maxBytes < s.utf8ByteSize) :
    ∃ p k q, s.toList = p ++ k ++ q ∧
      LongestPrefix Char.utf8Size (maxBytes / 2) s.toList p ∧
      LongestSuffix Char.utf8Size (maxBytes - maxBytes / 2) s.toList q ∧ k ≠ [] ∧
      truncateWithByteEstimate s maxBytes useTokens =
        some (String.ofList p ++ formatTruncationMarker useTokens
          (removedUnits useTokens (s.utf8ByteSize - maxBytes) k.length) ++ String.ofList q) := by
  obtain ⟨p, k, q, hs, hp, hq, hk, hsplit⟩ :=
    splitString_spec (s := s) (m := maxBytes / 2) (n := maxBytes - maxBytes / 2) (by omega)
  refine ⟨p, k, q, hs, hp, hq, hk, ?_⟩
  have hne : ¬ s.isEmpty := by
    intro hempty
    rw [String.isEmpty_iff.mp hempty] at h
    exact Nat.not_lt_zero _ h
  rw [truncateWithByteEstimate, if_neg hne, if_neg (by omega), if_neg (by omega)]
  simp only [splitBudget, hsplit]
  rfl

/-- A text within the budget comes back as it is. -/
theorem truncateWithByteEstimate_of_le {s : String} {maxBytes : Nat} (useTokens : Bool)
    (h : s.utf8ByteSize ≤ maxBytes) : truncateWithByteEstimate s maxBytes useTokens = some s := by
  rw [truncateWithByteEstimate]
  split_ifs with hempty hzero
  · rw [String.isEmpty_iff.mp hempty]
  · refine absurd (String.isEmpty_iff.mpr ?_) hempty
    exact String.utf8ByteSize_eq_zero_iff.mp (by omega)
  · rfl

/-! ## What becomes of the items -/

namespace FunctionCallOutputContentItem

variable {ι : Type}

/-- What is put out for an item, how many bytes of its text are kept, and how often the
omission note counts it. -/
structure Share (ι : Type) where
  out : List (FunctionCallOutputContentItem ι)
  keptBytes : Nat
  counted : Nat

/-- What can become of an item: an image is kept, and a text is kept, cut to a snippet or
counted. -/
inductive Fate : FunctionCallOutputContentItem ι → Share ι → Prop where
  | image (image : ι) : Fate (inputImage image) ⟨[inputImage image], 0, 0⟩
  | kept (text : String) : Fate (inputText text) ⟨[inputText text], text.utf8ByteSize, 0⟩
  | snippet (text : String) (p k q : List Char) : text.toList = p ++ k ++ q → k ≠ [] →
      Fate (inputText text)
        ⟨[inputText (String.ofList p ++ formatTruncationMarker false k.length ++ String.ofList q)],
          byteSize p + byteSize q, 0⟩
  | omitted (text : String) : Fate (inputText text) ⟨[], 0, 1⟩

theorem Fate.images {item : FunctionCallOutputContentItem ι} {share : Share ι}
    (h : Fate item share) : share.out.filterMap image? = [item].filterMap image? := by
  cases h <;> rfl

/-- A text that has no room in what is left is cut to a snippet. -/
theorem exists_snippet {text : String} {remaining : Nat} (hpos : 0 < remaining)
    (h : remaining < text.utf8ByteSize) :
    ∃ share : Share ι, Fate (inputText text) share ∧ share.keptBytes ≤ remaining ∧
      share.counted = 0 ∧ ∃ snippet, truncateText text (.bytes remaining) = some snippet ∧
        snippet.isEmpty = false ∧ share.out = [inputText snippet] := by
  obtain ⟨p, k, q, hs, hp, hq, hk, htext⟩ := truncateWithByteEstimate_spec false hpos h
  refine ⟨_, .snippet text p k q hs hk, ?_, rfl, _, htext, ?_, rfl⟩
  · have hpm : byteSize p ≤ remaining / 2 := hp.fits
    have hqn : byteSize q ≤ remaining - remaining / 2 := hq.fits
    dsimp only
    omega
  · rw [Bool.eq_false_iff, Ne, String.isEmpty_iff, ← String.toList_inj]
    simp [formatTruncationMarker]

/-- One item: its share is put out, paid from the budget and counted. -/
theorem visit_spec (maxBytes : Nat) (pass : Pass ι) (item : FunctionCallOutputContentItem ι) :
    ∃ pass' share, Pass.visit (.bytes maxBytes) pass item = some pass' ∧ Fate item share ∧
      pass'.out = pass.out ++ share.out ∧
      share.keptBytes + pass'.remainingBudget ≤ pass.remainingBudget ∧
      pass'.omittedTextItems = pass.omittedTextItems + share.counted := by
  cases item with
  | inputImage image => exact ⟨_, _, rfl, .image image, rfl, by simp, rfl⟩
  | inputText text =>
    rw [Pass.visit]
    split_ifs with hzero hroom
    · exact ⟨_, _, rfl, .omitted text, by simp, by simp, rfl⟩
    · have hcost : text.utf8ByteSize ≤ pass.remainingBudget := hroom
      exact ⟨_, _, rfl, .kept text, rfl, (Nat.add_sub_cancel' hcost).le, rfl⟩
    · obtain ⟨share, hfate, hkept, hcounted, snippet, htext, hne, hout⟩ :=
        exists_snippet (ι := ι) (Nat.pos_of_ne_zero hzero) (not_le.mp hroom)
      refine ⟨{ pass with out := pass.out ++ [inputText snippet], remainingBudget := 0 }, share, ?_,
        hfate, by rw [hout], hkept, by rw [hcounted]; rfl⟩
      rw [TruncationPolicy.snippet, htext, Option.bind_eq_bind, Option.bind_some, hne]
      rfl

/-- All the items. -/
theorem foldlM_visit_spec (maxBytes : Nat) (items : List (FunctionCallOutputContentItem ι))
    (pass : Pass ι) :
    ∃ pass' shares, items.foldlM (Pass.visit (.bytes maxBytes)) pass = some pass' ∧
      List.Forall₂ Fate items shares ∧ pass'.out = pass.out ++ shares.flatMap Share.out ∧
      (shares.map Share.keptBytes).sum + pass'.remainingBudget ≤ pass.remainingBudget ∧
      pass'.omittedTextItems = pass.omittedTextItems + (shares.map Share.counted).sum := by
  induction items generalizing pass with
  | nil => exact ⟨pass, [], rfl, .nil, by simp, by simp, by simp⟩
  | cons item items ih =>
    obtain ⟨next, share, hstep, hfate, hout, hkept, hcounted⟩ := visit_spec maxBytes pass item
    obtain ⟨last, shares, hrun, hfates, houts, hkepts, hcounteds⟩ := ih next
    refine ⟨last, share :: shares, ?_, .cons hfate hfates, ?_, ?_, ?_⟩
    · rw [List.foldlM_cons, hstep]
      exact hrun
    · rw [houts, hout, List.flatMap_cons, List.append_assoc]
    · rw [List.map_cons, List.sum_cons]
      omega
    · rw [hcounteds, hcounted, List.map_cons, List.sum_cons, Nat.add_assoc]

theorem images_of_fates {items : List (FunctionCallOutputContentItem ι)}
    {shares : List (Share ι)} (h : List.Forall₂ Fate items shares) :
    (shares.flatMap Share.out).filterMap image? = items.filterMap image? := by
  induction h with
  | nil => rfl
  | @cons item share items shares hfate _ ih =>
    rw [List.flatMap_cons, List.filterMap_append, hfate.images, ih, ← List.filterMap_append]
    rfl

theorem images_omissionNote (n : Nat) :
    (omissionNote n : List (FunctionCallOutputContentItem ι)).filterMap image? = [] := by
  unfold omissionNote
  split_ifs <;> rfl

end FunctionCallOutputContentItem

open FunctionCallOutputContentItem in
/-- Middle truncation is exact.  A text that is too long keeps the longest beginning and the
longest end that fit the halves of the budget, and the marker has the number of all the
other characters.  A list of items keeps its images and at most the budget of its texts,
and every text is kept, cut to a snippet or counted. -/
theorem truncation_exact (ι : Type) :
    (∀ (s : String) (maxBytes : Nat), 0 < maxBytes → maxBytes < s.utf8ByteSize →
      ∃ p k q, s.toList = p ++ k ++ q ∧
        LongestPrefix Char.utf8Size (maxBytes / 2) s.toList p ∧
        LongestSuffix Char.utf8Size (maxBytes - maxBytes / 2) s.toList q ∧
        truncateMiddleChars s maxBytes =
          some (String.ofList p ++ formatTruncationMarker false k.length ++ String.ofList q)) ∧
    (∀ (s : String) (maxBytes : Nat), s.utf8ByteSize ≤ maxBytes →
      truncateMiddleChars s maxBytes = some s) ∧
    (∀ (items : List (FunctionCallOutputContentItem ι)) (maxBytes : Nat), ∃ out shares,
      truncateFunctionOutputItemsWithPolicy items (.bytes maxBytes) = some out ∧
      List.Forall₂ Fate items shares ∧
      out = shares.flatMap Share.out ++ omissionNote (shares.map Share.counted).sum ∧
      (shares.map Share.keptBytes).sum ≤ maxBytes ∧
      out.filterMap image? = items.filterMap image?) := by
  refine ⟨?_, fun s maxBytes h ↦ truncateWithByteEstimate_of_le false h, ?_⟩
  · intro s maxBytes hpos h
    obtain ⟨p, k, q, hs, hp, hq, -, htext⟩ := truncateWithByteEstimate_spec false hpos h
    exact ⟨p, k, q, hs, hp, hq, htext⟩
  · intro items maxBytes
    obtain ⟨pass, shares, hrun, hfates, hout, hkept, hcounted⟩ :=
      foldlM_visit_spec maxBytes items ⟨[], maxBytes, 0⟩
    rw [List.nil_append] at hout
    rw [Nat.zero_add] at hcounted
    refine ⟨_, shares, ?_, hfates, rfl, (Nat.le_add_right _ _).trans hkept, ?_⟩
    · rw [← hout, ← hcounted]
      exact congrArg (Option.bind · _) hrun
    · rw [List.filterMap_append, images_of_fates hfates, images_omissionNote, List.append_nil]

/-- Both budgets of five bytes end inside a character. -/
theorem truncation_exact_emoji :
    ∃ p k q, "😀😀a😀😀".toList = p ++ k ++ q ∧
      LongestPrefix Char.utf8Size (10 / 2) "😀😀a😀😀".toList p ∧
      LongestSuffix Char.utf8Size (10 - 10 / 2) "😀😀a😀😀".toList q ∧
      truncateMiddleChars "😀😀a😀😀" 10 =
        some (String.ofList p ++ formatTruncationMarker false k.length ++ String.ofList q) :=
  (truncation_exact Unit).1 "😀😀a😀😀" 10 (by decide) (by decide)

end Praxis.Output

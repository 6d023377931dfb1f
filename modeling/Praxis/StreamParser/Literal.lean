import Mathlib.Data.List.MinMax
import Mathlib.Data.Prod.Lex
import Praxis.Foundation.Search

/-!
# Matching one of several literals

The `LiteralMatcher` of the stream parser.  Texts are lists of characters: every literal and
every text is whole UTF-8, so the source's byte offsets fall on character boundaries, and of
two prefixes (or two suffixes) of one text the longer in bytes is the longer in characters.

`earliest` prefers the smallest offset, then the longest literal, then the one declared
first.  Its behaviour is given one character at a time: `earliest_cons` passes over a
character at which no literal stands, and `earliest_append` says when the choice made here
is final.
-/

namespace Praxis.StreamParser

open Praxis.Foundation

/-- A text as its characters. -/
abbrev Text := List Char

/-- `Literal`. -/
structure Literal (τ : Type) where
  text : Text
  value : τ
  deriving Repr

/-- `LiteralMatcher`. -/
structure LiteralMatcher (τ : Type) where
  entries : List (Literal τ)
  deriving Repr

/-- A literal that occurs, as `earliest` compares it. -/
structure Candidate (τ : Type) where
  offset : Nat
  len : Nat
  order : Nat
  value : τ

/-- `(offset, Reverse(len), order)`. -/
def Candidate.key {τ : Type} (c : Candidate τ) : Nat ×ₗ Natᵒᵈ ×ₗ Nat :=
  toLex (c.offset, toLex (OrderDual.toDual c.len, c.order))

namespace LiteralMatcher

variable {τ : Type} (m : LiteralMatcher τ)

/-- `could_extend_match`. -/
def couldExtendMatch (candidate : Text) : Bool :=
  m.entries.any fun entry ↦
    decide (candidate.length < entry.text.length) && candidate.isPrefixOf entry.text

/-- The literals that occur in the text. -/
def candidates (text : Text) : List (Candidate τ) :=
  m.entries.zipIdx.filterMap fun (entry, order) ↦
    (findSub? entry.text text).map fun offset ↦
      ⟨offset, entry.text.length, order, entry.value⟩

/-- `earliest`. -/
def earliest (text : Text) : Option (Nat × τ) :=
  ((m.candidates text).argmin Candidate.key).map fun c ↦ (c.offset, c.value)

/-- `retained_suffix_len`. -/
def retainedSuffixLen (text : Text) : Nat :=
  (m.entries.map fun entry ↦ partialSuffixLen text entry.text).foldl max 0

variable {m} {text more : Text} {c : Char}

/-- Some literal may still come: the text is a proper part of it. -/
theorem couldExtendMatch_iff :
    m.couldExtendMatch text = true ↔ ∃ entry ∈ m.entries, Starts entry.text text := by
  simp [couldExtendMatch, Starts, and_comm]

/-! ## The earliest literal -/

theorem mem_candidates_iff {cand : Candidate τ} : cand ∈ m.candidates text ↔
    ∃ entry, m.entries[cand.order]? = some entry ∧ findSub? entry.text text = some cand.offset ∧
      cand.len = entry.text.length ∧ cand.value = entry.value := by
  unfold candidates
  rw [List.mem_filterMap]
  constructor
  · rintro ⟨⟨entry, order⟩, hmem, hsome⟩
    obtain ⟨offset, hoffset, rfl⟩ := Option.map_eq_some_iff.mp hsome
    exact ⟨entry, List.mem_zipIdx_iff_getElem?.mp hmem, hoffset, rfl, rfl⟩
  · rintro ⟨entry, hget, hfind, hlen, hvalue⟩
    refine ⟨(entry, cand.order), List.mem_zipIdx_iff_getElem?.mpr hget, ?_⟩
    simp only [hfind, Option.map_some, ← hlen, ← hvalue]

/-- The key tells candidates apart. -/
theorem eq_of_key_eq {a b : Candidate τ} (ha : a ∈ m.candidates text) (hb : b ∈ m.candidates text)
    (hkey : a.key = b.key) : a = b := by
  obtain ⟨entry, hget, _, _, hvalue⟩ := mem_candidates_iff.mp ha
  obtain ⟨entry', hget', _, _, hvalue'⟩ := mem_candidates_iff.mp hb
  simp only [Candidate.key, toLex_inj, Prod.mk.injEq, OrderDual.toDual_inj] at hkey
  obtain ⟨hoffset, hlen, horder⟩ := hkey
  rw [horder] at hget
  cases hget.symm.trans hget'
  cases a
  cases b
  simp_all

/-- What `earliest` finds is a candidate that no other precedes. -/
theorem earliest_eq_some_iff {offset : Nat} {value : τ} :
    m.earliest text = some (offset, value) ↔ ∃ best ∈ m.candidates text,
      best.offset = offset ∧ best.value = value ∧
        ∀ other ∈ m.candidates text, best.key ≤ other.key := by
  unfold earliest
  rw [Option.map_eq_some_iff]
  constructor
  · rintro ⟨best, hbest, heq⟩
    cases heq
    exact ⟨best, List.argmin_mem hbest, rfl, rfl, fun other hother ↦
      List.le_of_mem_argmin hother hbest⟩
  · rintro ⟨best, hmem, rfl, rfl, hle⟩
    have hsome : (m.candidates text).argmin Candidate.key ≠ none := by
      rw [Ne, List.argmin_eq_none]
      exact List.ne_nil_of_mem hmem
    obtain ⟨found, hfound⟩ := Option.ne_none_iff_exists'.mp hsome
    have hkey : best.key = found.key := le_antisymm (hle _ (List.argmin_mem hfound))
      (List.le_of_mem_argmin hmem hfound)
    rw [eq_of_key_eq hmem (List.argmin_mem hfound) hkey]
    exact ⟨found, hfound, rfl⟩

theorem earliest_eq_none_iff :
    m.earliest text = none ↔ ∀ entry ∈ m.entries, findSub? entry.text text = none := by
  unfold earliest
  rw [Option.map_eq_none_iff, List.argmin_eq_none]
  constructor
  · intro hnil entry hmem
    obtain ⟨order, hget⟩ := List.mem_iff_getElem?.mp hmem
    by_contra hsome
    obtain ⟨offset, hoffset⟩ := Option.ne_none_iff_exists'.mp hsome
    have hcand : (⟨offset, entry.text.length, order, entry.value⟩ : Candidate τ) ∈
        m.candidates text := mem_candidates_iff.mpr ⟨entry, hget, hoffset, rfl, rfl⟩
    rw [hnil] at hcand
    cases hcand
  · intro hnone
    refine List.eq_nil_iff_forall_not_mem.mpr fun cand hcand ↦ ?_
    obtain ⟨entry, hget, hfind, _⟩ := mem_candidates_iff.mp hcand
    rw [hnone entry (List.mem_of_getElem? hget)] at hfind
    cases hfind

/-- A literal that stands at the front is found there. -/
theorem exists_earliest_zero (h : ∃ entry ∈ m.entries, entry.text <+: text) :
    ∃ value, m.earliest text = some (0, value) := by
  obtain ⟨entry, hmem, hpre⟩ := h
  obtain ⟨order, hget⟩ := List.mem_iff_getElem?.mp hmem
  have hcand : (⟨0, entry.text.length, order, entry.value⟩ : Candidate τ) ∈ m.candidates text :=
    mem_candidates_iff.mpr ⟨entry, hget, findSub?_of_prefix hpre, rfl, rfl⟩
  have hsome : m.earliest text ≠ none := fun hnone ↦ by
    have hzero := earliest_eq_none_iff.mp hnone entry hmem
    rw [ findSub?_of_prefix hpre] at hzero
    cases hzero
  obtain ⟨⟨offset, value⟩, hfound⟩ := Option.ne_none_iff_exists'.mp hsome
  obtain ⟨best, _, rfl, rfl, hle⟩ := earliest_eq_some_iff.mp hfound
  have hkey := hle _ hcand
  have hzero : best.offset ≤ 0 := by
    rcases Prod.Lex.toLex_le_toLex.mp hkey with hlt | ⟨heq, _⟩
    · exact Nat.le_of_lt hlt
    · exact Nat.le_of_eq heq
  refine ⟨best.value, ?_⟩
  rw [hfound, Nat.le_zero.mp hzero]

/-- Of the literals at the front the longest is found. -/
theorem length_le_of_earliest_zero {value : τ} (h : m.earliest text = some (0, value)) :
    ∃ found ∈ m.entries, found.value = value ∧ found.text <+: text ∧
      ∀ entry ∈ m.entries, entry.text <+: text → entry.text.length ≤ found.text.length := by
  obtain ⟨best, hbest, hzero, rfl, hle⟩ := earliest_eq_some_iff.mp h
  obtain ⟨found, hget, hfind, hlen, hvalue⟩ := mem_candidates_iff.mp hbest
  rw [hzero, findSub?_eq_zero_iff] at hfind
  refine ⟨found, List.mem_of_getElem? hget, hvalue.symm, hfind, fun entry hmem hpre ↦ ?_⟩
  obtain ⟨order, hget'⟩ := List.mem_iff_getElem?.mp hmem
  have hkey := hle ⟨0, entry.text.length, order, entry.value⟩
    (mem_candidates_iff.mpr ⟨entry, hget', findSub?_of_prefix hpre, rfl, rfl⟩)
  rcases Prod.Lex.toLex_le_toLex.mp hkey with hlt | ⟨_, hrest⟩
  · exact absurd hlt (Nat.not_lt_zero _)
  · rw [← hlen]
    rcases Prod.Lex.toLex_le_toLex.mp hrest with hlt | ⟨heq, _⟩
    · exact Nat.le_of_lt hlt
    · exact Nat.le_of_eq (OrderDual.toDual_inj.mp heq).symm

theorem mem_candidates_cons (h : ∀ entry ∈ m.entries, ¬ entry.text <+: c :: text)
    {cand : Candidate τ} : cand ∈ m.candidates (c :: text) ↔
      ∃ tail ∈ m.candidates text, cand = { tail with offset := tail.offset + 1 } := by
  rw [mem_candidates_iff]
  constructor
  · rintro ⟨entry, hget, hfind, hlen, hvalue⟩
    rw [findSub?_cons (h entry (List.mem_of_getElem? hget)), Option.map_eq_some_iff] at hfind
    obtain ⟨offset, hoffset, hsucc⟩ := hfind
    refine ⟨{ cand with offset := offset }, mem_candidates_iff.mpr ⟨entry, hget, hoffset, hlen,
      hvalue⟩, ?_⟩
    rw [hsucc]
  · rintro ⟨tail, htail, rfl⟩
    obtain ⟨entry, hget, hfind, hlen, hvalue⟩ := mem_candidates_iff.mp htail
    refine ⟨entry, hget, ?_, hlen, hvalue⟩
    rw [findSub?_cons (h entry (List.mem_of_getElem? hget)), hfind]
    rfl

theorem key_succ_le_iff {a b : Candidate τ} :
    ({ a with offset := a.offset + 1 } : Candidate τ).key ≤
      ({ b with offset := b.offset + 1 } : Candidate τ).key ↔ a.key ≤ b.key := by
  simp only [Candidate.key, Prod.Lex.toLex_le_toLex, Nat.add_lt_add_iff_right,
    Nat.add_right_cancel_iff]

/-- A character at which no literal stands is passed over. -/
theorem earliest_cons (h : ∀ entry ∈ m.entries, ¬ entry.text <+: c :: text) :
    m.earliest (c :: text) = (m.earliest text).map fun found ↦ (found.1 + 1, found.2) := by
  cases hfound : m.earliest text with
  | none =>
    rw [Option.map_none, earliest_eq_none_iff]
    intro entry hmem
    rw [findSub?_cons (h entry hmem), earliest_eq_none_iff.mp hfound entry hmem]
    rfl
  | some found =>
    obtain ⟨offset, value⟩ := found
    obtain ⟨best, hbest, rfl, rfl, hle⟩ := earliest_eq_some_iff.mp hfound
    rw [Option.map_some, earliest_eq_some_iff]
    refine ⟨_, (mem_candidates_cons h).mpr ⟨best, hbest, rfl⟩, rfl, rfl, fun other hother ↦ ?_⟩
    obtain ⟨tail, htail, rfl⟩ := (mem_candidates_cons h).mp hother
    exact key_succ_le_iff.mpr (hle tail htail)

/-- A literal found at the front stays the choice when no longer one can come. -/
theorem earliest_append {value : τ} (h : m.earliest text = some (0, value))
    (hlast : m.couldExtendMatch text = false) (more : Text) :
    m.earliest (text ++ more) = some (0, value) := by
  obtain ⟨best, hbest, hzero, rfl, hle⟩ := earliest_eq_some_iff.mp h
  have hfront : ∀ entry ∈ m.entries, entry.text <+: text ++ more → entry.text <+: text := by
    intro entry hmem hpre
    refine (prefix_or_starts hpre).resolve_right fun hs ↦ ?_
    have := couldExtendMatch_iff.mpr ⟨entry, hmem, hs⟩
    rw [hlast] at this
    cases this
  obtain ⟨entry, hget, hfind, hlen, hvalue⟩ := mem_candidates_iff.mp hbest
  rw [hzero, findSub?_eq_zero_iff] at hfind
  refine earliest_eq_some_iff.mpr ⟨best, mem_candidates_iff.mpr ⟨entry, hget, ?_, hlen, hvalue⟩,
    hzero, rfl, fun other hother ↦ ?_⟩
  · rw [hzero]
    exact findSub?_of_prefix (hfind.trans (List.prefix_append _ _))
  · obtain ⟨entry', hget', hfind', hlen', hvalue'⟩ := mem_candidates_iff.mp hother
    by_cases hother0 : other.offset = 0
    · -- the other literal stands at the front too, and did so before the text grew
      rw [hother0, findSub?_eq_zero_iff] at hfind'
      refine hle other (mem_candidates_iff.mpr ⟨entry', hget', ?_, hlen', hvalue'⟩)
      rw [hother0]
      exact findSub?_of_prefix (hfront entry' (List.mem_of_getElem? hget') hfind')
    · refine Prod.Lex.toLex_le_toLex.mpr (.inl ?_)
      change best.offset < other.offset
      omega

/-! ## The suffix that is kept -/

private theorem le_foldl_max (lens : List Nat) (n : Nat) :
    n ≤ lens.foldl max n ∧ ∀ len ∈ lens, len ≤ lens.foldl max n := by
  induction lens generalizing n with
  | nil => exact ⟨Nat.le_refl n, nofun⟩
  | cons len lens ih =>
    obtain ⟨hn, hmem⟩ := ih (max n len)
    refine ⟨Nat.le_trans (Nat.le_max_left n len) hn, fun other hother ↦ ?_⟩
    rcases List.mem_cons.mp hother with rfl | hother
    · exact Nat.le_trans (Nat.le_max_right n other) hn
    · exact hmem other hother

private theorem foldl_max_le {lens : List Nat} {n bound : Nat} (hn : n ≤ bound)
    (h : ∀ len ∈ lens, len ≤ bound) : lens.foldl max n ≤ bound := by
  induction lens generalizing n with
  | nil => exact hn
  | cons len lens ih =>
    exact ih (Nat.max_le.mpr ⟨hn, h len List.mem_cons_self⟩)
      fun other hother ↦ h other (List.mem_cons_of_mem _ hother)

theorem retainedSuffixLen_le (m : LiteralMatcher τ) (text : Text) :
    m.retainedSuffixLen text ≤ text.length := by
  refine foldl_max_le (Nat.zero_le _) fun len hlen ↦ ?_
  obtain ⟨entry, _, rfl⟩ := List.mem_map.mp hlen
  exact partialSuffixLen_le text entry.text

theorem retainedSuffixLen_cons (h : ∀ entry ∈ m.entries, ¬ Starts entry.text (c :: text)) :
    m.retainedSuffixLen (c :: text) = m.retainedSuffixLen text := by
  unfold retainedSuffixLen
  congr 1
  exact List.map_congr_left fun entry hmem ↦ partialSuffixLen_cons (h entry hmem)

theorem retainedSuffixLen_of_starts (h : ∃ entry ∈ m.entries, Starts entry.text text) :
    m.retainedSuffixLen text = text.length := by
  obtain ⟨entry, hmem, hs⟩ := h
  apply Nat.le_antisymm
  · exact retainedSuffixLen_le m text
  · refine (le_foldl_max _ 0).2 text.length ?_
    exact List.mem_map.mpr ⟨entry, hmem, partialSuffixLen_of_starts hs⟩

end LiteralMatcher

end Praxis.StreamParser

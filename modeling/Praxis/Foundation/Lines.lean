import Mathlib.Data.List.DropRight

/-!
# Lines of a text

`linesOf sep` cuts a text behind every separator; a last line may lack it.

`endedLines sep` has the lines that end with a separator, without it; what follows the last
separator is none of them.

`strip p` drops the letters that satisfy `p` from both ends; to do so twice drops no more
(`strip_strip`).
-/

namespace Praxis.Foundation

variable {α : Type}

/-! ## Lines -/

section Lines

variable [DecidableEq α] (sep : α)

/-- The lines of a text, each with its separator. -/
def linesOf : List α → List (List α)
  | [] => []
  | a :: text =>
    if a = sep then [a] :: linesOf text
    else
      match linesOf text with
      | [] => [[a]]
      | line :: lines => (a :: line) :: lines

variable {sep} {front text : List α}

variable (sep) in
/-- The lines that a separator ends, behind a line that has begun. -/
def endedLines (line : List α) : List α → List (List α)
  | [] => []
  | a :: text => if a = sep then line :: endedLines [] text else endedLines (line ++ [a]) text

theorem endedLines_append {line : List α} (h : sep ∉ front) :
    endedLines sep line (front ++ text) = endedLines sep (line ++ front) text := by
  induction front generalizing line with
  | nil => rw [List.nil_append, List.append_nil]
  | cons a front ih =>
    have ha : a ≠ sep := fun heq ↦ h (heq ▸ List.mem_cons_self)
    rw [List.cons_append, endedLines, if_neg ha, ih fun hmem ↦ h (List.mem_cons_of_mem _ hmem),
      List.append_assoc]
    rfl

theorem endedLines_of_notMem {line : List α} (h : sep ∉ text) : endedLines sep line text = [] := by
  rw [← List.append_nil text, endedLines_append h, endedLines]

/-- Lines that are ended, and the beginning of one. -/
theorem endedLines_flatMap {lines : List (List α)} (hlines : ∀ line ∈ lines, sep ∉ line)
    (h : sep ∉ text) : endedLines sep [] (lines.flatMap (· ++ [sep]) ++ text) = lines := by
  induction lines with
  | nil => exact endedLines_of_notMem h
  | cons line lines ih =>
    rw [List.flatMap_cons, List.append_assoc, List.append_assoc,
      endedLines_append (hlines line List.mem_cons_self), List.singleton_append, endedLines,
      if_pos rfl, ih fun other hmem ↦ hlines other (List.mem_cons_of_mem _ hmem), List.nil_append]

end Lines

/-! ## Stripping both ends -/

variable (p : α → Bool)

/-- Drop the letters that satisfy `p` from both ends. -/
def strip (text : List α) : List α := (text.dropWhile p).rdropWhile p

variable {p} {front text : List α}

/-- Stripping twice is stripping once. -/
theorem strip_strip : strip p (strip p text) = strip p text := by
  have hhead : (strip p text).dropWhile p = strip p text := by
    have hprefix : strip p text <+: text.dropWhile p := List.rdropWhile_prefix p _
    rw [List.dropWhile_eq_self_iff]
    intro hpos
    have hne : text.dropWhile p ≠ [] :=
      List.ne_nil_of_length_pos (hpos.trans_le hprefix.length_le)
    rw [ hprefix.getElem hpos]
    have hfirst := List.head_dropWhile_not p hne
    rwa [List.head_eq_getElem, Bool.eq_false_iff] at hfirst
  rw [strip, hhead]
  exact List.rdropWhile_idempotent p _

/-- What holds no separator joins the first piece. -/
theorem splitOnP_append_of_none {α : Type} {p : α → Bool} {front rest first : List α}
    {others : List (List α)} (hfront : ∀ a ∈ front, p a = false)
    (hrest : rest.splitOnP p = first :: others) :
    (front ++ rest).splitOnP p = (front ++ first) :: others := by
  induction front with
  | nil => exact hrest
  | cons a front ih =>
    rw [List.cons_append, List.splitOnP_cons_eq_if_modifyHead, hfront a List.mem_cons_self,
      if_neg Bool.false_ne_true, ih fun b hb ↦ hfront b (List.mem_cons_of_mem _ hb)]
    rfl

/-- Pieces that are all ended. -/
theorem splitOnP_flatMap {α : Type} {p : α → Bool} {sep : α} (hsep : p sep = true)
    {pieces : List (List α)} (h : ∀ piece ∈ pieces, ∀ a ∈ piece, p a = false) :
    (pieces.flatMap (· ++ [sep])).splitOnP p = pieces ++ [[]] := by
  induction pieces with
  | nil => exact List.splitOnP_nil
  | cons piece pieces ih =>
    have hrest : (sep :: pieces.flatMap (· ++ [sep])).splitOnP p = [] :: (pieces ++ [[]]) := by
      rw [List.splitOnP_cons_eq_if_modifyHead, if_pos hsep,
        ih fun other hmem ↦ h other (List.mem_cons_of_mem _ hmem)]
    rw [List.flatMap_cons, List.append_assoc, List.singleton_append,
      splitOnP_append_of_none (h piece List.mem_cons_self) hrest, List.append_nil]
    rfl

end Praxis.Foundation

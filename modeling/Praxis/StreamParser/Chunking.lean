import Praxis.StreamParser.HiddenTag

/-!
# Hidden tags and the cuts of a stream

Whether the output of a `HiddenTagProjector` depends on how the stream was cut is a property
of its openers alone.  It does not if every part of an opener that holds an opener also
starts with one (`OpenersApart`): then what the loop settles for a text it also settles for
every longer text (`settle_append`).

It does otherwise.  Take the longest opener that extends such a part.  Given whole it is
hidden (`settle_opener`), but cut behind the part it is not: the loop finds the inner opener
and has already shown what stands before it (`settle_front`).
-/

namespace Praxis.StreamParser.HiddenTagProjector

open Praxis.Foundation

variable {τ : Type} {tags : TagSpecs τ} {text more : Text} {mode : ParseMode τ}

/-- A part of an opener that holds an opener starts with one. -/
def OpenersApart (tags : TagSpecs τ) : Prop := ∀ front, MayOpen tags front →
  (∃ spec ∈ tags.specs, spec.openDelim <:+: front) → Opens tags front

/-! ## Openers that stand apart -/

theorem mayOpen_nil : MayOpen tags [] := by
  obtain ⟨spec, hmem⟩ := List.exists_mem_of_ne_nil _ tags.specs_ne
  exact ⟨spec, hmem, List.nil_prefix, List.length_pos_iff.mpr (tags.open_ne spec hmem)⟩

/-- What a text may become it may become after each of its parts. -/
theorem MayOpen.of_append (h : MayOpen tags (text ++ more)) : MayOpen tags text := by
  obtain ⟨spec, hmem, hpre, hlen⟩ := h
  refine ⟨spec, hmem, (List.prefix_append text more).trans hpre, ?_⟩
  rw [List.length_append] at hlen
  omega

theorem differs_of_not (hopens : ¬ Opens tags text) (hmay : ¬ MayOpen tags text) :
    ∀ spec ∈ tags.specs, Differs spec.openDelim text := by
  intro spec hmem
  have hnot : ¬ spec.openDelim <+: text := fun hpre ↦ hopens ⟨spec, hmem, hpre⟩
  exact ⟨hnot, fun hpre ↦ hmay ⟨spec, hmem, starts_of_prefix hpre hnot⟩⟩

/-- Go on with more text from where a loop stopped. -/
def resume (more : Text) (result : Out τ × HiddenTagProjector τ) : Out τ × HiddenTagProjector τ :=
  emit result.1 (result.2.project more)

@[simp] theorem resume_emit (out : Out τ) (result : Out τ × HiddenTagProjector τ) :
    resume more (emit out result) = emit out (resume more result) := by
  simp only [resume, emit_emit]
  rfl

theorem resume_kept : resume more (1, ⟨tags, text, mode⟩) = settle ⟨tags, text ++ more, mode⟩ :=
  emit_one _

/-- What is settled for a text is settled for every longer one. -/
theorem settle_append (hapart : OpenersApart tags) (text more : Text) (mode : ParseMode τ)
    (hmode : Closable mode) :
    settle ⟨tags, text ++ more, mode⟩ = resume more (settle ⟨tags, text, mode⟩) := by
  induction hn : text.length using Nat.strong_induction_on generalizing text mode with
  | _ n ih =>
  subst hn
  cases mode with
  | hidden active =>
    by_cases hclose : active.close <+: text
    · -- the tag is closed, in the longer text at the same place
      have hlong : active.close <+: text ++ more := hclose.trans (List.prefix_append _ _)
      have hpos : 0 < active.close.length := List.length_pos_iff.mpr hmode
      have hle : active.close.length ≤ text.length := hclose.length_le
      rw [settle_hidden_close hmode hlong, settle_hidden_close hmode hclose, resume_emit,
        List.drop_append_of_le_length hle, ih _ (by rw [List.length_drop]; omega) _ .visible trivial rfl]
    · by_cases hpre : text <+: active.close
      · rw [settle_hidden_hold ( starts_of_prefix hpre hclose), resume_kept]
      · cases text with
        | nil => exact absurd List.nil_prefix hpre
        | cons c text =>
          have hdiff : Differs active.close (c :: text) := ⟨hclose, hpre⟩
          have hlong : Differs active.close (c :: (text ++ more)) := hdiff.append more
          rw [settle_hidden_cons hdiff, List.cons_append, settle_hidden_cons hlong]
          exact ih _ (Nat.lt_succ_self _) text (.hidden (active.push [c])) hmode rfl
  | visible =>
    by_cases hopens : Opens tags text
    · by_cases hmay : MayOpen tags text
      · rw [settle_visible_hold hopens hmay, resume_kept]
      · obtain ⟨specIndex, spec, hfound, hspec⟩ := exists_choice hopens
        have hlast : tags.openers.couldExtendMatch text = false := by
          rw [← Bool.not_eq_true, couldExtendMatch_iff]
          exact hmay
        have hlong := LiteralMatcher.earliest_append hfound hlast more
        obtain ⟨spec', hspec', hpre⟩ := opener_of_earliest hfound
        cases hspec.symm.trans hspec'
        have hmem : spec ∈ tags.specs := List.mem_of_getElem? hspec
        have hpos : 0 < spec.openDelim.length := List.length_pos_iff.mpr (tags.open_ne spec hmem)
        have hle : spec.openDelim.length ≤ text.length := hpre.length_le
        rw [settle_visible_of_some hlong hspec fun h ↦ hmay (MayOpen.of_append h),
          settle_visible_of_some hfound hspec hmay, resume_emit, List.take_zero, List.take_zero,
          List.drop_zero, List.drop_zero, List.drop_append_of_le_length hle,
          ih _ (by rw [List.length_drop]; omega) _ (.hidden ⟨spec.tag, spec.closeDelim, []⟩)
            (tags.close_ne spec hmem) rfl]
    · by_cases hmay : MayOpen tags text
      · have hfree : ∀ spec ∈ tags.specs, ¬ spec.openDelim <:+: text := fun spec hmem hinfix ↦
          hopens (hapart text hmay ⟨spec, hmem, hinfix⟩)
        rw [settle_visible_wait hfree hmay, resume_kept]
      · have hdiff := differs_of_not hopens hmay
        cases text with
        | nil => exact absurd mayOpen_nil hmay
        | cons c text =>
          have hlong : ∀ spec ∈ tags.specs, Differs spec.openDelim (c :: (text ++ more)) :=
            fun spec hmem ↦ (hdiff spec hmem).append more
          rw [settle_visible_cons hdiff, List.cons_append, settle_visible_cons hlong, resume_emit,
            ih _ (Nat.lt_succ_self _) text .visible trivial rfl]

/-- A projector between two calls: what is pending is not settled yet. -/
structure Settled (p : HiddenTagProjector τ) : Prop where
  apart : OpenersApart p.tags
  closable : Closable p.mode
  settled : p.settle = (1, p)

theorem project_append {p : HiddenTagProjector τ} (h : Settled p) (front back : Text) :
    p.project (front ++ back) = resume back (p.project front) := by
  unfold project
  rw [← List.append_assoc]
  exact settle_append h.apart _ _ _ h.closable

/-- Between two calls nothing can be settled. -/
theorem Settled.project {p : HiddenTagProjector τ} (h : Settled p) (input : Text) :
    Settled (p.project input).2 := by
  obtain ⟨htags, hmode⟩ := project_keeps h.closable input
  refine ⟨htags ▸ h.apart, hmode, ?_⟩
  -- going on with no text adds nothing
  have hnil := project_append h input []
  rw [List.append_nil] at hnil
  generalize p.project input = result at hnil ⊢
  have hstate : result.2.settle = (result.2.settle.1, result.2) := by
    have hsnd := congrArg Prod.snd hnil
    simp only [resume, emit, HiddenTagProjector.project, List.append_nil] at hsnd
    rw [Prod.ext_iff]
    exact ⟨rfl, hsnd.symm⟩
  have hout := congrArg Prod.fst hnil
  simp only [resume, emit, HiddenTagProjector.project, List.append_nil] at hout
  rw [hstate, TextProjection.eq_one_of_mul_eq_left hout.symm]

theorem settle_fresh (tags : TagSpecs τ) : settle (fresh tags) = (1, fresh tags) := by
  refine settle_visible_wait (fun spec hmem hinfix ↦ ?_) mayOpen_nil
  exact tags.open_ne spec hmem (List.infix_nil.mp hinfix)

theorem composes (hapart : OpenersApart tags) : (projector tags).Composes Settled where
  init := ⟨hapart, trivial, settle_fresh tags⟩
  feed chunk h := h.project chunk
  feed_nil {p} h := by
    show settle { p with pending := p.pending ++ [] } = (1, p)
    rw [List.append_nil]
    exact h.settled
  feed_append front back h := project_append h front back

/-! ## Openers that do not stand apart -/

/-- A part of an opener is a part of one that is not a part of another. -/
theorem MayOpen.exists_last {front : Text} (h : MayOpen tags front) :
    ∃ spec ∈ tags.specs, Starts spec.openDelim front ∧ ¬ MayOpen tags spec.openDelim := by
  classical
  let outers := tags.specs.filter fun spec ↦ decide (Starts spec.openDelim front)
  have hmem : ∀ spec, spec ∈ outers ↔ spec ∈ tags.specs ∧ Starts spec.openDelim front := by
    intro spec
    rw [List.mem_filter, decide_eq_true_eq]
  have hsome : outers.argmax (fun spec ↦ spec.openDelim.length) ≠ none := by
    obtain ⟨spec, hspec, hs⟩ := h
    rw [Ne, List.argmax_eq_none]
    exact List.ne_nil_of_mem ((hmem spec).mpr ⟨hspec, hs⟩)
  obtain ⟨last, hlast⟩ := Option.ne_none_iff_exists'.mp hsome
  obtain ⟨hspec, hs⟩ := (hmem last).mp (List.argmax_mem hlast)
  refine ⟨last, hspec, hs, fun ⟨longer, hlonger, hpre, hlt⟩ ↦ ?_⟩
  have hstarts : Starts longer.openDelim front := ⟨hs.1.trans hpre, Nat.lt_trans hs.2 hlt⟩
  exact absurd (List.le_of_mem_argmax ((hmem longer).mpr ⟨hlonger, hstarts⟩) hlast)
    (Nat.not_le_of_lt hlt)

/-- An opener that is not a part of another is hidden. -/
theorem settle_opener {spec : InlineTagSpec τ} (hmem : spec ∈ tags.specs)
    (hlast : ¬ MayOpen tags spec.openDelim) :
    ∃ active, settle ⟨tags, spec.openDelim, .visible⟩ = (1, ⟨tags, [], .hidden active⟩) := by
  obtain ⟨specIndex, chosen, hfound, hchosen⟩ := exists_choice ⟨spec, hmem, List.prefix_rfl⟩
  obtain ⟨entry, hentry, rfl, hpre, hlongest⟩ :=
    LiteralMatcher.length_le_of_earliest_zero hfound
  obtain ⟨spec', hspec', htext⟩ := tags.mem_openers_iff.mp hentry
  cases hspec'.symm.trans hchosen
  obtain ⟨own, hown, htextown⟩ :=
    (exists_openers_iff (· = spec.openDelim)).mpr ⟨spec, hmem, rfl⟩
  have hlen : spec.openDelim.length ≤ chosen.openDelim.length := by
    rw [← htext, ← htextown]
    exact hlongest own hown (htextown ▸ List.prefix_rfl)
  have hclose : chosen.closeDelim ≠ [] := tags.close_ne chosen (List.mem_of_getElem? hchosen)
  refine ⟨⟨chosen.tag, chosen.closeDelim, []⟩, ?_⟩
  rw [settle_visible_of_some hfound hchosen hlast, List.take_zero, List.drop_zero,
    List.drop_eq_nil_of_le hlen, settle_hidden_hold ⟨List.nil_prefix, List.length_pos_iff.mpr hclose⟩]
  rfl

/-- What stands before an inner opener is shown. -/
theorem settle_front {front : Text} (hopens : ¬ Opens tags front)
    (hinner : ∃ spec ∈ tags.specs, spec.openDelim <:+: front) :
    (settle ⟨tags, front, .visible⟩).1.renderable ≠ [] := by
  have hsome : tags.openers.earliest front ≠ none := by
    intro hnone
    obtain ⟨entry, hentry, hinfix⟩ := (exists_openers_iff (· <:+: front)).mpr hinner
    exact findSub?_eq_none_iff.mp (LiteralMatcher.earliest_eq_none_iff.mp hnone entry hentry) hinfix
  obtain ⟨⟨openAt, specIndex⟩, hfound⟩ := Option.ne_none_iff_exists'.mp hsome
  obtain ⟨spec, hspec, hpre⟩ := opener_of_earliest hfound
  have hmem : spec ∈ tags.specs := List.mem_of_getElem? hspec
  have hshown : front.take openAt ≠ [] := by
    intro hnil
    rcases List.take_eq_nil_iff.mp hnil with hzero | hfront
    · rw [hzero] at hpre
      exact hopens ⟨spec, hmem, hpre⟩
    · rw [hfront, List.drop_nil] at hpre
      exact tags.open_ne spec hmem (List.prefix_nil.mp hpre)
  by_cases hmay : MayOpen tags (front.drop openAt)
  · rw [settle_visible_of_mayOpen hfound hmay]
    exact hshown
  · rw [settle_visible_of_some hfound hspec hmay]
    exact List.append_ne_nil_of_left_ne_nil hshown _

/-- An opener cut behind a part that holds another opener is not hidden. -/
theorem not_chunkIndependent (h : ¬ OpenersApart tags) :
    ¬ (projector tags).ChunkIndependent := by
  unfold OpenersApart at h
  push Not at h
  obtain ⟨front, hmay, hinner, hopens⟩ := h
  obtain ⟨spec, hmem, ⟨⟨rest, hrest⟩, _⟩, hlast⟩ := hmay.exists_last
  intro hsame
  have hcut := congrArg TextProjection.renderable (hsame [front, rest])
  obtain ⟨active, hwhole⟩ := settle_opener hmem hlast
  have hfeed : (projector tags).feed (projector tags).init spec.openDelim =
      (1, ⟨tags, [], .hidden active⟩) := hwhole
  have hnil : ((projector tags).run [spec.openDelim]).renderable = [] := by
    rw [Transducer.run_singleton, hfeed]
    rfl
  have hflat : [front, rest].flatten = spec.openDelim := by simpa using hrest
  rw [hflat, hnil] at hcut
  refine settle_front hopens hinner ?_
  exact (List.append_eq_nil_iff.mp (List.append_eq_nil_iff.mp hcut).1).1

/-- Feeding a text in chunks gives what feeding it whole gives, for every text and all its
cuts, exactly when the openers stand apart. -/
theorem hidden_tags_chunk_independent_iff (tags : TagSpecs τ) :
    (∀ chunks : List Text, (projector tags).run chunks = (projector tags).run [chunks.flatten]) ↔
      OpenersApart tags := by
  constructor
  · intro hsame
    by_contra hapart
    exact not_chunkIndependent hapart hsame
  · intro hapart
    exact (composes hapart).chunkIndependent

/-- Two tags, the opener of one inside the opener of the other. -/
def nestedTags : TagSpecs Bool where
  specs := [⟨true, "<a<b>>".toList, "</a>".toList⟩, ⟨false, "<b>".toList, "</b>".toList⟩]
  specs_ne := by decide
  open_ne := by decide
  close_ne := by decide

/-- The opener `<a<b>>` given whole is hidden, but cut before its last character it is not. -/
theorem nested_opener_cut_differs :
    (projector nestedTags).run ["<a<b>".toList, ">text</a>".toList] =
        { renderable := "<a".toList, events := [⟨false, ">text</a>".toList⟩] } ∧
      (projector nestedTags).run ["<a<b>>text</a>".toList] =
        { renderable := [], events := [⟨true, "text".toList⟩] } := by
  decide +kernel

end Praxis.StreamParser.HiddenTagProjector

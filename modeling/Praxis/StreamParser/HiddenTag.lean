import Praxis.StreamParser.Projection

/-!
# Hidden inline tags

The `HiddenTagProjector` reads streamed text, hides every inline tag and puts out its
content as an event.  `project` is a loop over a buffer of pending text.  Every pass that
goes on consumes a delimiter, and no delimiter is empty, so that the length of the buffer
bounds the passes (`loop_eq_settle`).

`settle` is the loop run to its end.  It is described one character at a time.  Hidden text
passes on until its close delimiter stands at the front (`settle_hidden_close`,
`settle_hidden_hold`, `settle_hidden_cons`).  Visible text passes on while no opener can
start at the front (`settle_visible_cons`), an opener at the front that cannot become a
longer one hides what follows (`settle_visible_open`), and one that can is kept
(`settle_visible_hold`).

What is missing from the list is a front that may become an opener but is none yet.  If
another opener stands further on, the loop takes that one and gives the front away.
`Nested` says that the tags leave room for this.
-/

namespace Praxis.StreamParser

open Praxis.Foundation

/-- `ExtractedInlineTag`. -/
structure ExtractedInlineTag (τ : Type) where
  tag : τ
  content : Text
  deriving DecidableEq, Repr

/-- `InlineTagSpec`. -/
structure InlineTagSpec (τ : Type) where
  tag : τ
  openDelim : Text
  closeDelim : Text
  deriving DecidableEq, Repr

/-- The tag specifications that `HiddenTagProjector::new` accepts. -/
structure TagSpecs (τ : Type) where
  specs : List (InlineTagSpec τ)
  specs_ne : specs ≠ []
  open_ne : ∀ spec ∈ specs, spec.openDelim ≠ []
  close_ne : ∀ spec ∈ specs, spec.closeDelim ≠ []

/-- `ActiveTag`. -/
structure ActiveTag (τ : Type) where
  tag : τ
  close : Text
  content : Text
  deriving DecidableEq, Repr

/-- Add text to what is hidden. -/
def ActiveTag.push {τ : Type} (active : ActiveTag τ) (text : Text) : ActiveTag τ :=
  { active with content := active.content ++ text }

/-- `ParseMode`. -/
inductive ParseMode (τ : Type) where
  | visible
  | hidden (active : ActiveTag τ)
  deriving DecidableEq, Repr

namespace TagSpecs

variable {τ : Type} (tags : TagSpecs τ)

/-- The open delimiters, each with the index of its specification. -/
def openers : LiteralMatcher Nat where
  entries := tags.specs.zipIdx.map fun (spec, index) ↦ ⟨spec.openDelim, index⟩

/-- An open delimiter is the opener of a specification. -/
theorem mem_openers_iff {entry : Literal Nat} : entry ∈ tags.openers.entries ↔
    ∃ spec, tags.specs[entry.value]? = some spec ∧ entry.text = spec.openDelim := by
  unfold openers
  rw [List.mem_map]
  constructor
  · rintro ⟨⟨spec, index⟩, hmem, rfl⟩
    exact ⟨spec, List.mem_zipIdx_iff_getElem?.mp hmem, rfl⟩
  · rintro ⟨spec, hget, htext⟩
    refine ⟨(spec, entry.value), List.mem_zipIdx_iff_getElem?.mpr hget, ?_⟩
    simp only [← htext]

end TagSpecs

/-- `HiddenTagProjector`. -/
structure HiddenTagProjector (τ : Type) where
  tags : TagSpecs τ
  pending : Text
  mode : ParseMode τ

namespace HiddenTagProjector

variable {τ : Type}

/-- What the projector puts out. -/
abbrev Out (τ : Type) := TextProjection (ExtractedInlineTag τ)

/-- `HiddenTagProjector::new`, after its checks. -/
def fresh (tags : TagSpecs τ) : HiddenTagProjector τ := ⟨tags, [], .visible⟩

/-- `drain_visible`. -/
def drainVisible (self : HiddenTagProjector τ) (len : Nat) (out : Out τ) :
    Out τ × HiddenTagProjector τ :=
  (out * .rendering (self.pending.take len), { self with pending := self.pending.drop len })

/-- `consume_hidden`, in hidden mode: whether the tag was closed. -/
def consumeHidden (self : HiddenTagProjector τ) (active : ActiveTag τ) (out : Out τ) :
    Bool × Out τ × HiddenTagProjector τ :=
  match findSub? active.close self.pending with
  | some closeAt =>
    (true, out * .event ⟨active.tag, active.content ++ self.pending.take closeAt⟩,
      { self with
        pending := self.pending.drop (closeAt + active.close.length)
        mode := .visible })
  | none =>
    let keep := partialSuffixLen self.pending active.close
    let drain := self.pending.length - keep
    if drain > 0 then
      (false, out,
        { self with
          pending := self.pending.drop drain
          mode := .hidden (active.push (self.pending.take drain)) })
    else (false, out, self)

/-- One pass of the loop of `project`: whether it goes on. -/
def pass (self : HiddenTagProjector τ) (out : Out τ) : Bool × Out τ × HiddenTagProjector τ :=
  match self.mode with
  | .hidden active => self.consumeHidden active out
  | .visible =>
    match self.tags.openers.earliest self.pending with
    | some (openAt, specIndex) =>
      if self.tags.openers.couldExtendMatch (self.pending.drop openAt) then
        (false, self.drainVisible openAt out)
      else
        let (out, drained) := self.drainVisible openAt out
        match self.tags.specs[specIndex]? with
        | some spec =>
          (true, out,
            { drained with
              pending := drained.pending.drop spec.openDelim.length
              mode := .hidden ⟨spec.tag, spec.closeDelim, []⟩ })
        | none => (false, out, drained)
    | none =>
      let keep := self.tags.openers.retainedSuffixLen self.pending
      (false, self.drainVisible (self.pending.length - keep) out)

/-- The loop of `project`. -/
def loop : Nat → HiddenTagProjector τ → Out τ → Out τ × HiddenTagProjector τ
  | 0, self, out => (out, self)
  | fuel + 1, self, out =>
    match self.pass out with
    | (true, out, self) => loop fuel self out
    | (false, out, self) => (out, self)

/-- The loop of `project` on the pending text, run to its end. -/
def settle (self : HiddenTagProjector τ) : Out τ × HiddenTagProjector τ :=
  loop (self.pending.length + 1) self 1

/-- `project`. -/
def project (self : HiddenTagProjector τ) (input : Text) : Out τ × HiddenTagProjector τ :=
  settle { self with pending := self.pending ++ input }

/-- `close`. -/
def close (self : HiddenTagProjector τ) : Out τ × HiddenTagProjector τ :=
  match self.mode with
  | .hidden active =>
    (.event ⟨active.tag, active.content ++ self.pending⟩,
      { self with pending := [], mode := .visible })
  | .visible => (.rendering self.pending, { self with pending := [] })

/-- The projector as a machine. -/
def projector (tags : TagSpecs τ) : TextProjector (ExtractedInlineTag τ) where
  State := HiddenTagProjector τ
  init := fresh tags
  feed := project
  flush := close

/-! ## The loop -/

/-- A hidden tag can be closed. -/
def Closable : ParseMode τ → Prop
  | .visible => True
  | .hidden active => active.close ≠ []

variable {self : HiddenTagProjector τ} {tags : TagSpecs τ} {active : ActiveTag τ} {text more : Text}
  {c : Char} {out : Out τ}

/-- Put output in front of a result. -/
def emit (out : Out τ) (result : Out τ × HiddenTagProjector τ) : Out τ × HiddenTagProjector τ :=
  (out * result.1, result.2)

@[simp] theorem emit_one (result : Out τ × HiddenTagProjector τ) : emit 1 result = result := by
  rw [emit, one_mul]

@[simp] theorem emit_emit (a b : Out τ) (result : Out τ × HiddenTagProjector τ) :
    emit a (emit b result) = emit (a * b) result := by
  simp only [emit, mul_assoc]

theorem drainVisible_eq_emit (len : Nat) :
    self.drainVisible len out = emit out (self.drainVisible len 1) := by
  simp only [drainVisible, emit, one_mul]

theorem consumeHidden_eq_emit : self.consumeHidden active out =
    ((self.consumeHidden active 1).1, emit out (self.consumeHidden active 1).2) := by
  unfold consumeHidden
  split
  · simp only [emit, one_mul]
  · dsimp only
    split
    · simp only [emit, mul_one]
    · simp only [emit, mul_one]

/-- A pass only adds to the output. -/
theorem pass_eq_emit (self : HiddenTagProjector τ) (out : Out τ) :
    self.pass out = ((self.pass 1).1, emit out (self.pass 1).2) := by
  unfold pass
  split
  · exact consumeHidden_eq_emit
  · split
    · split
      · exact congrArg _ (drainVisible_eq_emit _)
      · rw [drainVisible_eq_emit]
        dsimp only [emit]
        split
        · rfl
        · rfl
    · exact congrArg _ (drainVisible_eq_emit _)

/-- The loop only adds to the output. -/
theorem loop_eq_emit (fuel : Nat) (self : HiddenTagProjector τ) (out : Out τ) :
    loop fuel self out = emit out (loop fuel self 1) := by
  induction fuel generalizing self out with
  | zero => simp only [loop, emit, mul_one]
  | succ fuel ih =>
    unfold loop
    rw [pass_eq_emit]
    generalize self.pass 1 = passed
    obtain ⟨goesOn, made, next⟩ := passed
    cases goesOn with
    | true =>
      show loop fuel next (out * made) = emit out (loop fuel next made)
      rw [ih next, ih next made, emit_emit]
    | false => rfl

/-- The opener that is found at an offset stands there. -/
theorem opener_of_earliest {openAt specIndex : Nat}
    (h : tags.openers.earliest text = some (openAt, specIndex)) :
    ∃ spec, tags.specs[specIndex]? = some spec ∧ spec.openDelim <+: text.drop openAt := by
  obtain ⟨best, hbest, rfl, rfl, _⟩ := LiteralMatcher.earliest_eq_some_iff.mp h
  obtain ⟨entry, hget, hfind, _, hvalue⟩ := LiteralMatcher.mem_candidates_iff.mp hbest
  obtain ⟨spec, hspec, htext⟩ := tags.mem_openers_iff.mp (List.mem_of_getElem? hget)
  rw [hvalue]
  exact ⟨spec, hspec, htext ▸ prefix_of_findSub? hfind⟩

/-- A pass that goes on has consumed a delimiter. -/
theorem pass_shrinks {next : HiddenTagProjector τ} {made : Out τ} (hmode : Closable self.mode)
    (h : self.pass out = (true, made, next)) :
    next.pending.length < self.pending.length := by
  unfold pass at h
  split at h
  · next active hactive =>
    rw [hactive] at hmode
    unfold consumeHidden at h
    split at h
    · next closeAt hclose =>
      cases h
      exact length_drop_lt_of_prefix hmode (prefix_of_findSub? hclose)
    · dsimp only at h
      split at h
      · cases h
      · cases h
  · split at h
    · next openAt specIndex hfound =>
      obtain ⟨spec, hspec, hpre⟩ := opener_of_earliest hfound
      have hmem : spec ∈ self.tags.specs := List.mem_of_getElem? hspec
      rw [hspec] at h
      split at h
      · cases h
      · cases h
        show ((self.pending.drop openAt).drop spec.openDelim.length).length < self.pending.length
        rw [List.drop_drop]
        exact length_drop_lt_of_prefix (self.tags.open_ne spec hmem) hpre
    · cases h

/-- A pass keeps the tags, and what it hides can be closed. -/
theorem pass_keeps (out : Out τ) (hmode : Closable self.mode) :
    (self.pass out).2.2.tags = self.tags ∧ Closable (self.pass out).2.2.mode := by
  unfold pass
  split
  · next active hactive =>
    unfold consumeHidden
    split
    · exact ⟨rfl, trivial⟩
    · rw [hactive] at hmode
      dsimp only
      split
      · exact ⟨rfl, hmode⟩
      · exact ⟨rfl, hactive ▸ hmode⟩
  · next hvisible =>
    split
    · split
      · exact ⟨rfl, hmode⟩
      · dsimp only [drainVisible]
        split
        · next spec hspec => exact ⟨rfl, self.tags.close_ne spec (List.mem_of_getElem? hspec)⟩
        · exact ⟨rfl, hmode⟩
    · exact ⟨rfl, hmode⟩

theorem loop_keeps (fuel : Nat) (self : HiddenTagProjector τ) (out : Out τ)
    (hmode : Closable self.mode) :
    (loop fuel self out).2.tags = self.tags ∧ Closable (loop fuel self out).2.mode := by
  induction fuel generalizing self out with
  | zero => exact ⟨rfl, hmode⟩
  | succ fuel ih =>
    unfold loop
    have hpass := pass_keeps out hmode
    generalize self.pass out = passed at hpass
    obtain ⟨goesOn, made, next⟩ := passed
    cases goesOn with
    | true =>
      obtain ⟨htags, hnext⟩ := ih next made hpass.2
      exact ⟨htags.trans hpass.1, hnext⟩
    | false => exact hpass

theorem project_keeps (hmode : Closable self.mode) (input : Text) :
    (self.project input).2.tags = self.tags ∧ Closable (self.project input).2.mode :=
  loop_keeps _ _ _ hmode

private theorem loop_fuel (n m : Nat) (self : HiddenTagProjector τ) (hmode : Closable self.mode)
    (hn : self.pending.length < n) (hm : self.pending.length < m) :
    loop n self out = loop m self out := by
  induction n generalizing m self out with
  | zero => exact absurd hn (Nat.not_lt_zero _)
  | succ n ih =>
    cases m with
    | zero => exact absurd hm (Nat.not_lt_zero _)
    | succ m =>
      unfold loop
      generalize hpass : self.pass out = passed
      obtain ⟨goesOn, made, next⟩ := passed
      cases goesOn with
      | true =>
        have hlt := pass_shrinks hmode hpass
        have hnext := (hpass ▸ pass_keeps out hmode).2
        exact ih m next hnext (by omega) (by omega)
      | false => rfl

/-- After a pass that goes on comes the loop on what is left. -/
theorem settle_of_pass {made : Out τ} {next : HiddenTagProjector τ} (hmode : Closable self.mode)
    (h : self.pass 1 = (true, made, next)) : settle self = emit made (settle next) := by
  have hlt := pass_shrinks hmode h
  have hnext := (h ▸ pass_keeps 1 hmode).2
  rw [settle, loop, h]
  show loop self.pending.length next made = emit made (settle next)
  rw [loop_eq_emit, settle, loop_fuel _ (next.pending.length + 1) next hnext hlt (Nat.lt_succ_self _)]

/-- A pass that does not go on is the last. -/
theorem settle_of_last_pass {made : Out τ} {next : HiddenTagProjector τ}
    (h : self.pass 1 = (false, made, next)) : settle self = (made, next) := by
  rw [settle, loop, h]

/-! ## Hidden text, one character at a time -/

theorem pass_hidden_of_some {closeAt : Nat} (h : findSub? active.close text = some closeAt) :
    pass ⟨tags, text, .hidden active⟩ 1 =
      (true, .event ⟨active.tag, active.content ++ text.take closeAt⟩,
        ⟨tags, text.drop (closeAt + active.close.length), .visible⟩) := by
  simp only [pass, consumeHidden, h, one_mul]

theorem pass_hidden_of_none (h : findSub? active.close text = none) :
    pass ⟨tags, text, .hidden active⟩ 1 =
      (false, 1, ⟨tags, text.drop (text.length - partialSuffixLen text active.close),
        .hidden (active.push (text.take (text.length - partialSuffixLen text active.close)))⟩) := by
  simp only [pass, consumeHidden, h]
  split
  · rfl
  · next hzero =>
    rw [Nat.eq_zero_of_not_pos hzero, List.take_zero, List.drop_zero, ActiveTag.push,
      List.append_nil]

/-- The close delimiter ends the tag. -/
theorem settle_hidden_close (hne : active.close ≠ []) (h : active.close <+: text) :
    settle ⟨tags, text, .hidden active⟩ = emit (.event ⟨active.tag, active.content⟩)
      (settle ⟨tags, text.drop active.close.length, .visible⟩) := by
  have hpass : settle ⟨tags, text, .hidden active⟩ = _ :=
    settle_of_pass hne (pass_hidden_of_some ( findSub?_of_prefix h))
  rw [hpass, List.take_zero, List.append_nil, Nat.zero_add]

/-- Text that may become the close delimiter is kept. -/
theorem settle_hidden_hold (h : Starts active.close text) :
    settle ⟨tags, text, .hidden active⟩ = (1, ⟨tags, text, .hidden active⟩) := by
  rw [settle_of_last_pass (pass_hidden_of_none (findSub?_of_starts h)),
    partialSuffixLen_of_starts h, Nat.sub_self, List.take_zero, List.drop_zero, ActiveTag.push,
    List.append_nil]

/-- Any other character is content. -/
theorem settle_hidden_cons (h : Differs active.close (c :: text)) :
    settle ⟨tags, c :: text, .hidden active⟩ =
      settle ⟨tags, text, .hidden (active.push [c])⟩ := by
  have hne : active.close ≠ [] := fun hnil ↦ h.1 (hnil ▸ List.nil_prefix)
  have hpush : ∀ more, (active.push [c]).push more = active.push (c :: more) := fun more ↦ by
    simp [ActiveTag.push]
  cases hfind : findSub? active.close text with
  | none =>
    have hnone : findSub? active.close (c :: text) = none := by rw [findSub?_cons h.1, hfind]; rfl
    have hlen : (c :: text).length - partialSuffixLen text active.close =
        (text.length - partialSuffixLen text active.close) + 1 :=
      Nat.succ_sub (partialSuffixLen_le text active.close)
    have hpushed : findSub? (active.push [c]).close text = none := hfind
    rw [settle_of_last_pass (pass_hidden_of_none hnone),
      settle_of_last_pass (pass_hidden_of_none hpushed), partialSuffixLen_cons h.not_starts, hlen,
      hpush]
    rfl
  | some closeAt =>
    have hsome : findSub? active.close (c :: text) = some (closeAt + 1) := by
      rw [findSub?_cons h.1, hfind]
      rfl
    have hpushed : findSub? (active.push [c]).close text = some closeAt := hfind
    have hleft : settle ⟨tags, c :: text, .hidden active⟩ = _ :=
      settle_of_pass hne (pass_hidden_of_some hsome)
    have hright : settle ⟨tags, text, .hidden (active.push [c])⟩ = _ :=
      settle_of_pass hne (pass_hidden_of_some hpushed)
    rw [hleft, hright, Nat.add_right_comm]
    simp [ActiveTag.push]

/-! ## Visible text, one character at a time -/

/-- An opener stands at the front of the text. -/
def Opens (tags : TagSpecs τ) (text : Text) : Prop := ∃ spec ∈ tags.specs, spec.openDelim <+: text

/-- The text may become an opener. -/
def MayOpen (tags : TagSpecs τ) (text : Text) : Prop :=
  ∃ spec ∈ tags.specs, Starts spec.openDelim text

theorem exists_openers_iff (P : Text → Prop) :
    (∃ entry ∈ tags.openers.entries, P entry.text) ↔ ∃ spec ∈ tags.specs, P spec.openDelim := by
  constructor
  · rintro ⟨entry, hmem, hP⟩
    obtain ⟨spec, hget, htext⟩ := tags.mem_openers_iff.mp hmem
    exact ⟨spec, List.mem_of_getElem? hget, htext ▸ hP⟩
  · rintro ⟨spec, hmem, hP⟩
    obtain ⟨index, hget⟩ := List.mem_iff_getElem?.mp hmem
    exact ⟨⟨spec.openDelim, index⟩, tags.mem_openers_iff.mpr ⟨spec, hget, rfl⟩, hP⟩

theorem forall_openers (P : Text → Prop) (h : ∀ spec ∈ tags.specs, P spec.openDelim) :
    ∀ entry ∈ tags.openers.entries, P entry.text := by
  intro entry hmem
  obtain ⟨spec, hget, htext⟩ := tags.mem_openers_iff.mp hmem
  exact htext ▸ h spec (List.mem_of_getElem? hget)

theorem couldExtendMatch_iff : tags.openers.couldExtendMatch text = true ↔ MayOpen tags text :=
  LiteralMatcher.couldExtendMatch_iff.trans
    (exists_openers_iff fun delim ↦ Starts delim text)

/-- The pass over visible text in which no opener occurs. -/
theorem settle_visible_of_none (h : tags.openers.earliest text = none) :
    settle ⟨tags, text, .visible⟩ =
      drainVisible ⟨tags, text, .visible⟩ (text.length - tags.openers.retainedSuffixLen text) 1 := by
  apply settle_of_last_pass
  simp only [pass, h]
  rfl

/-- The pass over visible text up to an opener that may become a longer one. -/
theorem settle_visible_of_mayOpen {openAt specIndex : Nat}
    (h : tags.openers.earliest text = some (openAt, specIndex))
    (hmay : MayOpen tags (text.drop openAt)) :
    settle ⟨tags, text, .visible⟩ = drainVisible ⟨tags, text, .visible⟩ openAt 1 := by
  apply settle_of_last_pass
  simp only [pass, h, couldExtendMatch_iff.mpr hmay, if_true]
  rfl

/-- The pass over visible text up to an opener that cannot. -/
theorem settle_visible_of_some {openAt specIndex : Nat} {spec : InlineTagSpec τ}
    (h : tags.openers.earliest text = some (openAt, specIndex))
    (hspec : tags.specs[specIndex]? = some spec) (hmay : ¬ MayOpen tags (text.drop openAt)) :
    settle ⟨tags, text, .visible⟩ = emit (.rendering (text.take openAt))
      (settle ⟨tags, (text.drop openAt).drop spec.openDelim.length,
        .hidden ⟨spec.tag, spec.closeDelim, []⟩⟩) := by
  refine settle_of_pass trivial ?_
  have hno : ¬ tags.openers.couldExtendMatch (text.drop openAt) = true :=
    fun hext ↦ hmay (couldExtendMatch_iff.mp hext)
  simp only [pass, h, if_neg hno, hspec, drainVisible, one_mul]

/-- A character at which no opener can start is shown. -/
theorem settle_visible_cons (h : ∀ spec ∈ tags.specs, Differs spec.openDelim (c :: text)) :
    settle ⟨tags, c :: text, .visible⟩ =
      emit (.rendering [c]) (settle ⟨tags, text, .visible⟩) := by
  have hcons : tags.openers.earliest (c :: text) = _ :=
    LiteralMatcher.earliest_cons
      (forall_openers (¬ · <+: c :: text) fun spec hmem ↦ (h spec hmem).1)
  cases hfound : tags.openers.earliest text with
  | none =>
    have hkeep : tags.openers.retainedSuffixLen (c :: text) = tags.openers.retainedSuffixLen text :=
      LiteralMatcher.retainedSuffixLen_cons
        (forall_openers (¬ Starts · (c :: text)) fun spec hmem ↦ (h spec hmem).not_starts)
    have hlen : (c :: text).length - tags.openers.retainedSuffixLen text =
        (text.length - tags.openers.retainedSuffixLen text) + 1 :=
      Nat.succ_sub (LiteralMatcher.retainedSuffixLen_le _ _)
    rw [hfound] at hcons
    rw [settle_visible_of_none hcons, settle_visible_of_none hfound, hkeep, hlen]
    rfl
  | some found =>
    obtain ⟨openAt, specIndex⟩ := found
    rw [hfound] at hcons
    obtain ⟨spec, hspec, _⟩ := opener_of_earliest hfound
    by_cases hmay : MayOpen tags (text.drop openAt)
    · rw [settle_visible_of_mayOpen hcons hmay, settle_visible_of_mayOpen hfound hmay]
      rfl
    · rw [settle_visible_of_some hcons hspec hmay, settle_visible_of_some hfound hspec hmay,
        emit_emit]
      rfl

/-- The opener that is chosen when one stands at the front. -/
theorem exists_choice (h : Opens tags text) : ∃ specIndex spec,
    tags.openers.earliest text = some (0, specIndex) ∧ tags.specs[specIndex]? = some spec := by
  obtain ⟨specIndex, hfound⟩ := LiteralMatcher.exists_earliest_zero
    ((exists_openers_iff (· <+: text)).mpr h)
  obtain ⟨spec, hspec, _⟩ := opener_of_earliest hfound
  exact ⟨specIndex, spec, hfound, hspec⟩

/-- An opener at the front that may become a longer one is kept. -/
theorem settle_visible_hold (h : Opens tags text) (hmay : MayOpen tags text) :
    settle ⟨tags, text, .visible⟩ = (1, ⟨tags, text, .visible⟩) := by
  obtain ⟨specIndex, spec, hfound, _⟩ := exists_choice h
  rw [settle_visible_of_mayOpen hfound hmay]
  rfl

/-- Text that may become an opener is kept, as long as no other opener stands in it. -/
theorem settle_visible_wait (h : ∀ spec ∈ tags.specs, ¬ spec.openDelim <:+: text)
    (hmay : MayOpen tags text) :
    settle ⟨tags, text, .visible⟩ = (1, ⟨tags, text, .visible⟩) := by
  have hnone : tags.openers.earliest text = none := LiteralMatcher.earliest_eq_none_iff.mpr
    (forall_openers (findSub? · text = none) fun spec hmem ↦ findSub?_eq_none_iff.mpr (h spec hmem))
  have hkeep : tags.openers.retainedSuffixLen text = text.length :=
    LiteralMatcher.retainedSuffixLen_of_starts ((exists_openers_iff (Starts · text)).mpr hmay)
  rw [settle_visible_of_none hnone, hkeep, Nat.sub_self]
  rfl

end HiddenTagProjector

end Praxis.StreamParser

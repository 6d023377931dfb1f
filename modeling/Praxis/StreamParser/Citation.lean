import Praxis.StreamParser.Chunking

/-!
# Citations

The `CitationProjector` is the hidden-tag projector for one tag.  What it is for is said by
`pieces`, which cuts a whole text from left to right: text up to the first opener, a body up
to the first closer behind it, and so on; a last body may run to the end of the text.
Together the pieces are the text (`flatMap_source_pieces`).

One opener stands apart from itself, so that the cuts of a stream do not show, and the loop
on a whole text takes one piece after another (`settle_close_eq`).
-/

namespace Praxis.StreamParser

open Praxis.Foundation

/-- `CitationTag`. -/
inductive CitationTag where
  | citation
  deriving DecidableEq, Repr

/-- `CITATION_OPEN`. -/
def citationOpen : Text := "<praxis-memory-citation>".toList

/-- `CITATION_CLOSE`. -/
def citationClose : Text := "</praxis-memory-citation>".toList

theorem citationOpen_ne : citationOpen ≠ [] := by decide

theorem citationClose_ne : citationClose ≠ [] := by decide

/-- The one tag of the citation projector. -/
def citationTags : TagSpecs CitationTag where
  specs := [⟨.citation, citationOpen, citationClose⟩]
  specs_ne := List.cons_ne_nil _ _
  open_ne := by
    intro spec hmem
    rw [List.mem_singleton.mp hmem]
    exact citationOpen_ne
  close_ne := by
    intro spec hmem
    rw [List.mem_singleton.mp hmem]
    exact citationClose_ne

/-- `citation_projection`. -/
def citationProjection : TextProjection (ExtractedInlineTag CitationTag) →* TextProjection Text :=
  TextProjection.mapEventsHom ExtractedInlineTag.content

/-- `CitationProjector`. -/
def citationProjector : TextProjector Text :=
  (HiddenTagProjector.projector citationTags).map citationProjection

/-! ## Cutting a whole text -/

/-- A piece of a text: plain text, or a citation that may lack its closer. -/
inductive Piece where
  | plain (text : Text)
  | citation (body : Text) (closed : Bool)
  deriving DecidableEq, Repr

namespace Piece

/-- The text of a piece as it stands in the source. -/
def source : Piece → Text
  | plain text => text
  | citation body true => citationOpen ++ body ++ citationClose
  | citation body false => citationOpen ++ body

/-- The part of a piece that is shown. -/
def shown : Piece → Text
  | plain text => text
  | citation _ _ => []

/-- The body of a citation. -/
def body? : Piece → Option Text
  | plain _ => none
  | citation body _ => some body

end Piece

/-- The pieces of a text.  A citation runs from the first opener to the first closer behind
it, or to the end of the text if there is none. -/
def pieces (text : Text) : List Piece :=
  match _hopen : findSub? citationOpen text with
  | none => [.plain text]
  | some openAt =>
    let rest := text.drop (openAt + citationOpen.length)
    match findSub? citationClose rest with
    | none => [.plain (text.take openAt), .citation rest false]
    | some closeAt =>
      .plain (text.take openAt) :: .citation (rest.take closeAt) true ::
        pieces (rest.drop (closeAt + citationClose.length))
  termination_by text.length
  decreasing_by
    have hlt := length_drop_lt_of_prefix citationOpen_ne (prefix_of_findSub? _hopen)
    rw [List.length_drop]
    omega

variable {text : Text} {openAt closeAt : Nat}

theorem pieces_of_none (h : findSub? citationOpen text = none) : pieces text = [.plain text] := by
  rw [pieces]
  split
  · rfl
  · next hsome => cases h.symm.trans hsome

theorem pieces_of_unclosed (h : findSub? citationOpen text = some openAt)
    (hclose : findSub? citationClose (text.drop (openAt + citationOpen.length)) = none) :
    pieces text = [.plain (text.take openAt),
      .citation (text.drop (openAt + citationOpen.length)) false] := by
  rw [pieces]
  split
  · next hnone => cases h.symm.trans hnone
  · next hsome =>
    cases h.symm.trans hsome
    simp only [hclose]

theorem pieces_of_closed (h : findSub? citationOpen text = some openAt)
    (hclose : findSub? citationClose (text.drop (openAt + citationOpen.length)) = some closeAt) :
    pieces text = .plain (text.take openAt) ::
      .citation ((text.drop (openAt + citationOpen.length)).take closeAt) true ::
        pieces ((text.drop (openAt + citationOpen.length)).drop
          (closeAt + citationClose.length)) := by
  rw [pieces]
  split
  · next hnone => cases h.symm.trans hnone
  · next hsome =>
    cases h.symm.trans hsome
    simp only [hclose]

/-- What pieces put out. -/
def projection (ps : List Piece) : TextProjection Text where
  renderable := ps.flatMap Piece.shown
  events := ps.filterMap Piece.body?

theorem projection_plain (text : Text) : projection [.plain text] = .rendering text := by
  simp [projection, Piece.shown, Piece.body?, TextProjection.rendering]

theorem projection_citation (body : Text) (closed : Bool) :
    projection [.citation body closed] = .event body := rfl

theorem projection_cons (piece : Piece) (ps : List Piece) :
    projection (piece :: ps) = projection [piece] * projection ps := by
  ext1
  · simp [projection]
  · cases piece <;> rfl

/-- The rule of induction that follows the pieces of a text. -/
theorem pieces_induction {P : Text → Prop}
    (plain : ∀ text, findSub? citationOpen text = none → P text)
    (unclosed : ∀ text openAt, findSub? citationOpen text = some openAt →
      findSub? citationClose (text.drop (openAt + citationOpen.length)) = none → P text)
    (closed : ∀ text openAt closeAt, findSub? citationOpen text = some openAt →
      findSub? citationClose (text.drop (openAt + citationOpen.length)) = some closeAt →
      P ((text.drop (openAt + citationOpen.length)).drop (closeAt + citationClose.length)) →
      P text) (text : Text) : P text := by
  induction hn : text.length using Nat.strong_induction_on generalizing text with
  | _ n ih =>
  subst hn
  cases hopen : findSub? citationOpen text with
  | none => exact plain text hopen
  | some openAt =>
    have hlt := length_drop_lt_of_prefix citationOpen_ne (prefix_of_findSub? hopen)
    cases hclose : findSub? citationClose (text.drop (openAt + citationOpen.length)) with
    | none => exact unclosed text openAt hopen hclose
    | some closeAt =>
      have hlt' := length_drop_lt_of_prefix citationClose_ne (prefix_of_findSub? hclose)
      exact closed text openAt closeAt hopen hclose (ih _ (Nat.lt_trans hlt' hlt) _ rfl)

/-- The pieces of a text are the text. -/
theorem flatMap_source_pieces (text : Text) : (pieces text).flatMap Piece.source = text := by
  induction text using pieces_induction with
  | plain text hopen => simp [pieces_of_none hopen, Piece.source]
  | unclosed text openAt hopen hclose =>
    rw [pieces_of_unclosed hopen hclose]
    simpa [Piece.source] using take_append_findSub? hopen
  | closed text openAt closeAt hopen hclose ih =>
    rw [pieces_of_closed hopen hclose, List.flatMap_cons, List.flatMap_cons, ih]
    conv_rhs => rw [← take_append_findSub? hopen, ← take_append_findSub? hclose]
    simp [Piece.source]

/-! ## The projector takes one piece after another -/

namespace HiddenTagProjector

theorem earliest_citationTags (text : Text) :
    citationTags.openers.earliest text = (findSub? citationOpen text).map (·, 0) := by
  cases h : findSub? citationOpen text with
  | none => simp [LiteralMatcher.earliest, LiteralMatcher.candidates, citationTags,
      TagSpecs.openers, h]
  | some openAt => simp [LiteralMatcher.earliest, LiteralMatcher.candidates, citationTags,
      TagSpecs.openers, h]

theorem openersApart_citationTags : OpenersApart citationTags := by
  rintro front ⟨spec, hmem, _, hlt⟩ ⟨inner, hinner, hinfix⟩
  rw [List.mem_singleton.mp hmem] at hlt
  rw [List.mem_singleton.mp hinner] at hinfix
  exact absurd hinfix.length_le (Nat.not_le_of_lt hlt)

theorem not_mayOpen_citation (h : citationOpen <+: text) : ¬ MayOpen citationTags text := by
  rintro ⟨spec, hmem, hstarts⟩
  rw [List.mem_singleton.mp hmem] at hstarts
  exact hstarts.not_prefix h

/-- What a text puts out in all. -/
def finish {τ : Type} (result : Out τ × HiddenTagProjector τ) : Out τ :=
  result.1 * (close result.2).1

@[simp] theorem finish_emit {τ : Type} (out : Out τ) (result : Out τ × HiddenTagProjector τ) :
    finish (emit out result) = out * finish result := mul_assoc ..

/-- What is drained and what is kept is the text. -/
theorem finish_drainVisible {τ : Type} (tags : TagSpecs τ) (text : Text) (len : Nat) :
    finish (drainVisible ⟨tags, text, .visible⟩ len 1) = .rendering text := by
  show (1 * .rendering (text.take len) * .rendering (text.drop len) : Out τ) = _
  rw [one_mul, ← TextProjection.rendering_append, List.take_append_drop]

/-- The loop shows the text before an opener and hides what follows it. -/
theorem settle_of_open (h : findSub? citationOpen text = some openAt) :
    settle ⟨citationTags, text, .visible⟩ = emit (.rendering (text.take openAt))
      (settle ⟨citationTags, text.drop (openAt + citationOpen.length),
        .hidden ⟨.citation, citationClose, []⟩⟩) := by
  have hfound : citationTags.openers.earliest text = some (openAt, 0) := by
    rw [earliest_citationTags, h]
    rfl
  rw [settle_visible_of_some hfound rfl (not_mayOpen_citation (prefix_of_findSub? h)),
    List.drop_drop]

/-- A body without a closer is put out at the end. -/
theorem finish_hidden_of_none (h : findSub? citationClose text = none) :
    finish (settle ⟨citationTags, text, .hidden ⟨.citation, citationClose, []⟩⟩) =
      .event ⟨.citation, text⟩ := by
  have hpass : settle ⟨citationTags, text, .hidden ⟨.citation, citationClose, []⟩⟩ = _ :=
    settle_of_last_pass (pass_hidden_of_none h)
  rw [hpass]
  show (1 * .event ⟨.citation, _ ++ _⟩ : Out CitationTag) = _
  rw [one_mul, ActiveTag.push, List.nil_append, List.take_append_drop]

/-- A body with a closer is put out there. -/
theorem settle_hidden_of_some (h : findSub? citationClose text = some closeAt) :
    settle ⟨citationTags, text, .hidden ⟨.citation, citationClose, []⟩⟩ =
      emit (.event ⟨.citation, text.take closeAt⟩)
        (settle ⟨citationTags, text.drop (closeAt + citationClose.length), .visible⟩) :=
  settle_of_pass citationClose_ne (pass_hidden_of_some h)

/-- A whole text puts out what its pieces do. -/
theorem finish_settle (text : Text) :
    citationProjection (finish (settle ⟨citationTags, text, .visible⟩)) =
      projection (pieces text) := by
  induction text using pieces_induction with
  | plain text hopen =>
    have hnone : citationTags.openers.earliest text = none := by
      rw [earliest_citationTags, hopen]
      rfl
    rw [settle_visible_of_none hnone, finish_drainVisible, pieces_of_none hopen, projection_plain]
    rfl
  | unclosed text openAt hopen hclose =>
    rw [settle_of_open hopen, finish_emit, finish_hidden_of_none hclose, map_mul,
      pieces_of_unclosed hopen hclose, projection_cons, projection_plain, projection_citation]
    rfl
  | closed text openAt closeAt hopen hclose ih =>
    rw [settle_of_open hopen, settle_hidden_of_some hclose, finish_emit, finish_emit, map_mul,
      map_mul, ih, pieces_of_closed hopen hclose, projection_cons, projection_cons (.citation _ _),
      projection_plain, projection_citation]
    rfl

end HiddenTagProjector

theorem run_citationProjector (chunks : List Text) :
    citationProjector.run chunks = projection (pieces chunks.flatten) := by
  have hsame := (HiddenTagProjector.composes
    HiddenTagProjector.openersApart_citationTags).chunkIndependent chunks
  rw [citationProjector, Transducer.run_map, hsame, Transducer.run_singleton,
    ← HiddenTagProjector.finish_settle]
  rfl

/-- The cuts of the stream do not show. -/
theorem chunkIndependent_citationProjector : citationProjector.ChunkIndependent := by
  intro chunks
  rw [run_citationProjector, run_citationProjector, List.flatten_singleton]

/-- What has been shown after some chunks starts what is shown of the whole text, whatever
text is still to come. -/
theorem feedAll_renderable_isPrefix (chunks : List Text) (later : Text) :
    (citationProjector.feedAll citationProjector.init chunks).1.renderable <+:
      (pieces (chunks.flatten ++ later)).flatMap Piece.shown := by
  have hrun := congrArg TextProjection.renderable (run_citationProjector (chunks ++ [later]))
  rw [Transducer.run, Transducer.runFrom_append, List.flatten_append, List.flatten_singleton] at hrun
  exact ⟨_, hrun⟩

/-- Fed in any chunks, the citation projector shows the text without its citations and puts
out their bodies in order; the pieces it tells apart make up the text.  And at no time has
it shown a character of a citation, whatever text is still to come. -/
theorem citation_projection_correct (chunks : List Text) :
    (citationProjector.run chunks).renderable = (pieces chunks.flatten).flatMap Piece.shown ∧
      (citationProjector.run chunks).events = (pieces chunks.flatten).filterMap Piece.body? ∧
      (pieces chunks.flatten).flatMap Piece.source = chunks.flatten ∧
      ∀ later : Text, (citationProjector.feedAll citationProjector.init chunks).1.renderable <+:
        (pieces (chunks.flatten ++ later)).flatMap Piece.shown := by
  have hrun := run_citationProjector chunks
  exact ⟨congrArg TextProjection.renderable hrun, congrArg TextProjection.events hrun,
    flatMap_source_pieces _, feedAll_renderable_isPrefix chunks⟩

end Praxis.StreamParser

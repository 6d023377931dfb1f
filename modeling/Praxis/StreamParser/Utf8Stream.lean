import Praxis.Foundation.Utf8
import Praxis.StreamParser.Citation

/-!
# Byte streams

The `Utf8ProjectionAdapter` puts a text projector behind a transport of bytes.  It keeps the
bytes of a code point that has not arrived in full, and it refuses a chunk with bytes that
are not UTF-8, as if the chunk had not been pushed.

`drive` pushes chunks one after another and tells apart those that were accepted.  What they
leave is a text that the inner projector has been fed, and a part of a code point that is
still pending (`Driven`).  An inner projector that does not show how its text was cut then
puts out what it puts out for the text as a whole.
-/

namespace Praxis.StreamParser

open Praxis.Foundation Praxis.Foundation.Utf8

/-- `Utf8ProjectionError`. -/
inductive Utf8ProjectionError where
  | invalidUtf8 (validUpTo errorLen : Nat)
  | incompleteUtf8AtEof
  deriving DecidableEq, Repr

/-- `Utf8Status`. -/
inductive Utf8Status where
  | complete (text : Text)
  | beginning (text : Text)
  | invalid (validUpTo errorLen : Nat)
  deriving DecidableEq, Repr

/-- `classify_utf8`. -/
def classifyUtf8 (bytes : Bytes) : Utf8Status :=
  match fromUtf8 bytes with
  | .ok text => .complete text
  | .error error =>
    match error.errorLen with
    | some errorLen => .invalid error.validUpTo errorLen
    | none =>
      match fromUtf8 (bytes.take error.validUpTo) with
      | .ok text => .beginning text
      | .error error => .invalid error.validUpTo (error.errorLen.getD 0)

variable {ε : Type}

/-- `Utf8ProjectionAdapter`. -/
structure Utf8ProjectionAdapter (t : TextProjector ε) where
  inner : t.State
  pendingUtf8 : Bytes

namespace Utf8ProjectionAdapter

variable {t : TextProjector ε}

/-- `Utf8ProjectionAdapter::new`. -/
def new (t : TextProjector ε) : Utf8ProjectionAdapter t := ⟨t.init, []⟩

/-- `push_bytes`. -/
def pushBytes (self : Utf8ProjectionAdapter t) (chunk : Bytes) :
    Except Utf8ProjectionError (TextProjection ε) × Utf8ProjectionAdapter t :=
  let oldLen := self.pendingUtf8.length
  let extended := self.pendingUtf8 ++ chunk
  match classifyUtf8 extended with
  | .complete text =>
    let (out, inner) := t.feed self.inner text
    (.ok out, ⟨inner, []⟩)
  | .beginning text =>
    if text = [] then (.ok 1, ⟨self.inner, extended⟩)
    else
      let (out, inner) := t.feed self.inner text
      (.ok out, ⟨inner, extended.drop (encode text).length⟩)
  | .invalid validUpTo errorLen =>
    (.error (.invalidUtf8 validUpTo errorLen), ⟨self.inner, extended.take oldLen⟩)

/-- `close`. -/
def close (self : Utf8ProjectionAdapter t) :
    Except Utf8ProjectionError (TextProjection ε) × Utf8ProjectionAdapter t :=
  if self.pendingUtf8 = [] then
    let (tail, inner) := t.flush self.inner
    (.ok (1 * tail), ⟨inner, []⟩)
  else
    match classifyUtf8 self.pendingUtf8 with
    | .complete text =>
      let (out, inner) := t.feed self.inner text
      let (tail, inner) := t.flush inner
      (.ok (out * tail), ⟨inner, []⟩)
    | .beginning _ => (.error .incompleteUtf8AtEof, self)
    | .invalid validUpTo errorLen => (.error (.invalidUtf8 validUpTo errorLen), self)

/-- A session: the chunks that were accepted, what they put out, and the adapter. -/
structure Session (t : TextProjector ε) where
  accepted : List Bytes
  out : TextProjection ε
  adapter : Utf8ProjectionAdapter t

/-- Push a chunk in a session. -/
def Session.push (session : Session t) (chunk : Bytes) : Session t :=
  match session.adapter.pushBytes chunk with
  | (.ok out, adapter) => ⟨session.accepted ++ [chunk], session.out * out, adapter⟩
  | (.error _, adapter) => { session with adapter }

/-- Push chunks one after another. -/
def drive (t : TextProjector ε) (chunks : List Bytes) : Session t :=
  chunks.foldl Session.push ⟨[], 1, new t⟩

/-! ## Classification -/

theorem classifyUtf8_encode (text : Text) : classifyUtf8 (encode text) = .complete text := by
  rw [classifyUtf8, fromUtf8_encode]

theorem classifyUtf8_of_partial (text : Text) {tail : Bytes} (h : Partial tail) :
    classifyUtf8 (encode text ++ tail) = .beginning text := by
  rw [classifyUtf8, fromUtf8_of_partial text h]
  simp only [List.take_left, fromUtf8_encode]

/-- Bytes are a text, a text and a part of a code point, or invalid for good. -/
theorem classifyUtf8_cases (bytes : Bytes) :
    (∃ text, bytes = encode text ∧ classifyUtf8 bytes = .complete text) ∨
      (∃ text tail, bytes = encode text ++ tail ∧ Partial tail ∧
        classifyUtf8 bytes = .beginning text) ∨
      ∃ validUpTo errorLen, classifyUtf8 bytes = .invalid validUpTo errorLen ∧
        ∀ more whole, bytes ++ more ≠ encode whole := by
  rcases fromUtf8_cases bytes with ⟨text, rfl, _⟩ | ⟨text, tail, rfl, hpartial, _⟩ |
    ⟨text, tail, len, rfl, hinvalid, herror⟩
  · exact .inl ⟨text, rfl, classifyUtf8_encode text⟩
  · exact .inr (.inl ⟨text, tail, rfl, hpartial, classifyUtf8_of_partial text hpartial⟩)
  · refine .inr (.inr ⟨(encode text).length, len, ?_, fun more whole ↦
      encode_append_ne_of_invalid hinvalid text whole more⟩)
    rw [classifyUtf8, herror]

/-! ## One chunk -/

/-- What is pending is a part of a code point. -/
def Pending (bytes : Bytes) : Prop := bytes = [] ∨ Partial bytes

/-- A chunk is accepted and completes some text, or it is refused for good and leaves the
adapter as it was. -/
theorem pushBytes_cases (self : Utf8ProjectionAdapter t) (chunk : Bytes) :
    (∃ texts tail, self.pendingUtf8 ++ chunk = encode texts.flatten ++ tail ∧ Pending tail ∧
        self.pushBytes chunk = (.ok (t.feedAll self.inner texts).1,
          ⟨(t.feedAll self.inner texts).2, tail⟩)) ∨
      ∃ error, self.pushBytes chunk = (.error error, self) ∧
        ∀ more whole, self.pendingUtf8 ++ chunk ++ more ≠ encode whole := by
  have hone : ∀ text, t.feedAll self.inner [text] = t.feed self.inner text := fun text ↦ by
    rw [Transducer.feedAll_cons, Transducer.feedAll_nil, mul_one]
  unfold pushBytes
  rcases classifyUtf8_cases (self.pendingUtf8 ++ chunk) with ⟨text, hbytes, hclass⟩ |
    ⟨text, tail, hbytes, hpartial, hclass⟩ | ⟨validUpTo, errorLen, hclass, hnever⟩
  · refine .inl ⟨[text], [], ?_, .inl rfl, ?_⟩
    · rw [hbytes, List.flatten_singleton, List.append_nil]
    · simp only [hclass, hone]
  · by_cases hnil : text = []
    · -- nothing is complete yet, and the inner projector is not called
      refine .inl ⟨[], tail, by rw [hbytes, hnil]; rfl, .inr hpartial, ?_⟩
      simp only [hclass, if_pos hnil, Transducer.feedAll_nil]
      rw [hbytes, hnil]
      rfl
    · refine .inl ⟨[text], tail, ?_, .inr hpartial, ?_⟩
      · rw [hbytes, List.flatten_singleton]
      · simp only [hclass, if_neg hnil, hone]
        rw [hbytes, List.drop_left]
  · refine .inr ⟨.invalidUtf8 validUpTo errorLen, ?_, hnever⟩
    simp only [hclass, List.take_left]

/-! ## Sessions -/

/-- What a session leaves: the accepted bytes are a text that the inner projector has been
fed, and a part of a code point. -/
structure Driven (session : Session t) : Prop where
  fed : ∃ texts, session.accepted.flatten =
    encode texts.flatten ++ session.adapter.pendingUtf8 ∧
    t.feedAll t.init texts = (session.out, session.adapter.inner)
  pending : Pending session.adapter.pendingUtf8

theorem Driven.push {session : Session t} (h : Driven session) (chunk : Bytes) :
    Driven (session.push chunk) := by
  obtain ⟨⟨texts, hbytes, hfed⟩, hpending⟩ := h
  unfold Session.push
  rcases pushBytes_cases session.adapter chunk with ⟨more, tail, hchunk, htail, hpush⟩ |
    ⟨error, hpush, _⟩
  · rw [hpush]
    refine ⟨⟨texts ++ more, ?_, ?_⟩, htail⟩
    · show (session.accepted ++ [chunk]).flatten = encode (texts ++ more).flatten ++ tail
      rw [List.flatten_append, List.flatten_singleton, hbytes, List.append_assoc, hchunk,
        List.flatten_append, encode_append, List.append_assoc]
    · rw [Transducer.feedAll_append, hfed]
  · rw [hpush]
    exact ⟨⟨texts, hbytes, hfed⟩, hpending⟩

/-- Every session is driven so. -/
theorem driven_drive (t : TextProjector ε) (chunks : List Bytes) : Driven (drive t chunks) := by
  have hfold : ∀ session : Session t, Driven session → Driven (chunks.foldl Session.push session) := by
    induction chunks with
    | nil => exact fun _ h ↦ h
    | cons chunk chunks ih => exact fun session h ↦ ih _ (h.push chunk)
  exact hfold _ ⟨⟨[], rfl, rfl⟩, .inl rfl⟩

/-- A part of a code point behind a text is not a text. -/
theorem encode_append_partial_ne {text whole : Text} {tail : Bytes} (h : Partial tail) :
    encode text ++ tail ≠ encode whole := by
  intro heq
  have hcomplete := classifyUtf8_encode whole
  rw [← heq, classifyUtf8_of_partial text h] at hcomplete
  cases hcomplete

/-- The end of a session that has no pending bytes. -/
theorem close_of_nil {self : Utf8ProjectionAdapter t} (h : self.pendingUtf8 = []) :
    self.close.1 = .ok (t.flush self.inner).1 := by
  simp only [close, if_pos h, one_mul]

/-- The end of a session inside a code point. -/
theorem close_of_partial {self : Utf8ProjectionAdapter t} (h : Partial self.pendingUtf8) :
    self.close.1 = .error .incompleteUtf8AtEof := by
  have hclass := classifyUtf8_of_partial [] h
  rw [encode_nil, List.nil_append] at hclass
  simp only [close, if_neg h.1, hclass]

/-- A chunk that is refused changes nothing and can be left out. -/
theorem drive_accepted (t : TextProjector ε) (chunks : List Bytes) :
    drive t (drive t chunks).accepted = drive t chunks := by
  induction chunks using List.reverseRecOn with
  | nil => rfl
  | append_singleton chunks chunk ih =>
    have hpush : ∀ chunks, drive t (chunks ++ [chunk]) = (drive t chunks).push chunk :=
      fun chunks ↦ List.foldl_append
    rw [hpush]
    generalize drive t chunks = session at ih ⊢
    unfold Session.push
    rcases pushBytes_cases session.adapter chunk with ⟨texts, tail, _, _, hok⟩ | ⟨error, herror, _⟩
    · rw [hok]
      dsimp only
      rw [hpush, ih, Session.push, hok]
    · rw [herror]
      exact ih

/-- The bytes that a session accepted are a text, and then the session ends as the inner
projector does. -/
theorem close_of_text (ht : t.ChunkIndependent) {session : Session t} (h : Driven session)
    {text : Text} (htext : session.accepted.flatten = encode text) :
    ∃ tail, session.adapter.close.1 = .ok tail ∧ session.out * tail = t.run [text] := by
  obtain ⟨⟨texts, hbytes, hfed⟩, hpending⟩ := h
  rcases hpending with hnil | hpartial
  · rw [hnil, List.append_nil, htext] at hbytes
    refine ⟨_, close_of_nil hnil, ?_⟩
    rw [encode_injective hbytes, ← ht texts, Transducer.run, Transducer.runFrom, hfed]
  · exact absurd (hbytes.symm.trans htext) (encode_append_partial_ne hpartial)

/-- A session ends inside a code point exactly if the bytes it accepted do. -/
theorem close_incomplete_iff {session : Session t} (h : Driven session) :
    session.adapter.close.1 = .error .incompleteUtf8AtEof ↔
      ∃ text tail, session.accepted.flatten = encode text ++ tail ∧ Partial tail := by
  obtain ⟨⟨texts, hbytes, _⟩, hpending⟩ := h
  rcases hpending with hnil | hpartial
  · rw [close_of_nil hnil]
    refine ⟨fun hclose ↦ (nomatch hclose), fun ⟨text, tail, htail, hpartial⟩ ↦ ?_⟩
    rw [hnil, List.append_nil] at hbytes
    exact absurd (htail.symm.trans hbytes) (encode_append_partial_ne hpartial)
  · rw [ close_of_partial hpartial]
    exact ⟨fun _ ↦ ⟨texts.flatten, _, hbytes, hpartial⟩, fun _ ↦ rfl⟩

/-- Behind the adapter a projector that does not show the cuts of its text reads the bytes of
the accepted chunks: refused chunks can be left out, if the accepted ones are a text the
session puts out what the projector puts out for it, the session fails at its end exactly
inside a code point, and a chunk is refused only if nothing can make it valid. -/
theorem utf8_adapter_transparent (t : TextProjector ε) (ht : t.ChunkIndependent)
    (chunks : List Bytes) :
    drive t (drive t chunks).accepted = drive t chunks ∧
      (∀ text, (drive t chunks).accepted.flatten = encode text →
        ∃ tail, (drive t chunks).adapter.close.1 = .ok tail ∧
          (drive t chunks).out * tail = t.run [text]) ∧
      ((drive t chunks).adapter.close.1 = .error .incompleteUtf8AtEof ↔
        ∃ text tail, (drive t chunks).accepted.flatten = encode text ++ tail ∧ Partial tail) ∧
      ∀ chunk error, ((drive t chunks).adapter.pushBytes chunk).1 = .error error →
        ∀ more text, (drive t chunks).adapter.pendingUtf8 ++ chunk ++ more ≠ encode text := by
  have hdriven := driven_drive t chunks
  refine ⟨drive_accepted t chunks, fun text htext ↦ close_of_text ht hdriven htext,
    close_incomplete_iff hdriven, ?_⟩
  intro chunk error herror
  rcases pushBytes_cases (drive t chunks).adapter chunk with ⟨texts, tail, _, _, hok⟩ |
    ⟨_, _, hnever⟩
  · rw [hok] at herror
    cases herror
  · exact hnever

/-- The first byte of a code point breaks off inside it. -/
theorem partial_c3 : Partial [0xC3] := ⟨List.cons_ne_nil _ _, 'é', [0xA9], List.cons_ne_nil _ _, rfl⟩

/-- The citation projector behind the adapter, with a stream of one byte that is the first of
two. -/
theorem utf8_adapter_transparent_cut :
    citationProjector.ChunkIndependent ∧
      (drive citationProjector [[0xC3]]).adapter.close.1 = .error .incompleteUtf8AtEof := by
  refine ⟨chunkIndependent_citationProjector, ?_⟩
  have h := utf8_adapter_transparent citationProjector chunkIndependent_citationProjector [[0xC3]]
  have hclass : classifyUtf8 [0xC3] = .beginning [] := classifyUtf8_of_partial [] partial_c3
  have haccepted : (drive citationProjector [[0xC3]]).accepted = [[0xC3]] := by
    simp only [drive, new, List.foldl_cons, List.foldl_nil, Session.push, pushBytes,
      List.nil_append, hclass, if_true]
  refine h.2.2.1.mpr ⟨[], [0xC3], ?_, partial_c3⟩
  rw [haccepted]
  rfl

end Utf8ProjectionAdapter

end Praxis.StreamParser

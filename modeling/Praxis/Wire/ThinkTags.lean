import Praxis.Foundation.Search
import Praxis.Foundation.Weighted
import Praxis.Foundation.Rust

/-!
# Think tags

Some providers put the reasoning of a model between think tags into the text of an answer.  A
parser takes the text in chunks and gives out segments of text and of reasoning.  It keeps back
what may become a tag.  A closing tag that nothing has opened makes reasoning of what stands
before it; so the beginning of an answer is kept back for a while.
-/

namespace Praxis.Wire

open Foundation

abbrev Text := List Char

/-- The bytes of a text. -/
def byteLen (text : Text) : Nat := width Char.utf8Size text

/-! ## Tags -/

/-- `CommonThinkTag`. -/
inductive CommonThinkTag where
  | open
  | close
  deriving DecidableEq

/-- `COMMON_THINK_OPEN_TAG` and `COMMON_THINK_CLOSE_TAG`. -/
def CommonThinkTag.literal : CommonThinkTag → Text
  | .open => "<think>".toList
  | .close => "</think>".toList

/-- `COMMON_THINK_TAG_TAIL_BYTES`. -/
def commonThinkTagTailBytes : Nat := byteLen CommonThinkTag.close.literal - 1

/-- `COMMON_THINK_PRELUDE_BUFFER_BYTES`. -/
def commonThinkPreludeBufferBytes : Nat := 128

/-- `find_ascii_case_insensitive`, with the number of characters for the number of bytes. -/
def findAsciiCaseInsensitive (text needle : Text) : Option Nat :=
  findSub? needle (text.map Char.toLower)

/-- `find_common_think_tag`. -/
def findCommonThinkTag (text : Text) : Option (Nat × CommonThinkTag) :=
  match findAsciiCaseInsensitive text CommonThinkTag.open.literal,
      findAsciiCaseInsensitive text CommonThinkTag.close.literal with
  | some i, some j => some (if i ≤ j then (i, .open) else (j, .close))
  | some i, none => some (i, .open)
  | none, some j => some (j, .close)
  | none, none => none

/-! ## The parser -/

/-- `CommonThinkTagMode`. -/
inductive CommonThinkTagMode where
  | text
  | reasoning
  deriving DecidableEq

/-- `CommonThinkSegment`. -/
inductive CommonThinkSegment where
  | text (text : Text)
  | reasoning (text : Text)
  deriving DecidableEq

/-- `CommonThinkTagStreamState`. -/
structure CommonThinkTagStreamState where
  mode : CommonThinkTagMode
  pending : Text
  sawTag : Bool
  deriving DecidableEq

/-- `floor_char_boundary` for an index that is not beyond the end. -/
def floorCharBoundary (text : Text) : Nat → Nat
  | 0 => 0
  | index + 1 =>
    if (cut Char.utf8Size (index + 1) text).isSome then index + 1
    else floorCharBoundary text index

/-- `push_common_think_segment`, at the front of the segments that follow. -/
def pushCommonThinkSegment (segment : CommonThinkSegment) (segments : List CommonThinkSegment) :
    List CommonThinkSegment :=
  match segment with
  | .text [] | .reasoning [] => segments
  | segment => segment :: segments

namespace CommonThinkTagStreamState

/-- `Default for CommonThinkTagStreamState`. -/
def initial : CommonThinkTagStreamState := ⟨.text, [], false⟩

/-- `take_safe_pending_prefix`. -/
def takeSafePendingPrefix (s : CommonThinkTagStreamState) :
    Option Text × CommonThinkTagStreamState :=
  if byteLen s.pending ≤ commonThinkTagTailBytes then (none, s)
  else
    let prefixLen := floorCharBoundary s.pending (byteLen s.pending - commonThinkTagTailBytes)
    if prefixLen = 0 then (none, s)
    else
      match cut Char.utf8Size prefixLen s.pending with
      | some (taken, kept) => (some taken, { s with pending := kept })
      | none => (none, s)

/-- `take_pending_text_prefix`. -/
def takePendingTextPrefix (finish : Bool) (s : CommonThinkTagStreamState) :
    Option Text × CommonThinkTagStreamState :=
  if s.pending = [] then (none, s)
  else if finish then (some s.pending, { s with pending := [] })
  else if !s.sawTag ∧ byteLen s.pending ≤ commonThinkPreludeBufferBytes then (none, s)
  else s.takeSafePendingPrefix

/-- `take_pending_reasoning_prefix`. -/
def takePendingReasoningPrefix (finish : Bool) (s : CommonThinkTagStreamState) :
    Option Text × CommonThinkTagStreamState :=
  if s.pending = [] then (none, s)
  else if finish then (some s.pending, { s with pending := [] })
  else s.takeSafePendingPrefix

/-- The loop of `drain`.  A tag takes letters from what is pending, so that as many rounds as there
are letters, and one more, are enough. -/
def drainLoop (finish : Bool) : Nat → CommonThinkTagStreamState →
    List CommonThinkSegment × CommonThinkTagStreamState
  | 0, s => ([], s)
  | rounds + 1, s =>
    match s.mode with
    | .text =>
      match findCommonThinkTag s.pending with
      | none =>
        match s.takePendingTextPrefix finish with
        | (some text, s) => (pushCommonThinkSegment (.text text) [], s)
        | (none, s) => ([], s)
      | some (index, tag) =>
        let taken := s.pending.take index
        let pending := s.pending.drop (index + tag.literal.length)
        match tag with
        | .open =>
          let (segments, s) := drainLoop finish rounds ⟨.reasoning, pending, true⟩
          (pushCommonThinkSegment (.text taken) segments, s)
        | .close =>
          let (segments, s) := drainLoop finish rounds ⟨.text, pending, true⟩
          (pushCommonThinkSegment (.reasoning taken) segments, s)
    | .reasoning =>
      match findAsciiCaseInsensitive s.pending CommonThinkTag.close.literal with
      | none =>
        match s.takePendingReasoningPrefix finish with
        | (some text, s) => (pushCommonThinkSegment (.reasoning text) [], s)
        | (none, s) => ([], s)
      | some index =>
        let taken := s.pending.take index
        let pending := s.pending.drop (index + CommonThinkTag.close.literal.length)
        let (segments, s) := drainLoop finish rounds ⟨.text, pending, true⟩
        (pushCommonThinkSegment (.reasoning taken) segments, s)

/-- `drain`. -/
def drain (finish : Bool) (s : CommonThinkTagStreamState) :
    List CommonThinkSegment × CommonThinkTagStreamState :=
  s.drainLoop finish (s.pending.length + 1)

/-- `push`. -/
def push (s : CommonThinkTagStreamState) (text : Text) :
    List CommonThinkSegment × CommonThinkTagStreamState :=
  drain false { s with pending := s.pending ++ text }

/-- `finish`. -/
def finish (s : CommonThinkTagStreamState) :
    List CommonThinkSegment × CommonThinkTagStreamState :=
  s.drain true

end CommonThinkTagStreamState

/-! ## The next tag -/

variable {mode : CommonThinkTagMode} {text pre word rest : Text} {tag : CommonThinkTag}

end Praxis.Wire

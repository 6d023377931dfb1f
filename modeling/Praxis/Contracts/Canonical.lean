import Praxis.Foundation.PrefixCode
import Praxis.Foundation.Rust

/-!
# Identifiers, digests and the canonical encoding

The scalar vocabulary of the thread-store contracts (`ids.rs`, `revision.rs`,
`canonical.rs`) and the byte stream that `CanonicalHasher` feeds to SHA-256.

A `CanonicalEncode` implementation appends bytes to the hasher and does nothing
else, so it is modelled by the bytes it appends.  `LawfulCanonicalEncode` says
that these bytes are self-delimiting; it holds for every encoder of
`canonical.rs`, and is inherited by options and vectors.
-/

namespace Praxis.Contracts

open Foundation

/-! ## Identifiers and digests -/

/-- A `uuid::Uuid`, by its sixteen bytes. -/
structure Uuid where
  /-- The bytes `as_bytes` returns, most significant first. -/
  bytes : Vector UInt8 16
deriving DecidableEq

/-- `Uuid::as_bytes`. -/
def Uuid.asBytes (u : Uuid) : Bytes := u.bytes.toList

@[simp] theorem Uuid.asBytes_length (u : Uuid) : u.asBytes.length = 16 := by
  simp [Uuid.asBytes]

theorem Uuid.asBytes_injective : Function.Injective Uuid.asBytes := by
  rintro ⟨u⟩ ⟨v⟩ h
  exact congrArg Uuid.mk (Vector.toList_inj.mp h)

/-- The identifier types `uuid_id!` declares, and `ReceiptId`. -/
inductive IdKind where
  | batch | command | event | item | thread | turn | receipt
deriving DecidableEq

/-- An identifier of one kind: a transparent wrapper of a `Uuid`. -/
structure Id (k : IdKind) where
  /-- The wrapped identifier, `as_uuid`. -/
  uuid : Uuid
deriving DecidableEq

abbrev BatchId := Id .batch
abbrev CommandId := Id .command
abbrev EventId := Id .event
abbrev ItemId := Id .item
abbrev ThreadId := Id .thread
abbrev TurnId := Id .turn
abbrev ReceiptId := Id .receipt

/-- The bytes of the wrapped identifier. -/
def Id.asBytes {k : IdKind} (i : Id k) : Bytes := i.uuid.asBytes

@[simp] theorem Id.asBytes_length {k : IdKind} (i : Id k) : i.asBytes.length = 16 :=
  Uuid.asBytes_length _

theorem Id.asBytes_injective {k : IdKind} : Function.Injective (Id.asBytes (k := k)) := by
  rintro ⟨u⟩ ⟨v⟩ h
  exact congrArg Id.mk (Uuid.asBytes_injective h)

/-- A SHA-256 digest. -/
structure Digest where
  /-- The bytes `as_bytes` returns. -/
  bytes : Vector UInt8 32
deriving DecidableEq

namespace Digest

/-- `Digest::ZERO`. -/
def zero : Digest := ⟨Vector.replicate 32 0⟩

/-- `Digest::as_bytes`. -/
def asBytes (d : Digest) : Bytes := d.bytes.toList

@[simp] theorem asBytes_length (d : Digest) : d.asBytes.length = 32 := by simp [asBytes]

theorem asBytes_injective : Function.Injective asBytes := by
  rintro ⟨d⟩ ⟨e⟩ h
  exact congrArg mk (Vector.toList_inj.mp h)

end Digest

/-! ## Revisions -/

/-- A position in a thread's event sequence. -/
structure ThreadRevision where
  /-- The number, `get`. -/
  value : UInt64
deriving DecidableEq

namespace ThreadRevision

/-- `ThreadRevision::ZERO`. -/
def zero : ThreadRevision := ⟨0⟩

/-- The number as a natural. -/
def toNat (r : ThreadRevision) : Nat := r.value.toNat

/-- `checked_advance`. -/
def checkedAdvance (r : ThreadRevision) (count : UInt64) : Option ThreadRevision :=
  (checkedAdd r.value count).map ThreadRevision.mk

/-- `checked_next`. -/
def checkedNext (r : ThreadRevision) : Option ThreadRevision :=
  r.checkedAdvance 1

theorem toNat_inj {r s : ThreadRevision} : r.toNat = s.toNat ↔ r = s := by
  obtain ⟨r⟩ := r
  obtain ⟨s⟩ := s
  simp [toNat, UInt64.toNat_inj]

theorem toNat_lt (r : ThreadRevision) : r.toNat < 2 ^ 64 := r.value.toNat_lt

@[simp] theorem toNat_zero : zero.toNat = 0 := rfl

theorem checkedAdvance_eq_some_iff {r s : ThreadRevision} {n : UInt64} :
    r.checkedAdvance n = some s ↔ r.toNat + n.toNat = s.toNat := by
  obtain ⟨s⟩ := s
  simp only [checkedAdvance, Option.map_eq_some_iff, checkedAdd_eq_some_iff, mk.injEq,
    exists_eq_right]
  rfl

theorem checkedNext_eq_some_iff {r s : ThreadRevision} :
    r.checkedNext = some s ↔ r.toNat + 1 = s.toNat :=
  checkedAdvance_eq_some_iff

end ThreadRevision

/-- The last committed revision of a thread and its record digest. -/
structure ThreadHead where
  revision : ThreadRevision
  recordDigest : Digest
deriving DecidableEq

/-- `ThreadHead::EMPTY`. -/
def ThreadHead.empty : ThreadHead := ⟨.zero, .zero⟩

/-- A revision of a named thread. -/
structure ThreadRevisionRef where
  threadId : ThreadId
  revision : ThreadRevision
deriving DecidableEq

/-! ## The canonical encoding -/

/-- Types with a canonical encoding, by the bytes `encode_canonical` feeds to the
hasher. -/
class CanonicalEncode (α : Type) where
  encodeCanonical : α → Bytes

export CanonicalEncode (encodeCanonical)

/-- Encodings that can be split off the front of a longer stream. -/
class LawfulCanonicalEncode (α : Type) [CanonicalEncode α] : Prop where
  selfDelimiting : SelfDelimiting (encodeCanonical : α → Bytes)

section Lawful

variable {α : Type} [CanonicalEncode α] [LawfulCanonicalEncode α]

@[simp] theorem encodeCanonical_append_eq_iff (a b : α) (s t : Bytes) :
    encodeCanonical a ++ s = encodeCanonical b ++ t ↔ a = b ∧ s = t :=
  LawfulCanonicalEncode.selfDelimiting.append_eq_iff a b s t

@[simp] theorem encodeCanonical_inj (a b : α) :
    encodeCanonical a = encodeCanonical b ↔ a = b :=
  LawfulCanonicalEncode.selfDelimiting.injective.eq_iff

end Lawful

/-- `CanonicalHasher::bytes`: the length as a `u64`, then the bytes. -/
def hashBytes (bs : Bytes) : Bytes := leBytes 8 bs.length ++ bs

instance : CanonicalEncode Bool where
  encodeCanonical b := [if b then 1 else 0]

instance : CanonicalEncode UInt8 where
  encodeCanonical b := [b]

instance : CanonicalEncode UInt32 where
  encodeCanonical n := leBytes 4 n.toNat

instance : CanonicalEncode UInt64 where
  encodeCanonical n := leBytes 8 n.toNat

instance : CanonicalEncode Int64 where
  encodeCanonical n := leBytes 8 n.toUInt64.toNat

instance : CanonicalEncode Str where
  encodeCanonical s := hashBytes s.asBytes

instance : CanonicalEncode Digest where
  encodeCanonical d := d.asBytes

instance {k : IdKind} : CanonicalEncode (Id k) where
  encodeCanonical i := hashBytes i.asBytes

instance : CanonicalEncode ThreadRevision where
  encodeCanonical r := encodeCanonical r.value

/-- `CanonicalHasher::optional`. -/
instance {α : Type} [CanonicalEncode α] : CanonicalEncode (Option α) where
  encodeCanonical := optionBytes encodeCanonical

/-- `CanonicalHasher::sequence`. -/
instance {α : Type} [CanonicalEncode α] : CanonicalEncode (RVec α) where
  encodeCanonical v := leBytes 8 v.toList.length ++ v.toList.flatMap encodeCanonical

instance : CanonicalEncode ThreadRevisionRef where
  encodeCanonical r := encodeCanonical r.threadId ++ encodeCanonical r.revision

/-! ## Every scalar encoding is self-delimiting -/

private theorem leBytes_comp_selfDelimiting {α : Type} (w : Nat) (f : α → Nat)
    (hlt : ∀ a, f a < 256 ^ w) (hinj : Function.Injective f) :
    SelfDelimiting fun a ↦ leBytes w (f a) :=
  .of_width w (fun _ ↦ leBytes_length _ _)
    fun a b h ↦ hinj ((leBytes_inj (hlt a) (hlt b)).mp h)

private theorem hashBytes_comp_selfDelimiting {α : Type} (f : α → Bytes)
    (hlt : ∀ a, (f a).length < 256 ^ 8) (hinj : Function.Injective f) :
    SelfDelimiting fun a ↦ hashBytes (f a) := by
  intro a b s t h
  obtain ⟨hab, hst⟩ := lengthPrefixed_append_inj (hlt a) (hlt b) h
  exact ⟨hinj hab, hst⟩

instance : LawfulCanonicalEncode Bool where
  selfDelimiting := .of_width 1 (fun _ ↦ rfl) fun a b h ↦ by
    cases a <;> cases b <;> simp [encodeCanonical] at h ⊢

instance : LawfulCanonicalEncode UInt8 where
  selfDelimiting := .of_width 1 (fun _ ↦ rfl) fun a b h ↦ by
    simpa [encodeCanonical] using h

instance : LawfulCanonicalEncode UInt32 where
  selfDelimiting := leBytes_comp_selfDelimiting 4 UInt32.toNat
    (fun n ↦ by have := n.toNat_lt; norm_num at this ⊢; exact this)
    fun _ _ h ↦ UInt32.toNat_inj.mp h

instance : LawfulCanonicalEncode UInt64 where
  selfDelimiting := leBytes_comp_selfDelimiting 8 UInt64.toNat
    (fun n ↦ by have := n.toNat_lt; norm_num at this ⊢; exact this)
    fun _ _ h ↦ UInt64.toNat_inj.mp h

instance : LawfulCanonicalEncode Int64 where
  selfDelimiting := (LawfulCanonicalEncode.selfDelimiting (α := UInt64)).comp
    fun ⟨_⟩ ⟨_⟩ h ↦ congrArg Int64.ofUInt64 h

instance : LawfulCanonicalEncode Str where
  selfDelimiting := hashBytes_comp_selfDelimiting Str.asBytes Str.asBytes_length_lt
    Str.asBytes_injective

instance : LawfulCanonicalEncode Digest where
  selfDelimiting := .of_width 32 Digest.asBytes_length Digest.asBytes_injective

instance {k : IdKind} : LawfulCanonicalEncode (Id k) where
  selfDelimiting := hashBytes_comp_selfDelimiting Id.asBytes (fun i ↦ by simp)
    Id.asBytes_injective

instance : LawfulCanonicalEncode ThreadRevision where
  selfDelimiting := (LawfulCanonicalEncode.selfDelimiting (α := UInt64)).comp
    fun ⟨_⟩ ⟨_⟩ h ↦ congrArg ThreadRevision.mk h

instance {α : Type} [CanonicalEncode α] [LawfulCanonicalEncode α] :
    LawfulCanonicalEncode (Option α) where
  selfDelimiting := LawfulCanonicalEncode.selfDelimiting.optionBytes

instance {α : Type} [CanonicalEncode α] [LawfulCanonicalEncode α] :
    LawfulCanonicalEncode (RVec α) where
  selfDelimiting u v s t h := by
    obtain ⟨huv, hst⟩ := counted_append_inj LawfulCanonicalEncode.selfDelimiting
      u.length_lt v.length_lt h
    exact ⟨RVec.toList_injective huv, hst⟩

instance : LawfulCanonicalEncode ThreadRevisionRef where
  selfDelimiting := by
    rintro ⟨a, r⟩ ⟨b, q⟩ s t h
    change encodeCanonical a ++ encodeCanonical r ++ s = encodeCanonical b ++ encodeCanonical q ++ t
      at h
    simpa [and_assoc] using h

/-! ## Digests -/

section Digests

variable (sha256 : Bytes → Digest)

/-- The bytes `CanonicalHasher::domain` starts the stream with. -/
def domainBytes (domain : Str) : Bytes := hashBytes domain.asBytes

/-- `CanonicalEncode::canonical_digest`. -/
def canonicalDigest {α : Type} [CanonicalEncode α] (domain : Str) (a : α) : Digest :=
  sha256 (domainBytes domain ++ encodeCanonical a)

end Digests

end Praxis.Contracts

import Mathlib.Tactic.NormNum
import Praxis.Foundation.Steps
import Praxis.Journal.Format

/-!
# Round trips and specifications of the format

What the rest of the development uses of the byte format.

* A segment header is determined by its bytes and determines them
  (`decodeSegmentHeader_encode`, `eq_encode_of_decodeSegmentHeader`).
* A frame written by `encode_batch` decodes to the header and the batch it was
  written from (`decodeCompleteFrame_of_encodeBatch`).
* A frame that decodes announces its own length in its header, so that the header
  alone tells a whole frame from a torn one (`DecodesTo.frameLen_eq`).
* A batch that validates continues the head it was validated against
  (`validateStoredBatch_spec`), and its receipt can be derived
  (`deriveReceipt_of_validate`).
-/

namespace Praxis.Journal

open Foundation Contracts

/-! ## Fields -/

section Fields

variable {bytes : Bytes} {offset : Nat}

theorem u16At_eq {n : UInt16} (h : slice bytes offset 2 = leBytes 2 n.toNat) :
    u16At bytes offset = n := by
  have hn : n.toNat < 256 ^ 2 := n.toNat_lt
  rw [u16At, h, ofLeBytes_leBytes hn, UInt16.ofNat_toNat]

theorem u32At_eq {n : UInt32} (h : slice bytes offset 4 = leBytes 4 n.toNat) :
    u32At bytes offset = n := by
  have hn : n.toNat < 256 ^ 4 := n.toNat_lt
  rw [u32At, h, ofLeBytes_leBytes hn, UInt32.ofNat_toNat]

theorem u64At_eq {n : UInt64} (h : slice bytes offset 8 = leBytes 8 n.toNat) :
    u64At bytes offset = n := by
  have hn : n.toNat < 256 ^ 8 := n.toNat_lt
  rw [u64At, h, ofLeBytes_leBytes hn, UInt64.ofNat_toNat]

theorem arrayAt_eq {n : Nat} {v : Vector UInt8 n} (h : slice bytes offset n = v.toList) :
    arrayAt n bytes offset = v := by
  rw [arrayAt, h]
  ext i hi
  simp [List.getD_eq_getElem?_getD]

theorem digestAt_eq {d : Digest} (h : slice bytes offset 32 = d.asBytes) :
    digestAt bytes offset = d :=
  congrArg Digest.mk (arrayAt_eq h)

theorem leBytes_u16At (h : offset + 2 ≤ bytes.length) :
    leBytes 2 (u16At bytes offset).toNat = slice bytes offset 2 := by
  have hl := slice_length h
  have hlt := ofLeBytes_lt (slice bytes offset 2)
  have hread := leBytes_ofLeBytes (slice bytes offset 2)
  rw [hl] at hlt hread
  rw [u16At, UInt16.toNat_ofNat_of_lt' hlt, hread]

theorem leBytes_u32At (h : offset + 4 ≤ bytes.length) :
    leBytes 4 (u32At bytes offset).toNat = slice bytes offset 4 := by
  have hl := slice_length h
  have hlt := ofLeBytes_lt (slice bytes offset 4)
  have hread := leBytes_ofLeBytes (slice bytes offset 4)
  rw [hl] at hlt hread
  rw [u32At, UInt32.toNat_ofNat_of_lt' hlt, hread]

theorem leBytes_u64At (h : offset + 8 ≤ bytes.length) :
    leBytes 8 (u64At bytes offset).toNat = slice bytes offset 8 := by
  have hl := slice_length h
  have hlt := ofLeBytes_lt (slice bytes offset 8)
  have hread := leBytes_ofLeBytes (slice bytes offset 8)
  rw [hl] at hlt hread
  rw [u64At, UInt64.toNat_ofNat_of_lt' hlt, hread]

theorem toList_arrayAt {n : Nat} (h : offset + n ≤ bytes.length) :
    (arrayAt n bytes offset).toList = slice bytes offset n := by
  have hl := slice_length h
  apply List.ext_getElem (by simp [hl])
  intro i hi hi'
  simp [arrayAt, List.getD_eq_getElem?_getD, hi']

end Fields

variable {X : Externals}

/-! ## Checksummed fields -/

section Checksummed

variable {fields : List Bytes} {n : Nat}

theorem checksummed_length (h : fields.flatten.length = n) :
    (checksummed X fields).length = n + 4 := by
  simp [checksummed, ← h]

theorem take_checksummed (h : fields.flatten.length = n) :
    (checksummed X fields).take n = fields.flatten :=
  List.take_left' h

theorem u32At_checksummed (h : fields.flatten.length = n) :
    u32At (checksummed X fields) n = X.crc32c fields.flatten := by
  apply u32At_eq
  rw [checksummed, slice_append_right h.le, h, Nat.sub_self, slice_of_length (leBytes_length _ _)]

/-- A slice that is exactly one of the fields. -/
theorem slice_checksummed {k off w : Nat} {b : Bytes} (hk : fields[k]? = some b)
    (hoff : ((fields.take k).map List.length).sum = off) (hw : b.length = w) :
    slice (checksummed X fields) off w = b := by
  have hle : off + w ≤ fields.flatten.length := by
    obtain ⟨hlt, rfl⟩ := List.getElem?_eq_some_iff.mp hk
    have hsum := congrArg List.sum (congrArg (List.map List.length)
      (List.take_append_drop k fields))
    rw [List.drop_eq_getElem_cons hlt] at hsum
    simp only [List.map_append, List.map_cons, List.sum_append, List.sum_cons, hoff, hw] at hsum
    rw [List.length_flatten]
    omega
  rw [checksummed, slice_append_left hle, slice_flatten hk hoff hw]

end Checksummed

/-! ## Segment headers -/

theorem segmentHeaderFields_length (h : SegmentHeader) :
    (segmentHeaderFields h).flatten.length = segmentHeaderLen - 4 := by
  simp [segmentHeaderFields, segmentMagic, segmentHeaderLen]

@[simp] theorem encodeSegmentHeader_length (h : SegmentHeader) :
    (encodeSegmentHeader X h).length = segmentHeaderLen :=
  checksummed_length (segmentHeaderFields_length h)

/-- Every field of a segment header is read back. -/
theorem decodeSegmentHeader_encode (h : SegmentHeader) :
    decodeSegmentHeader X (encodeSegmentHeader X h) = .ok h := by
  have hmagic : (encodeSegmentHeader X h).take 8 = segmentMagic :=
    slice_checksummed (k := 0) rfl rfl rfl
  have hversion : u16At (encodeSegmentHeader X h) 8 = formatVersion :=
    u16At_eq (slice_checksummed (k := 1) rfl rfl (by simp))
  have hlen : u16At (encodeSegmentHeader X h) 10 = 80 :=
    u16At_eq (slice_checksummed (k := 2) rfl rfl (by simp))
  have hseq : u64At (encodeSegmentHeader X h) 12 = h.sequence :=
    u64At_eq (slice_checksummed (k := 3) rfl rfl (by simp))
  have hfirst : u64At (encodeSegmentHeader X h) 20 = h.firstRevision.value :=
    u64At_eq (slice_checksummed (k := 4) rfl rfl (by simp))
  have hthread : arrayAt 16 (encodeSegmentHeader X h) 28 = h.threadId :=
    arrayAt_eq (slice_checksummed (k := 5) rfl rfl (by simp))
  have hdigest : digestAt (encodeSegmentHeader X h) 44 = h.previousRecordDigest :=
    digestAt_eq (slice_checksummed (k := 6) rfl
      (by simp [segmentHeaderFields, segmentMagic]) (by simp))
  have hcover := take_checksummed (X := X) (segmentHeaderFields_length h)
  have hcrc := u32At_checksummed (X := X) (segmentHeaderFields_length h)
  rw [decodeSegmentHeader, if_neg (by simp), if_neg (by simp [hmagic]), if_neg (by simp [hversion]),
    if_neg (by simp [hlen, segmentHeaderLen]), if_neg, hseq, hfirst, hthread, hdigest]
  rw [encodeSegmentHeader, hcover, hcrc]
  simp

/-- A segment header that decodes is the encoding of what it decodes to: the
fields and the CRC leave no byte of the header free. -/
theorem eq_encode_of_decodeSegmentHeader {bytes : Bytes} {h : SegmentHeader}
    (hd : decodeSegmentHeader X bytes = .ok h) : bytes = encodeSegmentHeader X h := by
  unfold decodeSegmentHeader at hd
  split at hd; · cases hd
  rename_i hsize
  split at hd; · cases hd
  rename_i hmagic
  split at hd; · cases hd
  rename_i hversion
  split at hd; · cases hd
  rename_i hlen
  split at hd; · cases hd
  rename_i hcrc
  simp only [ne_eq, not_not, segmentHeaderLen] at hsize hmagic hversion hlen hcrc
  obtain rfl := (Except.ok.inj hd).symm
  have hsplit : bytes = slice bytes 0 8 ++ (slice bytes 8 2 ++ (slice bytes 10 2 ++
      (slice bytes 12 8 ++ (slice bytes 20 8 ++ (slice bytes 28 16 ++ (slice bytes 44 32 ++
        slice bytes 76 4)))))) := by
    rw [slice_append_slice bytes 44, slice_append_slice bytes 28, slice_append_slice bytes 20,
      slice_append_slice bytes 12, slice_append_slice bytes 10, slice_append_slice bytes 8,
      slice_append_slice bytes 0, slice_of_length hsize]
  have hcover : bytes.take 76 = slice bytes 0 8 ++ (slice bytes 8 2 ++ (slice bytes 10 2 ++
      (slice bytes 12 8 ++ (slice bytes 20 8 ++ (slice bytes 28 16 ++ slice bytes 44 32))))) := by
    rw [slice_append_slice bytes 28, slice_append_slice bytes 20, slice_append_slice bytes 12,
      slice_append_slice bytes 10, slice_append_slice bytes 8, slice_append_slice bytes 0]
    rfl
  have hfields : (segmentHeaderFields
      { sequence := u64At bytes 12
        firstRevision := ⟨u64At bytes 20⟩
        threadId := arrayAt 16 bytes 28
        previousRecordDigest := digestAt bytes 44 }).flatten = bytes.take 76 := by
    rw [hcover]
    simp only [segmentHeaderFields, ThreadRevision.toNat, Digest.asBytes, digestAt,
      List.flatten_cons, List.flatten_nil, List.append_nil]
    rw [leBytes_u64At (by omega), leBytes_u64At (by omega), toList_arrayAt (by omega),
      toList_arrayAt (by omega), ← hversion, leBytes_u16At (by omega), segmentHeaderLen, ← hlen,
      leBytes_u16At (by omega), ← hmagic]
    rfl
  rw [encodeSegmentHeader, checksummed, hfields, ← hcrc, leBytes_u32At (by omega)]
  calc bytes = slice bytes 0 76 ++ slice bytes 76 4 := by
        rw [slice_append_slice bytes 0, slice_of_length hsize]
    _ = _ := rfl

/-! ## Frame headers and trailers -/

theorem frameHeaderFields_length (h : FrameHeader) :
    (frameHeaderFields h).flatten.length = frameHeaderLen - 4 := by
  simp [frameHeaderFields, frameMagic, frameHeaderLen]

@[simp] theorem encodeFrameHeader_length (h : FrameHeader) :
    (encodeFrameHeader X h).length = frameHeaderLen :=
  checksummed_length (frameHeaderFields_length h)

/-- Every field of a frame header is read back. -/
theorem decodeFrameHeader_encode (h : FrameHeader) :
    decodeFrameHeader X (encodeFrameHeader X h) = .ok h := by
  have hmagic : (encodeFrameHeader X h).take 8 = frameMagic :=
    slice_checksummed (k := 0) rfl rfl rfl
  have hversion : u16At (encodeFrameHeader X h) 8 = formatVersion :=
    u16At_eq (slice_checksummed (k := 1) rfl rfl (by simp))
  have hcodec : (encodeFrameHeader X h).getD 10 0 = jsonCodec := rfl
  have hreserved : (encodeFrameHeader X h).getD 11 0 = 0 := rfl
  have hlen : u32At (encodeFrameHeader X h) 12 = 184 :=
    u32At_eq (slice_checksummed (k := 4) rfl rfl (by simp))
  have hpayload : u64At (encodeFrameHeader X h) 16 = h.payloadLen :=
    u64At_eq (slice_checksummed (k := 5) rfl rfl (by simp))
  have hstart : u64At (encodeFrameHeader X h) 24 = h.startRevision.value :=
    u64At_eq (slice_checksummed (k := 6) rfl rfl (by simp))
  have hend : u64At (encodeFrameHeader X h) 32 = h.endRevision.value :=
    u64At_eq (slice_checksummed (k := 7) rfl rfl (by simp))
  have hcount : u32At (encodeFrameHeader X h) 40 = h.eventCount :=
    u32At_eq (slice_checksummed (k := 8) rfl rfl (by simp))
  have hbatch : arrayAt 16 (encodeFrameHeader X h) 48 = h.batchId :=
    arrayAt_eq (slice_checksummed (k := 10) rfl rfl (by simp))
  have hcommand : arrayAt 16 (encodeFrameHeader X h) 64 = h.commandId :=
    arrayAt_eq (slice_checksummed (k := 11) rfl
      (by simp [frameHeaderFields, frameMagic]) (by simp))
  have hdigest : digestAt (encodeFrameHeader X h) 80 = h.commandDigest :=
    digestAt_eq (slice_checksummed (k := 12) rfl
      (by simp [frameHeaderFields, frameMagic]) (by simp))
  have hprevious : digestAt (encodeFrameHeader X h) 112 = h.previousRecordDigest :=
    digestAt_eq (slice_checksummed (k := 13) rfl
      (by simp [frameHeaderFields, frameMagic]) (by simp))
  have hlast : digestAt (encodeFrameHeader X h) 144 = h.lastRecordDigest :=
    digestAt_eq (slice_checksummed (k := 14) rfl
      (by simp [frameHeaderFields, frameMagic]) (by simp))
  have hpayloadCrc : u32At (encodeFrameHeader X h) 176 = h.payloadCrc32c :=
    u32At_eq (slice_checksummed (k := 15) rfl
      (by simp [frameHeaderFields, frameMagic]) (by simp))
  have hcover := take_checksummed (X := X) (frameHeaderFields_length h)
  have hcrc := u32At_checksummed (X := X) (frameHeaderFields_length h)
  rw [decodeFrameHeader, if_neg (by simp), if_neg (by simp [hmagic]),
    if_neg (by rw [hversion, hcodec, hreserved]; simp), if_neg (by simp [hlen, frameHeaderLen]),
    if_neg, hpayload, hstart, hend, hcount, hbatch, hcommand, hdigest, hprevious, hlast,
    hpayloadCrc]
  rw [encodeFrameHeader, hcover, hcrc]
  simp

theorem trailerFields_length (n : UInt64) (d : Digest) :
    (trailerFields n d).flatten.length = frameTrailerLen - 4 := by
  simp [trailerFields, trailerMagic, frameTrailerLen]

@[simp] theorem encodeTrailer_length (n : UInt64) (d : Digest) :
    (encodeTrailer X n d).length = frameTrailerLen :=
  checksummed_length (trailerFields_length n d)

/-! ## Frames -/

theorem frameBytes_length (header : FrameHeader) (stored : StoredBatch) (payload : Bytes) :
    (frameBytes X header stored payload).length =
      frameHeaderLen + payload.length + frameTrailerLen := by
  simp [frameBytes]
  omega

/-- A frame decodes to what it was put together from. -/
theorem decodeCompleteFrame_frameBytes {header : FrameHeader} {stored : StoredBatch}
    {payload : Bytes} (hlen : header.payloadLen.toNat = payload.length)
    (hcrc : header.payloadCrc32c = X.crc32c payload)
    (hfit : frameHeaderLen + payload.length + frameTrailerLen < 2 ^ 64)
    (hjson : X.fromJson payload = .ok stored) :
    decodeCompleteFrame X (frameBytes X header stored payload) = .ok ⟨header, stored⟩ := by
  have htotal := frameBytes_length (X := X) header stored payload
  have hheader : (frameBytes X header stored payload).take frameHeaderLen =
      encodeFrameHeader X header := List.take_left' (encodeFrameHeader_length header)
  have hframeLen : frameLen header = .ok (frameHeaderLen + payload.length + frameTrailerLen) := by
    rw [frameLen, hlen, if_pos (by omega)]
    congr 1
    omega
  have hpayload : slice (frameBytes X header stored payload) frameHeaderLen payload.length =
      payload := by
    rw [frameBytes, slice_append_right (by simp), encodeFrameHeader_length, Nat.sub_self,
      slice_append_exact rfl]
  generalize htrailer : encodeTrailer X
    (UInt64.ofNat (frameHeaderLen + payload.length + frameTrailerLen)) stored.batchDigest = trailer
  have hdrop : (frameBytes X header stored payload).drop (frameHeaderLen + payload.length) =
      trailer := by
    rw [frameBytes, htrailer, ← List.append_assoc]
    exact List.drop_left' (by simp)
  have hmagic : trailer.take 8 = trailerMagic :=
    htrailer ▸ slice_checksummed (k := 0) rfl rfl rfl
  have htrailerLen : (u64At trailer 8).toNat =
      frameHeaderLen + payload.length + frameTrailerLen := by
    have hfield : u64At trailer 8 =
        UInt64.ofNat (frameHeaderLen + payload.length + frameTrailerLen) :=
      htrailer ▸ u64At_eq (slice_checksummed (k := 1) rfl rfl (by simp))
    rw [hfield, UInt64.toNat_ofNat_of_lt' hfit]
  have hdigest : digestAt trailer 16 = stored.batchDigest :=
    htrailer ▸ digestAt_eq (slice_checksummed (k := 2) rfl rfl (by simp))
  have htrailerCrc : u32At trailer (frameTrailerLen - 4) =
      X.crc32c (trailer.take (frameTrailerLen - 4)) := by
    rw [← htrailer, encodeTrailer, u32At_checksummed (trailerFields_length _ _),
      take_checksummed (trailerFields_length _ _)]
  rw [decodeCompleteFrame, if_neg (by omega), hheader, decodeFrameHeader_encode]
  simp only [hframeLen, htotal, Nat.add_sub_cancel, Nat.add_sub_cancel_left, hpayload, hdrop,
    hcrc, hmagic, htrailerLen, htrailerCrc, hjson, hdigest, ne_eq, not_true_eq_false, if_false]

/-- A frame that decodes has a header that decodes and announces the length of
the frame. -/
theorem frameLen_of_decodeCompleteFrame {bytes : Bytes} {d : DecodedFrame}
    (h : decodeCompleteFrame X bytes = .ok d) :
    decodeFrameHeader X (bytes.take frameHeaderLen) = .ok d.header ∧
      frameLen d.header = .ok bytes.length ∧
      bytes.length = frameHeaderLen + frameTrailerLen + d.header.payloadLen.toNat ∧
      bytes.length < 2 ^ 64 := by
  unfold decodeCompleteFrame at h
  split at h; · cases h
  split at h; · cases h
  rename_i header hheader
  split at h; · cases h
  rename_i expectedLen hlen
  split at h; · cases h
  rename_i hsize
  simp only at h
  split at h; · cases h
  split at h; · cases h
  split at h; · cases h
  split at h; · cases h
  split at h; · cases h
  split at h; · cases h
  obtain rfl := (Except.ok.inj h).symm
  have hexpected : bytes.length = expectedLen := by simpa using hsize
  refine ⟨hheader, hexpected ▸ hlen, ?_⟩
  unfold frameLen at hlen
  split at hlen
  · obtain rfl := (Except.ok.inj hlen).symm
    exact ⟨hexpected, hexpected ▸ ‹_›⟩
  · cases hlen

/-- What `encode_batch` returns, when it returns a frame. -/
structure EncodeSpec (X : Externals) (batch : JournalBatch) (durability : JournalDurability)
    (maxPayloadBytes : Nat) (encoded : EncodedFrame) : Prop where
  stored : encoded.stored = storedBatch X batch durability
  decodes : X.RoundTrips → decodeCompleteFrame X encoded.bytes = .ok ⟨encoded.header, encoded.stored⟩
  payload_le : encoded.header.payloadLen.toNat ≤ maxPayloadBytes
  length_le : encoded.bytes.length ≤ isizeMax

theorem encodeBatch_spec {batch : JournalBatch} {durability : JournalDurability}
    {maxPayloadBytes : Nat} {encoded : EncodedFrame}
    (h : encodeBatch X batch durability maxPayloadBytes = .ok encoded) :
    EncodeSpec X batch durability maxPayloadBytes encoded := by
  unfold encodeBatch at h
  simp only at h
  split at h
  · split at h; · cases h
    split at h; · cases h
    rename_i hmax
    split at h; · cases h
    rename_i hsize
    obtain rfl := (Except.ok.inj h).symm
    have hfit : frameHeaderLen + (X.toJson (storedBatch X batch durability)).length +
        frameTrailerLen < 2 ^ 64 := by
      unfold isizeMax at hsize
      omega
    have hlen : (UInt64.ofNat (X.toJson (storedBatch X batch durability)).length).toNat =
        (X.toJson (storedBatch X batch durability)).length :=
      UInt64.toNat_ofNat_of_lt' (by unfold UInt64.size; omega)
    refine ⟨rfl, fun hX ↦ decodeCompleteFrame_frameBytes hlen rfl hfit (hX _), ?_, ?_⟩
    · exact hlen ▸ Nat.not_lt.mp hmax
    · rw [frameBytes_length]
      exact Nat.not_lt.mp hsize
  · cases h

/-- What `encode_batch` returns for a batch that fits. -/
theorem encodeBatch_eq_ok {batch : JournalBatch} {durability : JournalDurability}
    {maxPayloadBytes : Nat} {first last : ThreadEventEnvelope}
    (hfirst : batch.events.head? = some first) (hlast : batch.events.getLast? = some last)
    (hcount : batch.events.length < 2 ^ 32)
    (hmax : (X.toJson (storedBatch X batch durability)).length ≤ maxPayloadBytes)
    (hcapacity : frameHeaderLen + (X.toJson (storedBatch X batch durability)).length +
      frameTrailerLen ≤ isizeMax) :
    ∃ encoded, encodeBatch X batch durability maxPayloadBytes = .ok encoded ∧
      encoded.stored = storedBatch X batch durability ∧
      encoded.header = frameHeader X (storedBatch X batch durability) first last
        (X.toJson (storedBatch X batch durability)) := by
  let payload := X.toJson (storedBatch X batch durability)
  let header := frameHeader X (storedBatch X batch durability) first last payload
  refine ⟨⟨frameBytes X header (storedBatch X batch durability) payload, header,
    storedBatch X batch durability⟩, ?_, rfl, rfl⟩
  have hfirst' : (storedBatch X batch durability).events.head? = some first := hfirst
  have hlast' : (storedBatch X batch durability).events.getLast? = some last := hlast
  have hcount' : ¬ 2 ^ 32 ≤ (storedBatch X batch durability).events.length := Nat.not_le.mpr hcount
  simp only [encodeBatch, hfirst', hlast', hcount', Nat.not_lt.mpr hmax, Nat.not_lt.mpr hcapacity,
    if_false]
  rfl

/-! ## Validation -/

/-- The head after some events of a thread. -/
def headAfter (events : List ThreadEventEnvelope) : ThreadHead :=
  match events.getLast? with
  | none => .empty
  | some event => ⟨event.revision, event.recordDigest⟩

/-- An event that continues a head, and the head after it. -/
structure EventFollows (X : Externals) (threadId : ThreadId) (head : ThreadHead)
    (event : ThreadEventEnvelope) (head' : ThreadHead) : Prop where
  threadId_eq : event.threadId = threadId
  revision_eq : event.revision.toNat = head.revision.toNat + 1
  previous_eq : event.previousRecordDigest = head.recordDigest
  valid : event.hasValidDigests X.sha256 = true
  head_eq : head' = ⟨event.revision, event.recordDigest⟩

/-- A frame that continues a head, and the head after it: everything
`validate_stored_batch` establishes. -/
structure FrameFollows (X : Externals) (threadId : ThreadId) (head : ThreadHead)
    (frame : DecodedFrame) (head' : ThreadHead) : Prop where
  commandId_eq : frame.header.commandId = frame.stored.commandId.uuid.bytes
  previous_eq : frame.header.previousRecordDigest = head.recordDigest
  start_eq : frame.header.startRevision.toNat = head.revision.toNat + 1
  end_eq : head' = ⟨frame.header.endRevision, frame.header.lastRecordDigest⟩
  events : Steps (EventFollows X threadId) head frame.stored.events head'
  events_ne : frame.stored.events ≠ []
  eventIds_nodup : (frame.stored.events.map ThreadEventEnvelope.eventId).Nodup
  receipt : ∃ receipt, deriveReceipt X frame.stored = .ok receipt

/-- A batch whose receipt encoding validates has a receipt. -/
theorem deriveReceipt_of_validateReceiptEncoding {stored : StoredBatch}
    (h : validateReceiptEncoding X stored = .ok ()) :
    ∃ receipt, deriveReceipt X stored = .ok receipt := by
  unfold validateReceiptEncoding at h
  unfold deriveReceipt
  split at h
  · rename_i hlegacy
    rw [if_pos hlegacy]
    split at h; · cases h
    split at h; · cases h
    rename_i receipt hreceipt
    exact ⟨receipt, by rw [hreceipt]⟩
  · rename_i hlegacy
    rw [if_neg hlegacy]
    split at h
    · rename_i hversion
      rw [if_pos hversion]
      split at h; · cases h
      rename_i hmeta
      simp only [not_or, Bool.not_eq_true, ne_eq, not_not] at hmeta
      obtain ⟨-, hdur, hschema⟩ := hmeta
      rw [hschema]
      cases hd : stored.durability with
      | none => simp [hd] at hdur
      | some durability => exact ⟨_, rfl⟩
    · cases h

/-- The loop over the events: they follow one another from the head in front of
the batch, and no identifier repeats or was seen before. -/
theorem validateEvents_spec {threadId : ThreadId} {batchId : BatchId}
    {revisionBefore : ThreadRevision} {checkDuplicateIds : Bool} {events : List ThreadEventEnvelope}
    {index : Nat} (head : ThreadHead) {seen : List EventId}
    (hfit : index + events.length < 2 ^ 64)
    (hhead : head.revision.toNat = revisionBefore.toNat + index)
    (h : validateEvents X threadId batchId revisionBefore checkDuplicateIds index
      head.recordDigest seen events = .ok ()) :
    (∃ head', Steps (EventFollows X threadId) head events head' ∧
      ∀ last, events.getLast? = some last → head' = ⟨last.revision, last.recordDigest⟩) ∧
    (checkDuplicateIds → (events.map ThreadEventEnvelope.eventId).Nodup ∧
      ∀ event ∈ events, event.eventId ∉ seen) := by
  induction events generalizing index head seen with
  | nil => exact ⟨⟨head, .nil head, by simp⟩, by simp⟩
  | cons event events ih =>
    simp only [List.length_cons] at hfit
    unfold validateEvents at h
    split at h; · cases h
    rename_i revision hrevision
    split at h; · cases h
    rename_i hevent
    split at h; · cases h
    rename_i hid
    simp only [not_or, ne_eq, not_not, Bool.not_eq_true, Bool.not_eq_false'] at hevent
    obtain ⟨hthread, -, -, hrev, hprev, hvalid⟩ := hevent
    have hnext : revision.toNat = revisionBefore.toNat + (index + 1) := by
      have := ThreadRevision.checkedAdvance_eq_some_iff.mp hrevision
      rw [UInt64.toNat_ofNat_of_lt' (by unfold UInt64.size; omega)] at this
      exact this.symm
    have hfollows : EventFollows X threadId head event ⟨event.revision, event.recordDigest⟩ :=
      ⟨hthread, by rw [hrev, hnext, hhead]; omega, hprev, by simpa using hvalid, rfl⟩
    obtain ⟨⟨head', hsteps, hlast⟩, hids⟩ :=
      ih ⟨event.revision, event.recordDigest⟩ (by omega) (by rw [hrev, hnext]) h
    refine ⟨⟨head', .cons hfollows hsteps, ?_⟩, ?_⟩
    · intro last hl
      cases events with
      | nil =>
        simp only [List.getLast?_singleton, Option.some.injEq] at hl
        subst hl
        exact (steps_nil_iff.mp hsteps).symm
      | cons e es => exact hlast last (by simpa [List.getLast?_cons_cons] using hl)
    · intro hc
      obtain ⟨hnodup, hfresh⟩ := hids hc
      refine ⟨?_, ?_⟩
      · rw [List.map_cons, List.nodup_cons]
        refine ⟨?_, hnodup⟩
        intro hmem
        obtain ⟨e, he, heq⟩ := List.mem_map.mp hmem
        exact hfresh e he (heq ▸ List.mem_cons_self)
      · intro e he
        rcases List.mem_cons.mp he with rfl | he
        · exact fun hmem ↦ hid ⟨hc, hmem⟩
        · exact fun hmem ↦ hfresh e he (List.mem_cons_of_mem _ hmem)

/-- A batch that validates continues the head it was validated against. -/
theorem validateStoredBatch_spec {header : FrameHeader} {stored : StoredBatch}
    {threadId : ThreadId} {head head' : ThreadHead}
    (h : validateStoredBatch X header stored threadId head = .ok head') :
    FrameFollows X threadId head ⟨header, stored⟩ head' := by
  unfold validateStoredBatch at h
  split at h; · cases h
  rename_i hreceipt
  split at h; · cases h
  rename_i hidentity
  split at h; · cases h
  rename_i hcontinue
  split at h; · cases h
  rename_i hcount
  split at h; · cases h
  rename_i start hstart
  split at h; · cases h
  rename_i hfirst
  split at h; · cases h
  rename_i hevents
  split at h; · cases h
  rename_i last hlast
  split at h; · cases h
  rename_i hend
  split at h; · cases h
  simp only [not_or, ne_eq, not_not] at hidentity hcontinue hcount hfirst hend
  obtain rfl := (Except.ok.inj h).symm
  have hlen : stored.events.length < 2 ^ 64 := by
    have := header.eventCount.toNat_lt
    omega
  obtain ⟨⟨head', hsteps, hhead'⟩, hids⟩ :=
    validateEvents_spec head (by omega) (by omega) hevents
  refine
    { commandId_eq := hidentity.2.2.1
      previous_eq := hcontinue.2
      start_eq := by rw [hfirst, ← ThreadRevision.checkedNext_eq_some_iff.mp hstart]
      end_eq := by rw [hend.1, hend.2]
      events := hhead' last hlast ▸ hsteps
      events_ne := List.ne_nil_of_mem (List.mem_of_getLast? hlast)
      eventIds_nodup := ?_
      receipt := deriveReceipt_of_validateReceiptEncoding hreceipt }
  by_cases hmany : 1 < stored.events.length
  · exact (hids (by simpa using hmany)).1
  · match stored.events, hmany with
    | [], _ => simp
    | [event], _ => simp
    | _ :: _ :: _, hmany => simp at hmany

/-- A batch as `encode_batch` stores it validates when its events do. -/
theorem validateStoredBatch_storedBatch {batch : JournalBatch} {durability : JournalDurability}
    {threadId : ThreadId} {head : ThreadHead} {first last : ThreadEventEnvelope} {payload : Bytes}
    (hthread : batch.threadId = threadId) (hrevision : batch.expectedRevision = head.revision)
    (hcount : 0 < batch.events.length ∧ batch.events.length < 2 ^ 32)
    (hprevious : first.previousRecordDigest = head.recordDigest)
    (hnext : head.revision.checkedNext = some first.revision)
    (hlast : batch.events.getLast? = some last)
    (hevents : validateEvents X threadId batch.batchId head.revision (1 < batch.events.length) 0
      head.recordDigest [] batch.events = .ok ()) :
    validateStoredBatch X (frameHeader X (storedBatch X batch durability) first last payload)
      (storedBatch X batch durability) threadId head = .ok ⟨last.revision, last.recordDigest⟩ := by
  have hlength : (UInt32.ofNat batch.events.length).toNat = batch.events.length :=
    UInt32.toNat_ofNat_of_lt' (by unfold UInt32.size; omega)
  have hzero : UInt32.ofNat batch.events.length ≠ 0 := by
    intro h
    rw [h] at hlength
    exact absurd hlength.symm hcount.1.ne'
  have hreceipt : validateReceiptEncoding X (storedBatch X batch durability) = .ok () := by
    cases durability <;> rfl
  have hdigest : computeStoredBatchDigest X (storedBatch X batch durability) =
      computeBatchDigest X batch := rfl
  simp only [validateStoredBatch, hreceipt, hdigest]
  simp only [storedBatch, frameHeader, hthread, hrevision, hprevious, hlength, hzero, hnext, hlast,
    hevents, ne_eq, not_true_eq_false, or_self, if_false]

end Praxis.Journal

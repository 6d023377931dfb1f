import Mathlib
import Praxis.Foundation.Bytes

/-!
# UTF-8

`fromUtf8` validates bytes as the standard library's `from_utf8` does: it takes one code
point after another (`next`) and tells bytes that break off inside a code point from bytes
that no code point starts with.

The encoding is Lean's own (`String.utf8EncodeChar`).  A code point is read exactly from its
encoding (`next_encode`, `eq_of_next_char`), and the input breaks off exactly inside one
(`partial_of_next_incomplete`, `next_of_partial`).  For whole texts this gives
`fromUtf8_cases`, and bytes that are refused outright stay invalid whatever follows
(`encode_append_ne_of_invalid`).

`lossy` reads on behind what is wrong.  A byte below 128 is a code point of its own wherever it
stands (`encode_split`).
-/

namespace Praxis.Foundation.Utf8

/-- The encoding of a text. -/
def encode (text : List Char) : Bytes := text.flatMap String.utf8EncodeChar

@[simp] theorem encode_nil : encode [] = [] := rfl

@[simp] theorem encode_cons (c : Char) (text : List Char) :
    encode (c :: text) = String.utf8EncodeChar c ++ encode text := List.flatMap_cons

theorem encode_append (text more : List Char) :
    encode (text ++ more) = encode text ++ encode more := List.flatMap_append

/-- Bytes that break off inside a code point. -/
def Partial (bytes : Bytes) : Prop :=
  bytes ≠ [] ∧ ∃ c more, more ≠ [] ∧ bytes ++ more = String.utf8EncodeChar c

/-! ## One code point -/

/-- What stands at the front of bytes. -/
inductive Next where
  | char (c : Char) (rest : Bytes)
  | incomplete
  | invalid (len : Nat)

/-- A continuation byte. -/
def isTail (b : UInt8) : Bool := 0x80 ≤ b.toNat && b.toNat ≤ 0xBF

/-- The second byte of a code point of three bytes. -/
def isSecondOfThree (b0 b1 : UInt8) : Bool :=
  if b0.toNat = 0xE0 then 0xA0 ≤ b1.toNat && b1.toNat ≤ 0xBF
  else if b0.toNat = 0xED then 0x80 ≤ b1.toNat && b1.toNat ≤ 0x9F
  else isTail b1

/-- The second byte of a code point of four bytes. -/
def isSecondOfFour (b0 b1 : UInt8) : Bool :=
  if b0.toNat = 0xF0 then 0x90 ≤ b1.toNat && b1.toNat ≤ 0xBF
  else if b0.toNat = 0xF4 then 0x80 ≤ b1.toNat && b1.toNat ≤ 0x8F
  else isTail b1

/-- The bits of a first byte of a code point, and those of continuation bytes behind them. -/
def assemble (lead : Nat) (tails : List UInt8) : Char :=
  Char.ofNat (tails.foldl (fun n b ↦ n * 64 + (b.toNat - 0x80)) lead)

/-- Read the second byte of two. -/
def next2 (b0 : UInt8) : Bytes → Next
  | [] => .incomplete
  | b1 :: rest => if isTail b1 then .char (assemble (b0.toNat - 0xC0) [b1]) rest else .invalid 1

/-- Read the bytes of three behind the first. -/
def next3 (b0 : UInt8) : Bytes → Next
  | [] => .incomplete
  | b1 :: bytes =>
    if isSecondOfThree b0 b1 then
      match bytes with
      | [] => .incomplete
      | b2 :: rest =>
        if isTail b2 then .char (assemble (b0.toNat - 0xE0) [b1, b2]) rest else .invalid 2
    else .invalid 1

/-- Read the bytes of four behind the first. -/
def next4 (b0 : UInt8) : Bytes → Next
  | [] => .incomplete
  | b1 :: bytes =>
    if isSecondOfFour b0 b1 then
      match bytes with
      | [] => .incomplete
      | b2 :: bytes =>
        if isTail b2 then
          match bytes with
          | [] => .incomplete
          | b3 :: rest =>
            if isTail b3 then .char (assemble (b0.toNat - 0xF0) [b1, b2, b3]) rest else .invalid 3
        else .invalid 2
    else .invalid 1

/-- The code point at the front of bytes. -/
def next : Bytes → Next
  | [] => .incomplete
  | b0 :: bytes =>
    if b0.toNat < 0x80 then .char (assemble b0.toNat []) bytes
    else if 0xC2 ≤ b0.toNat ∧ b0.toNat ≤ 0xDF then next2 b0 bytes
    else if 0xE0 ≤ b0.toNat ∧ b0.toNat ≤ 0xEF then next3 b0 bytes
    else if 0xF0 ≤ b0.toNat ∧ b0.toNat ≤ 0xF4 then next4 b0 bytes
    else .invalid 1

private theorem toNat_byte {n : Nat} (h : n < 256) : (UInt8.ofNat n).toNat = n := by
  rw [UInt8.toNat_ofNat']
  exact Nat.mod_eq_of_lt h

/-- The encoding of a code point is read as that code point. -/
theorem next_encode (c : Char) (rest : Bytes) :
    next (String.utf8EncodeChar c ++ rest) = .char c rest := by
  have hvalid : c.toNat < 0xD800 ∨ 0xDFFF < c.toNat ∧ c.toNat < 0x110000 := c.valid
  have hc : ∀ n, n = c.toNat → Char.ofNat n = c := fun n hn ↦ hn ▸ Char.ofNat_toNat c
  have hval : c.val.toNat = c.toNat := rfl
  unfold String.utf8EncodeChar
  rw [hval]
  generalize c.toNat = v at *
  dsimp only
  split_ifs with h1 h2 h3
  · have hb0 := toNat_byte (show v < 256 by omega)
    simp only [List.singleton_append, next, hb0]
    rw [if_pos (by omega)]
    exact congrArg (Next.char · rest) (hc _ rfl)
  · have hb0 := toNat_byte (show v / 64 % 32 + 192 < 256 by omega)
    have hb1 := toNat_byte (show v % 64 + 128 < 256 by omega)
    simp only [List.cons_append, List.nil_append, next, next2, isTail, hb0, hb1]
    rw [if_neg (by omega), if_pos (by omega), if_pos (by simp; omega)]
    refine congrArg (Next.char · rest) (hc _ ?_)
    simp only [List.foldl_cons, List.foldl_nil, hb1]
    omega
  · have hb0 := toNat_byte (show v / 4096 % 16 + 224 < 256 by omega)
    have hb1 := toNat_byte (show v / 64 % 64 + 128 < 256 by omega)
    have hb2 := toNat_byte (show v % 64 + 128 < 256 by omega)
    have hsecond : isSecondOfThree (UInt8.ofNat (v / 4096 % 16 + 224))
        (UInt8.ofNat (v / 64 % 64 + 128)) = true := by
      simp only [isSecondOfThree, isTail, hb0, hb1]
      split_ifs <;> simp <;> omega
    simp only [List.cons_append, List.nil_append, next, next3, isTail, hb0, hb2, hsecond, if_true]
    rw [if_neg (by omega), if_neg (by omega), if_pos (by omega), if_pos (by simp; omega)]
    refine congrArg (Next.char · rest) (hc _ ?_)
    simp only [List.foldl_cons, List.foldl_nil, hb1, hb2]
    omega
  · have hb0 := toNat_byte (show v / 262144 % 8 + 240 < 256 by omega)
    have hb1 := toNat_byte (show v / 4096 % 64 + 128 < 256 by omega)
    have hb2 := toNat_byte (show v / 64 % 64 + 128 < 256 by omega)
    have hb3 := toNat_byte (show v % 64 + 128 < 256 by omega)
    have hsecond : isSecondOfFour (UInt8.ofNat (v / 262144 % 8 + 240))
        (UInt8.ofNat (v / 4096 % 64 + 128)) = true := by
      simp only [isSecondOfFour, isTail, hb0, hb1]
      split_ifs <;> simp <;> omega
    simp only [List.cons_append, List.nil_append, next, next4, isTail, hb0, hb2, hb3, hsecond,
      if_true]
    rw [if_neg (by omega), if_neg (by omega), if_neg (by omega), if_pos (by omega),
      if_pos (by simp; omega), if_pos (by simp; omega)]
    refine congrArg (Next.char · rest) (hc _ ?_)
    simp only [List.foldl_cons, List.foldl_nil, hb1, hb2, hb3]
    omega

private theorem ofNat_eq {n : Nat} {b : UInt8} (h : n = b.toNat) : UInt8.ofNat n = b := by
  rw [h, UInt8.ofNat_toNat]

private theorem val_ofNat {v : Nat} (h : v < 0xD800 ∨ 0xDFFF < v ∧ v < 0x110000) :
    (Char.ofNat v).val.toNat = v := by
  have hvalid : v.isValidChar := h
  simp only [Char.ofNat, dif_pos hvalid]
  rfl

private theorem next2_char {b0 : UInt8} {bytes rest : Bytes} {c : Char}
    (h : next2 b0 bytes = .char c rest) :
    ∃ b1, bytes = b1 :: rest ∧ isTail b1 = true ∧ c = assemble (b0.toNat - 0xC0) [b1] := by
  rcases bytes with _ | ⟨b1, bytes⟩
  · cases h
  · simp only [next2] at h
    split_ifs at h with htail
    obtain ⟨rfl, rfl⟩ := Next.char.inj h
    exact ⟨b1, rfl, htail, rfl⟩

private theorem next3_char {b0 : UInt8} {bytes rest : Bytes} {c : Char}
    (h : next3 b0 bytes = .char c rest) :
    ∃ b1 b2, bytes = b1 :: b2 :: rest ∧ isSecondOfThree b0 b1 = true ∧ isTail b2 = true ∧
      c = assemble (b0.toNat - 0xE0) [b1, b2] := by
  rcases bytes with _ | ⟨b1, _ | ⟨b2, bytes⟩⟩
  · cases h
  · simp only [next3] at h
    split_ifs at h
  · simp only [next3] at h
    split_ifs at h with hsecond htail
    obtain ⟨rfl, rfl⟩ := Next.char.inj h
    exact ⟨b1, b2, rfl, hsecond, htail, rfl⟩

private theorem next4_char {b0 : UInt8} {bytes rest : Bytes} {c : Char}
    (h : next4 b0 bytes = .char c rest) :
    ∃ b1 b2 b3, bytes = b1 :: b2 :: b3 :: rest ∧ isSecondOfFour b0 b1 = true ∧
      isTail b2 = true ∧ isTail b3 = true ∧ c = assemble (b0.toNat - 0xF0) [b1, b2, b3] := by
  rcases bytes with _ | ⟨b1, _ | ⟨b2, _ | ⟨b3, bytes⟩⟩⟩
  · cases h
  · simp only [next4] at h
    split_ifs at h
  · simp only [next4] at h
    split_ifs at h
  · simp only [next4] at h
    split_ifs at h with hsecond htail hlast
    obtain ⟨rfl, rfl⟩ := Next.char.inj h
    exact ⟨b1, b2, b3, rfl, hsecond, htail, hlast, rfl⟩

private theorem isTail_iff {b : UInt8} : isTail b = true ↔ 0x80 ≤ b.toNat ∧ b.toNat ≤ 0xBF := by
  rw [isTail, Bool.and_eq_true, decide_eq_true_eq, decide_eq_true_eq]

/-- The bounds on a second byte keep out surrogates and what fits fewer bytes. -/
private theorem isSecondOfThree_bounds {b0 b1 : UInt8} (h : isSecondOfThree b0 b1 = true) :
    0x80 ≤ b1.toNat ∧ b1.toNat ≤ 0xBF ∧ (b0.toNat = 0xE0 → 0xA0 ≤ b1.toNat) ∧
      (b0.toNat = 0xED → b1.toNat ≤ 0x9F) := by
  simp only [isSecondOfThree, isTail] at h
  split_ifs at h with h0 h1 <;> simp only [Bool.and_eq_true, decide_eq_true_eq] at h <;> omega

/-- The bounds on a second byte keep out what fits fewer bytes and what is no code point. -/
private theorem isSecondOfFour_bounds {b0 b1 : UInt8} (h : isSecondOfFour b0 b1 = true) :
    0x80 ≤ b1.toNat ∧ b1.toNat ≤ 0xBF ∧ (b0.toNat = 0xF0 → 0x90 ≤ b1.toNat) ∧
      (b0.toNat = 0xF4 → b1.toNat ≤ 0x8F) := by
  simp only [isSecondOfFour, isTail] at h
  split_ifs at h with h0 h1 <;> simp only [Bool.and_eq_true, decide_eq_true_eq] at h <;> omega

private theorem encode_ofNat {v : Nat} (h : v < 0xD800 ∨ 0xDFFF < v ∧ v < 0x110000) :
    String.utf8EncodeChar (Char.ofNat v) =
      if v ≤ 0x7f then [UInt8.ofNat v]
      else if v ≤ 0x7ff then [UInt8.ofNat (v / 64 % 32 + 192), UInt8.ofNat (v % 64 + 128)]
      else if v ≤ 0xffff then [UInt8.ofNat (v / 4096 % 16 + 224),
        UInt8.ofNat (v / 64 % 64 + 128), UInt8.ofNat (v % 64 + 128)]
      else [UInt8.ofNat (v / 262144 % 8 + 240), UInt8.ofNat (v / 4096 % 64 + 128),
        UInt8.ofNat (v / 64 % 64 + 128), UInt8.ofNat (v % 64 + 128)] := by
  rw [String.utf8EncodeChar, val_ofNat h]

/-- What is read as a code point is its encoding. -/
theorem eq_of_next_char {bytes rest : Bytes} {c : Char} (h : next bytes = .char c rest) :
    bytes = String.utf8EncodeChar c ++ rest := by
  cases bytes with
  | nil => cases h
  | cons b0 bytes =>
    simp only [next] at h
    split_ifs at h with hone htwo hthree hfour
    · obtain ⟨rfl, rfl⟩ := Next.char.inj h
      rw [assemble, List.foldl_nil, encode_ofNat (by omega), if_pos (by omega), ofNat_eq rfl]
      rfl
    · obtain ⟨b1, rfl, htail, hc⟩ := next2_char h
      rw [isTail_iff] at htail
      rw [hc, assemble, List.foldl_cons, List.foldl_nil, encode_ofNat (by omega), if_neg (by omega),
        if_pos (by omega), ofNat_eq (b := b0) (by omega), ofNat_eq (b := b1) (by omega)]
      rfl
    · obtain ⟨b1, b2, rfl, hsecond, htail, hc⟩ := next3_char h
      have hb1 := isSecondOfThree_bounds hsecond
      rw [isTail_iff] at htail
      rw [hc, assemble, List.foldl_cons, List.foldl_cons, List.foldl_nil, encode_ofNat (by omega),
        if_neg (by omega), if_neg (by omega), if_pos (by omega), ofNat_eq (b := b0) (by omega),
        ofNat_eq (b := b1) (by omega), ofNat_eq (b := b2) (by omega)]
      rfl
    · obtain ⟨b1, b2, b3, rfl, hsecond, htail, hlast, hc⟩ := next4_char h
      have hb1 := isSecondOfFour_bounds hsecond
      rw [isTail_iff] at htail hlast
      rw [hc, assemble, List.foldl_cons, List.foldl_cons, List.foldl_cons, List.foldl_nil,
        encode_ofNat (by omega), if_neg (by omega), if_neg (by omega), if_neg (by omega),
        ofNat_eq (b := b0) (by omega), ofNat_eq (b := b1) (by omega),
        ofNat_eq (b := b2) (by omega), ofNat_eq (b := b3) (by omega)]
      rfl

private theorem next2_append {b0 : UInt8} {bytes : Bytes} {len : Nat}
    (h : next2 b0 bytes = .invalid len) (more : Bytes) :
    next2 b0 (bytes ++ more) = .invalid len := by
  rcases bytes with _ | ⟨b1, bytes⟩
  · cases h
  · simp only [List.cons_append, next2] at h ⊢
    split_ifs at h ⊢
    exact h

private theorem next3_append {b0 : UInt8} {bytes : Bytes} {len : Nat}
    (h : next3 b0 bytes = .invalid len) (more : Bytes) :
    next3 b0 (bytes ++ more) = .invalid len := by
  rcases bytes with _ | ⟨b1, _ | ⟨b2, bytes⟩⟩
  · cases h
  all_goals
    simp only [List.cons_append, List.nil_append, next3] at h ⊢
    split_ifs at h ⊢
    all_goals exact h

private theorem next4_append {b0 : UInt8} {bytes : Bytes} {len : Nat}
    (h : next4 b0 bytes = .invalid len) (more : Bytes) :
    next4 b0 (bytes ++ more) = .invalid len := by
  rcases bytes with _ | ⟨b1, _ | ⟨b2, _ | ⟨b3, bytes⟩⟩⟩
  · cases h
  all_goals
    simp only [List.cons_append, List.nil_append, next4] at h ⊢
    split_ifs at h ⊢
    all_goals exact h

/-- Bytes that no code point starts with stay so. -/
theorem next_append_of_invalid {bytes : Bytes} {len : Nat} (h : next bytes = .invalid len)
    (more : Bytes) : next (bytes ++ more) = .invalid len := by
  rcases bytes with _ | ⟨b0, bytes⟩
  · cases h
  · simp only [List.cons_append, next] at h ⊢
    split_ifs at h ⊢
    · exact next2_append h more
    · exact next3_append h more
    · exact next4_append h more
    · exact h

/-- Bytes that break off inside a code point are read as incomplete. -/
theorem next_of_partial {bytes : Bytes} (h : Partial bytes) : next bytes = .incomplete := by
  obtain ⟨_, c, more, hmore, hwhole⟩ := h
  have hnext : next (bytes ++ more) = .char c [] := by
    rw [hwhole, ← next_encode c [], List.append_nil]
  cases hbytes : next bytes with
  | incomplete => rfl
  | invalid len => cases hnext.symm.trans (next_append_of_invalid hbytes more)
  | char c' rest =>
    rw [eq_of_next_char hbytes, List.append_assoc, next_encode] at hnext
    obtain ⟨_, hrest⟩ := Next.char.inj hnext
    exact absurd (List.append_eq_nil_iff.mp hrest).2 hmore

private theorem next2_completes {b0 : UInt8} {bytes : Bytes} (h : next2 b0 bytes = .incomplete) :
    ∃ more, more ≠ [] ∧ ∃ c, next2 b0 (bytes ++ more) = .char c [] := by
  rcases bytes with _ | ⟨b1, bytes⟩
  · exact ⟨[0x80], List.cons_ne_nil _ _, _, rfl⟩
  · simp only [next2] at h
    split_ifs at h

/-- A second byte of three exists. -/
private theorem exists_isSecondOfThree (b0 : UInt8) : ∃ b1, isSecondOfThree b0 b1 = true := by
  unfold isSecondOfThree
  split_ifs
  · exact ⟨0xA0, rfl⟩
  · exact ⟨0x80, rfl⟩
  · exact ⟨0x80, rfl⟩

/-- A second byte of four exists. -/
private theorem exists_isSecondOfFour (b0 : UInt8) : ∃ b1, isSecondOfFour b0 b1 = true := by
  unfold isSecondOfFour
  split_ifs
  · exact ⟨0x90, rfl⟩
  · exact ⟨0x80, rfl⟩
  · exact ⟨0x80, rfl⟩

private theorem next3_completes {b0 : UInt8} {bytes : Bytes} (h : next3 b0 bytes = .incomplete) :
    ∃ more, more ≠ [] ∧ ∃ c, next3 b0 (bytes ++ more) = .char c [] := by
  rcases bytes with _ | ⟨b1, _ | ⟨b2, bytes⟩⟩
  · obtain ⟨b1, hsecond⟩ := exists_isSecondOfThree b0
    refine ⟨[b1, 0x80], List.cons_ne_nil _ _, assemble (b0.toNat - 0xE0) [b1, 0x80], ?_⟩
    simp only [List.nil_append, next3, hsecond, if_true]
    rfl
  · simp only [next3] at h
    split_ifs at h with hsecond
    refine ⟨[0x80], List.cons_ne_nil _ _, assemble (b0.toNat - 0xE0) [b1, 0x80], ?_⟩
    simp only [List.singleton_append, next3, hsecond, if_true]
    rfl
  · simp only [next3] at h
    split_ifs at h

private theorem next4_completes {b0 : UInt8} {bytes : Bytes} (h : next4 b0 bytes = .incomplete) :
    ∃ more, more ≠ [] ∧ ∃ c, next4 b0 (bytes ++ more) = .char c [] := by
  rcases bytes with _ | ⟨b1, _ | ⟨b2, _ | ⟨b3, bytes⟩⟩⟩
  · obtain ⟨b1, hsecond⟩ := exists_isSecondOfFour b0
    refine ⟨[b1, 0x80, 0x80], List.cons_ne_nil _ _, assemble (b0.toNat - 0xF0) [b1, 0x80, 0x80], ?_⟩
    simp only [List.nil_append, next4, hsecond, if_true]
    rfl
  · simp only [next4] at h
    split_ifs at h with hsecond
    refine ⟨[0x80, 0x80], List.cons_ne_nil _ _, assemble (b0.toNat - 0xF0) [b1, 0x80, 0x80], ?_⟩
    simp only [List.singleton_append, next4, hsecond, if_true]
    rfl
  · simp only [next4] at h
    split_ifs at h with hsecond htail
    refine ⟨[0x80], List.cons_ne_nil _ _, assemble (b0.toNat - 0xF0) [b1, b2, 0x80], ?_⟩
    simp only [List.cons_append, List.nil_append, next4, hsecond, htail, if_true]
    rfl
  · simp only [next4] at h
    split_ifs at h

/-- Bytes that are read as incomplete break off inside a code point. -/
theorem partial_of_next_incomplete {bytes : Bytes} (hne : bytes ≠ [])
    (h : next bytes = .incomplete) : Partial bytes := by
  suffices hmore : ∃ more, more ≠ [] ∧ ∃ c, next (bytes ++ more) = .char c [] by
    obtain ⟨more, hne', c, hnext⟩ := hmore
    refine ⟨hne, c, more, hne', ?_⟩
    rw [eq_of_next_char hnext, List.append_nil]
  rcases bytes with _ | ⟨b0, bytes⟩
  · exact absurd rfl hne
  · simp only [next] at h
    simp only [List.cons_append, next]
    split_ifs at h ⊢ with hone htwo hthree hfour
    · exact next2_completes h
    · exact next3_completes h
    · exact next4_completes h

/-! ## Whole texts -/

/-- The error of `from_utf8`: how many bytes are valid, and the length of what is wrong behind
them unless the bytes break off there. -/
structure Utf8Error where
  validUpTo : Nat
  errorLen : Option Nat
  deriving DecidableEq, Repr

/-- Why a scan stops. -/
inductive Stop where
  | done
  | unexpectedEnd
  | invalid (len : Nat)
  deriving DecidableEq, Repr

theorem utf8EncodeChar_ne_nil (c : Char) : String.utf8EncodeChar c ≠ [] := by
  unfold String.utf8EncodeChar
  dsimp only
  split_ifs <;> exact List.cons_ne_nil _ _

theorem length_lt_of_next_char {bytes rest : Bytes} {c : Char} (h : next bytes = .char c rest) :
    rest.length < bytes.length := by
  have hpos : 0 < (String.utf8EncodeChar c).length :=
    List.length_pos_iff.mpr (utf8EncodeChar_ne_nil c)
  rw [eq_of_next_char h, List.length_append]
  omega

/-- Take one code point after another. -/
def scan (bytes : Bytes) : List Char × Stop :=
  if bytes = [] then ([], .done)
  else
    match _h : next bytes with
    | .char c rest => (c :: (scan rest).1, (scan rest).2)
    | .incomplete => ([], .unexpectedEnd)
    | .invalid len => ([], .invalid len)
  termination_by bytes.length
  decreasing_by all_goals exact length_lt_of_next_char _h

/-- `std::str::from_utf8`. -/
def fromUtf8 (bytes : Bytes) : Except Utf8Error (List Char) :=
  match scan bytes with
  | (text, .done) => .ok text
  | (text, .unexpectedEnd) => .error ⟨(encode text).length, none⟩
  | (text, .invalid len) => .error ⟨(encode text).length, some len⟩

theorem scan_nil : scan [] = ([], .done) := by rw [scan, if_pos rfl]

theorem scan_encode_cons (c : Char) (rest : Bytes) :
    scan (String.utf8EncodeChar c ++ rest) = (c :: (scan rest).1, (scan rest).2) := by
  have hne : String.utf8EncodeChar c ++ rest ≠ [] :=
    List.append_ne_nil_of_left_ne_nil (utf8EncodeChar_ne_nil c) _
  rw [scan, if_neg hne]
  split
  · next c' rest' hnext =>
    rw [next_encode] at hnext
    obtain ⟨rfl, rfl⟩ := Next.char.inj hnext
    rfl
  · next hnext => cases (next_encode c rest).symm.trans hnext
  · next hnext => cases (next_encode c rest).symm.trans hnext

/-- A scan takes the encoding of a text in front of anything. -/
theorem scan_encode_append (text : List Char) (rest : Bytes) :
    scan (encode text ++ rest) = (text ++ (scan rest).1, (scan rest).2) := by
  induction text with
  | nil => rfl
  | cons c text ih => rw [encode_cons, List.append_assoc, scan_encode_cons, ih]; rfl

theorem scan_of_partial {tail : Bytes} (h : Partial tail) : scan tail = ([], .unexpectedEnd) := by
  rw [scan, if_neg h.1]
  split
  · next hnext => cases ( next_of_partial h).symm.trans hnext
  · rfl
  · next hnext => cases ( next_of_partial h).symm.trans hnext

theorem scan_of_invalid {tail : Bytes} {len : Nat} (h : next tail = .invalid len) :
    scan tail = ([], .invalid len) := by
  have hne : tail ≠ [] := by
    rintro rfl
    cases h
  rw [scan, if_neg hne]
  split
  · next hnext => cases h.symm.trans hnext
  · next hnext => cases h.symm.trans hnext
  · next hnext => cases h.symm.trans hnext; rfl

/-- Behind what a scan takes stands nothing, a part of a code point or what is none. -/
theorem scan_spec (bytes : Bytes) : ∃ tail, bytes = encode (scan bytes).1 ++ tail ∧
    match (scan bytes).2 with
    | .done => tail = []
    | .unexpectedEnd => Partial tail
    | .invalid len => next tail = .invalid len := by
  induction hn : bytes.length using Nat.strong_induction_on generalizing bytes with
  | _ n ih =>
  subst hn
  by_cases hnil : bytes = []
  · exact ⟨[], by rw [hnil, scan_nil]; rfl, by rw [hnil, scan_nil]⟩
  · cases hnext : next bytes with
    | char c rest =>
      obtain ⟨tail, hrest, htail⟩ := ih rest.length (length_lt_of_next_char hnext) rest rfl
      have hscan : scan bytes = (c :: (scan rest).1, (scan rest).2) := by
        conv_lhs => rw [eq_of_next_char hnext]
        exact scan_encode_cons c rest
      refine ⟨tail, ?_, ?_⟩
      · rw [hscan, encode_cons, List.append_assoc, ← hrest]
        exact eq_of_next_char hnext
      · rw [hscan]
        exact htail
    | incomplete =>
      have hpartial := partial_of_next_incomplete hnil hnext
      refine ⟨bytes, ?_, ?_⟩
      · rw [ scan_of_partial hpartial]
        rfl
      · rw [ scan_of_partial hpartial]
        exact hpartial
    | invalid len =>
      refine ⟨bytes, ?_, ?_⟩
      · rw [scan_of_invalid hnext]
        rfl
      · rw [scan_of_invalid hnext]
        exact hnext

/-- `from_utf8` accepts the encodings of texts. -/
theorem fromUtf8_encode (text : List Char) : fromUtf8 (encode text) = .ok text := by
  have hscan := scan_encode_append text []
  rw [List.append_nil, scan_nil, List.append_nil] at hscan
  rw [fromUtf8, hscan]

theorem encode_injective : Function.Injective encode := by
  intro text text' h
  exact Except.ok.inj ((fromUtf8_encode text).symm.trans (h ▸ fromUtf8_encode text'))

/-- Bytes that break off inside a code point behind a text. -/
theorem fromUtf8_of_partial (text : List Char) {tail : Bytes} (h : Partial tail) :
    fromUtf8 (encode text ++ tail) = .error ⟨(encode text).length, none⟩ := by
  rw [fromUtf8, scan_encode_append, scan_of_partial h, List.append_nil]

/-- What `from_utf8` says of bytes. -/
theorem fromUtf8_cases (bytes : Bytes) :
    (∃ text, bytes = encode text ∧ fromUtf8 bytes = .ok text) ∨
      (∃ text tail, bytes = encode text ++ tail ∧ Partial tail ∧
        fromUtf8 bytes = .error ⟨(encode text).length, none⟩) ∨
      ∃ text tail len, bytes = encode text ++ tail ∧ next tail = .invalid len ∧
        fromUtf8 bytes = .error ⟨(encode text).length, some len⟩ := by
  obtain ⟨tail, hbytes, htail⟩ := scan_spec bytes
  unfold fromUtf8
  generalize scan bytes = scanned at hbytes htail ⊢
  obtain ⟨text, stop⟩ := scanned
  cases stop with
  | done =>
    have hnil : tail = [] := htail
    exact .inl ⟨text, by rw [hbytes, hnil, List.append_nil], rfl⟩
  | unexpectedEnd => exact .inr (.inl ⟨text, tail, hbytes, htail, rfl⟩)
  | invalid len => exact .inr (.inr ⟨text, tail, len, hbytes, htail, rfl⟩)

/-- Bytes at which no code point starts make every continuation invalid. -/
theorem encode_append_ne_of_invalid {tail : Bytes} {len : Nat} (h : next tail = .invalid len)
    (text whole : List Char) (more : Bytes) : encode text ++ tail ++ more ≠ encode whole := by
  intro heq
  have hstop : (scan (encode text ++ tail ++ more)).2 = .invalid len := by
    rw [List.append_assoc, scan_encode_append, scan_of_invalid (next_append_of_invalid h more)]
  have hdone : (scan (encode whole)).2 = .done := by
    have hscan := scan_encode_append whole []
    rw [List.append_nil, scan_nil] at hscan
    rw [hscan]
  rw [heq, hdone] at hstop
  cases hstop

/-! ## Reading on -/

theorem pos_of_next_invalid {bytes : Bytes} {len : Nat} (h : next bytes = .invalid len) :
    0 < len := by
  rcases bytes with _ | ⟨b0, bytes⟩
  · cases h
  · simp only [next] at h
    split_ifs at h
    · rcases bytes with _ | ⟨b1, bytes⟩ <;> simp only [next2] at h
      · cases h
      · split_ifs at h
        cases h
        exact Nat.one_pos
    · rcases bytes with _ | ⟨b1, _ | ⟨b2, bytes⟩⟩ <;> simp only [next3] at h
      · cases h
      all_goals split_ifs at h <;> cases h <;> decide
    · rcases bytes with _ | ⟨b1, _ | ⟨b2, _ | ⟨b3, bytes⟩⟩⟩ <;> simp only [next4] at h
      · cases h
      all_goals split_ifs at h <;> cases h <;> decide
    · cases h
      exact Nat.one_pos

/-- `String::from_utf8_lossy`: what is no code point is replaced. -/
def lossy (bytes : Bytes) : List Char :=
  if _hne : bytes = [] then []
  else
    match _h : next bytes with
    | .char c rest => c :: lossy rest
    | .incomplete => ['\uFFFD']
    | .invalid len => '\uFFFD' :: lossy (bytes.drop len)
  termination_by bytes.length
  decreasing_by
  · exact length_lt_of_next_char _h
  · rw [List.length_drop]
    exact Nat.sub_lt (List.length_pos_iff.mpr _hne) (pos_of_next_invalid _h)

theorem lossy_encode (text : List Char) : lossy (encode text) = text := by
  induction text with
  | nil =>
    rw [encode_nil, lossy]
    rfl
  | cons c text ih =>
    have hne : String.utf8EncodeChar c ++ encode text ≠ [] :=
      List.append_ne_nil_of_left_ne_nil (utf8EncodeChar_ne_nil c) _
    rw [encode_cons, lossy, dif_neg hne]
    split
    · next c' rest hnext =>
      obtain ⟨rfl, rfl⟩ := Next.char.inj ((next_encode c _).symm.trans hnext)
      rw [ih]
    · next hnext => cases (next_encode c _).symm.trans hnext
    · next hnext => cases (next_encode c _).symm.trans hnext

theorem lossy_ne_nil {bytes : Bytes} (h : bytes ≠ []) : lossy bytes ≠ [] := by
  rw [lossy, dif_neg h]
  split <;> exact List.cons_ne_nil _ _

/-- A code point is one byte below 128, or all its bytes are above. -/
theorem utf8EncodeChar_cases (c : Char) :
    String.utf8EncodeChar c = [UInt8.ofNat c.toNat] ∧ c.toNat < 0x80 ∨
      ∀ b ∈ String.utf8EncodeChar c, 0x80 ≤ b.toNat := by
  have hvalid : c.toNat < 0xD800 ∨ 0xDFFF < c.toNat ∧ c.toNat < 0x110000 := c.valid
  have hval : c.val.toNat = c.toNat := rfl
  unfold String.utf8EncodeChar
  rw [hval]
  generalize c.toNat = v at *
  dsimp only
  split_ifs with h1 h2 h3
  · exact .inl ⟨rfl, by omega⟩
  all_goals
    refine .inr fun b hb ↦ ?_
    simp only [List.mem_cons, List.not_mem_nil, or_false] at hb
  · rcases hb with rfl | rfl <;> rw [toNat_byte (by omega)] <;> omega
  · rcases hb with rfl | rfl | rfl <;> rw [toNat_byte (by omega)] <;> omega
  · rcases hb with rfl | rfl | rfl | rfl <;> rw [toNat_byte (by omega)] <;> omega

/-- A byte below 128 splits the text. -/
theorem encode_split {text : List Char} {front rest : Bytes} {b : UInt8}
    (h : encode text = front ++ b :: rest) (hb : b.toNat < 0x80) :
    ∃ before after, text = before ++ Char.ofNat b.toNat :: after ∧ encode before = front ∧
      encode after = rest := by
  induction text generalizing front with
  | nil => exact absurd h.symm (List.append_ne_nil_of_right_ne_nil _ (List.cons_ne_nil _ _))
  | cons c text ih =>
    rw [encode_cons] at h
    rcases List.append_eq_append_iff.mp h with ⟨more, hfront, htext⟩ | ⟨more, hc, hrest⟩
    · obtain ⟨before, after, rfl, hbefore, hafter⟩ := ih htext
      refine ⟨c :: before, after, rfl, ?_, hafter⟩
      rw [encode_cons, hbefore, hfront]
    · cases more with
      | nil =>
        -- the byte begins behind the code point
        have hbehind : encode text = [] ++ b :: rest := hrest.symm
        obtain ⟨before, after, rfl, hbefore, hafter⟩ := ih hbehind
        refine ⟨c :: before, after, rfl, ?_, hafter⟩
        rw [encode_cons, hbefore, hc, List.append_nil, List.append_nil]
      | cons d more =>
        obtain ⟨rfl, htail⟩ := List.cons.inj hrest
        have hmem : b ∈ String.utf8EncodeChar c :=
          hc ▸ List.mem_append_right _ List.mem_cons_self
        rcases utf8EncodeChar_cases c with ⟨hone, hsmall⟩ | hbig
        · have hb' : b = UInt8.ofNat c.toNat := List.mem_singleton.mp (hone ▸ hmem)
          have hlength := congrArg List.length (hone.symm.trans hc)
          rw [List.length_singleton, List.length_append, List.length_cons] at hlength
          obtain rfl := List.eq_nil_of_length_eq_zero (show front.length = 0 by omega)
          obtain rfl := List.eq_nil_of_length_eq_zero (show more.length = 0 by omega)
          refine ⟨[], text, ?_, rfl, htail.symm⟩
          rw [List.nil_append, hb', toNat_byte (by omega), Char.ofNat_toNat]
        · exact absurd hb (Nat.not_lt.mpr (hbig b hmem))

theorem byte_notMem_encode {text : List Char} {b : UInt8} (hb : b.toNat < 0x80)
    (h : Char.ofNat b.toNat ∉ text) : b ∉ encode text := by
  intro hmem
  obtain ⟨front, rest, hsplit⟩ := List.append_of_mem hmem
  obtain ⟨before, after, rfl, -, -⟩ := encode_split hsplit hb
  exact h (List.mem_append_right _ List.mem_cons_self)

end Praxis.Foundation.Utf8

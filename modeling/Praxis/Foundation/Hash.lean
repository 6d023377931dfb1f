import Praxis.Foundation.Bytes

/-!
# SHA-256, SHA-1 and CRC32C

The hash functions of FIPS 180-4 and the Castagnoli checksum, over byte strings.

Both SHA functions split the padded message into blocks of sixty-four bytes, extend
the sixteen words of a block to a schedule and fold a round function over it.  The
schedule is kept with its latest word first, so that the words a new one is made of
are at fixed positions.
-/

namespace Praxis.Foundation

/-! ## Words and blocks -/

/-- The `w` low bytes of `n`, most significant first. -/
def beBytes (w n : Nat) : Bytes := (leBytes w n).reverse

/-- The word whose four bytes are given, most significant first. -/
def beWord (bytes : Bytes) : UInt32 := UInt32.ofNat (ofLeBytes bytes.reverse)

def rotateLeft (x : UInt32) (n : UInt32) : UInt32 := x <<< n ||| x >>> (32 - n)

def rotateRight (x : UInt32) (n : UInt32) : UInt32 := x >>> n ||| x <<< (32 - n)

/-- The message, a one bit, zeros up to the next block and the length in bits. -/
def padMessage (message : Bytes) : Bytes :=
  message ++ 0x80 :: (List.replicate ((119 - message.length % 64) % 64) 0 ++
    beBytes 8 (8 * message.length))

/-- The words of the blocks of a padded message. -/
def messageBlocks (message : Bytes) : List (List UInt32) :=
  let padded := padMessage message
  (List.range (padded.length / 64)).map fun block ↦
    (List.range 16).map fun word ↦ beWord (slice padded (64 * block + 4 * word) 4)

/-- The words of a block extended by `rounds` more, in order. -/
def schedule (extend : List UInt32 → UInt32) (rounds : Nat) (block : List UInt32) : List UInt32 :=
  (rounds.repeat (fun words ↦ extend words :: words) block.reverse).reverse

/-! ## SHA-256 -/

/-- The round constants of SHA-256. -/
def sha256Constants : List UInt32 :=
  [0x428a2f98, 0x71374491, 0xb5c0fbcf, 0xe9b5dba5, 0x3956c25b, 0x59f111f1, 0x923f82a4, 0xab1c5ed5,
   0xd807aa98, 0x12835b01, 0x243185be, 0x550c7dc3, 0x72be5d74, 0x80deb1fe, 0x9bdc06a7, 0xc19bf174,
   0xe49b69c1, 0xefbe4786, 0x0fc19dc6, 0x240ca1cc, 0x2de92c6f, 0x4a7484aa, 0x5cb0a9dc, 0x76f988da,
   0x983e5152, 0xa831c66d, 0xb00327c8, 0xbf597fc7, 0xc6e00bf3, 0xd5a79147, 0x06ca6351, 0x14292967,
   0x27b70a85, 0x2e1b2138, 0x4d2c6dfc, 0x53380d13, 0x650a7354, 0x766a0abb, 0x81c2c92e, 0x92722c85,
   0xa2bfe8a1, 0xa81a664b, 0xc24b8b70, 0xc76c51a3, 0xd192e819, 0xd6990624, 0xf40e3585, 0x106aa070,
   0x19a4c116, 0x1e376c08, 0x2748774c, 0x34b0bcb5, 0x391c0cb3, 0x4ed8aa4a, 0x5b9cca4f, 0x682e6ff3,
   0x748f82ee, 0x78a5636f, 0x84c87814, 0x8cc70208, 0x90befffa, 0xa4506ceb, 0xbef9a3f7, 0xc67178f2]

structure Sha256State where
  a : UInt32
  b : UInt32
  c : UInt32
  d : UInt32
  e : UInt32
  f : UInt32
  g : UInt32
  h : UInt32

namespace Sha256State

def initial : Sha256State :=
  ⟨0x6a09e667, 0xbb67ae85, 0x3c6ef372, 0xa54ff53a, 0x510e527f, 0x9b05688c, 0x1f83d9ab, 0x5be0cd19⟩

/-- One round, on a round constant and a word of the schedule. -/
def round (s : Sha256State) (constant word : UInt32) : Sha256State :=
  let t₁ := s.h + (rotateRight s.e 6 ^^^ rotateRight s.e 11 ^^^ rotateRight s.e 25) +
    ((s.e &&& s.f) ^^^ (~~~ s.e &&& s.g)) + constant + word
  let t₂ := (rotateRight s.a 2 ^^^ rotateRight s.a 13 ^^^ rotateRight s.a 22) +
    ((s.a &&& s.b) ^^^ (s.a &&& s.c) ^^^ (s.b &&& s.c))
  ⟨t₁ + t₂, s.a, s.b, s.c, s.d + t₁, s.e, s.f, s.g⟩

def add (s t : Sha256State) : Sha256State :=
  ⟨s.a + t.a, s.b + t.b, s.c + t.c, s.d + t.d, s.e + t.e, s.f + t.f, s.g + t.g, s.h + t.h⟩

def words (s : Sha256State) : List UInt32 := [s.a, s.b, s.c, s.d, s.e, s.f, s.g, s.h]

end Sha256State

/-- The next word of a SHA-256 schedule. -/
def sha256Extend (words : List UInt32) : UInt32 :=
  let w₂ := words.getD 1 0
  let w₁₅ := words.getD 14 0
  (rotateRight w₂ 17 ^^^ rotateRight w₂ 19 ^^^ w₂ >>> 10) + words.getD 6 0 +
    (rotateRight w₁₅ 7 ^^^ rotateRight w₁₅ 18 ^^^ w₁₅ >>> 3) + words.getD 15 0

/-- The compression function of SHA-256. -/
def sha256Compress (s : Sha256State) (block : List UInt32) : Sha256State :=
  s.add ((sha256Constants.zip (schedule sha256Extend 48 block)).foldl
    (fun s p ↦ s.round p.1 p.2) s)

/-- SHA-256. -/
def sha256 (message : Bytes) : Bytes :=
  ((messageBlocks message).foldl sha256Compress .initial).words.flatMap fun w ↦ beBytes 4 w.toNat

@[simp] theorem sha256_length (message : Bytes) : (sha256 message).length = 32 := by
  simp [sha256, Sha256State.words, beBytes]

/-! ## SHA-1 -/

structure Sha1State where
  a : UInt32
  b : UInt32
  c : UInt32
  d : UInt32
  e : UInt32

namespace Sha1State

def initial : Sha1State := ⟨0x67452301, 0xefcdab89, 0x98badcfe, 0x10325476, 0xc3d2e1f0⟩

/-- One round, on its number and a word of the schedule. -/
def round (s : Sha1State) (t : Nat) (word : UInt32) : Sha1State :=
  let mix : UInt32 :=
    if t < 20 then ((s.b &&& s.c) ||| (~~~ s.b &&& s.d)) + 0x5a827999
    else if t < 40 then (s.b ^^^ s.c ^^^ s.d) + 0x6ed9eba1
    else if t < 60 then ((s.b &&& s.c) ||| (s.b &&& s.d) ||| (s.c &&& s.d)) + 0x8f1bbcdc
    else (s.b ^^^ s.c ^^^ s.d) + 0xca62c1d6
  ⟨rotateLeft s.a 5 + mix + s.e + word, s.a, rotateLeft s.b 30, s.c, s.d⟩

def add (s t : Sha1State) : Sha1State := ⟨s.a + t.a, s.b + t.b, s.c + t.c, s.d + t.d, s.e + t.e⟩

def words (s : Sha1State) : List UInt32 := [s.a, s.b, s.c, s.d, s.e]

end Sha1State

/-- The next word of a SHA-1 schedule. -/
def sha1Extend (words : List UInt32) : UInt32 :=
  rotateLeft (words.getD 2 0 ^^^ words.getD 7 0 ^^^ words.getD 13 0 ^^^ words.getD 15 0) 1

/-- The compression function of SHA-1. -/
def sha1Compress (s : Sha1State) (block : List UInt32) : Sha1State :=
  s.add ((schedule sha1Extend 64 block).zipIdx.foldl (fun s p ↦ s.round p.2 p.1) s)

/-- SHA-1. -/
def sha1 (message : Bytes) : Bytes :=
  ((messageBlocks message).foldl sha1Compress .initial).words.flatMap fun w ↦ beBytes 4 w.toNat

/-! ## CRC32C -/

/-- One bit of the reflected Castagnoli polynomial division. -/
def crc32cBit (crc : UInt32) : UInt32 :=
  if crc &&& 1 = 1 then crc >>> 1 ^^^ 0x82f63b78 else crc >>> 1

/-- CRC32C. -/
def crc32c (bytes : Bytes) : UInt32 :=
  (bytes.foldl (fun crc b ↦ (8).repeat crc32cBit (crc ^^^ UInt32.ofNat b.toNat)) 0xffffffff) ^^^
    0xffffffff

end Praxis.Foundation

import Mathlib.Data.List.Basic
import Mathlib.Tactic.Ring

/-!
# Byte strings: little-endian words and slices

The vocabulary every binary format of this development is written in: byte
strings are lists of `UInt8`, a fixed-width word is laid out in little-endian
order by `leBytes`, and a field of a record is read back with `slice`.

Nothing here knows about any particular format.  The two facts a format needs
are that a word survives being written and read (`ofLeBytes_leBytes`), and that
a slice of a concatenation is a slice of the part it falls into
(`slice_append_left`, `slice_append_right`).
-/

namespace Praxis.Foundation

/-- A byte string. -/
abbrev Bytes := List UInt8

/-! ## Little-endian words -/

/-- The `w` low bytes of `n`, least significant first. -/
def leBytes : Nat → Nat → Bytes
  | 0, _ => []
  | w + 1, n => UInt8.ofNat n :: leBytes w (n / 256)

/-- The number whose little-endian bytes are given. -/
def ofLeBytes : Bytes → Nat
  | [] => 0
  | b :: bs => b.toNat + 256 * ofLeBytes bs

@[simp] theorem leBytes_length (w n : Nat) : (leBytes w n).length = w := by
  induction w generalizing n with
  | zero => rfl
  | succ w ih => simp [leBytes, ih]

/-- Reading back a written word gives the word, cut to its width. -/
theorem ofLeBytes_leBytes_mod (w n : Nat) : ofLeBytes (leBytes w n) = n % 256 ^ w := by
  induction w generalizing n with
  | zero => simp [leBytes, ofLeBytes, Nat.mod_one]
  | succ w ih =>
    have hb : (UInt8.ofNat n).toNat = n % 256 := by simp
    rw [leBytes, ofLeBytes, ih, hb, pow_succ, mul_comm (256 ^ w) 256, Nat.mod_mul]

/-- A word that fits its width survives being written and read. -/
theorem ofLeBytes_leBytes {w n : Nat} (h : n < 256 ^ w) : ofLeBytes (leBytes w n) = n := by
  rw [ofLeBytes_leBytes_mod, Nat.mod_eq_of_lt h]

/-- Words that fit their width are told apart by their bytes. -/
theorem leBytes_inj {w m n : Nat} (hm : m < 256 ^ w) (hn : n < 256 ^ w) :
    leBytes w m = leBytes w n ↔ m = n := by
  refine ⟨fun h ↦ ?_, fun h ↦ by rw [h]⟩
  rw [← ofLeBytes_leBytes hm, ← ofLeBytes_leBytes hn, h]

theorem ofLeBytes_lt (bs : Bytes) : ofLeBytes bs < 256 ^ bs.length := by
  induction bs with
  | nil => simp [ofLeBytes]
  | cons b bs ih =>
    have hb : b.toNat < 256 := UInt8.toNat_lt b
    rw [ofLeBytes, List.length_cons, pow_succ]
    omega

/-- A byte string is the word it reads as. -/
theorem leBytes_ofLeBytes (bs : Bytes) : leBytes bs.length (ofLeBytes bs) = bs := by
  induction bs with
  | nil => rfl
  | cons b bs ih =>
    have hb : b.toNat < 256 := UInt8.toNat_lt b
    have hmod : UInt8.ofNat (b.toNat + 256 * ofLeBytes bs) = b := by
      apply UInt8.toNat_inj.mp
      simp only [UInt8.toNat_ofNat']
      omega
    have hdiv : (b.toNat + 256 * ofLeBytes bs) / 256 = ofLeBytes bs := by omega
    rw [ofLeBytes, List.length_cons, leBytes, hmod, hdiv, ih]

/-- A string starts with a given word when its first bytes read as that word. -/
theorem append_eq_leBytes_append_iff {bs s t : Bytes} {w n : Nat} (hw : bs.length = w)
    (hn : n < 256 ^ w) : bs ++ s = leBytes w n ++ t ↔ ofLeBytes bs = n ∧ s = t := by
  subst hw
  constructor
  · intro h
    obtain ⟨hw, hst⟩ := List.append_inj h (leBytes_length _ _).symm
    exact ⟨by rw [hw, ofLeBytes_leBytes hn], hst⟩
  · rintro ⟨rfl, rfl⟩
    rw [leBytes_ofLeBytes]

theorem leBytes_add (v w n : Nat) :
    leBytes (v + w) n = leBytes v n ++ leBytes w (n / 256 ^ v) := by
  induction v generalizing n with
  | zero => simp [leBytes]
  | succ v ih =>
    rw [Nat.succ_add, leBytes, leBytes, ih, Nat.div_div_eq_div_mul, ← pow_succ', List.cons_append]

/-! ## Slices -/

/-- The `n` bytes from `off` on (fewer where the string ends before). -/
def slice (bs : Bytes) (off n : Nat) : Bytes := (bs.drop off).take n

/-- A slice is the slices of its parts. -/
theorem slice_add (bs : Bytes) (off m n : Nat) :
    slice bs off (m + n) = slice bs off m ++ slice bs (off + m) n := by
  rw [slice, slice, slice, List.take_add, List.drop_drop]

theorem slice_length {bs : Bytes} {off n : Nat} (h : off + n ≤ bs.length) :
    (slice bs off n).length = n := by
  simp only [slice, List.length_take, List.length_drop]
  omega

/-- A slice that ends inside the first part does not see the second. -/
theorem slice_append_left {as bs : Bytes} {off n : Nat} (h : off + n ≤ as.length) :
    slice (as ++ bs) off n = slice as off n := by
  unfold slice
  rw [List.drop_append_of_le_length (by omega), List.take_append_of_le_length (by simp; omega)]

/-- A slice that starts after the first part is a slice of the second. -/
theorem slice_append_right {as bs : Bytes} {off n : Nat} (h : as.length ≤ off) :
    slice (as ++ bs) off n = slice bs (off - as.length) n := by
  unfold slice
  rw [List.drop_append, List.drop_eq_nil_of_le h, List.nil_append]

/-- The slice that is the whole first part. -/
theorem slice_append_exact {as bs : Bytes} {n : Nat} (h : as.length = n) :
    slice (as ++ bs) 0 n = as := by
  subst h
  simp [slice]

theorem slice_of_length {bs : Bytes} {n : Nat} (h : bs.length = n) : slice bs 0 n = bs := by
  subst h
  simp [slice]

/-- A slice of fields in a row that is exactly one of them. -/
theorem slice_flatten {fields : List Bytes} {k off n : Nat} {b : Bytes}
    (hk : fields[k]? = some b) (hoff : ((fields.take k).map List.length).sum = off)
    (hn : b.length = n) : slice fields.flatten off n = b := by
  obtain ⟨hlt, rfl⟩ := List.getElem?_eq_some_iff.mp hk
  have hsplit : fields.flatten = (fields.take k).flatten ++
      (fields[k] ++ (fields.drop (k + 1)).flatten) := by
    rw [← List.flatten_cons, ← List.drop_eq_getElem_cons hlt, ← List.flatten_append,
      List.take_append_drop]
  have hlen : (fields.take k).flatten.length = off := by rw [List.length_flatten, hoff]
  rw [hsplit, slice_append_right hlen.le, hlen, Nat.sub_self, slice_append_exact hn]

/-- Adjacent slices join. -/
theorem slice_append_slice (bs : Bytes) (off m n : Nat) :
    slice bs off m ++ slice bs (off + m) n = slice bs off (m + n) := by
  simp only [slice, List.take_add, List.drop_drop]

end Praxis.Foundation

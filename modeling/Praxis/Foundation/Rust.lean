import Mathlib
import Praxis.Foundation.Bytes

/-!
# The corner of Rust's standard library the models rest on

Owned strings and vectors with the size bound every Rust allocation obeys, and
the checked and saturating arithmetic of the fixed-width integers.

An allocation holds at most `isize::MAX` bytes.  The bound is a field of `Str`
and `RVec`, so that a length written as a `u64` (`len() as u64`) is never
truncated and no theorem has to carry the side condition.
-/

namespace Praxis.Foundation

universe u

/-- The largest size of a Rust allocation, `isize::MAX` on a 64-bit target. -/
def isizeMax : Nat := 2 ^ 63 - 1

/-! ## Strings and vectors -/

/-- A Rust `String`: valid UTF-8 of at most `isize::MAX` bytes. -/
structure Str where
  /-- The text. -/
  val : String
  /-- It fits an allocation. -/
  size_le : val.utf8ByteSize ≤ isizeMax
deriving DecidableEq

namespace Str

/-- A string literal. -/
def lit (s : String) (h : s.utf8ByteSize ≤ isizeMax := by decide) : Str := ⟨s, h⟩

theorem fits_empty : "".utf8ByteSize ≤ isizeMax := by decide

theorem fits_default : "default".utf8ByteSize ≤ isizeMax := by decide

/-- A formatted string.  One that does not fit an allocation ends the program. -/
def ofString (s : String) : Str := if h : s.utf8ByteSize ≤ isizeMax then ⟨s, h⟩ else lit ""

@[simp] theorem lit_inj {s t : String} {hs : s.utf8ByteSize ≤ isizeMax}
    {ht : t.utf8ByteSize ≤ isizeMax} : lit s hs = lit t ht ↔ s = t := by
  simp [lit]

/-- The bytes `as_bytes` returns. -/
def asBytes (s : Str) : Bytes := s.val.toByteArray.data.toList

@[simp] theorem asBytes_length (s : Str) : s.asBytes.length = s.val.utf8ByteSize := rfl

theorem asBytes_length_lt (s : Str) : s.asBytes.length < 256 ^ 8 := by
  have h := s.size_le
  rw [asBytes_length]
  unfold isizeMax at h
  norm_num
  omega

/-- A string is determined by its bytes. -/
theorem asBytes_injective : Function.Injective asBytes := by
  rintro ⟨s, hs⟩ ⟨t, ht⟩ h
  have hst : s = t := String.toByteArray_inj.mp (ByteArray.ext (Array.toList_inj.mp h))
  subst hst
  rfl

end Str

/-- A Rust `Vec` of elements that are not zero-sized. -/
structure RVec (α : Type u) where
  /-- The elements in order. -/
  toList : List α
  /-- They fit an allocation. -/
  length_le : toList.length ≤ isizeMax
deriving DecidableEq

namespace RVec

variable {α : Type u}

theorem length_lt (v : RVec α) : v.toList.length < 256 ^ 8 := by
  have h := v.length_le
  unfold isizeMax at h
  norm_num
  omega

theorem toList_injective : Function.Injective (toList : RVec α → List α) := by
  rintro ⟨as, ha⟩ ⟨bs, hb⟩ h
  have hab : as = bs := h
  subst hab
  rfl

end RVec

/-! ## Integers -/

/-- `u64::checked_add`. -/
def checkedAdd (a b : UInt64) : Option UInt64 :=
  if a.toNat + b.toNat < 2 ^ 64 then some (a + b) else none

theorem checkedAdd_eq_some_iff {a b c : UInt64} :
    checkedAdd a b = some c ↔ a.toNat + b.toNat = c.toNat := by
  unfold checkedAdd
  have hc : c.toNat < 2 ^ 64 := c.toNat_lt
  by_cases h : a.toNat + b.toNat < 2 ^ 64
  · rw [if_pos h, Option.some.injEq, ← UInt64.toNat_inj, UInt64.toNat_add,
      Nat.mod_eq_of_lt h]
  · rw [if_neg h]
    exact ⟨nofun, fun e ↦ absurd (e ▸ hc) h⟩

/-- `u64::checked_sub`. -/
def checkedSub (a b : UInt64) : Option UInt64 :=
  if b ≤ a then some (a - b) else none

theorem checkedSub_eq_some_iff {a b c : UInt64} :
    checkedSub a b = some c ↔ a.toNat = c.toNat + b.toNat := by
  unfold checkedSub
  have hiff := UInt64.le_iff_toNat_le (a := b) (b := a)
  split
  · rename_i hle
    have hle' := hiff.mp hle
    rw [Option.some.injEq, ← UInt64.toNat_inj, UInt64.toNat_sub_of_le _ _ hle]
    omega
  · rename_i hle
    have hlt := mt hiff.mpr hle
    simp only [reduceCtorEq, false_iff]
    omega

/-- `u64::saturating_add`. -/
def saturatingAdd (a b : UInt64) : UInt64 :=
  if a.toNat + b.toNat < 2 ^ 64 then a + b else UInt64.ofNat (2 ^ 64 - 1)

/-- `u64::saturating_sub`. -/
def saturatingSub (a b : UInt64) : UInt64 :=
  if b ≤ a then a - b else 0

/-- `u32::saturating_add`. -/
def saturatingAddU32 (a b : UInt32) : UInt32 :=
  if a.toNat + b.toNat < 2 ^ 32 then a + b else UInt32.ofNat (2 ^ 32 - 1)

/-- `u32::saturating_sub`. -/
def saturatingSubU32 (a b : UInt32) : UInt32 :=
  if b ≤ a then a - b else 0

/-- The integers an `i64` can hold. -/
def FitsI64 (z : Int) : Prop := -2 ^ 63 ≤ z ∧ z < 2 ^ 63

instance : DecidablePred FitsI64 := fun _ ↦ inferInstanceAs (Decidable (_ ∧ _))

/-- `i64::saturating_add`. -/
def saturatingAddI64 (a b : Int64) : Int64 :=
  let sum := a.toInt + b.toInt
  if FitsI64 sum then Int64.ofInt sum
  else if 0 ≤ sum then Int64.maxValue
  else Int64.minValue

/-- `i64::try_from` of a `u64`. -/
def i64TryFrom (a : UInt64) : Option Int64 :=
  if a.toNat < 2 ^ 63 then some (Int64.ofNat a.toNat) else none

/-- `u64::try_from` of an `i64`. -/
def u64TryFrom (a : Int64) : Option UInt64 :=
  if 0 ≤ a.toInt then some (UInt64.ofNat a.toInt.toNat) else none

theorem toNat_saturatingAdd_one {a : UInt64} (h : a.toNat + 1 < 2 ^ 64) :
    (saturatingAdd a 1).toNat = a.toNat + 1 := by
  have hone : UInt64.toNat 1 = 1 := rfl
  rw [saturatingAdd, hone, if_pos h, UInt64.toNat_add, hone]
  exact Nat.mod_eq_of_lt h

theorem le_saturatingAdd_one (a : UInt64) : a ≤ saturatingAdd a 1 := by
  rw [UInt64.le_iff_toNat_le]
  by_cases h : a.toNat + 1 < 2 ^ 64
  · rw [toNat_saturatingAdd_one h]
    exact Nat.le_succ _
  · have hmax : saturatingAdd a 1 = UInt64.ofNat (2 ^ 64 - 1) := if_neg h
    rw [hmax]
    exact Nat.le_sub_one_of_lt a.toNat_lt

theorem toNat_saturatingAddU32_one {a : UInt32} (h : a.toNat + 1 < 2 ^ 32) :
    (saturatingAddU32 a 1).toNat = a.toNat + 1 := by
  have hsum : saturatingAddU32 a 1 = a + 1 := if_pos h
  rw [hsum, UInt32.toNat_add]
  exact Nat.mod_eq_of_lt h

theorem toNat_saturatingSubU32_one (a : UInt32) : (saturatingSubU32 a 1).toNat = a.toNat - 1 := by
  unfold saturatingSubU32
  split
  · rename_i h
    exact UInt32.toNat_sub_of_le _ _ h
  · rename_i h
    rw [UInt32.le_iff_toNat_le] at h
    have hzero : a.toNat = 0 := Nat.lt_one_iff.mp (Nat.lt_of_not_le h)
    rw [hzero]
    rfl

/-! ## Letters -/

/-- `to_ascii_lowercase` moves the letters from `A` to `Z` and nothing else. -/
theorem toLower_code (c : Char) :
    (65 ≤ c.toNat ∧ c.toNat ≤ 90 ∧ c.toLower.toNat = c.toNat + 32) ∨ c.toLower = c := by
  by_cases h : c.val ≥ 'A'.val ∧ c.val ≤ 'Z'.val
  · left
    have hlow : 65 ≤ c.toNat := UInt32.le_iff_toNat_le.mp h.1
    have hhigh : c.toNat ≤ 90 := UInt32.le_iff_toNat_le.mp h.2
    refine ⟨hlow, hhigh, ?_⟩
    rw [Char.toLower, dif_pos h]
    change (c.val + 32).toNat = c.val.toNat + 32
    change 65 ≤ c.val.toNat at hlow
    change c.val.toNat ≤ 90 at hhigh
    rw [UInt32.toNat_add]
    refine Nat.mod_eq_of_lt ?_
    change c.val.toNat + 32 < 4294967296
    omega
  · right
    rw [Char.toLower, dif_neg h]

end Praxis.Foundation

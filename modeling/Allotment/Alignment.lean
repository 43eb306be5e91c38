import Allotment.Word
set_option autoImplicit false

/-!
# Alignment

A grant is a whole number of 8-byte units. The rounding is done with a mask on
words; the lemmas state it with division on natural numbers: the rounded size
is the least multiple of 8 that is not below the request, and it is missing
exactly when that multiple needs more than 64 bits.
-/

namespace Allotment

/-- Every grant starts at a multiple of this many bytes and spans one. -/
def alignment : UInt64 := 8

/-- The least multiple of 8 that is at least `size`, as an exact number. -/
def roundUp (size : Nat) : Nat :=
  (size + 7) / 8 * 8

/-- The size that is granted for a request of `size` bytes, or nothing when it
does not fit in a word. -/
def alignUp? (size : UInt64) : Option UInt64 :=
  (Word.sum? size (alignment - 1)).map fun padded => padded &&& ~~~(alignment - 1)

/-- The number of 8-byte units that hold `size` bytes. -/
def unitsFor (size : UInt64) : UInt64 :=
  size / alignment + if size % alignment = 0 then 0 else 1

/-- Clearing the low three bits of a word rounds it down to a multiple of 8. -/
theorem toNat_and_mask (x : UInt64) : (x &&& ~~~(alignment - 1)).toNat = x.toNat / 8 * 8 := by
  have hmask : (~~~(alignment - 1)).toNat = 2 ^ 64 - (7 + 1) := by decide
  rw [UInt64.toNat_and, hmask]
  apply Nat.eq_of_testBit_eq
  intro i
  rw [Nat.testBit_and, Nat.testBit_two_pow_sub_succ (by decide),
    show (7 : Nat) = 2 ^ 3 - 1 by decide, Nat.testBit_two_pow_sub_one,
    show x.toNat / 8 * 8 = 2 ^ 3 * (x.toNat / 2 ^ 3) by omega, Nat.testBit_two_pow_mul,
    Nat.testBit_div_two_pow]
  by_cases hlow : i < 3
  · have hhigh : ¬ 3 ≤ i := by omega
    simp [hlow, hhigh]
  · have hback : i - 3 + 3 = i := by omega
    by_cases hword : i < 64
    · simp [hlow, hword, hback]
      omega
    · have hclear : x.toNat.testBit i = false :=
        Nat.testBit_lt_two_pow
          (Nat.lt_of_lt_of_le x.toNat_lt (Nat.pow_le_pow_right (by decide) (by omega)))
      simp [hclear, hback]

/-- A size that can be rounded up in words is rounded up to the number that
exact arithmetic gives. -/
theorem toNat_of_alignUp?_eq_some {size granted : UInt64} (h : alignUp? size = some granted) :
    granted.toNat = roundUp size.toNat := by
  unfold alignUp? at h
  obtain ⟨padded, hpadded, rfl⟩ := Option.map_eq_some_iff.1 h
  rw [toNat_and_mask, Word.toNat_of_sum?_eq_some hpadded]
  rfl

/-- A request has no granted size exactly when the rounded size leaves the word range. -/
theorem alignUp?_eq_none_iff (size : UInt64) :
    alignUp? size = none ↔ UInt64.size ≤ roundUp size.toNat := by
  have hsize : UInt64.size = 2 ^ 64 := rfl
  have hseven : (alignment - 1).toNat = 7 := by decide
  have hlt := size.toNat_lt
  unfold alignUp? roundUp
  rw [Option.map_eq_none_iff, Word.sum?_eq_none_iff, hseven]
  omega

end Allotment

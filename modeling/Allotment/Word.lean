set_option autoImplicit false

/-!
# Words

Sizes, offsets and counters are 64-bit words. The machine addition wraps, so
the two places where an allocator must not wrap have operations of their own:
a sum that reports when it leaves the word range, and a difference that stops
at zero. Each is described by its value as a natural number.
-/

namespace Allotment.Word

/-- The sum of two words, or nothing when it does not fit in a word. -/
def sum? (a b : UInt64) : Option UInt64 :=
  if a + b < a then none else some (a + b)

/-- The difference of two words, stopping at zero. -/
def monus (a b : UInt64) : UInt64 :=
  if b ≤ a then a - b else 0

/-- The sum is refused exactly when the exact sum needs more than 64 bits. -/
theorem sum?_eq_none_iff (a b : UInt64) :
    sum? a b = none ↔ UInt64.size ≤ a.toNat + b.toNat := by
  have hsize : UInt64.size = 2 ^ 64 := rfl
  have ha := a.toNat_lt
  have hb := b.toNat_lt
  have hlt : a + b < a ↔ (a.toNat + b.toNat) % 2 ^ 64 < a.toNat := by
    rw [UInt64.lt_iff_toNat_lt, UInt64.toNat_add]
  unfold sum?
  split <;> rename_i h <;> rw [hlt] at h
  · simp only [true_iff]
    omega
  · simp only [reduceCtorEq, false_iff]
    omega

/-- A sum of words that is a word is the exact sum. -/
theorem toNat_of_sum?_eq_some {a b c : UInt64} (h : sum? a b = some c) :
    c.toNat = a.toNat + b.toNat := by
  have hfit : ¬ UInt64.size ≤ a.toNat + b.toNat := by
    rw [← sum?_eq_none_iff, h]
    simp
  have hsize : UInt64.size = 2 ^ 64 := rfl
  unfold sum? at h
  split at h
  · simp at h
  · obtain rfl := Option.some.inj h
    rw [UInt64.toNat_add]
    omega

/-- The difference that stops at zero is the one of natural numbers. -/
@[simp]
theorem toNat_monus (a b : UInt64) : (monus a b).toNat = a.toNat - b.toNat := by
  unfold monus
  split <;> rename_i h <;> rw [UInt64.le_iff_toNat_le] at h
  · exact UInt64.toNat_sub_of_le a b (UInt64.le_iff_toNat_le.2 h)
  · have : a.toNat - b.toNat = 0 := by omega
    simp [this]

end Allotment.Word

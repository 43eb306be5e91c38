import Allotment.Proofs.Arena.Operations
import Mathlib.Algebra.GroupWithZero.Nat

set_option autoImplicit false

/-!
A request to an arena as exact numbers. It is served if and only if the rounded size fits
between what is granted and the capacity, and a refusal tells both sides of that comparison.
-/

namespace Allotment.Arena

variable {arena : Arena} {size : UInt64}

/-- What an arena tells of a request for which it has no room: the size that was rounded up,
if there is such a word, and how many bytes are left. -/
def failureFor (arena : Arena) (size : UInt64) : AllocationFailure where
  requested := if roundUp size.toNat < 2 ^ 64 then UInt64.ofNat (roundUp size.toNat) else size
  available := arena.capacity - arena.offset

/-- A request is refused exactly when its rounded size does not fit behind the offset. -/
theorem place_eq_error_iff (arena : Arena) (size : UInt64) (failure : AllocationFailure) :
    arena.place size = .error failure ↔
      arena.capacity.toNat < arena.offset.toNat + roundUp size.toNat ∧
        failure = arena.failureFor size := by
  have hcapacity := arena.capacity.toNat_lt
  have hwords : UInt64.size = 2 ^ 64 := rfl
  unfold place failureFor
  cases hround : alignUp? size with
  | none =>
    have hlarge := (alignUp?_eq_none_iff size).1 hround
    rw [if_neg (by omega)]
    simp only [Except.error.injEq, eq_comm (b := failure)]
    exact (and_iff_right (by omega)).symm
  | some granted =>
    have hgranted := toNat_of_alignUp?_eq_some hround
    have hlt := granted.toNat_lt
    have hword : UInt64.ofNat (roundUp size.toNat) = granted := by
      rw [← hgranted, UInt64.ofNat_toNat]
    rw [if_pos (by omega), hword, ← hgranted]
    simp only
    cases hsum : Word.sum? arena.offset granted with
    | none =>
      have hover := (Word.sum?_eq_none_iff _ _).1 hsum
      simp only [Option.filter_none, Except.error.injEq, eq_comm (b := failure)]
      exact (and_iff_right (by omega)).symm
    | some stop =>
      have hexact := Word.toNat_of_sum?_eq_some hsum
      by_cases hfits : stop ≤ arena.capacity
      · have hle := UInt64.le_iff_toNat_le.1 hfits
        simp only [Option.filter_some, hfits, decide_true, if_true, reduceCtorEq, false_iff,
          not_and]
        intro hfull
        omega
      · have hgt : ¬ stop.toNat ≤ arena.capacity.toNat := fun h =>
          hfits (UInt64.le_iff_toNat_le.2 h)
        simp only [Option.filter_some, hfits, decide_false, Bool.false_eq_true, if_false,
          Except.error.injEq, eq_comm (b := failure)]
        exact (and_iff_right (by omega)).symm

/-- A request is served exactly if the rounded size fits between what is granted and the
capacity. -/
theorem exists_place_iff (arena : Arena) (size : UInt64) :
    (∃ region, arena.place size = .ok region) ↔
      arena.used.toNat + roundUp size.toNat ≤ arena.capacity.toNat := by
  cases hplace : arena.place size with
  | error failure =>
    obtain ⟨hfull, -⟩ := (arena.place_eq_error_iff size failure).1 hplace
    simp only [reduceCtorEq, exists_false, false_iff, Nat.not_le]
    exact hfull
  | ok region =>
    obtain ⟨-, hlength, hstop, hcap⟩ := place_eq_ok hplace
    simp only [Except.ok.injEq, exists_eq', true_iff]
    show arena.offset.toNat + _ ≤ _
    omega

/-- Within the bounds the bytes that are left are an exact difference. -/
theorem Bounded.toNat_remaining (hbounded : arena.Bounded) :
    arena.remaining.toNat = arena.capacity.toNat - arena.used.toNat :=
  UInt64.toNat_sub_of_le _ _ (UInt64.le_iff_toNat_le.2 hbounded.fits)

/-- A grant clears its region and no other byte. -/
theorem Bounded.getElem?_grant (hbounded : arena.Bounded) {region : Region}
    (hplace : arena.place size = .ok region) (i : ℕ) :
    (arena.grant region).bytes[i]? =
      if arena.used.toNat ≤ i ∧ i < arena.used.toNat + roundUp size.toNat then some 0
      else arena.bytes[i]? := by
  obtain ⟨hoffset, hlength, hstop, hcap⟩ := place_eq_ok hplace
  have hbacked := hbounded.backed
  have hsame : arena.used.toNat = region.offset.toNat := (congrArg UInt64.toNat hoffset).symm
  have hzeros : (Bytes.zeros region.length.toNat).length = roundUp size.toNat := by
    rw [Bytes.zeros, List.length_replicate, hlength]
  show (arena.bytes.overlay region.offset.toNat (Bytes.zeros region.length.toNat))[i]? = _
  rw [Bytes.getElem?_overlay, hzeros, hsame]
  by_cases hin : region.offset.toNat ≤ i ∧ i < region.offset.toNat + roundUp size.toNat
  · have hi : i < arena.bytes.size := by
      rw [hoffset] at hin
      omega
    have hplaced : i - region.offset.toNat < roundUp size.toNat := by omega
    rw [if_pos ⟨hin.1, hin.2, hi⟩, if_pos hin, Bytes.zeros, List.getElem?_replicate, hlength,
      if_pos hplaced]
  · rw [if_neg fun h => hin ⟨h.1, h.2.1⟩, if_neg hin]

/-- A refusal tells the rounded size, or the size itself if rounding it up gives no word. -/
theorem toNat_requested (arena : Arena) (size : UInt64) :
    (arena.failureFor size).requested.toNat =
      if roundUp size.toNat < 2 ^ 64 then roundUp size.toNat else size.toNat := by
  unfold failureFor
  split
  · rename_i hword
    exact UInt64.toNat_ofNat_of_lt' hword
  · rfl

/-- What a refusal says was asked for is what an arena of the same capacity has to have left
to serve the request. -/
theorem Bounded.exists_place_iff_requested {later : Arena} (hbounded : later.Bounded)
    (hcapacity : later.capacity = arena.capacity) (hlimit : arena.capacity.toNat < 2 ^ 63)
    (size : UInt64) :
    (∃ region, later.place size = .ok region) ↔
      (arena.failureFor size).requested ≤ later.remaining := by
  have hfits : later.used.toNat ≤ later.capacity.toNat := hbounded.fits
  rw [later.exists_place_iff, UInt64.le_iff_toNat_le, hbounded.toNat_remaining, toNat_requested,
    hcapacity]
  rw [hcapacity] at hfits
  split
  · omega
  · -- a size that cannot be rounded up in a word is itself beyond every buffer
    rename_i hhuge
    unfold roundUp at hhuge ⊢
    omega

end Allotment.Arena

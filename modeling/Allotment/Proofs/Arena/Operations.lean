import Allotment.Arena.Basic
import Mathlib.Order.Bounds.Basic

set_option autoImplicit false

/-!
What one operation does to an arena, with offsets and lengths as exact numbers.
A request is placed at the offset, spans the least multiple of 8 that holds it,
and ends within the capacity. A grant clears the placed region and a store
replaces a reached one; neither changes a byte of a disjoint region.
-/

namespace Allotment

/-- The rounded size is the least multiple of 8 that is not below the size. -/
theorem isLeast_roundUp (size : ℕ) : IsLeast {n | 8 ∣ n ∧ size ≤ n} (roundUp size) := by
  unfold roundUp
  constructor
  · exact ⟨Nat.dvd_mul_left 8 _, by omega⟩
  · rintro n ⟨⟨k, rfl⟩, hn⟩
    omega

namespace Arena

/-- An arena whose offset lies within its capacity, and that in its buffer. -/
structure Bounded (arena : Arena) : Prop where
  fits : arena.offset.toNat ≤ arena.capacity.toNat
  backed : arena.capacity.toNat ≤ arena.bytes.size

/-- A bounded arena whose offset is aligned. -/
structure Sound (arena : Arena) : Prop extends Bounded arena where
  aligned : 8 ∣ arena.offset.toNat

/-- An arena is made on a buffer that is no smaller than the capacity, and has nothing granted.
-/
theorem ofBytes_eq_ok {bytes : Bytes} {capacity : UInt64} {arena : Arena}
    (h : ofBytes bytes capacity = .ok arena) :
    capacity.toNat ≤ bytes.size ∧ arena = { bytes, capacity } := by
  unfold ofBytes at h
  split at h
  · rename_i hle
    exact ⟨hle, (Except.ok.inj h).symm⟩
  · cases h

/-- A new arena is sound. -/
theorem sound_of_ofBytes {bytes : Bytes} {capacity : UInt64} {arena : Arena}
    (h : ofBytes bytes capacity = .ok arena) : arena.Sound := by
  obtain ⟨hle, rfl⟩ := ofBytes_eq_ok h
  exact ⟨⟨Nat.zero_le _, hle⟩, Nat.dvd_zero 8⟩

/-- An arena with a buffer of its own is one on as many zero units as the capacity needs. -/
theorem ofBytes_of_create {capacity : UInt64} {arena : Arena} (h : create capacity = .ok arena) :
    ofBytes (Array.replicate (8 * (unitsFor capacity).toNat) 0) capacity = .ok arena := by
  unfold create at h
  split at h
  · exact h
  · cases h

/-- A region that is served starts at the offset, spans the rounded size, and
ends within the capacity. -/
theorem place_eq_ok {arena : Arena} {size : UInt64} {region : Region}
    (h : arena.place size = .ok region) :
    region.offset = arena.offset ∧ region.length.toNat = roundUp size.toNat ∧
      region.stop.toNat = arena.offset.toNat + region.length.toNat ∧
      region.stop.toNat ≤ arena.capacity.toNat := by
  unfold place at h
  split at h
  · cases h
  · rename_i granted hgranted
    split at h
    · cases h
    · rename_i stop hstop
      obtain rfl := Except.ok.inj h
      obtain ⟨hsum, hle⟩ := Option.filter_eq_some_iff.1 hstop
      have hexact := Word.toNat_of_sum?_eq_some hsum
      have hstopNat : (arena.offset + granted).toNat = arena.offset.toNat + granted.toNat := by
        have hlt := stop.toNat_lt
        rw [UInt64.toNat_add, ← hexact]
        exact Nat.mod_eq_of_lt hlt
      refine ⟨rfl, toNat_of_alignUp?_eq_some hgranted, hstopNat, ?_⟩
      have hcap : stop.toNat ≤ arena.capacity.toNat :=
        UInt64.le_iff_toNat_le.1 (of_decide_eq_true hle)
      show (arena.offset + granted).toNat ≤ arena.capacity.toNat
      omega

/-- The place of a request depends on what is granted and on the capacity only. -/
theorem place_congr {a b : Arena} (hoffset : a.offset = b.offset)
    (hcapacity : a.capacity = b.capacity) (size : UInt64) : a.place size = b.place size := by
  simp only [place, remaining, hoffset, hcapacity]

/-- An arena reaches a region that ends within the granted bytes. -/
theorem reaches_iff (arena : Arena) (region : Region) :
    arena.reaches region = true ↔ region.stop.toNat ≤ arena.offset.toNat := by
  simp [reaches, UInt64.le_iff_toNat_le]

/-- What an arena shows of a region are the bytes of the buffer there, and it shows them if the
region ends within the granted ones. -/
theorem read?_eq_some_iff (arena : Arena) (region : Region) (bytes : Bytes) :
    arena.read? region = some bytes ↔
      region.stop.toNat ≤ arena.offset.toNat ∧ arena.slice region = bytes := by
  unfold read?
  split <;> rename_i h <;> rw [reaches_iff] at h <;> simp [h]

/-- After a grant the granted bytes end where the region does. -/
@[simp]
theorem offset_grant (arena : Arena) (region : Region) :
    (arena.grant region).offset = region.stop :=
  rfl

/-- A grant leaves the capacity as it is. -/
@[simp]
theorem capacity_grant (arena : Arena) (region : Region) :
    (arena.grant region).capacity = arena.capacity :=
  rfl

/-- A grant leaves the size of the buffer as it is. -/
@[simp]
theorem size_bytes_grant (arena : Arena) (region : Region) :
    (arena.grant region).bytes.size = arena.bytes.size := by
  simp [grant]

/-- Bytes that are stored leave what is granted as it is. -/
@[simp]
theorem offset_store (arena : Arena) (region : Region) (bytes : Bytes) :
    (arena.store region bytes).offset = arena.offset :=
  rfl

/-- Bytes that are stored leave the capacity as it is. -/
@[simp]
theorem capacity_store (arena : Arena) (region : Region) (bytes : Bytes) :
    (arena.store region bytes).capacity = arena.capacity :=
  rfl

/-- Bytes that are stored leave the size of the buffer as it is. -/
@[simp]
theorem size_bytes_store (arena : Arena) (region : Region) (bytes : Bytes) :
    (arena.store region bytes).bytes.size = arena.bytes.size := by
  simp [store]

end Arena

namespace Bytes

/-- A byte outside a run that is laid over stays as it was. -/
theorem getElem?_overlay_of_outside (bytes : Bytes) (start : ℕ) (run : List UInt8) {i : ℕ}
    (h : i < start ∨ start + run.length ≤ i) : (overlay bytes start run)[i]? = bytes[i]? := by
  rw [getElem?_overlay, if_neg (by omega)]

/-- A part of a buffer that an overlay misses is as it was. -/
theorem extract_overlay_of_disjoint (bytes : Bytes) (start : ℕ) (run : List UInt8) {lo hi : ℕ}
    (h : ∀ i, lo ≤ i → i < hi → i < start ∨ start + run.length ≤ i) :
    (overlay bytes start run).extract lo hi = bytes.extract lo hi := by
  apply Array.ext_getElem?
  intro i
  rw [Array.getElem?_extract, Array.getElem?_extract, size_overlay]
  split
  · exact getElem?_overlay_of_outside bytes start run (h _ (by omega) (by omega))
  · rfl

/-- The part of a buffer that a run was laid over is the run. -/
theorem extract_overlay_self (bytes run : Bytes) (start stop : ℕ)
    (hrun : run.size = stop - start) (hstop : stop ≤ bytes.size) :
    (overlay bytes start run.toList).extract start stop = run := by
  apply Array.ext_getElem?
  intro i
  rw [Array.getElem?_extract, size_overlay]
  split
  · rw [getElem?_overlay, Array.length_toList, if_pos (by omega), Array.getElem?_toList]
    congr 1
    omega
  · rw [Array.getElem?_eq_none (by omega)]

end Bytes

namespace Arena

variable {arena : Arena}

/-- A slice has the bytes of its region that lie within the buffer. -/
theorem size_slice (arena : Arena) (region : Region) :
    (arena.slice region).size =
      min region.stop.toNat arena.bytes.size - region.offset.toNat := by
  simp [slice]

/-- The bytes of a slice are those of the buffer, from the offset of the region on. -/
theorem getElem?_slice (arena : Arena) {region : Region} {i : ℕ}
    (h : region.offset.toNat + i < region.stop.toNat) :
    (arena.slice region)[i]? = arena.bytes[region.offset.toNat + i]? := by
  unfold slice
  rw [Array.getElem?_extract]
  split
  · rfl
  · rw [Array.getElem?_eq_none (by omega)]

/-- A region that ends within the granted bytes ends within the buffer. -/
theorem Bounded.stop_le (hbounded : arena.Bounded) {region : Region}
    (hreach : region.stop.toNat ≤ arena.offset.toNat) : region.stop.toNat ≤ arena.bytes.size :=
  hreach.trans (hbounded.fits.trans hbounded.backed)

/-- A store leaves the slice of a region it does not overlap. -/
theorem slice_store_of_disjoint (arena : Arena) (region : Region) {bytes : Bytes}
    (hsize : bytes.size = (arena.slice region).size) {other : Region}
    (h : other.stop.toNat ≤ region.offset.toNat ∨ region.stop.toNat ≤ other.offset.toNat) :
    (arena.store region bytes).slice other = arena.slice other := by
  rw [size_slice] at hsize
  apply Bytes.extract_overlay_of_disjoint
  intro i hlo hhi
  rw [Array.length_toList]
  omega

/-- What was stored in a region is what the region holds. -/
theorem slice_store_self (arena : Arena) (region : Region) {bytes : Bytes}
    (hsize : bytes.size = (arena.slice region).size)
    (hstop : region.stop.toNat ≤ arena.bytes.size) :
    (arena.store region bytes).slice region = bytes := by
  rw [size_slice, Nat.min_eq_left hstop] at hsize
  exact Bytes.extract_overlay_self _ _ _ _ hsize hstop

/-- A grant leaves the bytes before its region as they are. -/
theorem slice_grant_of_le (arena : Arena) {region other : Region}
    (h : other.stop.toNat ≤ region.offset.toNat) :
    (arena.grant region).slice other = arena.slice other := by
  apply Bytes.extract_overlay_of_disjoint
  intro i _ hi
  exact .inl (by omega)

/-- A region that was just granted holds zero bytes. -/
theorem slice_grant_self (arena : Arena) {region : Region}
    (hexact : region.stop.toNat = region.offset.toNat + region.length.toNat)
    (hstop : region.stop.toNat ≤ arena.bytes.size) :
    (arena.grant region).slice region = Array.replicate region.length.toNat 0 := by
  have hrun : Bytes.zeros region.length.toNat =
      (Array.replicate region.length.toNat (0 : UInt8)).toList := by
    simp [Bytes.zeros]
  unfold grant slice
  rw [hrun]
  apply Bytes.extract_overlay_self _ _ _ _ ?_ hstop
  rw [Array.size_replicate]
  omega

end Arena

end Allotment

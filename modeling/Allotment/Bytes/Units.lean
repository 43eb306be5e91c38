import Allotment.Bytes
set_option autoImplicit false

/-!
# Units

A buffer is lent and given back as 8-byte units, and is worked on as bytes. The
units of the bytes of some units are these units.
-/

namespace Allotment.Bytes

/-- The bytes of 8-byte units, in order. -/
def ofUnits (units : Array UInt64) : Bytes :=
  units.flatMap fun unit => (ofNat 8 unit.toNat).toArray

/-- The whole 8-byte units of a buffer, in order. -/
def toUnits (bytes : Bytes) : Array UInt64 :=
  (Array.range (bytes.size / 8)).map fun i =>
    UInt64.ofNat (toNat (bytes.extract (8 * i) (8 * i + 8)).toList)

/-- The bytes of a buffer are those of its units, one unit after the other. -/
theorem toList_ofUnits (units : Array UInt64) :
    (ofUnits units).toList = units.toList.flatMap fun unit => ofNat 8 unit.toNat := by
  simp [ofUnits, Array.toList_flatMap]

/-- Every unit has eight bytes. -/
theorem length_flatMap_ofNat (units : List UInt64) :
    (units.flatMap fun unit => ofNat 8 unit.toNat).length = 8 * units.length := by
  induction units with
  | nil => rfl
  | cons unit rest ih =>
    rw [List.flatMap_cons, List.length_append, length_ofNat, ih, List.length_cons]
    omega

/-- A buffer has eight bytes for each of its units. -/
@[simp]
theorem size_ofUnits (units : Array UInt64) : (ofUnits units).size = 8 * units.size := by
  rw [← Array.length_toList, toList_ofUnits, length_flatMap_ofNat, Array.length_toList]

/-- Bytes make up as many units as there are whole groups of eight. -/
@[simp]
theorem size_toUnits (bytes : Bytes) : (toUnits bytes).size = bytes.size / 8 := by
  simp [toUnits]

/-- The eight bytes in the place of a unit are the bytes of that unit. -/
theorem take_drop_flatMap_ofNat (units : List UInt64) (i : Nat) (hi : i < units.length) :
    ((units.flatMap fun unit => ofNat 8 unit.toNat).drop (8 * i)).take 8 =
      ofNat 8 units[i].toNat := by
  induction units generalizing i with
  | nil => simp at hi
  | cons unit rest ih =>
    rw [List.flatMap_cons]
    cases i with
    | zero => simp [length_ofNat]
    | succ i =>
      have hskip : 8 * (i + 1) = (ofNat 8 unit.toNat).length + 8 * i := by
        rw [length_ofNat]
        omega
      rw [hskip, List.drop_length_add_append]
      simpa using ih i (by simpa using hi)

/-- Units that are taken apart and put together again are as they were. -/
theorem toUnits_ofUnits (units : Array UInt64) : toUnits (ofUnits units) = units := by
  apply Array.ext
  · simp
  · intro i hleft hright
    have hi : i < units.toList.length := by simpa using hright
    have hlength : 8 * i + 8 - 8 * i = 8 := by omega
    have hrun : ((ofUnits units).extract (8 * i) (8 * i + 8)).toList = ofNat 8 units[i].toNat := by
      rw [Array.toList_extract, toList_ofUnits, List.extract_eq_take_drop, hlength,
        take_drop_flatMap_ofNat units.toList i hi]
      simp
    have hlt := units[i].toNat_lt
    simp only [toUnits, Array.getElem_map, Array.getElem_range, hrun, toNat_ofNat]
    rw [Nat.mod_eq_of_lt (by omega)]
    exact UInt64.ofNat_toNat

/-- Eight bytes are the bytes of the unit that they stand for. -/
theorem ofNat_toNat_unit {run : List UInt8} (h : run.length = 8) :
    ofNat 8 (UInt64.ofNat (toNat run)).toNat = run := by
  have hback : ofNat 8 (toNat run) = run := h ▸ ofNat_toNat run
  have hfit : toNat run % 2 ^ 64 = toNat run := by
    have hcut := toNat_ofNat 8 (toNat run)
    rw [hback] at hcut
    exact hcut.symm
  rw [UInt64.toNat_ofNat', hfit, hback]

/-- The first runs of eight bytes, one after the other, are the first bytes. -/
theorem flatMap_range_take_drop (run : List UInt8) (count : Nat) :
    ((List.range count).flatMap fun i => (run.drop (8 * i)).take 8) = run.take (8 * count) := by
  induction count with
  | zero => simp
  | succ count ih =>
    rw [List.range_succ, List.flatMap_append, ih, List.flatMap_singleton, Nat.mul_succ,
      List.take_add]

/-- Bytes that are put together to whole units and taken apart again are as they were. -/
theorem ofUnits_toUnits {bytes : Bytes} (h : 8 ∣ bytes.size) : ofUnits (toUnits bytes) = bytes := by
  apply Array.toList_inj.1
  have hchunk : ∀ i ∈ List.range (bytes.size / 8),
      ofNat 8 (UInt64.ofNat (toNat (bytes.extract (8 * i) (8 * i + 8)).toList)).toNat =
        (bytes.toList.drop (8 * i)).take 8 := by
    intro i hi
    have hlt := List.mem_range.1 hi
    have hrun :
        (bytes.extract (8 * i) (8 * i + 8)).toList = (bytes.toList.drop (8 * i)).take 8 := by
      rw [Array.toList_extract, List.extract_eq_take_drop, Nat.add_sub_cancel_left]
    have hlength : ((bytes.toList.drop (8 * i)).take 8).length = 8 := by
      rw [List.length_take, List.length_drop, Array.length_toList]
      omega
    rw [hrun, ofNat_toNat_unit hlength]
  have hwhole : 8 * (bytes.size / 8) = bytes.toList.length := by
    rw [Array.length_toList, Nat.mul_div_cancel' h]
  rw [toList_ofUnits, toUnits, Array.toList_map, Array.toList_range, List.flatMap_map,
    List.flatMap_def, List.map_congr_left hchunk, ← List.flatMap_def, flatMap_range_take_drop,
    hwhole, List.take_length]

end Allotment.Bytes

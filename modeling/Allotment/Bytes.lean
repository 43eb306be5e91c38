set_option autoImplicit false

/-!
# Bytes

Buffers are arrays of bytes whose size never changes. The one way to change a
buffer is to lay a run of bytes over it; what of the run falls past the end is
dropped. A holder of some bytes edits them by filling them, by putting a run at
a place, or by both in this order. Numbers are stored with their least byte first.
-/

namespace Allotment

/-- The bytes of a buffer, of a region of it or of an object. -/
abbrev Bytes := Array UInt8

namespace Bytes

/-- The buffer with `run` laid over it from `start` on. -/
def overlay (bytes : Bytes) (start : Nat) : List UInt8 → Bytes
  | [] => bytes
  | b :: rest => overlay (bytes.setIfInBounds start b) (start + 1) rest

/-- A run of `count` zero bytes. -/
def zeros (count : Nat) : List UInt8 :=
  List.replicate count 0

/-- The `count` low bytes of a number, the least one first. -/
def ofNat : (count : Nat) → Nat → List UInt8
  | 0, _ => []
  | count + 1, n => UInt8.ofNat n :: ofNat count (n / 256)

/-- The number that a run of bytes stands for, the least one first. -/
def toNat : List UInt8 → Nat
  | [] => 0
  | b :: rest => b.toNat + 256 * toNat rest

/-- Overlaying a run of bytes keeps the size. -/
@[simp]
theorem size_overlay (bytes : Bytes) (start : Nat) (run : List UInt8) :
    (overlay bytes start run).size = bytes.size := by
  induction run generalizing bytes start with
  | nil => rfl
  | cons b rest ih => simp [overlay, ih]

/-- After an overlay a byte is the one of the run that lies over it, and else
the one it was. -/
theorem getElem?_overlay (bytes : Bytes) (start : Nat) (run : List UInt8) (i : Nat) :
    (overlay bytes start run)[i]? =
      if start ≤ i ∧ i < start + run.length ∧ i < bytes.size then run[i - start]?
      else bytes[i]? := by
  induction run generalizing bytes start with
  | nil =>
    have hnone : ¬ (start ≤ i ∧ i < start + ([] : List UInt8).length ∧ i < bytes.size) := by
      simp
      omega
    rw [if_neg hnone]
    rfl
  | cons b rest ih =>
    rw [overlay, ih, Array.getElem?_setIfInBounds]
    simp only [List.length_cons, Array.size_setIfInBounds]
    by_cases hfirst : start = i
    · subst hfirst
      have hpast : ¬ start + 1 ≤ start := by omega
      by_cases hin : start < bytes.size <;> simp [hin, hpast]
    · by_cases hlater : start + 1 ≤ i
      · have hindex : i - start = i - (start + 1) + 1 := by omega
        have hbefore : start ≤ i := by omega
        have hsame : i < start + 1 + rest.length ↔ i < start + (rest.length + 1) := by omega
        simp [hfirst, hlater, hbefore, hsame, hindex]
      · have hbefore : ¬ start ≤ i := by omega
        simp [hfirst, hlater, hbefore]

/-- A number is spread over as many bytes as are asked for. -/
@[simp]
theorem length_ofNat (count n : Nat) : (ofNat count n).length = count := by
  induction count generalizing n with
  | zero => rfl
  | succ count ih => simp [ofNat, ih]

/-- Reading the low bytes of a number gives the number, cut to that many bytes. -/
theorem toNat_ofNat (count n : Nat) :
    toNat (ofNat count n) = n % (1 <<< (8 * count)) := by
  induction count generalizing n with
  | zero => simp [ofNat, toNat, Nat.mod_one]
  | succ count ih =>
    have hsplit : 1 <<< (8 * (count + 1)) = 256 * (1 <<< (8 * count)) := by
      rw [Nat.mul_succ, Nat.shiftLeft_add, Nat.shiftLeft_eq _ 8, Nat.mul_comm]
    rw [ofNat, toNat, ih, UInt8.toNat_ofNat', hsplit, Nat.mod_mul]

/-- Writing the number of a run in as many bytes gives the run. -/
theorem ofNat_toNat (run : List UInt8) : ofNat run.length (toNat run) = run := by
  induction run with
  | nil => rfl
  | cons b rest ih =>
    have hb := b.toNat_lt
    have hhead : UInt8.ofNat (b.toNat + 256 * toNat rest) = b := by
      apply UInt8.toNat_inj.1
      rw [UInt8.toNat_ofNat']
      omega
    have htail : (b.toNat + 256 * toNat rest) / 256 = toNat rest := by omega
    rw [List.length_cons, toNat, ofNat, hhead, htail, ih]

end Bytes

/-- What a holder of some bytes does to them at a time. -/
structure Edit where
  /-- What every byte is set to at first, if to anything. -/
  fill : Option UInt8 := none
  /-- Where the run begins. -/
  start : Nat := 0
  /-- The bytes that are put there after that; those past the end are dropped. -/
  run : List UInt8 := []
  deriving DecidableEq

namespace Edit

/-- The bytes after an edit: filled first, and then with the run in its place. -/
def apply (edit : Edit) (bytes : Bytes) : Bytes :=
  let filled := edit.fill.elim bytes fun byte => Array.replicate bytes.size byte
  filled.overlay edit.start edit.run

/-- No edit changes the number of bytes. -/
@[simp]
theorem size_apply (edit : Edit) (bytes : Bytes) : (edit.apply bytes).size = bytes.size := by
  unfold apply
  cases edit.fill <;> simp

/-- An edit that does nothing leaves the bytes as they were. -/
@[simp]
theorem apply_none (bytes : Bytes) : apply {} bytes = bytes :=
  rfl

end Edit

end Allotment

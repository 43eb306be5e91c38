import Allotment.Arena.Metered
set_option autoImplicit false

/-!
# Batches of samples

Samples are 32-bit integers. A batch is doubled into scratch space of an arena
and summed from there; the scratch space is gone when the sum is known. The
space is longer than the samples when their number is odd, and then ends in
four zero bytes, which add nothing.
-/

namespace Allotment.Batch

/-- No reading counts for more than this. -/
def threshold : Int32 := 100

/-- A reading, cut off at the threshold. -/
def clamp (reading : Int32) : Int32 :=
  min reading threshold

/-- The bytes of a sample. -/
def encode (sample : Int32) : List UInt8 :=
  Bytes.ofNat 4 sample.toUInt32.toNat

/-- The sample that four bytes stand for. -/
def decode (run : List UInt8) : Int32 :=
  (UInt32.ofNat (Bytes.toNat run)).toInt32

/-- Whether twice the sample is a sample again. -/
def isDoublable (sample : Int32) : Bool :=
  Int32.minValue.toInt ≤ 2 * sample.toInt && 2 * sample.toInt ≤ Int32.maxValue.toInt

/-- The scratch bytes of a batch: each sample doubled, up to the first for which
that is not possible. -/
def scratch (samples : List Int32) : List UInt8 :=
  (samples.takeWhile isDoublable).flatMap fun sample => encode (sample * 2)

/-- The sum of the samples in a run of bytes; fewer than four bytes at its end
stand for none. -/
def total : List UInt8 → Int64
  | a :: b :: c :: d :: rest => (decode [a, b, c, d]).toInt64 + total rest
  | _ => 0

/-- The sum of the doubled samples, by way of scratch space that is given back.
A sample that cannot be doubled ends the batch where it stands, with the scratch
space still granted. -/
def sum (m : Metered Arena) (samples : List Int32) : Outcome Int64 × Metered Arena :=
  m.scope Outcome.isAbandoned fun m =>
    match m.alloc (UInt64.ofNat (4 * samples.length)) with
    | (.error failure, m) => (.error (.exhausted failure), m)
    | (.ok region, m) =>
      let (stored, m) := m.write region { run := scratch samples }
      if samples.all isDoublable then (.ok (total (stored.getD #[]).toList), m)
      else (.error (.violated .productOverflow), m)

end Allotment.Batch

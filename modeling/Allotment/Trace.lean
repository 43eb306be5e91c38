import Allotment.Keystream
set_option autoImplicit false

/-!
# Traces

Request sizes that are drawn from a stream of words, for workloads that repeat
exactly. A draw reads the word at one position and brings it into the range
from 1 to a bound, where a bound of zero counts as one. A size trace draws
from consecutive positions; a frame trace draws the length of each frame and
then its sizes, so that where a frame starts depends on the words before it.
Which words belong to a seed is up to a generator. The traces that are run draw
from the keystream of their seed.
-/

namespace Allotment.Trace

/-- For each seed the stream of its words. -/
abbrev Generator := UInt64 → Nat → UInt32

/-- The number from 1 to `bound` that the word at `position` stands for. -/
def draw (words : Nat → UInt32) (bound : UInt64) (position : Nat) : UInt64 :=
  1 + (words position).toUInt64 % max bound 1

/-- The draws from `count` positions in a row. -/
def sizes (words : Nat → UInt32) (bound : UInt64) (position count : Nat) : List UInt64 :=
  (List.range' position count).map (draw words bound)

/-- Frames in a row: for each a draw of its length, and then its sizes. -/
def frames (words : Nat → UInt32) (perFrame bound : UInt64) (position : Nat) :
    Nat → List (List UInt64)
  | 0 => []
  | count + 1 =>
    let length := (draw words perFrame position).toNat
    sizes words bound (position + 1) length ::
      frames words perFrame bound (position + 1 + length) count

/-- The size trace that a generator yields for a seed. -/
def Generator.sizeTrace (generator : Generator) (count : Nat) (maxSize seed : UInt64) :
    List UInt64 :=
  sizes (generator seed) maxSize 0 count

/-- The frame trace that a generator yields for a seed. -/
def Generator.frameTrace (generator : Generator) (count : Nat) (perFrame maxSize seed : UInt64) :
    List (List UInt64) :=
  frames (generator seed) perFrame maxSize 0 count

/-- The size trace of the generator that runs here. -/
def sizeTrace (count : Nat) (maxSize seed : UInt64) : List UInt64 :=
  Generator.sizeTrace Keystream.ofSeed count maxSize seed

/-- The frame trace of the generator that runs here. -/
def frameTrace (count : Nat) (perFrame maxSize seed : UInt64) : List (List UInt64) :=
  Generator.frameTrace Keystream.ofSeed count perFrame maxSize seed

/-- A run of draws has as many sizes as positions. -/
@[simp]
theorem length_sizes (words : Nat → UInt32) (bound : UInt64) (position count : Nat) :
    (sizes words bound position count).length = count := by
  simp [sizes]

/-- As many frames are drawn as asked for. -/
@[simp]
theorem length_frames (words : Nat → UInt32) (perFrame bound : UInt64) (position count : Nat) :
    (frames words perFrame bound position count).length = count := by
  induction count generalizing position with
  | zero => rfl
  | succ count ih => simp [frames, ih]

end Allotment.Trace

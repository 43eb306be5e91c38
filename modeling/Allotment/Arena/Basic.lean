import Allotment.Alignment
import Allotment.Arena.Region
import Allotment.Bytes.Units
import Allotment.Failure
set_option autoImplicit false

/-!
# Arenas

An arena hands out regions of one buffer from its start on. Nothing is given
back singly: the arena is rolled back to a checkpoint, or all of it is
reclaimed. A granted region is filled with zero bytes, so that what was stored
before a rollback cannot be read through it. A region can be read and written
as long as it ends within the granted part of the buffer.
-/

namespace Allotment

/-- A buffer of which the first `offset` bytes are granted. -/
structure Arena where
  bytes : Bytes
  /-- How many bytes from the start of the buffer may be granted. -/
  capacity : UInt64
  /-- How many bytes are granted. -/
  offset : UInt64 := 0

namespace Arena

/-- No buffer has more bytes than this. -/
def maxBufferSize : Nat :=
  (1 <<< 63) - 1

/-- An arena on the first `capacity` bytes of a lent buffer. -/
def ofBytes (bytes : Bytes) (capacity : UInt64) : Except Violation Arena :=
  if capacity.toNat ≤ bytes.size then .ok { bytes, capacity }
  else .error (.capacityBeyondBuffer capacity.toNat bytes.size)

/-- An arena on a lent buffer that is given as 8-byte units. -/
def ofUnits (units : Array UInt64) (capacity : UInt64) : Except Violation Arena :=
  ofBytes (Bytes.ofUnits units) capacity

/-- An arena on a buffer of its own: zero bytes in whole units, enough for the
capacity. -/
def create (capacity : UInt64) : Except Violation Arena :=
  if 8 * (unitsFor capacity).toNat ≤ maxBufferSize then
    ofBytes (Array.replicate (8 * (unitsFor capacity).toNat) 0) capacity
  else .error .capacityOverflow

/-- The number of bytes that are granted. -/
def used (arena : Arena) : UInt64 :=
  arena.offset

/-- The number of bytes that may still be granted. -/
def remaining (arena : Arena) : UInt64 :=
  arena.capacity - arena.offset

/-- The number of bytes in the buffer, the tail that is never granted included. -/
def bufferSize (arena : Arena) : Nat :=
  arena.bytes.size

/-- The buffer as it was lent, in units of eight bytes. -/
def units (arena : Arena) : Array UInt64 :=
  arena.bytes.toUnits

/-- Where a request for `size` bytes would be served: the least aligned region
that holds them, if it fits, and else what was asked for and what is left. -/
def place (arena : Arena) (size : UInt64) : Except AllocationFailure Region :=
  match alignUp? size with
  | none => .error { requested := size, available := arena.remaining }
  | some granted =>
    match (Word.sum? arena.offset granted).filter (· ≤ arena.capacity) with
    | none => .error { requested := granted, available := arena.remaining }
    | some _ => .ok { offset := arena.offset, length := granted }

/-- The arena with everything up to the end of a region granted, and zero bytes
in the region. -/
def grant (arena : Arena) (region : Region) : Arena :=
  { arena with
    bytes := arena.bytes.overlay region.offset.toNat (Bytes.zeros region.length.toNat)
    offset := region.stop }

/-- The moment to which a later rollback may return. -/
def checkpoint (arena : Arena) : Checkpoint :=
  { offset := arena.offset }

/-- Rolls the arena back to a checkpoint and tells how many bytes that
reclaims. A checkpoint beyond what is granted is refused. -/
def restore? (arena : Arena) (target : Checkpoint) : Option (UInt64 × Arena) :=
  if target.offset ≤ arena.offset then
    some (arena.offset - target.offset, { arena with offset := target.offset })
  else none

/-- Whether a region ends within the granted part of the buffer. -/
def reaches (arena : Arena) (region : Region) : Bool :=
  region.stop ≤ arena.offset

/-- The bytes of the buffer in a region. -/
def slice (arena : Arena) (region : Region) : Bytes :=
  arena.bytes.extract region.offset.toNat region.stop.toNat

/-- The bytes of a region that the arena still reaches. -/
def read? (arena : Arena) (region : Region) : Option Bytes :=
  if arena.reaches region then some (arena.slice region) else none

/-- The arena with other bytes in a region. -/
def store (arena : Arena) (region : Region) (bytes : Bytes) : Arena :=
  { arena with bytes := arena.bytes.overlay region.offset.toNat bytes.toList }

end Arena

end Allotment

set_option autoImplicit false

/-!
# The host

Objects live in blocks of memory that the host hands out, zeroed, or refuses.
In front of the bytes of an object a block has a header for the reference
count and the size. A block whose size leaves the address range is never asked
for; whether the host serves another one depends on its size only.
-/

namespace Allotment

/-- Where heaps get their blocks from. -/
structure Host where
  /-- Whether the host hands out blocks of that many bytes. -/
  serves : Nat → Bool

namespace Host

/-- The bytes in front of those of an object, a multiple of the alignment. -/
def headerSize : Nat := 16

/-- No block is larger than this: the address range, down to a multiple of the
alignment. -/
def maxBlockSize : Nat := (1 <<< 63) - 8

/-- A host that serves every block of less than 128 TiB. -/
def standard : Host where
  serves size := size < 1 <<< 47

/-- Whether there is a block for an object of `size` bytes. -/
def accepts (host : Host) (size : UInt64) : Bool :=
  let block := headerSize + size.toNat
  block ≤ maxBlockSize && host.serves block

end Host

end Allotment

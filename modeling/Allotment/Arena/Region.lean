import Allotment.Failure
import Allotment.Word
set_option autoImplicit false

/-!
# Regions and checkpoints

A region says where a grant lies in the buffer of its arena, and a checkpoint
remembers how far an arena was filled. Both are plain values: they may be kept
after the arena was rolled back past them, and shown to an arena that did not
make them.
-/

namespace Allotment

open Text

/-- The place of one grant in the buffer of an arena. -/
structure Region where
  /-- The distance of its first byte from the start of the buffer. -/
  offset : UInt64
  /-- Its length in bytes. -/
  length : UInt64
  deriving DecidableEq

namespace Region

/-- The place just after the last byte. -/
def stop (region : Region) : UInt64 :=
  region.offset + region.length

/-- The place just after the last byte, which has to lie in the word range. -/
def stop? (region : Region) : Except Violation UInt64 :=
  match Word.sum? region.offset region.length with
  | some stop => .ok stop
  | none => .error .sumOverflow

/-- A region of no bytes. -/
def isEmpty (region : Region) : Bool :=
  region.length = 0

def text (region : Region) : String :=
  s!"ArenaPtr(off={region.offset}, len={region.length})"

def shape (region : Region) : Shape :=
  .group "ArenaPtr" .braces
    [ .labelled "offset" (.number region.offset.toNat),
      .labelled "len" (.number region.length.toNat) ]

end Region

/-- How far an arena was filled at some moment. -/
structure Checkpoint where
  /-- The number of bytes that were granted. -/
  offset : UInt64
  deriving DecidableEq

namespace Checkpoint

/-- Checkpoints are ordered by how far the arena was filled. -/
def order (a b : Checkpoint) : Ordering :=
  compare a.offset b.offset

/-- The checkpoints from the least filled arena to the most filled one. -/
def sort (checkpoints : List Checkpoint) : List Checkpoint :=
  checkpoints.mergeSort fun a b => a.offset ≤ b.offset

def shape (checkpoint : Checkpoint) : Shape :=
  .group "Checkpoint" .parentheses [.number checkpoint.offset.toNat]

def listShape (checkpoints : List Checkpoint) : Shape :=
  .group "" .brackets (checkpoints.map shape)

end Checkpoint

end Allotment

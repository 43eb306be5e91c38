import Allotment.Arena.Basic
import Allotment.Metered
set_option autoImplicit false

/-!
# Metered arenas

The operations of an arena that reports to an account. A grant and a rollback
are announced; a refused grant and an ignored checkpoint are not, and change
nothing. A scope runs a body and then rolls the arena back to where it stood;
a body that is abandoned midway takes the rollback with it.
-/

namespace Allotment.Metered

/-- Grants a region of at least `size` bytes, or says why it does not fit. -/
def alloc (m : Metered Arena) (size : UInt64) : Except AllocationFailure Region × Metered Arena :=
  match m.subject.place size with
  | .error failure => (.error failure, m)
  | .ok region =>
    (.ok region, { m with subject := m.subject.grant region }.announce (.granted region.length))

/-- Rolls the arena back to a checkpoint. One beyond what is granted is ignored. -/
def restore (m : Metered Arena) (target : Checkpoint) : Metered Arena :=
  match m.subject.restore? target with
  | none => m
  | some (reclaimed, arena) =>
    { m with subject := arena }.announce (.restored reclaimed target.offset)

/-- Rolls the arena back to its beginning. -/
def reset (m : Metered Arena) : Metered Arena :=
  m.restore { offset := 0 }

/-- The bytes of a region that the arena still reaches. -/
def read (m : Metered Arena) (region : Region) : Option Bytes :=
  m.subject.read? region

/-- Edits a region that the arena still reaches, and shows its bytes after the
edit. -/
def write (m : Metered Arena) (region : Region) (edit : Edit) : Option Bytes × Metered Arena :=
  match m.read region with
  | none => (none, m)
  | some before =>
    let after := edit.apply before
    (some after, { m with subject := m.subject.store region after })

/-- Runs a body and then rolls the arena back to where it stood, unless the
result says that the body was abandoned. -/
def scope {α : Type} (m : Metered Arena) (abandoned : α → Bool)
    (body : Metered Arena → α × Metered Arena) : α × Metered Arena :=
  let (result, after) := body m
  (result, if abandoned result then after else after.restore m.subject.checkpoint)

/-- Grants every size of a trace in turn. An arena without room for the next
one is reset and asked once more; a size that does not fit then is passed over.
The result is the number of resets. -/
def replay (m : Metered Arena) : List UInt64 → Nat × Metered Arena
  | [] => (0, m)
  | size :: rest =>
    match m.alloc size with
    | (.ok _, after) => after.replay rest
    | (.error _, after) =>
      let (resets, last) := (after.reset.alloc size).2.replay rest
      (resets + 1, last)

end Allotment.Metered

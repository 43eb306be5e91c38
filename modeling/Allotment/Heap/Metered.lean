import Allotment.Heap.Store
import Allotment.Metered
set_option autoImplicit false

/-!
# Metered heaps

The operations of a heap that reports to an account. Creating and destroying
an object are announced; whatever else is done with references and bytes moves
no counter. A call that is refused changes nothing.
-/

namespace Allotment.Metered

/-- Creates an object of `size` zero bytes, and gives the one reference to it. -/
def create (m : Metered Store) (host : Host) (heap size : UInt64) :
    Except AllocationFailure Token × Metered Store :=
  match m.subject.create host heap size with
  | .error failure => (.error failure, m)
  | .ok (token, store) => (.ok token, { m with subject := store }.announce (.created size))

/-- Takes another reference to the object behind a token. -/
def retain (m : Metered Store) (heap : UInt64) (token : Token) :
    Except Violation Token × Metered Store :=
  match m.subject.retain heap token with
  | .error violation => (.error violation, m)
  | .ok (shared, store) => (.ok shared, { m with subject := store })

/-- Gives up one reference; the last one takes its object with it. -/
def release (m : Metered Store) (heap : UInt64) (token : Token) :
    Except Violation Unit × Metered Store :=
  match m.subject.release heap token with
  | .error violation => (.error violation, m)
  | .ok (none, store) => (.ok (), { m with subject := store })
  | .ok (some size, store) => (.ok (), { m with subject := store }.announce (.destroyed size))

/-- Edits the bytes of the object behind a token, and shows them after the edit. -/
def edit (m : Metered Store) (heap : UInt64) (token : Token) (edit : Edit) :
    Except Violation Bytes × Metered Store :=
  match m.subject.edit heap token edit with
  | .error violation => (.error violation, m)
  | .ok (after, store) => (.ok after, { m with subject := store })

end Allotment.Metered

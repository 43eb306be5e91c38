import Allotment.Arena.Metered
set_option autoImplicit false

/-!
# Arena programs

What a holder of one arena can do with it, as a list of calls. The body of a
scope is again such a list, so that scopes nest to any depth. Regions and
checkpoints are plain values in a call: they need not come from this arena, nor
still be reached by it.
-/

namespace Allotment

/-- What a program does with an arena. -/
inductive ArenaCall where
  | alloc (size : UInt64)
  | checkpoint
  | restore (target : Checkpoint)
  | reset
  | read (region : Region)
  | write (region : Region) (edit : Edit)
  | replay (sizes : List UInt64)
  | scope (body : List ArenaCall) (abandoned : Bool)

/-- What a call results in. -/
inductive ArenaReply where
  | granted (region : Region)
  | refused (failure : AllocationFailure)
  | marked (checkpoint : Checkpoint)
  | done
  | bytes (bytes : Option Bytes)
  | replayed (resets : Nat)
  | scope (inner : List ArenaReply)

namespace Metered

/-- The result of a request for a region as a reply. -/
def allocReply : Except AllocationFailure Region → ArenaReply
  | .ok region => .granted region
  | .error failure => .refused failure

mutual

/-- Makes one call, with everything in its body if it is a scope. -/
def perform (m : Metered Arena) : ArenaCall → ArenaReply × Metered Arena
  | .alloc size =>
    let (result, m) := m.alloc size
    (allocReply result, m)
  | .checkpoint => (.marked m.subject.checkpoint, m)
  | .restore target => (.done, m.restore target)
  | .reset => (.done, m.reset)
  | .read region => (.bytes (m.read region), m)
  | .write region edit =>
    let (after, m) := m.write region edit
    (.bytes after, m)
  | .replay sizes =>
    let (resets, m) := m.replay sizes
    (.replayed resets, m)
  | .scope body abandoned =>
    let (inner, m) := m.scope (fun _ => abandoned) fun m => m.performAll body
    (.scope inner, m)

/-- Makes some calls one after the other. -/
def performAll (m : Metered Arena) : List ArenaCall → List ArenaReply × Metered Arena
  | [] => ([], m)
  | call :: rest =>
    let (reply, m) := m.perform call
    let (replies, m) := m.performAll rest
    (reply :: replies, m)

end

end Metered

end Allotment

import Allotment.Configuration
import Allotment.System.Arena
import Allotment.System.Heap
set_option autoImplicit false

/-!
# Memory contexts

A context is one arena and one heap on an account of their own, set up
together from a validated configuration. A context that cannot be set up
leaves nothing behind, not even a used-up heap number.
-/

namespace Allotment

/-- The allocators that were set up together. -/
structure Context where
  configuration : Configuration
  account : AccountId
  arena : ArenaId
  heap : HeapId
  deriving DecidableEq

namespace System

/-- Sets a context up from a configuration that was found good. -/
def buildContext (s : System) (configuration : Configuration) : Outcome Context × System :=
  match Arena.create configuration.capacity with
  | .error violation => (.error (.violated violation), s)
  | .ok built =>
    let (account, s) := s.openAccount
    let (arena, s) := s.addArena built account
    let s := s.announce (.arena arena) (.contextReady configuration.capacity)
    let (heap, s) := s.addHeap account
    (.ok { configuration, account, arena, heap }, s)

/-- Sets a context up, if its configuration is of use. -/
def createContext (s : System) (configuration : Configuration) : Outcome Context × System :=
  match configuration.validate with
  | .error error => (.error (.misconfigured error), s)
  | .ok () => s.buildContext configuration

/-- Whether the arena and the heap of a context report to its account. -/
def isUnified (s : System) (context : Context) : Bool :=
  (s.arenas[context.arena]?.map ArenaSlot.account = some context.account) &&
    (s.heaps[context.heap]?.map Heap.account = some context.account)

end System

end Allotment

import Allotment.Session.Answer
set_option autoImplicit false

/-!
# Exhibits

The texts of things as they are shown to a developer. The place of an object
in memory is not part of what a session can tell; a fixed word stands for it.
-/

namespace Allotment.Session

open Text

/-- Something that can be shown to a developer. -/
inductive Exhibit where
  | account (account : AccountRef)
  | report (account : AccountRef)
  | counters (account : AccountRef)
  | region (name : String)
  | checkpoint (name : String)
  | heap (heap : HeapRef)
  | token (name : String)
  | configuration (context : String)

def heapShape (number : UInt64) (counters : Counters) : Shape :=
  .group "RcHeap" .braces
    [ .labelled "id" (.number number.toNat),
      .labelled "live_objects" (.number counters.live.toNat) ]

def tokenShape (token : Token) : Shape :=
  .atom (if token.isNull then "RcPtr(null)" else "RcPtr(ADDR)")

/-- The text of an exhibit, its layout still open. -/
def Exhibit.shape (s : Session) : Exhibit → Except Missing Shape
  | account ref => do
    let id ← s.account ref
    pure (s.system.counters id).accountShape
  | report ref => do
    let id ← s.account ref
    pure (s.system.counters id).reportShape
  | counters ref => do
    let id ← s.account ref
    pure (s.system.counters id).shape
  | region name => Region.shape <$> s.region name
  | checkpoint name => Checkpoint.shape <$> s.checkpoint name
  | heap ref => do
    let id ← s.heap ref
    let number := (s.system.heaps[id]?.map Heap.number).getD 0
    pure (heapShape number (s.heapCounters id))
  | token name => do
    let id ← s.token name
    pure (tokenShape ((s.system.token? id).getD .null))
  | configuration name => do
    let context ← s.context name
    pure context.configuration.shape

/-- The answer that shows an exhibit. -/
def exhibit (s : Session) (exhibit : Exhibit) (pretty : Bool) : Except Missing Answer := do
  let shape ← exhibit.shape s
  pure (.text (shape.render pretty))

end Allotment.Session

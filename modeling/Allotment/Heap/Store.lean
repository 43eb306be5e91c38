import Allotment.Failure
import Allotment.Heap.Host
import Allotment.Heap.Object
set_option autoImplicit false

/-!
# The object store

All heaps keep their objects in one store, where an object stays when its heap
is gone. A heap is known here by its number. It works with its own objects
only: a token of another heap is refused before anything is looked at. The
null token is accepted by every heap and stands for an object without bytes.
A token whose object was destroyed is refused too; holders that give up each
token once never see that happen.
-/

namespace Allotment

/-- The objects created so far, with nothing left of those that were destroyed. -/
structure Store where
  /-- The objects by the order of their creation. -/
  objects : Array (Option Object) := #[]

/-- No object has more references than this. -/
def maxReferences : UInt32 := 4294967295

namespace Store

/-- An object that was created and not destroyed. -/
def object? (store : Store) (id : ObjectId) : Option Object :=
  (store.objects[id]?).join

/-- The store with another object in that place. -/
def put (store : Store) (id : ObjectId) (object : Option Object) : Store :=
  { objects := store.objects.setIfInBounds id object }

/-- The object behind a token, if it refers to one. -/
def find (store : Store) : Token → Except Violation (Option (ObjectId × Object))
  | .null => .ok none
  | .reference id _ =>
    match store.object? id with
    | none => .error .danglingToken
    | some object => .ok (some (id, object))

/-- The object behind a token that a heap is given, if the token is the heap's
own. -/
def findOwn (store : Store) (heap : UInt64) (token : Token) :
    Except Violation (Option (ObjectId × Object)) :=
  match token with
  | .null => .ok none
  | .reference _ maker =>
    if maker = heap then store.find token
    else .error (.foreignToken maker heap)

/-- Creates an object of `size` zero bytes, and gives the one reference to it. -/
def create (store : Store) (host : Host) (heap size : UInt64) :
    Except AllocationFailure (Token × Store) :=
  if host.accepts size then
    .ok (.reference store.objects.size heap,
      { objects := store.objects.push (some (Object.fresh size)) })
  else .error { requested := size, available := 0 }

/-- Takes another reference to the object behind a token. -/
def retain (store : Store) (heap : UInt64) (token : Token) : Except Violation (Token × Store) :=
  match store.findOwn heap token with
  | .error violation => .error violation
  | .ok none => .ok (.null, store)
  | .ok (some (id, object)) =>
    if object.references = maxReferences then .error .referenceOverflow
    else .ok (token, store.put id (some { object with references := object.references + 1 }))

/-- Gives up one reference. The last one takes its object with it, whose size
is told. -/
def release (store : Store) (heap : UInt64) (token : Token) :
    Except Violation (Option UInt64 × Store) :=
  match store.findOwn heap token with
  | .error violation => .error violation
  | .ok none => .ok (none, store)
  | .ok (some (id, object)) =>
    if object.references - 1 = 0 then .ok (some object.size, store.put id none)
    else .ok (none, store.put id (some { object with references := object.references - 1 }))

/-- The count of references to the object behind a token; none for null. -/
def references (store : Store) (token : Token) : Except Violation UInt32 :=
  (store.find token).map fun
    | none => 0
    | some (_, object) => object.references

/-- The size of the object behind a token; zero for null. -/
def size (store : Store) (token : Token) : Except Violation UInt64 :=
  (store.find token).map fun
    | none => 0
    | some (_, object) => object.size

/-- The bytes of the object behind a token; none for null. -/
def payload (store : Store) (heap : UInt64) (token : Token) : Except Violation Bytes :=
  (store.findOwn heap token).map fun
    | none => #[]
    | some (_, object) => object.payload

/-- Edits the bytes of the object behind a token, and shows them after the edit. -/
def edit (store : Store) (heap : UInt64) (token : Token) (edit : Edit) :
    Except Violation (Bytes × Store) :=
  (store.findOwn heap token).map fun
    | none => (edit.apply #[], store)
    | some (id, object) =>
      let after := edit.apply object.payload
      (after, store.put id (some { object with payload := after }))

end Store

end Allotment

import Allotment.Bytes
set_option autoImplicit false

/-!
# Objects and tokens

An object is a block of bytes that lives as long as somebody holds a reference
to it. A reference is held as a token, which also remembers the heap that made
the object; the null token refers to nothing. Objects are told apart by the
order in which they were created, so a destroyed object is never taken for a
later one.
-/

namespace Allotment

/-- What tells one object from another: how many were created before it. -/
abbrev ObjectId := Nat

/-- A block of bytes with its count of references. -/
structure Object where
  /-- The number of references that were taken and not given up. -/
  references : UInt32 := 1
  /-- The number of bytes that were asked for. -/
  size : UInt64
  payload : Bytes

/-- A new object: one reference, and zero bytes. -/
def Object.fresh (size : UInt64) : Object :=
  { size, payload := Array.replicate size.toNat 0 }

/-- One reference to an object, or to nothing. -/
inductive Token where
  | null
  /-- A reference to `object`, which the heap with the number `maker` created. -/
  | reference (object : ObjectId) (maker : UInt64)
  deriving DecidableEq

namespace Token

/-- Whether a token refers to nothing. -/
def isNull : Token → Bool
  | null => true
  | reference _ _ => false

/-- The object that a token refers to. -/
def object? : Token → Option ObjectId
  | null => none
  | reference object _ => some object

/-- Whether two tokens refer to the same object, or both to nothing. -/
def sameObject (a b : Token) : Bool :=
  a.object? = b.object?

end Token

end Allotment

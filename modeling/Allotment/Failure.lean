import Allotment.Text.Shape
set_option autoImplicit false

/-!
# Failures

Three kinds of things can go wrong. An allocation may not be served: the
caller decides what to do, and nothing has changed. A configuration may be
refused before anything is built from it. And a caller may break a promise
that the allocators rely on, which ends the call at once.
-/

namespace Allotment

open Text

/-- A request that was not served, with what was left to serve it from. -/
structure AllocationFailure where
  /-- Bytes requested; for an arena after alignment, where that is possible. -/
  requested : UInt64
  /-- Bytes that were left; always zero for a heap. -/
  available : UInt64
  deriving DecidableEq

namespace AllocationFailure

def message (failure : AllocationFailure) : String :=
  s!"allocation failed: requested {failure.requested} bytes, {failure.available} bytes available"

def shape (failure : AllocationFailure) : Shape :=
  .group "AllocationFailed" .braces
    [ .labelled "requested" (.number failure.requested.toNat),
      .labelled "available" (.number failure.available.toNat) ]

end AllocationFailure

/-- Why a configuration is refused. -/
inductive ConfigurationError where
  /-- An arena needs at least one byte. -/
  | zeroCapacity
  deriving DecidableEq

namespace ConfigurationError

def message : ConfigurationError → String
  | zeroCapacity => "arena capacity must be non-zero"

def shape : ConfigurationError → Shape
  | zeroCapacity => .atom "ZeroCapacity"

end ConfigurationError

/-- A promise that a caller broke. -/
inductive Violation where
  /-- A lent buffer is smaller than the capacity asked of it, both in bytes. -/
  | capacityBeyondBuffer (capacity buffer : Nat)
  /-- A buffer of that capacity would leave the address range. -/
  | capacityOverflow
  /-- A token was given to a heap that did not make it. -/
  | foreignToken (maker heap : UInt64)
  /-- An object has as many references as can be counted. -/
  | referenceOverflow
  /-- A token was used after its object was destroyed. -/
  | danglingToken
  /-- A sum does not fit in the words it is made of. -/
  | sumOverflow
  /-- A product does not fit in the words it is made of. -/
  | productOverflow
  deriving DecidableEq

def Violation.message : Violation → String
  | capacityBeyondBuffer capacity buffer =>
    s!"arena capacity {capacity} exceeds buffer of {buffer} bytes"
  | capacityOverflow => "capacity overflow"
  | foreignToken _ _ => "RcPtr belongs to a different heap"
  | referenceOverflow => "refcount overflow"
  | danglingToken => "object was destroyed"
  | sumOverflow => "attempt to add with overflow"
  | productOverflow => "attempt to multiply with overflow"

/-- Why a call was not carried out. -/
inductive Refusal where
  /-- Nothing has that name, or not any more. -/
  | unknown
  /-- There was no memory for it. -/
  | exhausted (failure : AllocationFailure)
  /-- Its configuration is of no use. -/
  | misconfigured (error : ConfigurationError)
  /-- The caller broke a promise. -/
  | violated (violation : Violation)
  deriving DecidableEq

/-- The result of a call, or why it was not carried out. -/
abbrev Outcome (α : Type) := Except Refusal α

/-- Whether a call ended at once because a promise was broken. -/
def Outcome.isAbandoned {α : Type} : Outcome α → Bool
  | .error (.violated _) => true
  | _ => false

end Allotment

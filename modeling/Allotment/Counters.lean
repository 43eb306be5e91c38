import Allotment.Failure
import Allotment.Word
set_option autoImplicit false

/-!
# Counters

The allocators that share an account feed one set of five counters. An arena
moves bytes only, since its grants are given back in bulk; a heap also counts
the objects it creates and destroys. A reclaim of more than is in use leaves
zero in use. Nobody hands out so many bytes that their sum leaves the word
range; who records charges of any size asks first whether they fit.
-/

namespace Allotment

open Text

/-- The running totals of one account. -/
structure Counters where
  /-- Bytes handed out since the account was opened. -/
  total : UInt64 := 0
  /-- Bytes handed out and not yet reclaimed. -/
  inUse : UInt64 := 0
  /-- The largest value that `inUse` has had. -/
  peak : UInt64 := 0
  created : UInt64 := 0
  destroyed : UInt64 := 0
  deriving DecidableEq

/-- A movement of bytes that an account has to record. -/
inductive Charge where
  | grant (bytes : UInt64)
  | reclaim (bytes : UInt64)
  | create (size : UInt64)
  | destroy (size : UInt64)
  deriving DecidableEq

namespace Counters

/-- Objects created and not yet destroyed. -/
def live (c : Counters) : UInt64 :=
  Word.monus c.created c.destroyed

/-- The counters after `bytes` more are in use. -/
def grow (c : Counters) (bytes : UInt64) : Counters :=
  { c with
    total := c.total + bytes
    inUse := c.inUse + bytes
    peak := max c.peak (c.inUse + bytes) }

/-- The counters after `bytes` are no longer in use. -/
def shrink (c : Counters) (bytes : UInt64) : Counters :=
  { c with inUse := Word.monus c.inUse bytes }

/-- The counters after one charge, in words that wrap around. -/
def record (c : Counters) : Charge → Counters
  | .grant bytes => c.grow bytes
  | .reclaim bytes => c.shrink bytes
  | .create size => { c with created := c.created + 1 }.grow size
  | .destroy size => { c with destroyed := c.destroyed + 1 }.shrink size

/-- Whether the counters still fit in words after a charge. -/
def fits (c : Counters) : Charge → Bool
  | .grant bytes => (Word.sum? c.total bytes).isSome && (Word.sum? c.inUse bytes).isSome
  | .reclaim _ => true
  | .create size =>
    (Word.sum? c.created 1).isSome && (Word.sum? c.total size).isSome &&
      (Word.sum? c.inUse size).isSome
  | .destroy _ => (Word.sum? c.destroyed 1).isSome

/-- The counters after one charge, which they have to fit. -/
def record? (c : Counters) (charge : Charge) : Except Violation Counters :=
  if c.fits charge then .ok (c.record charge) else .error .sumOverflow

/-- The counters after each of a list of charges, which they have to fit. -/
def history? (c : Counters) : List Charge → Except Violation (List Counters)
  | [] => .ok []
  | charge :: rest =>
    match c.record? charge with
    | .error violation => .error violation
    | .ok next => (next.history? rest).map (next :: ·)

/-- The counters after all of a list of charges. -/
def recordAll (c : Counters) (charges : List Charge) : Counters :=
  charges.foldl record c

/-- The summary that is shown to a person. -/
def report (c : Counters) : String :=
  "\n".intercalate
    [ "=== Memory Statistics ===",
      s!"Total allocated: {c.total} bytes",
      s!"Current used: {c.inUse} bytes",
      s!"Peak used: {c.peak} bytes",
      s!"Alloc count: {c.created}",
      s!"Free count: {c.destroyed}",
      s!"Leaked objects: {c.live}" ]

def shape (c : Counters) : Shape :=
  .group "MemoryStats" .braces
    [ .labelled "total_allocated" (.number c.total.toNat),
      .labelled "current_used" (.number c.inUse.toNat),
      .labelled "peak_used" (.number c.peak.toNat),
      .labelled "alloc_count" (.number c.created.toNat),
      .labelled "free_count" (.number c.destroyed.toNat) ]

def reportShape (c : Counters) : Shape :=
  .group "StatsReport" .parentheses [c.shape]

def accountShape (c : Counters) : Shape :=
  .group "StatsObserver" .braces
    [.labelled "inner" (.group "Cell" .braces [.labelled "value" c.shape])]

/-- Counters that a charge fits are the counters after it. -/
theorem record?_eq_ok_iff (c next : Counters) (charge : Charge) :
    c.record? charge = .ok next ↔ c.fits charge ∧ c.record charge = next := by
  unfold record?
  split <;> rename_i h <;> simp [h]

end Counters

end Allotment

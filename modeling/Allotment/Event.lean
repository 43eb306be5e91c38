import Allotment.Counters
set_option autoImplicit false

/-!
# Events

Everything an allocator does that others may want to know is an event. The
account of the allocator records the events that move bytes, and the log tells
a reader about those that are worth a line: setting up, rolling back and
destroying, but not the grants and creations, which are too many.
-/

namespace Allotment

/-- Something an allocator did. -/
inductive Event where
  | arenaReady (capacity : UInt64)
  | granted (bytes : UInt64)
  /-- An arena was rolled back to `offset`. -/
  | restored (reclaimed offset : UInt64)
  | created (size : UInt64)
  | destroyed (size : UInt64)
  | contextReady (capacity : UInt64)
  deriving DecidableEq

/-- How much a reader has to want to know to be told. -/
inductive LogLevel where
  | debug
  | trace
  deriving DecidableEq

/-- The value of a field of a log line. -/
inductive LogValue where
  | number (n : UInt64)
  | flag (b : Bool)
  deriving DecidableEq

/-- What a reader of the log is told. -/
structure LogLine where
  level : LogLevel
  message : String
  fields : List (String × LogValue)
  deriving DecidableEq

namespace Event

/-- What an account records of an event. -/
def charge? : Event → Option Charge
  | arenaReady _ => none
  | granted bytes => some (.grant bytes)
  | restored reclaimed _ => some (.reclaim reclaimed)
  | created size => some (.create size)
  | destroyed size => some (.destroy size)
  | contextReady _ => none

/-- What the log says of an event. -/
def logLine? : Event → Option LogLine
  | arenaReady capacity =>
    some ⟨.debug, "arena initialised", [("capacity", .number capacity)]⟩
  | granted _ => none
  | restored reclaimed offset =>
    some ⟨.trace, "arena restored",
      [("reclaimed", .number reclaimed), ("offset", .number offset)]⟩
  | created _ => none
  | destroyed size =>
    some ⟨.trace, "refcounted object destroyed", [("size", .number size)]⟩
  | contextReady capacity =>
    some ⟨.debug, "memory context initialised",
      [("capacity", .number capacity), ("refcount", .flag true)]⟩

end Event

/-- The counters after an event, which change only if the event is a charge. -/
def Counters.note (c : Counters) (event : Event) : Counters :=
  match event.charge? with
  | none => c
  | some charge => c.record charge

end Allotment

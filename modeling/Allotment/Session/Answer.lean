import Allotment.Session.Basic
set_option autoImplicit false

/-!
# Answers

What a session answers to a step. Besides its own result an answer shows how
the step left the allocator it worked with: for an arena how much of it is
used, for both kinds the counters of the account. An allocation that failed
shows that too; a broken promise and a missing name show only themselves.
-/

namespace Allotment.Session

/-- How an arena was left. -/
structure ArenaState where
  used : UInt64
  counters : Counters
  deriving DecidableEq

/-- All there is to know of an arena. -/
structure ArenaInfo where
  capacity : UInt64
  used : UInt64
  remaining : UInt64
  bufferSize : Nat
  counters : Counters
  deriving DecidableEq

/-- What a heap knows of the object behind a token. -/
structure TokenInfo where
  references : UInt32
  size : UInt64
  isNull : Bool
  deriving DecidableEq

/-- The answer to one step. -/
inductive Answer where
  | done
  /-- Whether two references point to the same thing. -/
  | same (verdict : Bool)
  | equal (verdict : Bool)
  | snapshot (counters : Counters)
  | text (text : String)
  | arena (info : ArenaInfo)
  | granted (region : Region) (state : ArenaState)
  | checkpoint (checkpoint : Checkpoint)
  /-- An arena was rolled back, or not. -/
  | restored (state : ArenaState)
  /-- The bytes of a region, if the arena reaches it. -/
  | bytes (bytes : Option Bytes)
  /-- The bytes of a region after an edit, if the arena reaches it. -/
  | written (bytes : Option Bytes) (state : ArenaState)
  /-- Where a region starts in its buffer, and its distance from an aligned address. -/
  | place (offset residue : UInt64)
  /-- A buffer that was given back. -/
  | buffer (units : Array UInt64) (counters : Counters)
  | replayed (resets : Nat) (state : ArenaState)
  | ordering (order : Ordering)
  /-- The counters of the account of a heap. -/
  | heap (counters : Counters)
  /-- An object was created; where it lies, as its distance from an aligned address. -/
  | created (info : TokenInfo) (residue : UInt64) (counters : Counters)
  /-- An object was created to stay. -/
  | stored (info : TokenInfo) (counters : Counters)
  /-- Whether a token refers to nothing. -/
  | null (isNull : Bool)
  /-- Another reference was taken, and whether it is to the same object. -/
  | retained (info : TokenInfo) (same : Bool) (counters : Counters)
  | token (info : TokenInfo)
  | payload (bytes : Bytes)
  /-- The bytes of an object after an edit. -/
  | edited (bytes : Bytes) (counters : Counters)
  | context (configuration : Configuration) (arena : ArenaInfo) (counters : Counters)
    (unified : Bool)
  | sum (sum : Int64) (state : ArenaState)
  /-- Whether there was something to drop. -/
  | dropped (found : Bool)
  /-- An arena had no room. -/
  | arenaExhausted (failure : AllocationFailure) (state : ArenaState)
  /-- A heap got no memory. -/
  | heapExhausted (failure : AllocationFailure) (counters : Counters)
  /-- The step was not carried out for another reason. -/
  | refused (refusal : Refusal)
  | missing (missing : Missing)

/-- The answers to a step and to the steps inside it, each with the log lines
of what happened in it. -/
inductive Reply where
  | plain (answer : Answer) (log : List LogLine)
  /-- A scope: its steps, how much was used when the last one was done unless
  the scope was abandoned then, and how the arena was left. -/
  | scope (inner : List Reply) (result : Option UInt64) (state : ArenaState) (log : List LogLine)

/-- What a person reads when a scope is abandoned. -/
def abandonedMessage : String :=
  "scope unwound"

/-- What a person reads when a name has lost its thing. -/
def unknownMessage : String :=
  "nothing has this name any more"

/-- The counters of the account of an arena. -/
def arenaCounters (s : Session) (id : ArenaId) : Counters :=
  (s.system.arenas[id]?.map fun slot => s.system.counters slot.account).getD {}

/-- How an arena stands. -/
def arenaState (s : Session) (id : ArenaId) : ArenaState :=
  { used := (s.system.arena? id).elim 0 Arena.used
    counters := s.arenaCounters id }

/-- The counters of the account of a heap. -/
def heapCounters (s : Session) (id : HeapId) : Counters :=
  (s.system.heaps[id]?.map fun heap => s.system.counters heap.account).getD {}

/-- All there is to know of an arena. -/
def arenaInfo (s : Session) (id : ArenaId) : ArenaInfo :=
  { capacity := (s.system.arena? id).elim 0 Arena.capacity
    used := (s.system.arena? id).elim 0 Arena.used
    remaining := (s.system.arena? id).elim 0 Arena.remaining
    bufferSize := (s.system.arena? id).elim 0 Arena.bufferSize
    counters := s.arenaCounters id }

/-- The answer when an arena did not carry out a call. -/
def arenaRefusal (s : Session) (id : ArenaId) : Refusal → Answer
  | .exhausted failure => .arenaExhausted failure (s.arenaState id)
  | refusal => .refused refusal

/-- The answer when a heap did not carry out a call. -/
def heapRefusal (s : Session) (id : HeapId) : Refusal → Answer
  | .exhausted failure => .heapExhausted failure (s.heapCounters id)
  | refusal => .refused refusal

end Allotment.Session

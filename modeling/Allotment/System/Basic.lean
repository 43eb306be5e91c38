import Allotment.Arena.Metered
import Allotment.Heap.Metered
set_option autoImplicit false

/-!
# Systems

A system holds any number of accounts, and the arenas, heaps and tokens that
were made on them. Each arena and each heap reports to one account, chosen when
it is made; several may share one. The journal keeps what all of them
announced, in order. Things are named by the order in which they were made, and
a name stays with its thing: an arena whose buffer was given back and a token
that was given up leave their places empty, and a dropped arena leaves behind
what it had granted, which nothing reclaims any more.
-/

namespace Allotment

/-- The accounts are numbered in the order in which they were opened, and so is everything else.
-/
abbrev AccountId := Nat

abbrev ArenaId := Nat

abbrev HeapId := Nat

abbrev TokenId := Nat

/-- The place of an arena: the arena, unless its buffer was given back, and the
account it reports to. -/
structure ArenaSlot where
  arena : Option Arena
  account : AccountId
  /-- Whether the arena was dropped. It stays in its place as it was then. -/
  dropped : Bool := false

/-- The arena in a place, if it can still be worked with. -/
def ArenaSlot.working? (slot : ArenaSlot) : Option Arena :=
  if slot.dropped then none else slot.arena

/-- A heap: the number by which it knows its objects, and the account it
reports to. -/
structure Heap where
  number : UInt64
  account : AccountId
  deriving DecidableEq

/-- What became of a token. -/
inductive Holding where
  /-- Somebody holds it. -/
  | held
  /-- Its reference was given up. -/
  | released
  /-- It was lost with its reference still counted. -/
  | lost
  deriving DecidableEq

/-- The place of a token: the token, and what became of it. -/
structure TokenSlot where
  token : Token
  holding : Holding := .held
  deriving DecidableEq

/-- Who announced an event. -/
inductive Source where
  | arena (id : ArenaId)
  | heap (id : HeapId)
  deriving DecidableEq

/-- A line of the journal. -/
structure Entry where
  source : Source
  event : Event
  deriving DecidableEq

/-- Everything that exists at some moment. -/
structure System where
  /-- Where the heaps get their memory from. -/
  host : Host := Host.standard
  accounts : Array Counters := #[]
  arenas : Array ArenaSlot := #[]
  heaps : Array Heap := #[]
  /-- The number that the next heap gets. -/
  nextHeap : UInt64 := 1
  store : Store := {}
  tokens : Array TokenSlot := #[]
  /-- What was announced so far. -/
  journal : Array Entry := #[]

namespace System

variable {α : Type}

/-- The counters of an account, which are at zero as long as it is not open. -/
def counters (s : System) (account : AccountId) : Counters :=
  s.accounts[account]?.getD {}

/-- An arena that was not dropped and whose buffer was not given back. -/
def arena? (s : System) (id : ArenaId) : Option Arena :=
  s.arenas[id]?.bind ArenaSlot.working?

/-- A token that somebody holds. -/
def token? (s : System) (id : TokenId) : Option Token :=
  match s.tokens[id]? with
  | some { token, holding := .held } => some token
  | _ => none

/-- The system with one more line in its journal. -/
def announce (s : System) (source : Source) (event : Event) : System :=
  { s with journal := s.journal.push { source, event } }

/-- The system after the account of an allocator took over new counters and the
journal what the allocator announced. -/
def settle (s : System) (source : Source) (account : AccountId) (m : Metered α) : System :=
  { s with
    accounts := s.accounts.setIfInBounds account m.counters
    journal := s.journal ++ m.events.map fun event => { source, event } }

/-- Lets an arena work on its account. -/
def onArena (s : System) (id : ArenaId) (work : Metered Arena → Outcome α × Metered Arena) :
    Outcome α × System :=
  match s.arenas[id]? with
  | some { arena := some arena, account, dropped := false } =>
    let (outcome, m) := work { subject := arena, counters := s.counters account }
    (outcome,
      { s with arenas := s.arenas.setIfInBounds id { arena := some m.subject, account } }.settle
        (.arena id) account m)
  | _ => (.error .unknown, s)

/-- Lets a heap work on the store and on its account. -/
def onHeap (s : System) (id : HeapId)
    (work : UInt64 → Metered Store → Outcome α × Metered Store) : Outcome α × System :=
  match s.heaps[id]? with
  | some { number, account } =>
    let (outcome, m) := work number { subject := s.store, counters := s.counters account }
    (outcome, { s with store := m.subject }.settle (.heap id) account m)
  | none => (.error .unknown, s)

/-- Opens an account with all counters at zero. -/
def openAccount (s : System) : AccountId × System :=
  (s.accounts.size, { s with accounts := s.accounts.push {} })

end System

end Allotment

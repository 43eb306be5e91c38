import Allotment.Batch
import Allotment.System.Basic
set_option autoImplicit false

/-!
# Arenas of a system

An arena is made on an account, either with a buffer of its own or on a lent
one, and works until it is dropped or its buffer is given back. Giving the
buffer back first reclaims what is still granted; dropping the arena does not.
-/

namespace Allotment.System

/-- Gives an arena its place and announces that it is ready. -/
def addArena (s : System) (arena : Arena) (account : AccountId) : ArenaId × System :=
  let id := s.arenas.size
  (id, { s with arenas := s.arenas.push { arena := some arena, account } }.announce
    (.arena id) (.arenaReady arena.capacity))

/-- Makes an arena from the one that was built, unless building it broke a
promise or the account is not open. -/
def placeArena (s : System) (built : Except Violation Arena) (account : AccountId) :
    Outcome ArenaId × System :=
  if account < s.accounts.size then
    match built with
    | .error violation => (.error (.violated violation), s)
    | .ok arena =>
      let (id, s) := s.addArena arena account
      (.ok id, s)
  else (.error .unknown, s)

/-- Makes an arena with a buffer of its own. -/
def createArena (s : System) (capacity : UInt64) (account : AccountId) :
    Outcome ArenaId × System :=
  s.placeArena (Arena.create capacity) account

/-- Makes an arena on a lent buffer. -/
def lendArena (s : System) (units : Array UInt64) (capacity : UInt64) (account : AccountId) :
    Outcome ArenaId × System :=
  s.placeArena (Arena.ofUnits units capacity) account

/-- Asks an arena for a region of at least `size` bytes. -/
def alloc (s : System) (id : ArenaId) (size : UInt64) : Outcome Region × System :=
  s.onArena id fun m =>
    let (result, m) := m.alloc size
    (result.mapError .exhausted, m)

/-- Remembers how far an arena is filled. -/
def checkpoint (s : System) (id : ArenaId) : Outcome Checkpoint :=
  match s.arena? id with
  | none => .error .unknown
  | some arena => .ok arena.checkpoint

/-- Rolls an arena back to a checkpoint. -/
def restore (s : System) (id : ArenaId) (target : Checkpoint) : Outcome Unit × System :=
  s.onArena id fun m => (.ok (), m.restore target)

/-- Rolls an arena back to its beginning. -/
def reset (s : System) (id : ArenaId) : Outcome Unit × System :=
  s.onArena id fun m => (.ok (), m.reset)

/-- The bytes of a region, as far as the arena still reaches it. -/
def read (s : System) (id : ArenaId) (region : Region) : Outcome (Option Bytes) :=
  match s.arena? id with
  | none => .error .unknown
  | some arena => .ok (arena.read? region)

/-- Edits a region, as far as the arena still reaches it. -/
def write (s : System) (id : ArenaId) (region : Region) (edit : Edit) :
    Outcome (Option Bytes) × System :=
  s.onArena id fun m =>
    let (after, m) := m.write region edit
    (.ok after, m)

/-- Replays a trace of sizes and counts the resets. -/
def replay (s : System) (id : ArenaId) (sizes : List UInt64) : Outcome Nat × System :=
  s.onArena id fun m =>
    let (resets, m) := m.replay sizes
    (.ok resets, m)

/-- Sums a batch of samples, each doubled, by way of scratch space. -/
def sumBatch (s : System) (id : ArenaId) (samples : List Int32) : Outcome Int64 × System :=
  s.onArena id fun m => Batch.sum m samples

/-- Gives the buffer of an arena back, after a reset. -/
def giveBack (s : System) (id : ArenaId) : Outcome (Array UInt64) × System :=
  match s.onArena id fun m => (.ok m.reset.subject.units, m.reset) with
  | (.ok units, s) =>
    (.ok units, { s with arenas := s.arenas.modify id fun slot => { slot with arena := none } })
  | (.error refusal, s) => (.error refusal, s)

/-- Drops an arena. What it had granted stays in use on its account. -/
def dropArena (s : System) (id : ArenaId) : System :=
  match s.arena? id with
  | none => s
  | some _ =>
    { s with arenas := s.arenas.modify id fun slot => { slot with dropped := true } }

end Allotment.System

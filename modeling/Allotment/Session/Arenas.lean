import Allotment.Session.Answer
import Allotment.Trace
set_option autoImplicit false

/-!
# Steps on arenas

Making arenas, asking them for regions, rolling them back, and reading and
writing regions. A region or a checkpoint is looked up before the arena it is
used on, and binds to no arena: it may be used on any.
-/

namespace Allotment.Session

/-- The sizes of a replay. -/
inductive Workload where
  | sizes (sizes : List UInt64)
  | drawn (count : Nat) (maxSize seed : UInt64)

/-- The sizes of a workload. -/
def Workload.toList : Workload → List UInt64
  | sizes given => given
  | drawn count maxSize seed => Trace.sizeTrace count maxSize seed

/-- A step with an arena. -/
inductive ArenaStep where
  /-- Makes an arena with a buffer of its own. -/
  | create (name : String) (capacity : UInt64) (account : AccountRef)
  /-- Makes an arena on a lent buffer. -/
  | lend (name : String) (units : Array UInt64) (capacity : UInt64) (account : AccountRef)
  /-- Asks for a region, and keeps it under a name if one is given. -/
  | alloc (arena : ArenaRef) (size : UInt64) (name : Option String)
  | checkpoint (arena : ArenaRef) (name : String)
  | restore (arena : ArenaRef) (checkpoint : String)
  | reset (arena : ArenaRef)
  | read (arena : ArenaRef) (region : String)
  | write (arena : ArenaRef) (region : String) (edit : Edit)
  | locate (arena : ArenaRef) (region : String)
  | info (arena : ArenaRef)
  /-- Gives the buffer of a named arena back. -/
  | giveBack (name : String)
  | replay (arena : ArenaRef) (workload : Workload)
  | compareRegions (a b : String)
  | compareCheckpoints (a b : String)

/-- Binds the arena that was made to its name. -/
def placeArena (s : Session) (name : String) : Outcome ArenaId × System → Answer × Session
  | (.error refusal, system) => (.refused refusal, { s with system })
  | (.ok id, system) =>
    let s := { s with system }.bindArena name id
    (.arena (s.arenaInfo id), s)

/-- What a step with an arena answers and leaves. -/
def ArenaStep.run (s : Session) : ArenaStep → Except Missing (Answer × Session)
  | create name capacity account => do
    let account ← s.account account
    pure (s.placeArena name (s.system.createArena capacity account))
  | lend name units capacity account => do
    let account ← s.account account
    pure (s.placeArena name (s.system.lendArena units capacity account))
  | alloc arena size name => do
    let id ← s.arena arena
    let (outcome, system) := s.system.alloc id size
    let s := { s with system }
    match outcome with
    | .error refusal => pure (s.arenaRefusal id refusal, s)
    | .ok region =>
      let regions := name.elim s.regions fun name => s.regions.insert name region
      pure (.granted region (s.arenaState id), { s with regions })
  | checkpoint arena name => do
    let id ← s.arena arena
    match s.system.checkpoint id with
    | .error refusal => pure (.refused refusal, s)
    | .ok target =>
      pure (.checkpoint target, { s with checkpoints := s.checkpoints.insert name target })
  | restore arena target => do
    let target ← s.checkpoint target
    let id ← s.arena arena
    let (outcome, system) := s.system.restore id target
    let s := { s with system }
    match outcome with
    | .error refusal => pure (.refused refusal, s)
    | .ok () => pure (.restored (s.arenaState id), s)
  | reset arena => do
    let id ← s.arena arena
    let (outcome, system) := s.system.reset id
    let s := { s with system }
    match outcome with
    | .error refusal => pure (.refused refusal, s)
    | .ok () => pure (.restored (s.arenaState id), s)
  | read arena region => do
    let region ← s.region region
    let id ← s.arena arena
    match s.system.read id region with
    | .error refusal => pure (.refused refusal, s)
    | .ok bytes => pure (.bytes bytes, s)
  | write arena region edit => do
    let region ← s.region region
    let id ← s.arena arena
    let (outcome, system) := s.system.write id region edit
    let s := { s with system }
    match outcome with
    | .error refusal => pure (.refused refusal, s)
    | .ok bytes => pure (.written bytes (s.arenaState id), s)
  | locate arena region => do
    let region ← s.region region
    let _ ← s.arena arena
    pure (.place region.offset (region.offset % alignment), s)
  | info arena => do
    let id ← s.arena arena
    pure (.arena (s.arenaInfo id), s)
  | giveBack name => do
    let id ← lookUp .arena s.arenas name
    let (outcome, system) := s.system.giveBack id
    let s := { s with system, arenas := s.arenas.erase name }
    match outcome with
    | .error refusal => pure (.refused refusal, s)
    | .ok units => pure (.buffer units (s.arenaCounters id), s)
  | replay arena workload => do
    let id ← s.arena arena
    let (outcome, system) := s.system.replay id workload.toList
    let s := { s with system }
    match outcome with
    | .error refusal => pure (.refused refusal, s)
    | .ok resets => pure (.replayed resets (s.arenaState id), s)
  | compareRegions a b => do
    let a ← s.region a
    let b ← s.region b
    pure (.equal (a = b), s)
  | compareCheckpoints a b => do
    let a ← s.checkpoint a
    let b ← s.checkpoint b
    pure (.ordering (a.order b), s)

end Allotment.Session

import Allotment.Session.Accounts
import Allotment.Session.Arenas
import Allotment.Session.Contexts
import Allotment.Session.Exhibits
import Allotment.Session.Heaps
set_option autoImplicit false

/-!
# Running a session

A session runs its steps in order and answers each of them; a step that fails
does not stop it. A scope runs its steps on the arena that was withdrawn for
it, and rolls the arena back afterwards, unless it is abandoned. With each
answer goes the log of what happened since the answer before.
-/

namespace Allotment.Session

/-- Something that can be dropped. -/
inductive Droppable where
  | account
  | arena
  | heap
  | context
  | token
  deriving DecidableEq

/-- One step of a session. -/
inductive Step where
  | account (step : AccountStep)
  | arena (step : ArenaStep)
  | heap (step : HeapStep)
  | context (step : ContextStep)
  | drop (kind : Droppable) (name : String)
  /-- Shows something to a developer. -/
  | exhibit (exhibit : Exhibit) (pretty : Bool)
  | scope (arena : ArenaRef) (body : List Step) (abandoned : Bool)

/-- Drops what a name stands for. An account and a heap have no more to it than their names. -/
def drop (s : Session) (name : String) : Droppable → Answer × Session
  | .account =>
    (.dropped (s.accounts.find? name).isSome, { s with accounts := s.accounts.erase name })
  | .arena => (.dropped (s.arenas.find? name).isSome, s.dropArena name)
  | .heap => (.dropped (s.heaps.find? name).isSome, { s with heaps := s.heaps.erase name })
  | .context => (.dropped (s.contexts.find? name).isSome, s.dropContext name)
  | .token => (.dropped (s.tokens.find? name).isSome, s.dropToken name)

/-- The reply to a step, with the log of what happened in it. A step whose
names are not all bound does nothing. -/
def reply (s : Session) : Except Missing (Answer × Session) → Reply × Session
  | .error missing =>
    let (log, s) := s.tell
    (.plain (.missing missing) log, s)
  | .ok (answer, after) =>
    let (log, after) := after.tell
    (.plain answer log, after)

/-- A session inside a scope of an arena, which was withdrawn for it. -/
def enter (s : Session) (ref : ArenaRef) (id : ArenaId) : Session :=
  { s.withdraw ref with scopes := id :: s.scopes }

/-- The session after a scope, whose steps left it as `inside`: the arena is
rolled back to where it stood, unless the scope was abandoned, and has its name
again. -/
def leave (s inside : Session) (ref : ArenaRef) (id : ArenaId) (abandoned : Bool) : Session :=
  let system := match s.system.checkpoint id with
    | .ok target => if abandoned then inside.system else (inside.system.restore id target).2
    | .error _ => inside.system
  { inside with system, scopes := s.scopes }.putBack s ref

mutual

/-- Takes one step, with everything in its body if it is a scope. -/
def runStep (s : Session) : Step → Reply × Session
  | .account step => s.reply (step.run s)
  | .arena step => s.reply (step.run s)
  | .heap step => s.reply (step.run s)
  | .context step => s.reply (step.run s)
  | .drop kind name => s.reply (.ok (s.drop name kind))
  | .exhibit exhibit pretty =>
    s.reply ((s.exhibit exhibit pretty).map fun answer => (answer, s))
  | .scope ref body abandoned =>
    match s.arena ref with
    | .error missing => s.reply (.error missing)
    | .ok id =>
      let (inner, inside) := (s.enter ref id).run body
      let used := (inside.arenaState id).used
      let after := s.leave inside ref id abandoned
      let (log, after) := after.tell
      (.scope inner (if abandoned then none else some used) (after.arenaState id) log, after)

/-- Takes some steps one after the other. -/
def run (s : Session) : List Step → List Reply × Session
  | [] => ([], s)
  | step :: rest =>
    let (reply, s) := s.runStep step
    let (replies, s) := s.run rest
    (reply :: replies, s)

end

end Allotment.Session

import Allotment.System.Context
set_option autoImplicit false

/-!
# System programs

What can be done with a system, as a list of actions: single calls, and scopes
of an arena whose body may do anything with the rest of the system too. What
the host does is among the calls: at any moment, also inside a scope, it may
begin to refuse blocks that it served before, or to serve what it refused. A
system is reached if some list of actions leads to it from an empty one. The
names in a call need not name anything; such a call is refused or does nothing.
-/

namespace Allotment

/-- What a program asks of the system. -/
inductive Call where
  | openAccount
  | createArena (capacity : UInt64) (account : AccountId)
  | lendArena (units : Array UInt64) (capacity : UInt64) (account : AccountId)
  | alloc (arena : ArenaId) (size : UInt64)
  | checkpoint (arena : ArenaId)
  | restore (arena : ArenaId) (target : Checkpoint)
  | reset (arena : ArenaId)
  | read (arena : ArenaId) (region : Region)
  | write (arena : ArenaId) (region : Region) (edit : Edit)
  | replay (arena : ArenaId) (sizes : List UInt64)
  | sumBatch (arena : ArenaId) (samples : List Int32)
  | giveBack (arena : ArenaId)
  | dropArena (arena : ArenaId)
  | openHeap (account : AccountId)
  | makeNull
  | create (heap : HeapId) (size : UInt64)
  | retain (heap : HeapId) (token : TokenId)
  | release (heap : HeapId) (token : TokenId)
  | lose (token : TokenId)
  | references (heap : HeapId) (token : TokenId)
  | size (heap : HeapId) (token : TokenId)
  | payload (heap : HeapId) (token : TokenId)
  | edit (heap : HeapId) (token : TokenId) (edit : Edit)
  | sameObject (a b : TokenId)
  | createContext (configuration : Configuration)
  | createDefaultContext
  /-- From now on the memory comes from another host. -/
  | changeHost (host : Host)

/-- What a call results in when it is carried out. -/
inductive CallResult where
  | done
  | account (id : AccountId)
  | arena (id : ArenaId)
  | region (region : Region)
  | checkpoint (checkpoint : Checkpoint)
  | bytes (bytes : Option Bytes)
  | resets (count : Nat)
  | sum (sum : Int64)
  | units (units : Array UInt64)
  | heap (id : HeapId)
  | token (id : TokenId)
  | references (count : UInt32)
  | size (size : UInt64)
  | payload (bytes : Bytes)
  | verdict (same : Bool)
  | context (context : Context)

/-- A call, or a scope of an arena with actions inside. -/
inductive Action where
  | call (call : Call)
  | scope (arena : ArenaId) (body : List Action) (abandoned : Bool)

/-- What an action results in. -/
inductive ActionReply where
  | call (outcome : Outcome CallResult)
  /-- The replies to the actions inside a scope. -/
  | scope (inner : List ActionReply)
  /-- A scope that was not entered. -/
  | barred (refusal : Refusal)

namespace System

/-- The outcome of a call in the common type of results. -/
def report {α : Type} (result : α → CallResult) (outcome : Outcome α × System) :
    Outcome CallResult × System :=
  (outcome.1.map result, outcome.2)

/-- Makes one call: its outcome, and the system after it. -/
def perform (s : System) : Call → Outcome CallResult × System
  | .openAccount =>
    let (id, s) := s.openAccount
    (.ok (.account id), s)
  | .createArena capacity account => report .arena (s.createArena capacity account)
  | .lendArena units capacity account => report .arena (s.lendArena units capacity account)
  | .alloc arena size => report .region (s.alloc arena size)
  | .checkpoint arena => report .checkpoint (s.checkpoint arena, s)
  | .restore arena target => report (fun () => .done) (s.restore arena target)
  | .reset arena => report (fun () => .done) (s.reset arena)
  | .read arena region => report .bytes (s.read arena region, s)
  | .write arena region edit => report .bytes (s.write arena region edit)
  | .replay arena sizes => report .resets (s.replay arena sizes)
  | .sumBatch arena samples => report .sum (s.sumBatch arena samples)
  | .giveBack arena => report .units (s.giveBack arena)
  | .dropArena arena => (.ok .done, s.dropArena arena)
  | .openHeap account => report .heap (s.openHeap account)
  | .makeNull =>
    let (id, s) := s.makeNull
    (.ok (.token id), s)
  | .create heap size => report .token (s.createObject heap size)
  | .retain heap token => report .token (s.retain heap token)
  | .release heap token => report (fun () => .done) (s.release heap token)
  | .lose token => (.ok .done, s.lose token)
  | .references heap token => report .references (s.references heap token, s)
  | .size heap token => report .size (s.objectSize heap token, s)
  | .payload heap token => report .payload (s.payload heap token, s)
  | .edit heap token edit => report .payload (s.editPayload heap token edit)
  | .sameObject a b => report .verdict (s.sameObject a b, s)
  | .createContext configuration => report .context (s.createContext configuration)
  | .createDefaultContext => report .context (s.buildContext Configuration.default)
  | .changeHost host => (.ok .done, { s with host })

mutual

/-- Does one action. A scope takes a checkpoint before its body and rolls back to it afterwards,
unless it is abandoned. -/
def act (s : System) : Action → ActionReply × System
  | .call call =>
    let (outcome, s) := s.perform call
    (.call outcome, s)
  | .scope arena body abandoned =>
    match s.checkpoint arena with
    | .error refusal => (.barred refusal, s)
    | .ok target =>
      let (inner, s) := s.run body
      (.scope inner, if abandoned then s else (s.restore arena target).2)

/-- Does some actions one after the other. -/
def run (s : System) : List Action → List ActionReply × System
  | [] => ([], s)
  | action :: rest =>
    let (reply, s) := s.act action
    let (replies, s) := s.run rest
    (reply :: replies, s)

end

/-- A system that some actions lead to from an empty one, whose memory comes from
that host at first. -/
def Reached (host : Host) (s : System) : Prop :=
  ∃ actions, s = (run { host } actions).2

end System

end Allotment

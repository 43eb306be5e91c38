import Allotment.Session.Bindings
import Allotment.Session.Reference
import Allotment.System.Context
set_option autoImplicit false

/-!
# Sessions

A session works with a system through names. Each kind of thing has names of
its own. A scope takes the arena it runs on out of its name, so that meanwhile
it is reached as the innermost arena only. A name that is not bound is told
with its kind and as it was written.
-/

namespace Allotment

namespace Session

/-- What a name stands for. -/
inductive Kind where
  | account
  | arena
  | heap
  | context
  | region
  | checkpoint
  | token
  | snapshot
  deriving DecidableEq

/-- The word for a kind. -/
def Kind.word : Kind → String
  | account => "observer"
  | arena => "arena"
  | heap => "heap"
  | context => "ctx"
  | region => "ptr"
  | checkpoint => "checkpoint"
  | token => "token"
  | snapshot => "stats"

/-- A name that is not bound. -/
structure Missing where
  kind : Kind
  name : String
  deriving DecidableEq

/-- The kind and the name. -/
def Missing.message (missing : Missing) : String :=
  missing.kind.word ++ " " ++ missing.name

end Session

open Session in
/-- A system, and the names by which its things are known. -/
structure Session where
  system : System := {}
  accounts : Bindings AccountId := {}
  arenas : Bindings ArenaId := {}
  heaps : Bindings HeapId := {}
  contexts : Bindings Context := {}
  regions : Bindings Region := {}
  checkpoints : Bindings Checkpoint := {}
  tokens : Bindings TokenId := {}
  snapshots : Bindings Counters := {}
  /-- The arenas of the running scopes, the innermost first. -/
  scopes : List ArenaId := []
  /-- How much of the journal earlier answers have told. -/
  told : Nat := 0

namespace Session

/-- What a name of a kind stands for, if it is bound. -/
def lookUp {α : Type} (kind : Kind) (bindings : Bindings α) (name : String) : Except Missing α :=
  match bindings.find? name with
  | some thing => .ok thing
  | none => .error { kind, name }

/-- The context with a name, where something of `kind` is wanted by `text`. -/
def contextFor (s : Session) (kind : Kind) (text name : String) : Except Missing Context :=
  match s.contexts.find? name with
  | some context => .ok context
  | none => .error { kind, name := text }

/-- The arena that a reference points to. -/
def arena (s : Session) (ref : ArenaRef) : Except Missing ArenaId :=
  match ref with
  | .named name => lookUp .arena s.arenas name
  | .ofContext name => Context.arena <$> s.contextFor .arena ref.text name
  | .innermost =>
    match s.scopes with
    | id :: _ => .ok id
    | [] => .error { kind := .arena, name := ref.text }

/-- The heap that a reference points to. -/
def heap (s : Session) (ref : HeapRef) : Except Missing HeapId :=
  match ref with
  | .named name => lookUp .heap s.heaps name
  | .ofContext name => Context.heap <$> s.contextFor .heap ref.text name

/-- The account that an arena reports to, if the reference points to one. -/
def accountOfArena? (s : Session) (ref : ArenaRef) : Option AccountId := do
  let id ← (s.arena ref).toOption
  let slot ← s.system.arenas[id]?
  pure slot.account

/-- The account that a heap reports to, if the reference points to one. -/
def accountOfHeap? (s : Session) (ref : HeapRef) : Option AccountId := do
  let id ← (s.heap ref).toOption
  let heap ← s.system.heaps[id]?
  pure heap.account

/-- The account that a reference points to. -/
def account (s : Session) (ref : AccountRef) : Except Missing AccountId :=
  let found := match ref with
    | .named name => s.accounts.find? name
    | .ofContext name => (s.contexts.find? name).map Context.account
    | .ofArena name => s.accountOfArena? (.named name)
    | .ofInnermost => s.accountOfArena? .innermost
    | .ofHeap name => s.accountOfHeap? (.named name)
  match found with
  | some id => .ok id
  | none => .error { kind := .account, name := ref.text }

def context (s : Session) (name : String) : Except Missing Context :=
  lookUp .context s.contexts name

def region (s : Session) (name : String) : Except Missing Region :=
  lookUp .region s.regions name

def checkpoint (s : Session) (name : String) : Except Missing Checkpoint :=
  lookUp .checkpoint s.checkpoints name

def token (s : Session) (name : String) : Except Missing TokenId :=
  lookUp .token s.tokens name

def snapshot (s : Session) (name : String) : Except Missing Counters :=
  lookUp .snapshot s.snapshots name

/-- Drops the token with a name, if there is one: its reference is lost. -/
def dropToken (s : Session) (name : String) : Session :=
  match s.tokens.find? name with
  | none => s
  | some id => { s with system := s.system.lose id, tokens := s.tokens.erase name }

/-- Lets a name stand for a token; the token it stood for is dropped. -/
def bindToken (s : Session) (name : String) (id : TokenId) : Session :=
  let s := s.dropToken name
  { s with tokens := s.tokens.insert name id }

/-- Drops the arena with a name, if there is one. -/
def dropArena (s : Session) (name : String) : Session :=
  match s.arenas.find? name with
  | none => s
  | some id => { s with system := s.system.dropArena id, arenas := s.arenas.erase name }

/-- Lets a name stand for an arena; the arena it stood for is dropped. -/
def bindArena (s : Session) (name : String) (id : ArenaId) : Session :=
  let s := s.dropArena name
  { s with arenas := s.arenas.insert name id }

/-- Drops the context with a name, if there is one, and its arena with it. -/
def dropContext (s : Session) (name : String) : Session :=
  match s.contexts.find? name with
  | none => s
  | some context =>
    { s with
      system := s.system.dropArena context.arena
      contexts := s.contexts.erase name }

/-- Lets a name stand for a context; the context it stood for is dropped. -/
def bindContext (s : Session) (name : String) (context : Context) : Session :=
  let s := s.dropContext name
  { s with contexts := s.contexts.insert name context }

/-- Takes the arena that a reference points to out of its name. -/
def withdraw (s : Session) : ArenaRef → Session
  | .named name => { s with arenas := s.arenas.erase name }
  | .ofContext name => { s with contexts := s.contexts.erase name }
  | .innermost => s

/-- Puts the arena that was withdrawn from an earlier session back to its name. -/
def putBack (s earlier : Session) : ArenaRef → Session
  | .named name => (earlier.arenas.find? name).elim s (s.bindArena name)
  | .ofContext name => (earlier.contexts.find? name).elim s (s.bindContext name)
  | .innermost => s

/-- The log of what was not told yet, and the session in which it is told. -/
def tell (s : Session) : List LogLine × Session :=
  let fresh := (s.system.journal.extract s.told).toList
  (fresh.filterMap fun entry => entry.event.logLine?, { s with told := s.system.journal.size })

end Session

end Allotment

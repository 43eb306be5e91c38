import Allotment.Session.Answer
set_option autoImplicit false

/-!
# Steps on contexts

Setting contexts up, with a capacity or without, asking what there is to know
of one, and summing a batch of samples in the scratch space of its arena.
-/

namespace Allotment.Session

/-- A step with a context. -/
inductive ContextStep where
  | create (name : String) (capacity : UInt64)
  /-- Sets a context up for which nothing else was asked. -/
  | createDefault (name : String)
  | info (context : String)
  | batch (context : String) (samples : List Int32)

/-- Binds the context that was set up to its name. -/
def placeContext (s : Session) (name : String) : Outcome Context × System → Answer × Session
  | (.error refusal, system) => (.refused refusal, { s with system })
  | (.ok context, system) =>
    let s := { s with system }.bindContext name context
    (.arena (s.arenaInfo context.arena), s)

/-- What a step with a context answers and leaves. -/
def ContextStep.run (s : Session) : ContextStep → Except Missing (Answer × Session)
  | create name capacity =>
    pure (s.placeContext name (s.system.createContext { capacity }))
  | createDefault name =>
    pure (s.placeContext name (s.system.buildContext Configuration.default))
  | info context => do
    let context ← s.context context
    pure (.context context.configuration (s.arenaInfo context.arena)
      (s.system.counters context.account) (s.system.isUnified context), s)
  | batch context samples => do
    let context ← s.context context
    let (outcome, system) := s.system.sumBatch context.arena samples
    let s := { s with system }
    match outcome with
    | .error refusal => pure (s.arenaRefusal context.arena refusal, s)
    | .ok sum => pure (.sum sum (s.arenaState context.arena), s)

end Allotment.Session

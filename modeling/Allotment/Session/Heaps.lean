import Allotment.Session.Answer
set_option autoImplicit false

/-!
# Steps on heaps

Opening heaps, creating objects, and passing tokens around. A token that is
given up leaves its name, also when the heap refuses it; for a release the heap
is looked up first, so that a heap that is missing costs no token.
-/

namespace Allotment.Session

/-- A step with a heap. -/
inductive HeapStep where
  | start (name : String) (account : AccountRef)
  | create (heap : HeapRef) (size : UInt64) (name : String)
  /-- Creates an object that is to stay. -/
  | store (heap : HeapRef) (size : UInt64) (name : String)
  | null (name : String)
  | retain (heap : HeapRef) (token name : String)
  | release (heap : HeapRef) (token : String)
  | inspect (heap : HeapRef) (token : String)
  | payload (heap : HeapRef) (token : String)
  | edit (heap : HeapRef) (token : String) (edit : Edit)
  | same (a b : String)
  | info (heap : HeapRef)

/-- What a heap knows of a held token. -/
def tokenInfo (s : Session) (heap : HeapId) (token : TokenId) : Outcome TokenInfo := do
  let references ← s.system.references heap token
  let size ← s.system.objectSize heap token
  pure { references, size, isNull := (s.system.token? token).elim true Token.isNull }

/-- Binds the token that a heap handed out to its name, and answers with what
the heap knows of it. -/
def bindResult (s : Session) (heap : HeapId) (name : String)
    (answer : TokenInfo → Session → Answer) : Outcome TokenId × System → Answer × Session
  | (.error refusal, system) =>
    let s := { s with system }
    (s.heapRefusal heap refusal, s)
  | (.ok id, system) =>
    let s := { s with system }
    match s.tokenInfo heap id with
    | .error refusal => (.refused refusal, s)
    | .ok info => (answer info s, s.bindToken name id)

/-- What a step with a heap answers and leaves. -/
def HeapStep.run (s : Session) : HeapStep → Except Missing (Answer × Session)
  | start name account => do
    let account ← s.account account
    let (outcome, system) := s.system.openHeap account
    let s := { s with system }
    match outcome with
    | .error refusal => pure (.refused refusal, s)
    | .ok id => pure (.heap (s.heapCounters id), { s with heaps := s.heaps.insert name id })
  | create heap size name => do
    let heap ← s.heap heap
    pure <| s.bindResult heap name
      (fun info s => .created info (UInt64.ofNat Host.headerSize % alignment) (s.heapCounters heap))
      (s.system.createObject heap size)
  | store heap size name => do
    let heap ← s.heap heap
    pure <| s.bindResult heap name (fun info s => .stored info (s.heapCounters heap))
      (s.system.createObject heap size)
  | null name => do
    let (id, system) := s.system.makeNull
    pure (.null true, { s with system }.bindToken name id)
  | retain heap token name => do
    let token ← s.token token
    let heap ← s.heap heap
    let (outcome, system) := s.system.retain heap token
    let same := match outcome with
      | .ok id => system.sameObject token id
      | .error refusal => .error refusal
    pure <| s.bindResult heap name
      (fun info s => .retained info (same.toOption.getD false) (s.heapCounters heap))
      (outcome, system)
  | release heap token => do
    let heap ← s.heap heap
    let id ← s.token token
    let (outcome, system) := s.system.release heap id
    let s := { s with system, tokens := s.tokens.erase token }
    match outcome with
    | .error refusal => pure (.refused refusal, s)
    | .ok () => pure (.heap (s.heapCounters heap), s)
  | inspect heap token => do
    let token ← s.token token
    let heap ← s.heap heap
    match s.tokenInfo heap token with
    | .error refusal => pure (.refused refusal, s)
    | .ok known => pure (.token known, s)
  | payload heap token => do
    let token ← s.token token
    let heap ← s.heap heap
    match s.system.payload heap token with
    | .error refusal => pure (.refused refusal, s)
    | .ok bytes => pure (.payload bytes, s)
  | edit heap token change => do
    let token ← s.token token
    let heap ← s.heap heap
    let (outcome, system) := s.system.editPayload heap token change
    let s := { s with system }
    match outcome with
    | .error refusal => pure (.refused refusal, s)
    | .ok bytes => pure (.edited bytes (s.heapCounters heap), s)
  | same a b => do
    let a ← s.token a
    let b ← s.token b
    match s.system.sameObject a b with
    | .error refusal => pure (.refused refusal, s)
    | .ok verdict => pure (.same verdict, s)
  | info heap => do
    let heap ← s.heap heap
    pure (.heap (s.heapCounters heap), s)

end Allotment.Session

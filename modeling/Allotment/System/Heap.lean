import Allotment.System.Basic
set_option autoImplicit false

/-!
# Heaps of a system

Every token that a heap hands out gets a place of its own, and is given up or
lost at most once: a call that names a token which is not held any more is not
carried out. A token that a heap refuses to take back is lost, so its reference
stays counted for ever.
-/

namespace Allotment.System

/-- Gives a heap its place and the next number. -/
def addHeap (s : System) (account : AccountId) : HeapId × System :=
  (s.heaps.size,
    { s with
      heaps := s.heaps.push { number := s.nextHeap, account }
      nextHeap := s.nextHeap + 1 })

/-- Opens a heap whose objects report to an account, if the account is open. -/
def openHeap (s : System) (account : AccountId) : Outcome HeapId × System :=
  if account < s.accounts.size then
    let (id, s) := s.addHeap account
    (.ok id, s)
  else (.error .unknown, s)

/-- Gives a new token the next place, in which it is held. -/
def hold (s : System) (token : Token) : TokenId × System :=
  (s.tokens.size, { s with tokens := s.tokens.push { token } })

/-- Gives the token that a call resulted in its place. -/
def holdResult : Outcome Token × System → Outcome TokenId × System
  | (.error refusal, s) => (.error refusal, s)
  | (.ok token, s) =>
    let (id, s) := s.hold token
    (.ok id, s)

/-- The system after a held token became released or lost. -/
def retire (s : System) (id : TokenId) (holding : Holding) : System :=
  { s with tokens := s.tokens.modify id fun slot => { slot with holding } }

/-- Makes a token to nothing. -/
def makeNull (s : System) : TokenId × System :=
  s.hold .null

/-- Creates an object of `size` zero bytes. -/
def createObject (s : System) (heap : HeapId) (size : UInt64) : Outcome TokenId × System :=
  holdResult <| s.onHeap heap fun number m =>
    let (result, m) := m.create s.host number size
    (result.mapError .exhausted, m)

/-- Takes another reference to the object behind a token. -/
def retain (s : System) (heap : HeapId) (id : TokenId) : Outcome TokenId × System :=
  match s.token? id with
  | none => (.error .unknown, s)
  | some token =>
    holdResult <| s.onHeap heap fun number m =>
      let (result, m) := m.retain number token
      (result.mapError .violated, m)

/-- Gives up the reference that a token holds. A heap that refuses the token
does not hand it back. -/
def release (s : System) (heap : HeapId) (id : TokenId) : Outcome Unit × System :=
  match s.heaps[heap]?, s.token? id with
  | some _, some token =>
    let (outcome, s) := s.onHeap heap fun number m =>
      let (result, m) := m.release number token
      (result.mapError .violated, m)
    match outcome with
    | .ok () => (.ok (), s.retire id .released)
    | .error refusal => (.error refusal, s.retire id .lost)
  | _, _ => (.error .unknown, s)

/-- Drops a token without giving up its reference. -/
def lose (s : System) (id : TokenId) : System :=
  match s.token? id with
  | none => s
  | some _ => s.retire id .lost

/-- What a heap answers about a token without changing anything. -/
def inspect {α : Type} (s : System) (heap : HeapId) (id : TokenId)
    (question : UInt64 → Store → Token → Except Violation α) : Outcome α :=
  match s.heaps[heap]?, s.token? id with
  | some { number, .. }, some token => (question number s.store token).mapError .violated
  | _, _ => .error .unknown

/-- The count of references to the object behind a token. Any heap may be asked. -/
def references (s : System) (heap : HeapId) (id : TokenId) : Outcome UInt32 :=
  s.inspect heap id fun _ store token => store.references token

/-- The size of the object behind a token. Any heap may be asked. -/
def objectSize (s : System) (heap : HeapId) (id : TokenId) : Outcome UInt64 :=
  s.inspect heap id fun _ store token => store.size token

/-- The bytes of the object behind a token, which only its own heap shows. -/
def payload (s : System) (heap : HeapId) (id : TokenId) : Outcome Bytes :=
  s.inspect heap id fun number store token => store.payload number token

/-- Edits the bytes of the object behind a token, and shows them after the edit. -/
def editPayload (s : System) (heap : HeapId) (id : TokenId) (edit : Edit) :
    Outcome Bytes × System :=
  match s.token? id with
  | none => (.error .unknown, s)
  | some token =>
    s.onHeap heap fun number m =>
      let (result, m) := m.edit number token edit
      (result.mapError .violated, m)

/-- Whether two held tokens refer to the same object, or both to nothing. -/
def sameObject (s : System) (a b : TokenId) : Outcome Bool :=
  match s.token? a, s.token? b with
  | some a, some b => .ok (a.sameObject b)
  | _, _ => .error .unknown

end Allotment.System

import Allotment.Proofs.Memory.Blocks
import Allotment.Proofs.System.Lineages

set_option autoImplicit false

/-!
A system over memory. A token is no more than an address and the number of a heap, and an
object is what lies there: its count, its size and its bytes are read off and stored in place,
and two tokens are for the same object if they have the same address. Where blocks and buffers
lie is up to whoever hands them out; addresses come back into use once a block is given back.
Arenas keep their bytes in buffers in the same memory. Everything that is not in memory is
done as in a system without objects.
-/

namespace Allotment

/-- A token as it is stored: the address of the bytes, and the heap that made it. -/
structure Pointer where
  payload : Option ℕ
  maker : UInt64

/-- The token to nothing as it is stored. -/
def Pointer.null : Pointer where
  payload := none
  maker := 0

/-- The place of a token, and what became of it. -/
structure PointerSlot where
  pointer : Pointer
  holding : Holding := .held

/-- Where the blocks of objects, in the order of their creation, and the buffers of arenas
lie. -/
structure Placement where
  block : ℕ → ℕ
  buffer : ArenaId → ℕ

/-- A system whose objects are in memory. -/
structure Machine where
  /-- Everything but objects and tokens. -/
  rest : System
  memory : Memory
  pointers : Array PointerSlot := #[]
  /-- The number of blocks that were handed out so far. -/
  made : ℕ := 0
  /-- The blocks that were handed out and not given back. -/
  live : List Block := []

/-- The memory after runs of bytes were stored. -/
def Memory.storeAll (m : Memory) (runs : List (ℕ × Bytes)) : Memory :=
  runs.foldl (fun m run => m.store run.1 run.2.toList) m

namespace Placement

/-- The buffers of arenas: where they lie, and what is in them. -/
def buffers (place : Placement) (s : System) : List (ℕ × Bytes) :=
  (List.range s.arenas.size).filterMap fun id =>
    (s.arena? id).map fun arena => (place.buffer id, arena.bytes)

/-- The token as it is stored. -/
def pointer (place : Placement) : Token → Pointer
  | .null => .null
  | .reference k maker => { payload := some (place.block k + Host.headerSize), maker }

/-- The place of a token with the token as it is stored. -/
def slot (place : Placement) (slot : TokenSlot) : PointerSlot where
  pointer := place.pointer slot.token
  holding := slot.holding

end Placement

namespace Machine

/-- A machine that nothing was done with, whatever is in memory. -/
def start (host : Host) (memory : Memory) : Machine where
  rest := { host }
  memory := memory

/-- A token that somebody holds. -/
def pointer? (m : Machine) (id : TokenId) : Option Pointer :=
  match m.pointers[id]? with
  | some { pointer, holding := .held } => some pointer
  | _ => none

/-- Gives a new token the next place. -/
def hold (m : Machine) (pointer : Pointer) : Machine :=
  { m with pointers := m.pointers.push { pointer } }

/-- The machine after a held token became released or lost. -/
def retire (m : Machine) (id : TokenId) (holding : Holding) : Machine :=
  { m with pointers := m.pointers.modify id fun slot => { slot with holding } }

/-- The address that a held token gives to a heap, which has to be the one that made it. -/
def own (m : Machine) (heap : HeapId) (id : TokenId) : Outcome (Heap × Option ℕ) :=
  match m.rest.heaps[heap]?, m.pointer? id with
  | some owner, some pointer =>
    match pointer.payload with
    | none => .ok (owner, none)
    | some payload =>
      if pointer.maker = owner.number then .ok (owner, some payload)
      else .error (.violated (.foreignToken pointer.maker owner.number))
  | _, _ => .error .unknown

/-- Creates an object in the next block. -/
def create (m : Machine) (place : Placement) (heap : HeapId) (size : UInt64) :
    Outcome TokenId × Machine :=
  match m.rest.heaps[heap]? with
  | none => (.error .unknown, m)
  | some owner =>
    if m.rest.host.accepts size then
      let base := place.block m.made
      (.ok m.pointers.size,
        { m with
          rest := m.rest.record (.heap heap) owner.account [.created size]
          memory := m.memory.allocate base size
          made := m.made + 1
          live := ⟨base, Host.headerSize + size.toNat⟩ :: m.live }.hold
          { payload := some (base + Host.headerSize), maker := owner.number })
    else (.error (.exhausted { requested := size, available := 0 }), m)

/-- Takes another reference to the object at the address of a token. -/
def retain (m : Machine) (heap : HeapId) (id : TokenId) : Outcome TokenId × Machine :=
  match m.own heap id with
  | .error refusal => (.error refusal, m)
  | .ok (_, none) => (.ok m.pointers.size, m.hold .null)
  | .ok (owner, some payload) =>
    let references := m.memory.references payload
    if references = maxReferences then (.error (.violated .referenceOverflow), m)
    else
      (.ok m.pointers.size,
        { m with memory := m.memory.setReferences payload (references + 1) }.hold
          { payload := some payload, maker := owner.number })

/-- Gives the block of an object back. -/
def free (m : Machine) (payload : ℕ) : Machine :=
  let block : Block :=
    { start := payload - Host.headerSize
      length := Host.headerSize + (m.memory.size payload).toNat }
  { m with live := m.live.filter fun other => other ≠ block }

/-- Gives up the reference that a token holds; with the last one the block is given back. -/
def release (m : Machine) (heap : HeapId) (id : TokenId) : Outcome Unit × Machine :=
  match m.own heap id with
  | .error .unknown => (.error .unknown, m)
  | .error refusal => (.error refusal, m.retire id .lost)
  | .ok (_, none) => (.ok (), m.retire id .released)
  | .ok (owner, some payload) =>
    let references := m.memory.references payload - 1
    let size := m.memory.size payload
    let m := { m with memory := m.memory.setReferences payload references }
    if references = 0 then
      (.ok (),
        { m.free payload with
          rest := m.rest.record (.heap heap) owner.account [.destroyed size] }.retire id .released)
    else (.ok (), m.retire id .released)

/-- Drops a token without giving up its reference. -/
def lose (m : Machine) (id : TokenId) : Machine :=
  match m.pointer? id with
  | none => m
  | some _ => m.retire id .lost

/-- What any heap answers about the address of a token. -/
def inspect {α : Type} (m : Machine) (heap : HeapId) (id : TokenId)
    (question : Option ℕ → α) : Outcome α :=
  match m.rest.heaps[heap]?, m.pointer? id with
  | some _, some pointer => .ok (question pointer.payload)
  | _, _ => .error .unknown

/-- The count of references at the address of a token. -/
def references (m : Machine) (heap : HeapId) (id : TokenId) : Outcome UInt32 :=
  m.inspect heap id fun payload => payload.elim 0 m.memory.references

/-- The size at the address of a token. -/
def objectSize (m : Machine) (heap : HeapId) (id : TokenId) : Outcome UInt64 :=
  m.inspect heap id fun payload => payload.elim 0 m.memory.size

/-- The bytes at the address of a token. -/
def payload (m : Machine) (heap : HeapId) (id : TokenId) : Outcome Bytes :=
  (m.own heap id).map fun owned => owned.2.elim #[] m.memory.payload

/-- Edits the bytes at the address of a token. -/
def editPayload (m : Machine) (heap : HeapId) (id : TokenId) (edit : Edit) :
    Outcome Bytes × Machine :=
  match m.own heap id with
  | .error refusal => (.error refusal, m)
  | .ok (_, none) => (.ok (edit.apply #[]), m)
  | .ok (_, some payload) =>
    let after := edit.apply (m.memory.payload payload)
    (.ok after, { m with memory := m.memory.setPayload payload after })

/-- Whether two held tokens have the same address, or both none. -/
def sameObject (m : Machine) (a b : TokenId) : Outcome Bool :=
  match m.pointer? a, m.pointer? b with
  | some a, some b => .ok (a.payload = b.payload)
  | _, _ => .error .unknown

/-- A call that is none of objects and tokens; what the arenas have in their buffers then is
in memory where these lie. -/
def performOffHeap (m : Machine) (place : Placement) (call : Call) : Outcome CallResult × Machine :=
  let (outcome, after) := m.rest.perform call
  (outcome, { m with rest := after, memory := m.memory.storeAll (place.buffers after) })

/-- The outcome of a call in the common type of results. -/
def report {α : Type} (result : α → CallResult) (outcome : Outcome α × Machine) :
    Outcome CallResult × Machine :=
  (outcome.1.map result, outcome.2)

/-- Makes one call of a program. -/
def perform (m : Machine) (place : Placement) : Call → Outcome CallResult × Machine
  | .makeNull => (.ok (.token m.pointers.size), m.hold .null)
  | .create heap size => report .token (m.create place heap size)
  | .retain heap token => report .token (m.retain heap token)
  | .release heap token => report (fun () => .done) (m.release heap token)
  | .lose token => (.ok .done, m.lose token)
  | .references heap token => report .references (m.references heap token, m)
  | .size heap token => report .size (m.objectSize heap token, m)
  | .payload heap token => report .payload (m.payload heap token, m)
  | .edit heap token edit => report .payload (m.editPayload heap token edit)
  | .sameObject a b => report .verdict (m.sameObject a b, m)
  | call => m.performOffHeap place call

/-- Makes some calls one after the other. -/
def performAll (m : Machine) (place : Placement) (calls : List Call) : Machine :=
  calls.foldl (fun m call => (m.perform place call).2) m

/-- Calls one after the other are made one after the other. -/
theorem performAll_append (m : Machine) (place : Placement) (first second : List Call) :
    m.performAll place (first ++ second) = (m.performAll place first).performAll place second :=
  List.foldl_append

/-- The parts of memory that are in use: the blocks that were not given back, and the buffers
of arenas. -/
def inUse (m : Machine) (place : Placement) : List Block :=
  m.live ++ (place.buffers m.rest).map fun run => ⟨run.1, run.2.size⟩

/-- No part of memory is in use twice. -/
def NoOverlap (m : Machine) (place : Placement) : Prop :=
  (m.inUse place).Pairwise Block.Apart

instance (m : Machine) (place : Placement) : Decidable (m.NoOverlap place) :=
  inferInstanceAs (Decidable (List.Pairwise _ _))

end Machine

end Allotment

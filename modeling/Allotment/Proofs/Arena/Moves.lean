import Allotment.Arena.Program
import Allotment.Proofs.Arena.Operations
import Allotment.Proofs.Bookkeeping
import Mathlib.Algebra.BigOperators.Group.List.Basic

set_option autoImplicit false

/-!
An arena moves in three ways: by a request, by a rollback, and by a write. Every
program of calls, however deep its scopes and long its replays, is a list of
such moves, and the moments of a run are the arenas before and after each of
them. What a move keeps is kept by every program.
-/

namespace Allotment

/-- A way in which an arena moves. -/
inductive ArenaMove where
  | alloc (size : UInt64)
  | restore (target : Checkpoint)
  | write (region : Region) (edit : Edit)
  deriving DecidableEq

namespace Arena

/-- The arena after a move. -/
def move (arena : Arena) : ArenaMove → Arena
  | .alloc size =>
    match arena.place size with
    | .ok region => arena.grant region
    | .error _ => arena
  | .restore target => (arena.restore? target).elim arena Prod.snd
  | .write region edit =>
    (arena.read? region).elim arena fun bytes => arena.store region (edit.apply bytes)

/-- The arena after some moves. -/
def moveAll (arena : Arena) (moves : List ArenaMove) : Arena :=
  moves.foldl move arena

/-- The events that a move announces: one if it moves bytes, and else none. -/
def announced (arena : Arena) : ArenaMove → List Event
  | .alloc size =>
    match arena.place size with
    | .ok region => [.granted region.length]
    | .error _ => []
  | .restore target =>
    (arena.restore? target).elim [] fun rolled => [.restored rolled.1 target.offset]
  | .write _ _ => []

/-- The events that some moves announce, in order. -/
def announcedAll (arena : Arena) : List ArenaMove → List Event
  | [] => []
  | step :: rest => arena.announced step ++ (arena.move step).announcedAll rest

/-- What a move does to an arena and what it announces: a request is granted or
refused, a rollback is carried out or ignored, and a write reaches its region or
misses it. -/
inductive Moved (arena : Arena) : ArenaMove → List Event → Arena → Prop
  | granted {size : UInt64} {region : Region} (h : arena.place size = .ok region) :
    Moved arena (.alloc size) [.granted region.length] (arena.grant region)
  | refused {size : UInt64} {failure : AllocationFailure} (h : arena.place size = .error failure) :
    Moved arena (.alloc size) [] arena
  | rolled {target : Checkpoint} (h : target.offset.toNat ≤ arena.offset.toNat) :
    Moved arena (.restore target) [.restored (arena.offset - target.offset) target.offset]
      { arena with offset := target.offset }
  | ignored {target : Checkpoint} (h : arena.offset.toNat < target.offset.toNat) :
    Moved arena (.restore target) [] arena
  | written {region : Region} {edit : Edit} (h : region.stop.toNat ≤ arena.offset.toNat) :
    Moved arena (.write region edit) [] (arena.store region (edit.apply (arena.slice region)))
  | missed {region : Region} {edit : Edit} (h : arena.offset.toNat < region.stop.toNat) :
    Moved arena (.write region edit) [] arena

/-- Every move is one of those that are listed. -/
theorem moved (arena : Arena) (step : ArenaMove) :
    Moved arena step (arena.announced step) (arena.move step) := by
  cases step with
  | alloc size =>
    cases h : arena.place size with
    | ok region => simpa only [move, announced, h] using Moved.granted h
    | error failure => simpa only [move, announced, h] using Moved.refused h
  | restore target =>
    by_cases h : target.offset ≤ arena.offset
    · simpa [move, announced, restore?, h] using Moved.rolled (UInt64.le_iff_toNat_le.1 h)
    · have hlt : arena.offset.toNat < target.offset.toNat := by
        rw [UInt64.le_iff_toNat_le] at h
        omega
      simpa [move, announced, restore?, h] using Moved.ignored hlt
  | write region edit =>
    by_cases h : region.stop.toNat ≤ arena.offset.toNat
    · have hread := (arena.read?_eq_some_iff region _).2 ⟨h, rfl⟩
      simpa only [move, announced, hread, Option.elim_some] using Moved.written h
    · have hread : arena.read? region = none := by
        simp [read?, arena.reaches_iff region, h]
      simpa only [move, announced, hread, Option.elim_none] using
        Moved.missed (Nat.lt_of_not_le h)

/-- Moves one after the other are made one after the other. -/
theorem moveAll_append (arena : Arena) (first second : List ArenaMove) :
    arena.moveAll (first ++ second) = (arena.moveAll first).moveAll second :=
  List.foldl_append

/-- A move announces one event at most. -/
theorem length_announced_le (arena : Arena) (step : ArenaMove) :
    (arena.announced step).length ≤ 1 := by
  have h := arena.moved step
  generalize arena.announced step = events, arena.move step = after at h ⊢
  cases h <;> simp

/-- No move changes the capacity. -/
@[simp]
theorem capacity_move (arena : Arena) (step : ArenaMove) :
    (arena.move step).capacity = arena.capacity := by
  have h := arena.moved step
  generalize arena.announced step = events, arena.move step = after at h
  cases h <;> rfl

/-- No moves change the capacity. -/
theorem capacity_moveAll (arena : Arena) (moves : List ArenaMove) :
    (arena.moveAll moves).capacity = arena.capacity := by
  induction moves generalizing arena with
  | nil => rfl
  | cons step rest ih => exact (ih (arena.move step)).trans (arena.capacity_move step)

/-- The offset of an arena moves by the bytes that are announced. -/
theorem offset_move (arena : Arena) (step : ArenaMove) :
    (arena.move step).offset.toNat + ((arena.announced step).map Event.bytesOut).sum =
      arena.offset.toNat + ((arena.announced step).map Event.bytesIn).sum := by
  have h := arena.moved step
  generalize arena.announced step = events, arena.move step = after at h ⊢
  cases h with
  | granted hplace =>
    obtain ⟨-, -, hstop, -⟩ := place_eq_ok hplace
    simpa [Event.bytesIn, Event.bytesOut] using hstop
  | @rolled target hle =>
    have hsub := UInt64.toNat_sub_of_le _ _ (UInt64.le_iff_toNat_le.2 hle)
    simp only [List.map_cons, List.map_nil, List.sum_singleton, Event.bytesIn, Event.bytesOut]
    omega
  | refused | ignored | written | missed => rfl

/-- No move takes an arena out of its bounds. -/
theorem Bounded.move {arena : Arena} (hbounded : arena.Bounded) (step : ArenaMove) :
    (arena.move step).Bounded := by
  have h := arena.moved step
  generalize arena.announced step = events, arena.move step = after at h ⊢
  cases h with
  | granted hplace =>
    obtain ⟨-, -, -, hcap⟩ := place_eq_ok hplace
    exact ⟨hcap, by simpa using hbounded.backed⟩
  | rolled hle => exact ⟨hle.trans hbounded.fits, hbounded.backed⟩
  | written => exact ⟨hbounded.fits, by simpa using hbounded.backed⟩
  | refused | ignored | missed => exact hbounded

/-- An arena within its bounds stays there over all moves. -/
theorem Bounded.moveAll {arena : Arena} (hbounded : arena.Bounded) (moves : List ArenaMove) :
    (arena.moveAll moves).Bounded := by
  induction moves generalizing arena with
  | nil => exact hbounded
  | cons step rest ih => exact ih (hbounded.move step)

/-- A move keeps an arena sound when the checkpoint of a rollback is aligned. -/
theorem Sound.move {arena : Arena} (hsound : arena.Sound) (step : ArenaMove)
    (haligned : ∀ target, step = .restore target → 8 ∣ target.offset.toNat) :
    (arena.move step).Sound := by
  refine ⟨hsound.toBounded.move step, ?_⟩
  have h := arena.moved step
  generalize arena.announced step = events, arena.move step = after at h ⊢
  cases h with
  | granted hplace =>
    obtain ⟨-, hlength, hstop, -⟩ := place_eq_ok hplace
    rw [offset_grant, hstop, hlength]
    exact Nat.dvd_add hsound.aligned (isLeast_roundUp _).1.1
  | rolled => exact haligned _ rfl
  | refused | ignored | written | missed => exact hsound.aligned

end Arena

namespace Metered

/-- The arena and its account after a move. -/
def move (m : Metered Arena) : ArenaMove → Metered Arena
  | .alloc size => (m.alloc size).2
  | .restore target => m.restore target
  | .write region edit => (m.write region edit).2

/-- The arena and its account after some moves. -/
def moveAll (m : Metered Arena) (moves : List ArenaMove) : Metered Arena :=
  moves.foldl move m

/-- The moves that a replay makes: a request for each size, and around a refused one a reset and
another request. -/
def replayMoves (m : Metered Arena) : List UInt64 → List ArenaMove
  | [] => []
  | size :: rest =>
    match m.alloc size with
    | (.ok _, after) => .alloc size :: after.replayMoves rest
    | (.error _, after) =>
      .alloc size :: .restore { offset := 0 } :: .alloc size ::
        (after.reset.alloc size).2.replayMoves rest

mutual

/-- The moves that a call makes. -/
def moves (m : Metered Arena) : ArenaCall → List ArenaMove
  | .alloc size => [.alloc size]
  | .checkpoint => []
  | .restore target => [.restore target]
  | .reset => [.restore { offset := 0 }]
  | .read _ => []
  | .write region edit => [.write region edit]
  | .replay sizes => m.replayMoves sizes
  | .scope body abandoned =>
    m.programMoves body ++ if abandoned then [] else [.restore m.subject.checkpoint]

/-- The moves that some calls make. -/
def programMoves (m : Metered Arena) : List ArenaCall → List ArenaMove
  | [] => []
  | call :: rest => m.moves call ++ (m.perform call).2.programMoves rest

end

/-- Moves on an account are made one after the other too. -/
@[simp]
theorem moveAll_append (m : Metered Arena) (first second : List ArenaMove) :
    m.moveAll (first ++ second) = (m.moveAll first).moveAll second :=
  List.foldl_append

/-- What a request is answered does not depend on the account. -/
theorem fst_alloc (m : Metered Arena) (size : UInt64) :
    (m.alloc size).1 = m.subject.place size := by
  unfold alloc
  cases m.subject.place size <;> rfl

/-- What a write shows does not depend on the account: the bytes of the region, edited. -/
theorem fst_write (m : Metered Arena) (region : Region) (edit : Edit) :
    (m.write region edit).1 = (m.subject.read? region).map edit.apply := by
  unfold write read
  cases m.subject.read? region <;> rfl

/-- A move is that of the arena alone; the account records what is announced and
the log keeps it. -/
theorem move_eq (m : Metered Arena) (step : ArenaMove) :
    m.move step =
      { subject := m.subject.move step
        counters := (m.subject.announced step).foldl Counters.note m.counters
        events := m.events ++ (m.subject.announced step).toArray } := by
  cases step with
  | alloc size =>
    cases h : m.subject.place size <;> simp [move, alloc, Arena.move, Arena.announced, announce, h]
  | restore target =>
    cases h : m.subject.restore? target <;>
      simp [move, restore, Arena.move, Arena.announced, announce, h]
  | write region edit =>
    cases h : m.subject.read? region <;>
      simp [move, write, read, Arena.move, Arena.announced, h]

/-- The moves of an arena on its account are those of the arena itself, and the account takes
note of what it announces in them. -/
theorem moveAll_eq (m : Metered Arena) (moves : List ArenaMove) :
    m.moveAll moves =
      { subject := m.subject.moveAll moves
        counters := (m.subject.announcedAll moves).foldl Counters.note m.counters
        events := m.events ++ (m.subject.announcedAll moves).toArray } := by
  induction moves generalizing m with
  | nil => simp [moveAll, Arena.moveAll, Arena.announcedAll]
  | cons step rest ih =>
    show (m.move step).moveAll rest = _
    rw [ih, move_eq]
    simp [Arena.moveAll, Arena.announcedAll]

/-- The account does not show in where the moves lead an arena. -/
theorem subject_moveAll (m : Metered Arena) (moves : List ArenaMove) :
    (m.moveAll moves).subject = m.subject.moveAll moves := by
  rw [moveAll_eq]

/-- A replay does what its moves do. -/
theorem replay_eq_moveAll (m : Metered Arena) (sizes : List UInt64) :
    (m.replay sizes).2 = m.moveAll (m.replayMoves sizes) := by
  induction sizes generalizing m with
  | nil => rfl
  | cons size rest ih =>
    rcases h : m.alloc size with ⟨result, after⟩
    have hmove : m.move (.alloc size) = after := congrArg Prod.snd h
    cases result with
    | ok region =>
      simp only [replay, replayMoves, h, ih]
      rw [← hmove]
      rfl
    | error failure =>
      simp only [replay, replayMoves, h, ih]
      rw [← hmove]
      rfl

mutual

/-- A call leads where its moves lead. -/
theorem perform_eq_moveAll (m : Metered Arena) :
    ∀ call : ArenaCall, (m.perform call).2 = m.moveAll (m.moves call)
  | .alloc _ => rfl
  | .checkpoint => rfl
  | .restore _ => rfl
  | .reset => rfl
  | .read _ => rfl
  | .write _ _ => rfl
  | .replay sizes => m.replay_eq_moveAll sizes
  | .scope body true => by
    have hbody := m.performAll_eq_moveAll body
    simpa [perform, scope, moves] using hbody
  | .scope body false => by
    have hbody := m.performAll_eq_moveAll body
    simp only [perform, scope, moves, moveAll_append, ← hbody]
    rfl

/-- A program does what its moves do, however deep its scopes. -/
theorem performAll_eq_moveAll (m : Metered Arena) :
    ∀ calls : List ArenaCall, (m.performAll calls).2 = m.moveAll (m.programMoves calls)
  | [] => rfl
  | call :: rest => by
    have hcall := m.perform_eq_moveAll call
    have hrest := (m.perform call).2.performAll_eq_moveAll rest
    rw [programMoves, moveAll_append, ← hcall, ← hrest]
    rfl

end

end Metered

end Allotment

import Allotment.Proofs.System.Requests
import Allotment.Proofs.System.Scopes

set_option autoImplicit false

/-!
A replay loses and duplicates nothing. A size of a trace is served where the arena stands, or
at the start after a reset, or it is beyond the capacity and the reset is all that comes of
it. An empty arena has room for every size that is not beyond the capacity, so asking twice is
enough. What a trace does is added up from these three cases by induction on its sizes; what
the arena holds at the end depends only on the sizes from the last reset on.
-/

namespace Allotment

/-- The sizes that an empty arena of a capacity has room for. -/
def fitting (capacity : UInt64) (sizes : List UInt64) : List UInt64 :=
  sizes.filter fun size => roundUp size.toNat ≤ capacity.toNat

/-- The bytes that some sizes take if each of them is rounded up. -/
def roundedSum (sizes : List UInt64) : ℕ :=
  (sizes.map fun size => roundUp size.toNat).sum

/-- A size that fits an empty arena is kept. -/
theorem fitting_of_le {capacity size : UInt64} (h : roundUp size.toNat ≤ capacity.toNat) :
    fitting capacity [size] = [size] :=
  List.filter_cons_of_pos (by simpa using h)

/-- A size that is too great for the whole arena is left out. -/
theorem fitting_of_lt {capacity size : UInt64} (h : capacity.toNat < roundUp size.toNat) :
    fitting capacity [size] = [] :=
  List.filter_cons_of_neg (by simpa using h)

/-- Whether a size fits an empty arena does not depend on the sizes after it. -/
theorem fitting_cons (capacity size : UInt64) (rest : List UInt64) :
    fitting capacity (size :: rest) = fitting capacity [size] ++ fitting capacity rest :=
  List.filter_append [size] rest

/-- Two traces in a row take the bytes of the first and those of the second. -/
theorem roundedSum_append (first second : List UInt64) :
    roundedSum (first ++ second) = roundedSum first + roundedSum second := by
  simp [roundedSum]

namespace Arena

variable {arena : Arena} {size : UInt64} {sizes : List UInt64}

/-- Two runs of moves announce what the first announces, and then what the second announces
where the first led. -/
theorem announcedAll_append (arena : Arena) (first second : List ArenaMove) :
    arena.announcedAll (first ++ second) =
      arena.announcedAll first ++ (arena.moveAll first).announcedAll second := by
  induction first generalizing arena with
  | nil => rfl
  | cons step rest ih =>
    rw [List.cons_append, announcedAll, announcedAll, ih, List.append_assoc]
    rfl

/-- What a move is granted: the size that it asks for, and the region. -/
def served? (arena : Arena) : ArenaMove → Option (UInt64 × Region)
  | .alloc size => (arena.place size).toOption.map (Prod.mk size)
  | _ => none

/-- What some moves are granted, in order. -/
def servedAll (arena : Arena) : List ArenaMove → List (UInt64 × Region)
  | [] => []
  | step :: rest => (arena.served? step).toList ++ (arena.move step).servedAll rest

/-- Two runs of moves are granted what the first is granted, and then what the second is granted
where the first led. -/
theorem servedAll_append (arena : Arena) (first second : List ArenaMove) :
    arena.servedAll (first ++ second) =
      arena.servedAll first ++ (arena.moveAll first).servedAll second := by
  induction first generalizing arena with
  | nil => rfl
  | cons step rest ih =>
    rw [List.cons_append, servedAll, servedAll, ih, List.append_assoc]
    rfl

/-- Whether an arena has no room for a request as it stands. -/
def refuses (arena : Arena) (size : UInt64) : Bool :=
  !(arena.place size).isOk

/-- An arena refuses a size exactly when the rounded size goes beyond its capacity. -/
theorem refuses_iff (arena : Arena) (size : UInt64) :
    arena.refuses size = true ↔ arena.capacity.toNat < arena.used.toNat + roundUp size.toNat := by
  rw [← Nat.not_le, ← arena.exists_place_iff]
  unfold refuses
  cases arena.place size <;> simp [Except.isOk, Except.toBool]

/-- The moves that a replay makes for one size. -/
def requestMoves (arena : Arena) (size : UInt64) : List ArenaMove :=
  if arena.refuses size then [.alloc size, .restore { offset := 0 }, .alloc size]
  else [.alloc size]

/-- The arena after a replay has made its moves for one size. -/
def request (arena : Arena) (size : UInt64) : Arena :=
  arena.moveAll (arena.requestMoves size)

/-- The moves that the replay of a trace makes. -/
def traceMoves (arena : Arena) : List UInt64 → List ArenaMove
  | [] => []
  | size :: rest => arena.requestMoves size ++ (arena.request size).traceMoves rest

/-- The arena after the replay of a trace. -/
def traced (arena : Arena) (sizes : List UInt64) : Arena :=
  sizes.foldl request arena

/-- What the replay of a trace announces. -/
def traceEvents (arena : Arena) (sizes : List UInt64) : List Event :=
  arena.announcedAll (arena.traceMoves sizes)

/-- Whether the first request for the size at a position of a trace is refused. -/
def refusedAt (arena : Arena) (sizes : List UInt64) (i : ℕ) : Bool :=
  sizes[i]?.any (arena.traced (sizes.take i)).refuses

/-- How many sizes of a trace are refused at first. -/
def refusals (arena : Arena) (sizes : List UInt64) : ℕ :=
  (List.range sizes.length).countP (arena.refusedAt sizes)

/-- The moves of a replay lead where the replay leads. -/
theorem moveAll_traceMoves (arena : Arena) (sizes : List UInt64) :
    arena.moveAll (arena.traceMoves sizes) = arena.traced sizes := by
  induction sizes generalizing arena with
  | nil => rfl
  | cons size rest ih =>
    rw [traceMoves, moveAll_append]
    exact ih (arena.request size)

/-- A trace in two parts is replayed one part after the other. -/
theorem traced_append (arena : Arena) (first second : List UInt64) :
    arena.traced (first ++ second) = (arena.traced first).traced second :=
  List.foldl_append

/-- A replay announces what its first size comes to, and then what the rest announces. -/
theorem traceEvents_cons (arena : Arena) (size : UInt64) (rest : List UInt64) :
    arena.traceEvents (size :: rest) =
      arena.announcedAll (arena.requestMoves size) ++ (arena.request size).traceEvents rest :=
  arena.announcedAll_append _ _

/-- No request changes the capacity. -/
@[simp]
theorem capacity_request (arena : Arena) (size : UInt64) :
    (arena.request size).capacity = arena.capacity :=
  arena.capacity_moveAll _

/-- No replay changes the capacity. -/
@[simp]
theorem capacity_traced (arena : Arena) (sizes : List UInt64) :
    (arena.traced sizes).capacity = arena.capacity := by
  rw [← moveAll_traceMoves, capacity_moveAll]

/-- A first size that is refused counts once, and the rest is counted where it led. -/
theorem refusals_cons (arena : Arena) (size : UInt64) (rest : List UInt64) :
    arena.refusals (size :: rest) =
      (arena.refuses size).toNat + (arena.request size).refusals rest := by
  unfold refusals
  rw [List.length_cons, List.range_succ_eq_map, List.countP_cons, List.countP_map, Nat.add_comm]
  congr 1
  show (if arena.refuses size = true then 1 else 0) = _
  cases arena.refuses size <;> rfl

/-- The refusals of a trace in two parts are those of the first, and those of the second where
the first led. -/
theorem refusals_append (arena : Arena) (first second : List UInt64) :
    arena.refusals (first ++ second) =
      arena.refusals first + (arena.traced first).refusals second := by
  induction first generalizing arena with
  | nil => exact (Nat.zero_add _).symm
  | cons size rest ih =>
    rw [List.cons_append, refusals_cons, refusals_cons, ih, Nat.add_assoc]
    rfl

/-- What a replay does with an arena for one size: what it serves, what it tells, and where it
leads. -/
inductive Requested (arena : Arena) (size : UInt64) :
    List (UInt64 × Region) → List Event → Arena → Prop
  | placed {region : Region} {after : Arena}
    (hroom : arena.used.toNat + roundUp size.toNat ≤ arena.capacity.toNat)
    (hlength : region.length.toNat = roundUp size.toNat)
    (hused : after.used.toNat = arena.used.toNat + roundUp size.toNat) :
    Requested arena size [(size, region)] [.granted region.length] after
  | moved {region : Region} {after : Arena}
    (hfull : arena.capacity.toNat < arena.used.toNat + roundUp size.toNat)
    (hfits : roundUp size.toNat ≤ arena.capacity.toNat)
    (hlength : region.length.toNat = roundUp size.toNat)
    (hused : after.used.toNat = roundUp size.toNat) :
    Requested arena size [(size, region)]
      [.restored arena.used 0, .granted region.length] after
  | passed {after : Arena} (hnever : arena.capacity.toNat < roundUp size.toNat)
    (hused : after.used.toNat = 0) :
    Requested arena size [] [.restored arena.used 0] after

/-- What a replay does for one size is one of three things: it places the size, it places it
after a reset, or it leaves it out with the arena empty. -/
theorem requested (arena : Arena) (size : UInt64) :
    Requested arena size (arena.servedAll (arena.requestMoves size))
      (arena.announcedAll (arena.requestMoves size)) (arena.request size) := by
  have hroom := arena.exists_place_iff size
  cases hplace : arena.place size with
  | ok region =>
    have hmoves : arena.requestMoves size = [.alloc size] := by
      simp [requestMoves, refuses, hplace, Except.isOk, Except.toBool]
    obtain ⟨-, hlength, hstop, -⟩ := place_eq_ok hplace
    have hused : (arena.grant region).used.toNat = arena.used.toNat + roundUp size.toNat := by
      rw [← hlength]
      exact hstop
    have hplaced := Requested.placed (hroom.1 ⟨region, hplace⟩) hlength hused
    simpa [request, hmoves, moveAll, move, announcedAll, announced, servedAll, served?, hplace,
      Except.toOption] using hplaced
  | error failure =>
    have hmoves : arena.requestMoves size =
        [.alloc size, .restore { offset := 0 }, .alloc size] := by
      simp [requestMoves, refuses, hplace, Except.isOk, Except.toBool]
    have hfull : arena.capacity.toNat < arena.used.toNat + roundUp size.toNat :=
      Nat.lt_of_not_le fun h => by simpa [hplace] using hroom.2 h
    -- the second request meets an empty arena, so it is refused only if the size never fits
    let emptied : Arena := { arena with offset := 0 }
    have hrestore : arena.restore? { offset := 0 } = some (arena.used, emptied) := by
      simp [restore?, used, emptied]
    have hagain := emptied.exists_place_iff size
    cases hsecond : emptied.place size with
    | ok region =>
      obtain ⟨-, hlength, hstop, -⟩ := place_eq_ok hsecond
      have hused : (emptied.grant region).used.toNat = roundUp size.toNat := by
        rw [← hlength]
        exact hstop.trans (Nat.zero_add _)
      have hfits : 0 + roundUp size.toNat ≤ arena.capacity.toNat :=
        hagain.1 ⟨region, hsecond⟩
      have hmoved := Requested.moved hfull (by omega) hlength hused
      simpa [request, hmoves, moveAll, move, announcedAll, announced, servedAll, served?, hplace,
        hrestore, hsecond, Except.toOption] using hmoved
    | error failure =>
      have hnever : arena.capacity.toNat < 0 + roundUp size.toNat :=
        Nat.lt_of_not_le fun h => by simpa [hsecond] using hagain.2 h
      have hpassed : Requested arena size _ _ emptied := .passed (by omega) rfl
      simpa [request, hmoves, moveAll, move, announcedAll, announced, servedAll, served?, hplace,
        hrestore, hsecond, Except.toOption] using hpassed

/-- What one size moves in the books. A size that is refused at first takes all that the arena
held with it, which is told in one line; then the arena holds the size if it fits. -/
theorem books_request (arena : Arena) (size : UInt64) :
    let events := arena.announcedAll (arena.requestMoves size)
    let placed := fitting arena.capacity [size]
    (arena.servedAll (arena.requestMoves size)).map Prod.fst = placed ∧
      (events.map Event.bytesIn).sum = roundedSum placed ∧
      (events.map Event.reclaimedBytes).sum =
        (if arena.refuses size then arena.used.toNat else 0) ∧
      (rollbackLines events).length = (arena.refuses size).toNat ∧
      (arena.request size).used.toNat =
        (if arena.refuses size then 0 else arena.used.toNat) + roundedSum placed := by
  have hrefuses := arena.refuses_iff size
  have hrequested := arena.requested size
  generalize arena.servedAll (arena.requestMoves size) = served,
    arena.announcedAll (arena.requestMoves size) = events, arena.request size = after at hrequested
  cases hrequested with
  | placed hroom hlength hused =>
    have hserved : arena.refuses size = false := by
      rw [← Bool.not_eq_true, hrefuses]
      omega
    rw [fitting_of_le (by omega), hserved]
    exact ⟨rfl, hlength, rfl, rfl, hused⟩
  | moved hfull hfits hlength hused =>
    rw [fitting_of_le hfits, hrefuses.2 hfull]
    exact ⟨rfl, (Nat.zero_add _).trans hlength, rfl, rfl, hused.trans (Nat.zero_add _).symm⟩
  | passed hnever hused =>
    rw [fitting_of_lt hnever, hrefuses.2 (by omega)]
    exact ⟨rfl, rfl, rfl, rfl, hused⟩

/-- The books of a whole trace: exactly the sizes that fit are served, the rollbacks make up
for what is no longer held, and one is told for every refusal. -/
theorem books_traced (arena : Arena) (sizes : List UInt64) :
    let events := arena.traceEvents sizes
    let placed := fitting arena.capacity sizes
    (arena.servedAll (arena.traceMoves sizes)).map Prod.fst = placed ∧
      (events.map Event.bytesIn).sum = roundedSum placed ∧
      (arena.traced sizes).used.toNat + (events.map Event.reclaimedBytes).sum =
        arena.used.toNat + roundedSum placed ∧
      (rollbackLines events).length = arena.refusals sizes := by
  induction sizes generalizing arena with
  | nil => exact ⟨rfl, rfl, rfl, rfl⟩
  | cons size rest ih =>
    obtain ⟨hserved, hin, hout, htold, hused⟩ := arena.books_request size
    obtain ⟨hserveds, hins, hbalances, htolds⟩ := ih (arena.request size)
    rw [capacity_request] at hserveds hins hbalances
    intro events placed
    rw [show events = _ from traceEvents_cons arena size rest,
      show placed = _ from fitting_cons arena.capacity size rest, traceMoves, servedAll_append,
      refusals_cons, roundedSum_append, rollbackLines_append, List.length_append,
      List.map_append, List.map_append, List.map_append, List.sum_append, List.sum_append]
    refine ⟨congrArg₂ _ hserved hserveds, by omega, ?_, by omega⟩
    -- a request that empties the arena reclaims all it held, and any other one nothing
    have hbalance : (arena.request size).used.toNat +
        ((arena.announcedAll (arena.requestMoves size)).map Event.reclaimedBytes).sum =
          arena.used.toNat + roundedSum (fitting arena.capacity [size]) := by
      rw [hused, hout]
      split <;> omega
    show ((arena.request size).traced rest).used.toNat + _ = _
    omega

/-- A trace without a refusal is served as it stands. -/
theorem used_traced_of_none (arena : Arena) {sizes : List UInt64}
    (hnone : ∀ i, arena.refusedAt sizes i = false) :
    (arena.traced sizes).used.toNat = arena.used.toNat + roundedSum sizes ∧
      fitting arena.capacity sizes = sizes := by
  induction sizes generalizing arena with
  | nil => exact ⟨rfl, rfl⟩
  | cons size rest ih =>
    have hserved : arena.refuses size = false := hnone 0
    obtain ⟨hrest, hall⟩ := ih (arena.request size) fun i => hnone (i + 1)
    have hroom : ¬ arena.capacity.toNat < arena.used.toNat + roundUp size.toNat := by
      rw [← refuses_iff, hserved]
      exact Bool.false_ne_true
    have hfits : fitting arena.capacity [size] = [size] := fitting_of_le (by omega)
    obtain ⟨-, -, -, -, hused⟩ := arena.books_request size
    rw [hserved, hfits, if_neg Bool.false_ne_true] at hused
    rw [capacity_request] at hall
    constructor
    · show ((arena.request size).traced rest).used.toNat = _
      rw [hrest, hused, Nat.add_assoc, ← roundedSum_append, List.singleton_append]
    · rw [fitting_cons, hall, hfits, List.singleton_append]

/-- At the end of a trace an arena holds the sizes that fit from the last refused one on. -/
theorem used_traced_of_last (arena : Arena) {sizes : List UInt64} {i : ℕ}
    (hlast : arena.refusedAt sizes i = true)
    (hafter : ∀ j, i < j → arena.refusedAt sizes j = false) :
    (arena.traced sizes).used.toNat = roundedSum (fitting arena.capacity (sizes.drop i)) := by
  induction sizes generalizing arena i with
  | nil => simp [refusedAt] at hlast
  | cons size rest ih =>
    cases i with
    | zero =>
      -- the rest of the trace goes on from the arena that was emptied for this size
      have hrefused : arena.refuses size = true := hlast
      obtain ⟨-, -, -, -, hused⟩ := arena.books_request size
      rw [hrefused, if_pos rfl, Nat.zero_add] at hused
      have hnone : ∀ j, (arena.request size).refusedAt rest j = false :=
        fun j => hafter (j + 1) j.succ_pos
      obtain ⟨hrest, hall⟩ := (arena.request size).used_traced_of_none hnone
      rw [capacity_request] at hall
      show ((arena.request size).traced rest).used.toNat = _
      rw [hrest, hused, List.drop_zero, fitting_cons _ size rest, hall, roundedSum_append]
    | succ i =>
      have hrest := ih (arena.request size) hlast fun j hj => hafter (j + 1) (by omega)
      rwa [capacity_request] at hrest

/-- A size beyond the capacity causes one refusal and leaves the arena empty. -/
theorem passed_of_lt {i : ℕ} (hi : i < sizes.length)
    (hnever : arena.capacity.toNat < roundUp sizes[i].toNat) :
    arena.refusedAt sizes i = true ∧
      arena.refusals (sizes.take (i + 1)) = arena.refusals (sizes.take i) + 1 ∧
      (arena.traced (sizes.take (i + 1))).used.toNat = 0 := by
  have hrefused : (arena.traced (sizes.take i)).refuses sizes[i] = true := by
    rw [refuses_iff, capacity_traced]
    omega
  obtain ⟨-, -, -, -, hused⟩ := (arena.traced (sizes.take i)).books_request sizes[i]
  rw [if_pos hrefused, capacity_traced, fitting_of_lt hnever] at hused
  rw [List.take_succ_eq_append_getElem hi, refusals_append, traced_append, refusals_cons, hrefused]
  refine ⟨?_, rfl, hused⟩
  rw [refusedAt, List.getElem?_eq_getElem hi]
  exact hrefused

end Arena

namespace Metered

variable {m : Metered Arena}

/-- A replay makes the moves for one size, counts it if it is refused, and goes on. -/
theorem replay_cons (m : Metered Arena) (size : UInt64) (rest : List UInt64) :
    let next := m.moveAll (m.subject.requestMoves size)
    (m.replay (size :: rest)).1 = (m.subject.refuses size).toNat + (next.replay rest).1 ∧
      m.replayMoves (size :: rest) = m.subject.requestMoves size ++ next.replayMoves rest := by
  have hplace := m.fst_alloc size
  rw [Arena.requestMoves, Arena.refuses, ← hplace]
  rcases halloc : m.alloc size with ⟨result, after⟩
  have hafter : after = m.moveAll [.alloc size] := (congrArg Prod.snd halloc).symm
  cases result with
  | ok region =>
    simp only [replay, replayMoves, halloc, hafter]
    exact ⟨(Nat.zero_add _).symm, rfl⟩
  | error failure =>
    simp only [replay, replayMoves, halloc, hafter]
    exact ⟨Nat.add_comm _ 1, rfl⟩

/-- The moves of a metered replay do not depend on the counters. -/
theorem replayMoves_eq (m : Metered Arena) (sizes : List UInt64) :
    m.replayMoves sizes = m.subject.traceMoves sizes := by
  induction sizes generalizing m with
  | nil => rfl
  | cons size rest ih =>
    rw [(m.replay_cons size rest).2, ih, subject_moveAll]
    rfl

/-- The number that a replay returns is that of the sizes it was refused at first. -/
theorem fst_replay (m : Metered Arena) (sizes : List UInt64) :
    (m.replay sizes).1 = m.subject.refusals sizes := by
  induction sizes generalizing m with
  | nil => rfl
  | cons size rest ih =>
    rw [(m.replay_cons size rest).1, ih, subject_moveAll, Arena.refusals_cons]
    rfl

/-- What is in use on an account beside what an arena has granted stays there, and so the peak
of the account cannot rise by more than the capacity of the arena above that. -/
theorem Covered.peak_moveAll_le (hc : m.Covered) (hbounded : m.subject.Bounded)
    (moves : List ArenaMove)
    (hfit : m.counters.total.toNat +
      ((m.subject.announcedAll moves).map Event.bytesIn).sum < 2 ^ 64) :
    (m.moveAll moves).counters.peak.toNat ≤
      max m.counters.peak.toNat
        (m.counters.inUse.toNat - m.subject.used.toNat + m.subject.capacity.toNat) := by
  induction moves generalizing m with
  | nil => exact le_max_left _ _
  | cons step rest ih =>
    rw [Arena.announcedAll, List.map_append, List.sum_append] at hfit
    have hsubject : (m.move step).subject = m.subject.move step := by rw [move_eq]
    have hcounters : (m.move step).counters =
        (m.subject.announced step).foldl Counters.note m.counters := by rw [move_eq]
    obtain ⟨hcovered, htotal, hinUse⟩ := hc.move step (by omega)
    obtain ⟨-, -, hpeak⟩ := m.counters.foldl_note_of_few (m.subject.length_announced_le step)
      (by omega) hc.total hc.peak
    rw [← hcounters] at hpeak
    have hnext : (m.move step).subject.Bounded := hsubject ▸ hbounded.move step
    have hfits : (m.move step).subject.used.toNat ≤ (m.move step).subject.capacity.toNat :=
      hnext.fits
    have hcapacity : (m.move step).subject.capacity = m.subject.capacity := by
      rw [hsubject, Arena.capacity_move]
    have hrest := ih hcovered hnext (by rw [hsubject]; omega)
    -- what is in use beside the arena is the same before and after the move
    have hused := hc.used
    have hused' := hcovered.used
    rw [hcapacity] at hrest hfits
    show ((m.move step).moveAll rest).counters.peak.toNat ≤ _
    omega

end Metered

namespace System

variable {s : System} {id : ArenaId} {arena : Arena} {account : AccountId}

/-- Whether the first request that a replay makes for the size at a position of its trace is
refused. -/
def refusedAt (s : System) (id : ArenaId) (sizes : List UInt64) (i : ℕ) : Bool :=
  sizes[i]?.any fun size => !((s.replay id (sizes.take i)).2.alloc id size).1.isOk

/-- What an arena announces is told by the log of whoever follows it. -/
theorem rollbacks_place (s : System) (slot : ArenaSlot) (events : List Event)
    (told : Source → Bool) :
    (s.place id slot events).rollbacks told =
      s.rollbacks told ++ if told (.arena id) then rollbackLines events else [] := by
  unfold rollbacks
  rw [log_place, List.filter_append]
  split <;> rfl

section Arenas

variable (hslot : s.arenas[id]? = some { arena := some arena, account })
include hslot

/-- A replay of an arena that is there unrolls to its moves, made one by one. -/
theorem unrollCall_replay (sizes : List UInt64) :
    s.unrollCall (.replay id sizes) = (arena.traceMoves sizes).map (ArenaMove.toCall id) := by
  have hmetered : s.metered? id =
      some { subject := arena, counters := s.counters account } := by
    simp [metered?, hslot]
  rw [unrollCall, hmetered, Option.elim_some, Metered.replayMoves_eq]

/-- A replay answers the number of its resets, and leaves the arena traced and its events
announced. -/
theorem replay_eq (sizes : List UInt64) :
    s.replay id sizes =
      (.ok (arena.refusals sizes),
        s.place id { arena := some (arena.traced sizes), account } (arena.traceEvents sizes)) := by
  let m : Metered Arena := { subject := arena, counters := s.counters account }
  have hcount := m.fst_replay sizes
  have hmoves := m.replay_eq_moveAll sizes
  rw [Metered.replayMoves_eq] at hmoves
  unfold replay
  rw [onArena_eq hslot (arena.traceMoves sizes) hmoves, Arena.moveAll_traceMoves]
  exact congrArg (fun count => (Except.ok count, _)) hcount

/-- The first request at a position is refused by the system as by the arena. -/
theorem refusedAt_eq (sizes : List UInt64) : s.refusedAt id sizes = arena.refusedAt sizes := by
  funext i
  unfold refusedAt Arena.refusedAt
  congr 1
  funext size
  rw [replay_eq hslot, alloc_eq (arenas_place hslot _ _)]
  unfold Arena.refuses
  cases (arena.traced (sizes.take i)).place size <;> rfl

/-- What the moves of an arena are granted is what the calls of these moves are granted. -/
theorem grants_toCall (moves : List ArenaMove) :
    s.grants id (moves.map (ArenaMove.toCall id)) = arena.servedAll moves := by
  induction moves generalizing s arena with
  | nil => rfl
  | cons step rest ih =>
    have hgrant : s.grant? id (step.toCall id) = arena.served? step := by
      cases step with
      | alloc size => exact grant?_alloc hslot size
      | restore | write => rfl
    rw [List.map_cons, grants, hgrant, snd_perform_toCall hslot, ih (arenas_place hslot _ _)]
    rfl

/-- The total counts what a replay grants. What is in use changes as what the arena holds, and
the peak does not go beyond what is in use beside the arena and the whole capacity. -/
theorem charged_of_replay (hs : s.Attained) (sizes : List UInt64) :
    let after := (s.replay id sizes).2
    after.handedOut account < 2 ^ 64 →
      (after.counters account).total.toNat =
        (s.counters account).total.toNat + roundedSum (fitting arena.capacity sizes) ∧
      (s.heaps.size < 2 ^ 64 →
        (after.counters account).inUse.toNat + arena.used.toNat =
          (s.counters account).inUse.toNat + (arena.traced sizes).used.toNat ∧
        (after.counters account).peak.toNat ≤
          max (s.counters account).peak.toNat
            ((s.counters account).inUse.toNat - arena.used.toNat + arena.capacity.toNat)) := by
  intro after hfit
  obtain ⟨-, hin, -, -⟩ := arena.books_traced sizes
  have hafter : after = s.place id { arena := some (arena.traced sizes), account }
      (arena.traceEvents sizes) := congrArg Prod.snd (replay_eq hslot sizes)
  have hhanded : after.handedOut account = s.handedOut account +
      ((arena.traceEvents sizes).map Event.bytesIn).sum := by
    rw [hafter]
    exact handedOut_place hslot _ _
  have htotal := (hs.booked account (by omega)).total
  have htotal' : (after.counters account).total.toNat = after.handedOut account :=
    ((hs.performed (.replay id sizes)).booked account hfit).total
  refine ⟨by omega, fun hdistinct => ?_⟩
  let m : Metered Arena := { subject := arena, counters := s.counters account }
  have hcovered : m.Covered := hs.covered hslot (by omega) hdistinct
  have hcounters : after.counters account = (m.moveAll (arena.traceMoves sizes)).counters := by
    rw [hafter, counters_place hslot hs.coherent, m.moveAll_eq]
    rfl
  have hroom : m.counters.total.toNat +
      ((m.subject.announcedAll (arena.traceMoves sizes)).map Event.bytesIn).sum < 2 ^ 64 := by
    rw [htotal]
    exact hhanded ▸ hfit
  obtain ⟨-, hinUse⟩ := hcovered.moveAll _ hroom
  rw [m.subject_moveAll, arena.moveAll_traceMoves] at hinUse
  rw [hcounters]
  exact ⟨hinUse, hcovered.peak_moveAll_le (hs.bounded hslot) _ hroom⟩

end Arenas

/-- In every attained system, wherever an arena stands and whatever the trace, the replay
returns. It serves the sizes whose rounded size is within the capacity, each of them once and
in order, and no other. The number it returns is that of the sizes that were refused at first,
and as many rollbacks are told; they reclaim what the arena held before and was granted since,
less what it holds at the end. A size beyond the capacity is refused, adds one to the number,
and leaves the arena empty. At the end the arena holds the sizes that fit from the last refused
one on, or all the sizes beside what it held if none was refused. As long as its total is a
word, the account counts just what was served. As long as no two heaps, which are numbered by
words, are taken for one another, what it has in use changes as what the arena holds, and its
peak goes at most to what is in use beside the arena and the whole capacity, if it was not
beyond that before. -/
theorem traces_replayed (hs : s.Attained)
    (hslot : s.arenas[id]? = some { arena := some arena, account }) (sizes : List UInt64) :
    let after := (s.replay id sizes).2
    let placed := fitting arena.capacity sizes
    let grants := s.grants id (s.unrollCall (.replay id sizes))
    ∃ (resets : ℕ) (last : Arena) (lines : List LogLine),
      (s.replay id sizes).1 = .ok resets ∧
      after.arenas[id]? = some { arena := some last, account } ∧
      grants.map Prod.fst = placed ∧
      (∀ grant ∈ grants, grant.2.length.toNat = roundUp grant.1.toNat) ∧
      resets = (List.range sizes.length).countP (s.refusedAt id sizes) ∧
      lines.length = resets ∧
      (∀ told, after.rollbacks told =
        s.rollbacks told ++ if told (.arena id) then lines else []) ∧
      last.used.toNat + (lines.map (LogLine.number "reclaimed")).sum =
        arena.used.toNat + roundedSum placed ∧
      (∀ (i : ℕ) (hi : i < sizes.length), arena.capacity.toNat < roundUp sizes[i].toNat →
        s.refusedAt id sizes i = true ∧
        ∃ (before : ℕ) (emptied : Arena), (s.replay id (sizes.take i)).1 = .ok before ∧
          (s.replay id (sizes.take (i + 1))).1 = .ok (before + 1) ∧
          (s.replay id (sizes.take (i + 1))).2.arenas[id]? =
            some { arena := some emptied, account } ∧
          emptied.used.toNat = 0) ∧
      (∀ i, s.refusedAt id sizes i = true → (∀ j, i < j → s.refusedAt id sizes j = false) →
        last.used.toNat = roundedSum (fitting arena.capacity (sizes.drop i))) ∧
      ((∀ i, s.refusedAt id sizes i = false) →
        last.used.toNat = arena.used.toNat + roundedSum sizes) ∧
      (after.handedOut account < 2 ^ 64 →
        (after.counters account).total.toNat =
          (s.counters account).total.toNat + roundedSum placed ∧
        (s.heaps.size < 2 ^ 64 →
          (after.counters account).inUse.toNat + arena.used.toNat =
            (s.counters account).inUse.toNat + last.used.toNat ∧
          (after.counters account).peak.toNat ≤
            max (s.counters account).peak.toNat
              ((s.counters account).inUse.toNat - arena.used.toNat + arena.capacity.toNat))) := by
  intro after placed grants
  obtain ⟨hserved, -, hbalance, htold⟩ := arena.books_traced sizes
  have hafter : after = s.place id { arena := some (arena.traced sizes), account }
      (arena.traceEvents sizes) := congrArg Prod.snd (replay_eq hslot sizes)
  refine ⟨arena.refusals sizes, arena.traced sizes, rollbackLines (arena.traceEvents sizes),
    congrArg Prod.fst (replay_eq hslot sizes), ?_, ?_, fun _ => length_of_mem_grants, ?_, htold,
    ?_, ?_, ?_, ?_, ?_, charged_of_replay hslot hs sizes⟩
  · rw [hafter]
    exact arenas_place hslot _ _
  · show List.map Prod.fst (s.grants id _) = _
    rw [unrollCall_replay hslot, grants_toCall hslot]
    exact hserved
  · rw [refusedAt_eq hslot]
    rfl
  · intro told
    rw [hafter]
    exact s.rollbacks_place _ _ told
  · rw [sum_rollbackLines]
    exact hbalance
  · intro i hi hnever
    obtain ⟨hrefused, hcount, hempty⟩ := Arena.passed_of_lt hi hnever
    have hreplay := replay_eq hslot (sizes.take (i + 1))
    refine ⟨by rwa [refusedAt_eq hslot], arena.refusals (sizes.take i), _,
      congrArg Prod.fst (replay_eq hslot _), ?_, ?_, hempty⟩
    · rw [hreplay, hcount]
    · rw [hreplay]
      exact arenas_place hslot _ _
  · intro i hlast hrest
    rw [refusedAt_eq hslot] at hlast hrest
    exact arena.used_traced_of_last hlast hrest
  · intro hnone
    rw [refusedAt_eq hslot] at hnone
    exact (arena.used_traced_of_none hnone).1

/-- A trace with an empty size and two sizes beyond the capacity, of which one has no rounded
size in words, on an arena that starts out with a region granted and whose capacity is not
aligned. The arena is reset three times, and holds the last size alone. -/
theorem traces_replayed_of_overlong :
    let s := ({} : System).performAll [.openAccount, .lendArena #[5, 6, 7] 20 0, .alloc 0 3]
    let sizes : List UInt64 := [0, 5, 30, 7, 9, 18446744073709551615, 2]
    let after := (s.replay 0 sizes).2
    ((s.replay 0 sizes).1 = .ok 3 ∧ after.granted 0 = 8) ∧
      (s.grants 0 (s.unrollCall (.replay 0 sizes))).map Prod.fst = [0, 5, 7, 9, 2] ∧
      (∃ lines : List LogLine, lines.length = 3 ∧
        after.rollbacks (fun _ => true) = s.rollbacks (fun _ => true) ++ lines ∧
        8 + (lines.map (LogLine.number "reclaimed")).sum = 8 + 40) ∧
      s.refusedAt 0 sizes 5 = true ∧
      (after.counters 0).total.toNat = (s.counters 0).total.toNat + 40 ∧
      (after.counters 0).inUse.toNat + 8 = (s.counters 0).inUse.toNat + 8 ∧
      (after.counters 0).peak.toNat ≤
        max (s.counters 0).peak.toNat ((s.counters 0).inUse.toNat - 8 + 20) := by
  intro s sizes after
  have hs : s.Attained := attained_performAll Host.standard _
  let arena : Arena :=
    { bytes := Array.replicate 8 0 ++ #[6, 0, 0, 0, 0, 0, 0, 0, 7, 0, 0, 0, 0, 0, 0, 0]
      capacity := 20
      offset := 8 }
  have hslot : s.arenas[0]? = some { arena := some arena, account := 0 } := rfl
  obtain ⟨resets, last, lines, hreply, hlast, hserved, -, hcount, hlength, hlines, hbalance, hnever,
    hheld, -, hcharged⟩ := traces_replayed hs hslot sizes
  have hrefusals : (List.range sizes.length).countP (s.refusedAt 0 sizes) = 3 := by decide +kernel
  have hlastRefused : s.refusedAt 0 sizes 5 = true := (hnever 5 (by decide) (by decide)).1
  have hlater : ∀ j, 5 < j → s.refusedAt 0 sizes j = false := by
    intro j hj
    rcases Nat.lt_or_ge j sizes.length with hin | hout
    · obtain rfl : j = 6 := by
        have hlength : sizes.length = 7 := rfl
        omega
      decide +kernel
    · rw [refusedAt, List.getElem?_eq_none hout]
      rfl
  have hused : last.used.toNat = 8 := by
    rw [hheld 5 hlastRefused hlater]
    decide
  have hresets : resets = 3 := hcount.trans hrefusals
  obtain ⟨htotal, hinUse⟩ := hcharged (by decide +kernel)
  obtain ⟨hinUse, hpeak⟩ := hinUse (by decide +kernel)
  have hplaced : roundedSum (fitting arena.capacity sizes) = 40 := by decide
  rw [hused, hplaced] at hbalance
  rw [hused] at hinUse
  exact ⟨⟨hresets ▸ hreply, (granted_eq hlast).trans hused⟩, hserved.trans (by decide),
    ⟨lines, hlength.trans hresets, hlines _, hbalance⟩, hlastRefused, hplaced ▸ htotal, hinUse,
    hpeak⟩

end System

end Allotment

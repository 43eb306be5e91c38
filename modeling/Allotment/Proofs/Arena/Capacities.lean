import Allotment.Proofs.Arena.Genuine
import Allotment.Proofs.Arena.Lockstep
import Allotment.Proofs.Arena.Requests

set_option autoImplicit false

/-!
What the capacity of an arena has to do with how it behaves. The bytes of a capacity beyond
its last whole unit are of no use: with or without them the same requests are served, since
an arena only ever stands at whole units, and a refusal merely tells how many more of them
are left. And an arena that serves a program behaves as any larger one would.
-/

namespace Allotment

/-- Two refusals of requests for the same size, by arenas of two capacities that have the same
bytes granted. -/
def AllocationFailure.SameButLeft (capacity capacity' : UInt64)
    (failure failure' : AllocationFailure) : Prop :=
  failure.requested = failure'.requested ∧
    failure.available.toNat + capacity'.toNat = failure'.available.toNat + capacity.toNat

namespace Arena

variable {a b : Arena} {size : UInt64}

/-- No request among the moves of an arena is refused. -/
def ServesAll (arena : Arena) (moves : List ArenaMove) : Prop :=
  ∀ before size, before ++ [.alloc size] <+: moves →
    ∃ region, (arena.moveAll before).place size = .ok region

/-- An arena serves every request among no moves. -/
theorem servesAll_nil (arena : Arena) : arena.ServesAll [] := by
  intro before size hbefore
  cases before <;> cases List.prefix_nil.1 hbefore

/-- An arena serves every request among some moves if it serves the first move, should that be
one, and then the others. -/
theorem servesAll_cons {step : ArenaMove} {rest : List ArenaMove} :
    a.ServesAll (step :: rest) ↔
      (∀ size, step = .alloc size → ∃ region, a.place size = .ok region) ∧
        (a.move step).ServesAll rest := by
  constructor
  · intro h
    refine ⟨?_, ?_⟩
    · rintro size rfl
      exact h [] size ⟨rest, rfl⟩
    · intro before size hbefore
      exact h (step :: before) size (List.cons_prefix_cons.2 ⟨rfl, hbefore⟩)
  · rintro ⟨hfirst, hrest⟩ before size hbefore
    cases before with
    | nil => exact hfirst size (List.cons_prefix_cons.1 hbefore).1.symm
    | cons head before =>
      obtain ⟨rfl, hlater⟩ := List.cons_prefix_cons.1 hbefore
      exact hrest before size hlater

namespace SameGrants

/-- Arenas with the same grants have granted as many bytes. -/
theorem toNat_used (h : a.SameGrants b) : a.used.toNat = b.used.toNat :=
  congrArg UInt64.toNat h.used

/-- Arenas with the same grants that both serve a request give it the same region. -/
theorem region_eq (h : a.SameGrants b) {region region' : Region}
    (hplace : a.place size = .ok region) (hplace' : b.place size = .ok region') :
    region = region' := by
  obtain ⟨hoffset, hlength, -, -⟩ := place_eq_ok hplace
  obtain ⟨hoffset', hlength', -, -⟩ := place_eq_ok hplace'
  cases region with
  | mk offset length =>
    cases region' with
    | mk offset' length' =>
      have hstart : offset = offset' := hoffset.trans (h.used.trans hoffset'.symm)
      have hspan : length = length' := UInt64.toNat_inj.1 (hlength.trans hlength'.symm)
      rw [hstart, hspan]

/-- Arenas with the same grants differ in what is left by as much as in their capacities. -/
theorem remaining_eq (h : a.SameGrants b) (ha : a.Bounded) (hb : b.Bounded) :
    a.remaining.toNat + b.capacity.toNat = b.remaining.toNat + a.capacity.toNat := by
  have hused := h.toNat_used
  have hfits : a.used.toNat ≤ a.capacity.toNat := ha.fits
  have hfits' : b.used.toNat ≤ b.capacity.toNat := hb.fits
  rw [ha.toNat_remaining, hb.toNat_remaining]
  omega

/-- Both ends of a request are multiples of 8, so a capacity matters through its whole units
only. -/
theorem answered_of_units (h : a.SameGrants b) (ha : a.Sound) (hb : b.Sound)
    (hunits : a.capacity.toNat / 8 = b.capacity.toNat / 8) (size : UInt64) :
    Answered (AllocationFailure.SameButLeft a.capacity b.capacity) (a.place size)
      (b.place size) := by
  have hused := h.toNat_used
  obtain ⟨k, hk⟩ : 8 ∣ a.used.toNat := ha.aligned
  obtain ⟨l, hl⟩ : 8 ∣ roundUp size.toNat := (isLeast_roundUp size.toNat).1.1
  have hsame : a.used.toNat + roundUp size.toNat ≤ a.capacity.toNat ↔
      b.used.toNat + roundUp size.toNat ≤ b.capacity.toNat := by omega
  rw [← a.exists_place_iff, ← b.exists_place_iff] at hsame
  cases hplace : a.place size with
  | ok region =>
    obtain ⟨region', hplace'⟩ := hsame.1 ⟨region, hplace⟩
    rw [hplace', ← h.region_eq hplace hplace']
    exact .served region
  | error failure =>
    cases hplace' : b.place size with
    | ok region' =>
      obtain ⟨region, hregion⟩ := hsame.2 ⟨region', hplace'⟩
      rw [hplace] at hregion
      cases hregion
    | error failure' =>
      obtain ⟨-, rfl⟩ := (a.place_eq_error_iff size failure).1 hplace
      obtain ⟨-, rfl⟩ := (b.place_eq_error_iff size failure').1 hplace'
      exact .refused ⟨rfl, h.remaining_eq ha.toBounded hb.toBounded⟩

/-- Arenas with the same grants and as many whole units stay in step, but that their refusals
tell different numbers of bytes left. -/
theorem inStep_of_units (h : a.SameGrants b) (ha : a.Sound) (hb : b.Sound)
    (hunits : a.capacity.toNat / 8 = b.capacity.toNat / 8) {moves : List ArenaMove}
    (haligned : ∀ target, .restore target ∈ moves → 8 ∣ target.offset.toNat) :
    InStep (AllocationFailure.SameButLeft a.capacity b.capacity) a b moves := by
  induction moves generalizing a b with
  | nil => trivial
  | cons step rest ih =>
    have hanswered := h.answered_of_units ha hb hunits
    have hmove : (a.move step).SameGrants (b.move step) :=
      (h.move ha.toBounded hb.toBounded fun size _ => hanswered size).1
    have hstep : ∀ target, step = .restore target → 8 ∣ target.offset.toNat := by
      rintro target rfl
      exact haligned target List.mem_cons_self
    have hrest := ih hmove (ha.move step hstep) (hb.move step hstep)
      (by rwa [capacity_move, capacity_move])
      fun target hmem => haligned target (List.mem_cons_of_mem _ hmem)
    rw [capacity_move, capacity_move] at hrest
    exact ⟨fun size _ => hanswered size, hrest⟩

/-- What an arena serves, one with the same bytes granted and no less capacity serves too. -/
theorem inStep_of_serves {P : AllocationFailure → AllocationFailure → Prop} (h : a.SameGrants b)
    (ha : a.Bounded) (hb : b.Bounded) (hcapacity : a.capacity ≤ b.capacity)
    {moves : List ArenaMove} (hserves : a.ServesAll moves) : InStep P a b moves := by
  induction moves generalizing a b with
  | nil => trivial
  | cons step rest ih =>
    obtain ⟨hfirst, hlater⟩ := servesAll_cons.1 hserves
    have hanswered : ∀ size, step = .alloc size → Answered P (a.place size) (b.place size) := by
      rintro size rfl
      obtain ⟨region, hplace⟩ := hfirst size rfl
      -- what the smaller arena has room for the larger one has room for as well
      have hroom := (a.exists_place_iff size).1 ⟨region, hplace⟩
      have hle := UInt64.le_iff_toNat_le.1 hcapacity
      have hused := h.toNat_used
      obtain ⟨region', hplace'⟩ := (b.exists_place_iff size).2 (by omega)
      rw [hplace', ← h.region_eq hplace hplace', hplace]
      exact .served region
    have hmove := (h.move ha hb hanswered).1
    exact ⟨hanswered, ih hmove (ha.move step) (hb.move step)
      (by rwa [capacity_move, capacity_move]) hlater⟩

end SameGrants

/-- New arenas have the same grants, whatever their buffers: none. -/
theorem sameGrants_of_ofBytes {bytes bytes' : Bytes} {capacity capacity' : UInt64}
    (ha : ofBytes bytes capacity = .ok a) (hb : ofBytes bytes' capacity' = .ok b) :
    a.SameGrants b := by
  obtain ⟨-, rfl⟩ := ofBytes_eq_ok ha
  obtain ⟨-, rfl⟩ := ofBytes_eq_ok hb
  exact ⟨rfl, fun i hi => absurd hi (Nat.not_lt_zero i)⟩

/-- A new arena has the capacity that it was made with. -/
theorem capacity_of_ofBytes {bytes : Bytes} {capacity : UInt64}
    (ha : ofBytes bytes capacity = .ok a) : a.capacity = capacity := by
  obtain ⟨-, rfl⟩ := ofBytes_eq_ok ha
  rfl

end Arena

namespace Metered

variable {P : AllocationFailure → AllocationFailure → Prop} {m n : Metered Arena}

/-- Two metered arenas between which no holder sees a difference but by asking for capacities:
the same bytes are granted, the accounts count the same, and the same was announced. -/
structure LooksLike (m n : Metered Arena) : Prop where
  granted : m.subject.SameGrants n.subject
  counters : m.counters = n.counters
  events : m.events = n.events

/-- Arenas between which no holder sees a difference stay so over moves in step. -/
theorem LooksLike.moveAll (h : m.LooksLike n) (hm : m.subject.Bounded) (hn : n.subject.Bounded)
    {moves : List ArenaMove} (hsteps : Arena.InStep P m.subject n.subject moves) :
    (m.moveAll moves).LooksLike (n.moveAll moves) := by
  obtain ⟨hgranted, hannounced⟩ := h.granted.moveAll hm hn hsteps
  rw [moveAll_eq, moveAll_eq, hannounced, h.counters, h.events]
  exact ⟨hgranted, rfl, rfl⟩

/-- What lockstep comes to over a whole program: the replies agree, the same moves are made,
and at every moment the arenas look alike. -/
theorem LooksLike.performAll (h : m.LooksLike n) (hm : m.subject.Bounded)
    (hn : n.subject.Bounded) (calls : List ArenaCall)
    (hsteps : Arena.InStep P m.subject n.subject (m.programMoves calls)) :
    ArenaReply.AllAgree P (m.performAll calls).1 (n.performAll calls).1 ∧
      m.programMoves calls = n.programMoves calls ∧
      ∀ moves, moves <+: m.programMoves calls → (m.moveAll moves).LooksLike (n.moveAll moves) := by
  have habreast : m.Abreast n := ⟨h.granted, hm, hn⟩
  obtain ⟨hreplies, hmoves⟩ := habreast.performAll calls hsteps
  refine ⟨hreplies, hmoves, ?_⟩
  rintro moves ⟨later, hlater⟩
  rw [← hlater] at hsteps
  exact h.moveAll hm hn (Arena.inStep_append.1 hsteps).1

end Metered

/-- Two fresh arenas on any two buffers, whose accounts count the same, go through the same
program. If their capacities have the same whole units, then they give the same replies but
for what refusals tell to be left, make the same moves, look alike at every moment, the
moments inside scopes and replays included, and always differ by the same number of bytes in
what is left. If instead the first has no more capacity than the second and refuses no
request on the way, then they give the same replies, make the same moves and look alike at
every moment. -/
theorem capacity_counts_in_units {bytes bytes' : Bytes} {capacity capacity' : UInt64}
    {a b : Arena} (counters : Counters) (calls : List ArenaCall)
    (ha : Arena.ofBytes bytes capacity = .ok a) (hb : Arena.ofBytes bytes' capacity' = .ok b) :
    let m : Metered Arena := { subject := a, counters }
    let n : Metered Arena := { subject := b, counters }
    (capacity.toNat / 8 = capacity'.toNat / 8 →
      (∀ target ∈ ArenaCall.programTargets calls, target.Genuine) →
        ArenaReply.AllAgree (AllocationFailure.SameButLeft capacity capacity')
          (m.performAll calls).1 (n.performAll calls).1 ∧
        m.programMoves calls = n.programMoves calls ∧
        ∀ moves, moves <+: m.programMoves calls →
          (m.moveAll moves).LooksLike (n.moveAll moves) ∧
            (m.moveAll moves).subject.remaining.toNat + capacity'.toNat =
              (n.moveAll moves).subject.remaining.toNat + capacity.toNat) ∧
      (capacity ≤ capacity' → a.ServesAll (m.programMoves calls) →
        (m.performAll calls).1 = (n.performAll calls).1 ∧
        m.programMoves calls = n.programMoves calls ∧
        ∀ moves, moves <+: m.programMoves calls →
          (m.moveAll moves).LooksLike (n.moveAll moves)) := by
  intro m n
  have hsound := Arena.sound_of_ofBytes ha
  have hsound' := Arena.sound_of_ofBytes hb
  have hsame := Arena.sameGrants_of_ofBytes ha hb
  obtain rfl := Arena.capacity_of_ofBytes ha
  obtain rfl := Arena.capacity_of_ofBytes hb
  have hlooks : m.LooksLike n := ⟨hsame, rfl, rfl⟩
  constructor
  · intro hunits htargets
    -- all offsets are multiples of a unit, where the two capacities decide the same
    have haligned := m.dvd_of_mem_programMoves hsound calls fun target h => (htargets target h).dvd
    have hsteps := hsame.inStep_of_units hsound hsound' hunits haligned
    obtain ⟨hreplies, hmoves, hmoments⟩ :=
      hlooks.performAll hsound.toBounded hsound'.toBounded calls hsteps
    refine ⟨hreplies, hmoves, ?_⟩
    intro moves hprefix
    have hmoment := hmoments moves hprefix
    have hleft : (m.moveAll moves).subject.Bounded := by
      rw [Metered.subject_moveAll]
      exact hsound.toBounded.moveAll moves
    have hright : (n.moveAll moves).subject.Bounded := by
      rw [Metered.subject_moveAll]
      exact hsound'.toBounded.moveAll moves
    have hremaining := hmoment.granted.remaining_eq hleft hright
    simp only [Metered.subject_moveAll, Arena.capacity_moveAll] at hremaining ⊢
    exact ⟨hmoment, hremaining⟩
  · intro hcapacity hserves
    have hsteps := hsame.inStep_of_serves (P := Eq) hsound.toBounded hsound'.toBounded hcapacity
      hserves
    obtain ⟨hreplies, hmoves, hmoments⟩ :=
      hlooks.performAll hsound.toBounded hsound'.toBounded calls hsteps
    exact ⟨hreplies.eq id, hmoves, hmoments⟩

/-- Capacities of 20 and 23 bytes both come to two units: 9 more bytes after 3 are refused by
both, in a scope and in a replay too, with 12 bytes left in one and 15 in the other. A program
that 16 bytes serve gets from 40 bytes what it gets from 16. -/
theorem capacity_counts_in_units_of_tails :
    let a : Arena := { bytes := Array.replicate 24 0, capacity := 20 }
    let b : Arena := { bytes := Array.replicate 32 7, capacity := 23 }
    let narrow : Arena := { bytes := Array.replicate 16 0, capacity := 16 }
    let wide : Arena := { bytes := Array.replicate 40 7, capacity := 40 }
    let refused : List ArenaCall :=
      [ .alloc 3, .alloc 9, .scope [.alloc 8, .checkpoint, .alloc 1] false, .replay [8, 9, 16],
        .restore { offset := 0 } ]
    let served : List ArenaCall :=
      [ .scope [.alloc 9, .write { offset := 0, length := 16 } { fill := some 3 }] false,
        .alloc 5, .read { offset := 0, length := 8 } ]
    let run (arena : Arena) (calls : List ArenaCall) : List ArenaReply :=
      (Metered.performAll { subject := arena, counters := {} } calls).1
    (a.move (.alloc 3)).place 9 = .error { requested := 16, available := 12 } ∧
      (b.move (.alloc 3)).place 9 = .error { requested := 16, available := 15 } ∧
      ArenaReply.AllAgree (AllocationFailure.SameButLeft 20 23) (run a refused) (run b refused) ∧
      run narrow served = run wide served := by
  intro a b narrow wide refused served run
  have ha : Arena.ofBytes (Array.replicate 24 0) 20 = .ok a := rfl
  have hb : Arena.ofBytes (Array.replicate 32 7) 23 = .ok b := rfl
  have hnarrow : Arena.ofBytes (Array.replicate 16 0) 16 = .ok narrow := rfl
  have hwide : Arena.ofBytes (Array.replicate 40 7) 40 = .ok wide := rfl
  have htargets : ∀ target ∈ ArenaCall.programTargets refused, target.Genuine := by
    intro target h
    obtain rfl := List.mem_singleton.1 h
    exact Checkpoint.genuine_zero
  have hserves : narrow.ServesAll
      (Metered.programMoves { subject := narrow, counters := {} } served) := by
    have hmoves : Metered.programMoves { subject := narrow, counters := {} } served =
        [ .alloc 9, .write { offset := 0, length := 16 } { fill := some 3 },
          .restore { offset := 0 }, .alloc 5 ] := by
      decide +kernel
    rw [hmoves]
    simp only [Arena.servesAll_cons, ArenaMove.alloc.injEq, reduceCtorEq, false_implies,
      implies_true, forall_eq']
    exact ⟨⟨⟨0, 16⟩, by decide +kernel⟩, trivial, trivial, ⟨⟨0, 8⟩, by decide +kernel⟩,
      Arena.servesAll_nil _⟩
  obtain ⟨hreplies, -⟩ := (capacity_counts_in_units {} refused ha hb).1 rfl htargets
  obtain ⟨hequal, -⟩ := (capacity_counts_in_units {} served hnarrow hwide).2 (by decide) hserves
  exact ⟨by decide +kernel, by decide +kernel, hreplies, hequal⟩

end Allotment

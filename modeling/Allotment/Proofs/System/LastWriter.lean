import Allotment.Proofs.Arena.Contents
import Allotment.Proofs.System.Bounds

set_option autoImplicit false

/-!
A lent buffer comes back in its full length, and every byte of it is explained by the run:
it is the byte that was lent, if no grant covered it, and else what was stored there last
since the last grant that covered it, or zero. Neither the rest of the system nor giving
the buffer back changes anything about that.
-/

namespace Allotment

namespace Arena

variable {arena : Arena} {moves : List ArenaMove}

/-- A byte at which no grant of a run reached is as it was. -/
theorem Bounded.untouched_of_stop_le (hbounded : arena.Bounded) (hempty : arena.offset = 0)
    (moves : List ArenaMove) (i : ℕ)
    (h : ∀ moment ∈ arena.history moves, ∀ size region, moment.Grants size region →
      region.stop.toNat ≤ i) :
    (arena.moveAll moves).bytes[i]? = arena.bytes[i]? := by
  apply (hbounded.lastWritten hempty moves i).untouched
  rintro moment hmem ⟨size, region, hgrants, hcovers⟩
  exact absurd (h moment hmem size region hgrants) (Nat.not_le_of_lt hcovers.2)

/-- What an arena grants lies within the whole units of its capacity. -/
theorem Sound.stop_le_units (hsound : arena.Sound)
    (haligned : ∀ target, .restore target ∈ moves → 8 ∣ target.offset.toNat) {moment : Moment}
    (hmem : moment ∈ arena.history moves) {size : UInt64} {region : Region}
    (hgrants : moment.Grants size region) :
    region.stop.toNat ≤ 8 * (arena.capacity.toNat / 8) := by
  obtain ⟨earlier, later, hsplit⟩ := List.append_of_mem hmem
  obtain ⟨first, rest, rfl, -, hmoment, -⟩ := history_split hsplit
  have hfirst : ∀ target, .restore target ∈ first → 8 ∣ target.offset.toNat := by
    intro target h
    exact haligned target (List.mem_append_left _ h)
  have hbefore := (hsound.moveAll hfirst).aligned
  obtain ⟨-, hplace⟩ := hgrants
  rw [hmoment] at hplace
  obtain ⟨-, hlength, hstop, hcap⟩ := place_eq_ok hplace
  simp only [capacity_moveAll] at hlength hstop hcap
  unfold roundUp at hlength
  omega

/-- A rollback changes no byte of the buffer. -/
theorem bytes_restore (arena : Arena) (target : Checkpoint) :
    (arena.move (.restore target)).bytes = arena.bytes := by
  have hmoved := arena.moved (.restore target)
  generalize arena.announced (.restore target) = events, arena.move (.restore target) = after
    at hmoved ⊢
  cases hmoved <;> rfl

end Arena

namespace System

variable {s : System} {id : ArenaId} {arena : Arena} {account : AccountId}

/-- An arena that was made on a lent buffer has this buffer and nothing granted. -/
theorem of_lendArena_eq_ok {units : Array UInt64} {capacity : UInt64} {lent : System}
    (h : s.lendArena units capacity account = (.ok id, lent)) :
    Arena.ofBytes (Bytes.ofUnits units) capacity = .ok { bytes := Bytes.ofUnits units, capacity } ∧
      lent.arenas[id]? =
        some { arena := some { bytes := Bytes.ofUnits units, capacity }, account } := by
  unfold lendArena placeArena Arena.ofUnits at h
  split at h
  · cases hmade : Arena.ofBytes (Bytes.ofUnits units) capacity with
    | error violation =>
      rw [hmade] at h
      cases h
    | ok made =>
      rw [hmade] at h
      obtain ⟨-, rfl⟩ := Arena.ofBytes_eq_ok hmade
      cases h
      exact ⟨rfl, Array.getElem?_push_size⟩
  · cases h

/-- An arena that no call takes away makes the moves of the calls that name it. -/
theorem arenas_performAll (hslot : s.arenas[id]? = some { arena := some arena, account })
    {calls : List Call} (hsingle : ∀ call ∈ calls, call.IsSingle)
    (hkept : ∀ call ∈ calls, call.ended? ≠ some id) :
    (s.performAll calls).arenas[id]? =
      some { arena := some (arena.moveAll (movesOn id calls)), account } := by
  induction calls generalizing s arena with
  | nil => exact hslot
  | cons call rest ih =>
    obtain ⟨hcall, hrest⟩ := List.forall_mem_cons.1 hsingle
    obtain ⟨hstays, hkeptRest⟩ := List.forall_mem_cons.1 hkept
    have hnext := arenas_perform hslot hcall hstays
    rw [performAll_cons, ih hnext hrest hkeptRest, ← Arena.moveAll_append]
    rfl

end System

/-- Calls that leave every byte of an arena alone: those that only look or that move the
offset, a request that is refused, and a write that misses its region. -/
inductive Call.IsQuiet (s : System) (id : ArenaId) : Call → Prop
  | checkpoint : IsQuiet s id (.checkpoint id)
  | restore (target : Checkpoint) : IsQuiet s id (.restore id target)
  | reset : IsQuiet s id (.reset id)
  | read (region : Region) : IsQuiet s id (.read id region)
  | refused {size : UInt64} {refusal : Refusal} (h : (s.alloc id size).1 = .error refusal) :
    IsQuiet s id (.alloc id size)
  | missed {region : Region} {edit : Edit} (h : (s.write id region edit).1 = .ok none) :
    IsQuiet s id (.write id region edit)

namespace System

variable {s : System} {id : ArenaId} {arena : Arena} {account : AccountId}

/-- A quiet call changes no byte of the buffer of an arena. -/
theorem arenas_perform_quiet (hslot : s.arenas[id]? = some { arena := some arena, account })
    {call : Call} (h : call.IsQuiet s id) :
    ∃ later : Arena, (s.perform call).2.arenas[id]? = some { arena := some later, account } ∧
      later.bytes = arena.bytes := by
  have hmoved : ∀ step : ArenaMove,
      (s.perform (step.toCall id)).2.arenas[id]? =
        some { arena := some (arena.move step), account } := by
    intro step
    rw [snd_perform_toCall hslot, arenas_place hslot]
  cases h with
  | checkpoint | read region => exact ⟨arena, hslot, rfl⟩
  | restore target => exact ⟨_, hmoved (.restore target), arena.bytes_restore target⟩
  | reset =>
    exact ⟨_, hmoved (.restore { offset := 0 }), arena.bytes_restore { offset := 0 }⟩
  | @refused size refusal hrefused =>
    rw [alloc_eq hslot] at hrefused
    cases hplace : arena.place size with
    | ok region =>
      rw [hplace] at hrefused
      cases hrefused
    | error failure =>
      refine ⟨_, hmoved (.alloc size), ?_⟩
      simp only [Arena.move, hplace]
  | @missed region edit hmissed =>
    rw [write_eq hslot] at hmissed
    cases hread : arena.read? region with
    | none =>
      refine ⟨_, hmoved (.write region edit), ?_⟩
      simp only [Arena.move, hread, Option.elim_none]
    | some bytes =>
      rw [hread] at hmissed
      cases hmissed

/-- The moves of an arena in a run roll back to genuine checkpoints, if those that the run was
given are genuine. -/
theorem genuine_of_mem_movesOn (hs : s.ArenasGenuine) {actions : List Action}
    (hgiven : ∀ target ∈ Action.runTargets actions, target.Genuine) {calls : List Call}
    (hmoment : calls <+: s.unrollAll actions) {target : Checkpoint}
    (h : .restore target ∈ movesOn id calls) : target.Genuine := by
  obtain ⟨call, hcall, hmove⟩ := List.mem_flatMap.1 h
  have htargets := s.genuine_of_mem_unrollAll hs actions hgiven call (hmoment.subset hcall)
  exact call.genuine_of_mem_movesOn htargets hmove

/-- A run that was given genuine checkpoints and then lends a buffer has genuine arenas only. -/
theorem genuine_of_lendArena (host : Host) {before : List Action}
    (hbefore : ∀ target ∈ Action.runTargets before, target.Genuine) {units : Array UInt64}
    {capacity : UInt64} {lent : System}
    (hlent : (run { host } before).2.lendArena units capacity account = (.ok id, lent)) :
    lent.ArenasGenuine := by
  have hreached := ArenasGenuine.moment host hbefore List.prefix_rfl
  rw [← snd_run] at hreached
  have hafter : ((run { host } before).2.perform
      (.lendArena units capacity account)).2.ArenasGenuine :=
    hreached.perform trivial (by simp [Call.target?])
  have heq : ((run { host } before).2.perform (.lendArena units capacity account)).2 = lent :=
    congrArg Prod.snd hlent
  rwa [heq] at hafter

/-- A buffer is lent in any run, and the run goes on, with the arena on this buffer and with
everything else, until the buffer is given back, maybe midway through a scope of another arena.
A dropped arena never gives its buffer back, so the arena is not dropped meanwhile. At every
moment in between it is where its own moves led it, and the calls that put nothing in its buffer
leave every byte of it alone. The buffer comes back in full length, and every byte of it is
explained by its last writer. So what lies past the ends of all grants is untouched, and so is,
unless the run makes up checkpoints, what lies past the whole units of the capacity. -/
theorem last_writer_wins (host : Host) (before after : List Action) {units : Array UInt64}
    {capacity : UInt64} {account : AccountId} {id : ArenaId} {lent : System} {calls : List Call}
    (hlent : (run { host } before).2.lendArena units capacity account = (.ok id, lent))
    (hmoment : calls <+: lent.unrollAll after) (hkept : ∀ call ∈ calls, call.ended? ≠ some id) :
    let start : Arena := { bytes := Bytes.ofUnits units, capacity }
    let moments := start.history (movesOn id calls)
    (∀ earlier, earlier <+: calls →
      let moment := lent.performAll earlier
      let arena := start.moveAll (movesOn id earlier)
      moment.arenas[id]? = some { arena := some arena, account } ∧
      ∀ call : Call, call.IsQuiet moment id →
        ∃ later : Arena,
          (moment.perform call).2.arenas[id]? = some { arena := some later, account } ∧
          later.bytes = arena.bytes) ∧
    ∃ returned, ((lent.performAll calls).giveBack id).1 = .ok returned ∧
      returned.size = units.size ∧
      ∀ i, let was := (Bytes.ofUnits units)[i]?
        let now := (Bytes.ofUnits returned)[i]?
        LastWritten moments i was now ∧
        ((∀ moment ∈ moments, ∀ size region, moment.Grants size region →
          region.stop.toNat ≤ i) → now = was) ∧
        ((∀ target ∈ Action.runTargets before ++ Action.runTargets after, target.Genuine) →
          8 * (capacity.toNat / 8) ≤ i → now = was) := by
  intro start moments
  obtain ⟨hmade, hslot⟩ := of_lendArena_eq_ok hlent
  have hsound : start.Sound := Arena.sound_of_ofBytes hmade
  have hcourse : ∀ earlier, earlier <+: calls →
      (lent.performAll earlier).arenas[id]? =
        some { arena := some (start.moveAll (movesOn id earlier)), account } := by
    intro earlier hearlier
    apply arenas_performAll hslot (isSingle_of_moment (hearlier.trans hmoment))
    exact fun call h => hkept call (hearlier.subset h)
  have hend := hcourse calls List.prefix_rfl
  have hsize : (start.moveAll (movesOn id calls)).bytes.size = 8 * units.size := by
    rw [Arena.size_bytes_moveAll]
    exact Bytes.size_ofUnits units
  -- the buffer holds whole units, so it comes back with all its bytes
  have hback : Bytes.ofUnits (start.moveAll (movesOn id calls)).units =
      (start.moveAll (movesOn id calls)).bytes :=
    Bytes.ofUnits_toUnits (hsize ▸ Nat.dvd_mul_right 8 _)
  refine ⟨?_, _, congrArg Prod.fst (giveBack_eq hend), ?_, ?_⟩
  · intro earlier hearlier moment arena
    exact ⟨hcourse earlier hearlier, fun call => arenas_perform_quiet (hcourse earlier hearlier)⟩
  · unfold Arena.units
    rw [Bytes.size_toUnits, hsize]
    exact Nat.mul_div_cancel_left _ (by decide)
  · intro i was now
    have hnow : now = (start.moveAll (movesOn id calls)).bytes[i]? := by rw [← hback]
    rw [hnow]
    have huntouched := hsound.toBounded.untouched_of_stop_le rfl (movesOn id calls) i
    refine ⟨hsound.toBounded.lastWritten rfl _ i, huntouched, ?_⟩
    intro hgenuine hpast
    apply huntouched
    intro moment hmem size region hgrants
    -- all rollbacks go to aligned offsets, so grants end within the whole units of the capacity
    refine (hsound.stop_le_units ?_ hmem hgrants).trans hpast
    obtain ⟨hbefore, hafter⟩ := List.forall_mem_append.1 hgenuine
    have hreached := genuine_of_lendArena host hbefore hlent
    intro target htarget
    exact (genuine_of_mem_movesOn hreached hafter hmoment htarget).dvd

/-- A buffer of three units is lent up to a capacity between the second and the third. Its
second unit is granted and filled, rolled back, granted again with the first one, and then
written to through the old region. -/
theorem last_writer_wins_of_stale_write :
    let units : Array UInt64 := #[18446744073709551615, 18446744073709551615, 72623859790382856]
    let lent := ((run {} [.call .openAccount]).2.lendArena units 20 0).2
    let after : List Action :=
      [ .call (.alloc 0 3), .call (.alloc 0 8), .call (.write 0 ⟨8, 8⟩ { fill := some 7 }),
        .call (.restore 0 ⟨0⟩), .call (.alloc 0 16),
        .call (.write 0 ⟨8, 8⟩ { start := 1, run := [5] }), .call (.alloc 0 8) ]
    let calls := lent.unrollAll after
    ∃ returned, ((lent.performAll calls).giveBack 0).1 = .ok returned ∧ returned.size = 3 ∧
      (Bytes.ofUnits returned)[9]? = some 5 ∧ (Bytes.ofUnits returned)[8]? = some 0 ∧
      (Bytes.ofUnits returned)[16]? = some 8 := by
  intro units lent after calls
  have hid : ((run {} [.call .openAccount]).2.lendArena units 20 0).1 = .ok 0 := by
    decide +kernel
  have hlent : (run {} [.call .openAccount]).2.lendArena units 20 0 = (.ok 0, lent) := by
    rw [← hid]
  have hcalls : calls =
      [ .alloc 0 3, .alloc 0 8, .write 0 ⟨8, 8⟩ { fill := some 7 }, .restore 0 ⟨0⟩, .alloc 0 16,
        .write 0 ⟨8, 8⟩ { start := 1, run := [5] }, .alloc 0 8 ] := rfl
  obtain ⟨-, returned, hreturned, hsize, hbytes⟩ :=
    last_writer_wins Host.standard [.call .openAccount] after hlent
      (List.prefix_rfl (l := calls)) (by rw [hcalls]; simp [Call.ended?])
  rw [hcalls] at hbytes
  have hgenuine : ∀ target ∈ Action.runTargets [.call .openAccount] ++ Action.runTargets after,
      target.Genuine := by
    simp [after, Action.runTargets, Action.targets, Call.target?, Checkpoint.genuine_zero]
  obtain ⟨hwritten, -⟩ := hbytes 9
  obtain ⟨hcleared, -⟩ := hbytes 8
  obtain ⟨-, -, hpast⟩ := hbytes 16
  have hlast : (Bytes.ofUnits units)[16]? = some 8 := by decide +kernel
  refine ⟨returned, hreturned, hsize, ?_, ?_, (hpast hgenuine (by decide)).trans hlast⟩
  · exact hwritten.stored [_, _, _, _] _ [] _ [_] 5 rfl (by decide +kernel) (by decide +kernel)
      (by decide +kernel) (by decide +kernel)
  · exact hcleared.cleared [_, _, _, _] _ [_, _] rfl (by decide +kernel) (by decide +kernel)
      (by decide +kernel)

end System

end Allotment

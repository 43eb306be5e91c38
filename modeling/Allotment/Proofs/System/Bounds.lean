import Allotment.Configuration
import Allotment.Proofs.Arena.Alike
import Allotment.Proofs.System.Courses

set_option autoImplicit false

/-!
Every arena of every run keeps within its bounds: its offset is a multiple of 8 and lies
within the whole units of its capacity, and the capacity within the buffer. So nothing
that an arena computes with its offset wraps, and whatever region it is shown, its own or
one of another arena, it looks up within its buffer, or not at all.
-/

namespace Allotment

/-- The units for a size make up the rounded size. -/
theorem toNat_unitsFor (size : UInt64) : 8 * (unitsFor size).toNat = roundUp size.toNat := by
  have hlt := size.toNat_lt
  have height : alignment.toNat = 8 := rfl
  have hdiv : (size / alignment).toNat = size.toNat / 8 := by
    rw [UInt64.toNat_div, height]
  have hmod : size % alignment = 0 ↔ size.toNat % 8 = 0 := by
    rw [← UInt64.toNat_inj, UInt64.toNat_mod, height]
    rfl
  unfold unitsFor roundUp
  split <;> rename_i hrest <;> rw [hmod] at hrest
  · rw [UInt64.add_zero, hdiv]
    omega
  · rw [Word.toNat_add_of_lt] <;> rw [hdiv, UInt64.toNat_one] <;> omega

/-- A region lies within the buffer of an arena, and these are its bytes there. -/
structure Region.Shows (region : Region) (arena : Arena) (slice : Bytes) : Prop where
  within : region.offset.toNat + region.length.toNat ≤ arena.bufferSize
  size : slice.size = region.length.toNat
  bytes : ∀ i, i < region.length.toNat → slice[i]? = arena.bytes[region.offset.toNat + i]?

namespace Arena

/-- The offset of an arena lies within the whole units of its capacity, and these within
its buffer. -/
structure InBounds (arena : Arena) : Prop where
  aligned : 8 ∣ arena.used.toNat
  used : arena.used.toNat ≤ 8 * (arena.capacity.toNat / 8)
  units : 8 * (arena.capacity.toNat / 8) ≤ arena.capacity.toNat
  backed : arena.capacity.toNat ≤ arena.bufferSize
  remaining : arena.remaining.toNat + arena.used.toNat = arena.capacity.toNat

/-- An arena finds the bytes of a region if it reaches the end of it, reads exactly these,
and writes exactly these. -/
structure Resolves (arena : Arena) (region : Region) : Prop where
  stop : region.stop? = .ok region.stop
  found : (arena.read? region).isSome ↔ region.stop.toNat ≤ arena.used.toNat
  shown : ∀ slice, arena.read? region = some slice → region.Shows arena slice
  written : ∀ (edit : Edit) (counters : Counters),
    let (after, m) := Metered.write { subject := arena, counters } region edit
    after = (arena.read? region).map edit.apply ∧
    (∀ slice, after = some slice → region.Shows m.subject slice) ∧
    ∀ i, i < region.offset.toNat ∨ region.stop.toNat ≤ i → m.subject.bytes[i]? = arena.bytes[i]?

variable {arena : Arena} {region : Region}

/-- A sound arena is within its bounds. -/
theorem Sound.inBounds (h : arena.Sound) : arena.InBounds := by
  have hfits := h.fits
  have haligned := h.aligned
  have hsub : arena.remaining.toNat = arena.capacity.toNat - arena.offset.toNat :=
    UInt64.toNat_sub_of_le _ _ (UInt64.le_iff_toNat_le.2 hfits)
  refine ⟨haligned, ?_, by omega, h.backed, ?_⟩
  · show arena.offset.toNat ≤ _
    omega
  · show _ + arena.offset.toNat = _
    omega

/-- An arena shows exactly the bytes of a genuine region that ends within the granted ones. -/
theorem Bounded.shows_slice (h : arena.Bounded) (hgenuine : region.Genuine)
    (hreach : region.stop.toNat ≤ arena.offset.toNat) :
    region.Shows arena (arena.slice region) := by
  have hexact := hgenuine.toNat_stop
  have hin := h.stop_le hreach
  refine ⟨hexact ▸ hin, ?_, ?_⟩
  · rw [size_slice]
    omega
  · intro i hi
    exact arena.getElem?_slice (by omega)

/-- An arena within its bounds reads and writes exactly the bytes of a genuine region whose end
it reaches. -/
theorem Bounded.resolves (h : arena.Bounded) (hgenuine : region.Genuine) :
    arena.Resolves region := by
  have hexact := hgenuine.toNat_stop
  refine ⟨hgenuine.stop?_eq, ?_, ?_, ?_⟩
  · rw [Option.isSome_iff_exists]
    simp only [arena.read?_eq_some_iff, exists_and_left, exists_eq', and_true]
    rfl
  · intro slice hread
    obtain ⟨hreach, rfl⟩ := (arena.read?_eq_some_iff region slice).1 hread
    exact h.shows_slice hgenuine hreach
  · intro edit counters
    by_cases hreach : region.stop.toNat ≤ arena.offset.toNat
    · have hread := (arena.read?_eq_some_iff region _).2 ⟨hreach, rfl⟩
      simp only [Metered.write, Metered.read, hread, Option.map_some, Option.some.injEq,
        true_and]
      have hslice := h.shows_slice hgenuine hreach
      have hsize := edit.size_apply (arena.slice region)
      refine ⟨?_, ?_⟩
      · rintro slice rfl
        have hstored : (arena.store region (edit.apply (arena.slice region))).Bounded :=
          ⟨h.fits, (size_bytes_store arena region _).symm ▸ h.backed⟩
        have hsame := arena.slice_store_self region hsize (h.stop_le hreach)
        have hshows := hstored.shows_slice hgenuine hreach
        rwa [hsame] at hshows
      · intro i hi
        apply Bytes.getElem?_overlay_of_outside
        rw [Array.length_toList, hsize, hslice.size]
        omega
    · have hread : arena.read? region = none := by
        simp [read?, arena.reaches_iff region, hreach]
      simp only [Metered.write, Metered.read, hread, Option.map_none, reduceCtorEq,
        false_implies, implies_true, and_self]

/-- An arena gets the whole units that its capacity needs, as long as there can be so large
a buffer. -/
theorem create_eq (capacity : UInt64) :
    create capacity =
      if roundUp capacity.toNat ≤ maxBufferSize then
        .ok { bytes := Array.replicate (roundUp capacity.toNat) 0, capacity }
      else .error .capacityOverflow := by
  have hle := (isLeast_roundUp capacity.toNat).1.2
  unfold create
  rw [toNat_unitsFor]
  split
  · unfold ofBytes
    rw [Array.size_replicate, if_pos hle]
  · rfl

end Arena

namespace System

/-- Every moment of a run that was given genuine checkpoints has genuine arenas only. -/
theorem ArenasGenuine.moment (host : Host) {actions : List Action}
    (hgenuine : ∀ target ∈ Action.runTargets actions, target.Genuine) {calls : List Call}
    (hmoment : calls <+: ({ host } : System).unrollAll actions) :
    (({ host } : System).performAll calls).ArenasGenuine := by
  apply (ArenasGenuine.start host).performAll (isSingle_of_moment hmoment)
  · intro call h
    exact genuine_of_mem_unrollAll _ (ArenasGenuine.start host) actions hgenuine call
      (hmoment.subset h)

/-- Whatever a run does, as long as it makes up no checkpoints, and wherever it stands, also
midway through its scopes, replays and batches: every arena is within its bounds; what it
grants lies within its buffer, and what it hands out is genuine; it reads and writes
exactly the bytes of every genuine region whose end it reaches, and finds nothing in any
other; and its capacity and the size of its buffer are what they were at every earlier
moment. A buffer of its own has the whole units that the capacity needs; making it fails
only where there can be no such buffer. -/
theorem arenas_in_bounds (host : Host) (actions : List Action)
    (hgenuine : ∀ target ∈ Action.runTargets actions, target.Genuine) {calls : List Call}
    (hmoment : calls <+: ({ host } : System).unrollAll actions) :
    let moment := fun calls => ({ host } : System).performAll calls
    (∀ (id : ArenaId) (arena : Arena) (account : AccountId),
      (moment calls).arenas[id]? = some { arena := some arena, account } →
      arena.InBounds ∧
      arena.checkpoint.Genuine ∧
      (∀ size region, arena.place size = .ok region →
        region.Genuine ∧ region.offset.toNat + region.length.toNat ≤ arena.bufferSize) ∧
      (∀ region : Region, region.Genuine → arena.Resolves region) ∧
      ∀ before, before <+: calls → ∀ (earlier : Arena) (owner : AccountId),
        (moment before).arenas[id]? = some { arena := some earlier, account := owner } →
          arena.capacity = earlier.capacity ∧ arena.bufferSize = earlier.bufferSize) ∧
    ∀ capacity : UInt64,
      (∀ violation, Arena.create capacity = .error violation →
        violation = .capacityOverflow ∧ Arena.maxBufferSize < roundUp capacity.toNat) ∧
      ∀ arena, Arena.create capacity = .ok arena →
        arena.capacity = capacity ∧
        arena.bufferSize = 8 * (Configuration.units { capacity }).toNat ∧
        capacity.toNat ≤ arena.bufferSize ∧ arena.bufferSize < capacity.toNat + 8 := by
  intro moment
  constructor
  · intro id arena account hslot
    have harena : arena.Genuine := ArenasGenuine.moment host hgenuine hmoment id arena account hslot
    refine ⟨harena.sound.inBounds, harena.checkpoint, ?_, ?_, ?_⟩
    · intro size region hplace
      have hregion := Region.Genuine.granted harena hplace
      obtain ⟨-, -, -, hcap⟩ := Arena.place_eq_ok hplace
      refine ⟨hregion, ?_⟩
      rw [← hregion.toNat_stop]
      exact hcap.trans harena.sound.backed
    · intro region hregion
      exact harena.sound.toBounded.resolves hregion
    · rintro before ⟨later, rfl⟩ earlier owner hearlier
      obtain ⟨-, hsingle⟩ := List.forall_mem_append.1 (isSingle_of_moment hmoment)
      replace hslot : ((moment before).performAll later).arenas[id]? =
          some { arena := some arena, account } := performAll_append _ before later ▸ hslot
      -- the arena is what it was at the earlier moment with moves in between, which keep both
      -- sizes
      obtain ⟨rfl, -⟩ := course hearlier hsingle hslot
      exact ⟨earlier.capacity_moveAll _, earlier.size_bytes_moveAll _⟩
  · intro capacity
    have hleast := isLeast_roundUp capacity.toNat
    have hunits := toNat_unitsFor capacity
    rw [Arena.create_eq]
    split
    · refine ⟨?_, ?_⟩
      · rintro violation ⟨⟩
      · rintro arena ⟨⟩
        have hsize : (Array.replicate (roundUp capacity.toNat) (0 : UInt8)).size =
            roundUp capacity.toNat := Array.size_replicate
        unfold Arena.bufferSize
        rw [hsize]
        refine ⟨rfl, hunits.symm, hleast.1.2, ?_⟩
        unfold roundUp
        omega
    · rename_i hlarge
      refine ⟨?_, ?_⟩
      · rintro violation ⟨⟩
        exact ⟨rfl, Nat.lt_of_not_le hlarge⟩
      · rintro arena ⟨⟩

/-- An arena on a lent buffer with a capacity between whole units, next to a larger one. It
rolls back to a checkpoint that another arena handed out, and is shown a region of the
larger one, which it does not reach. -/
theorem arenas_in_bounds_of_two :
    let actions : List Action :=
      [ .call .openAccount, .call (.createArena 64 0), .call (.alloc 0 24),
        .call (.lendArena #[1, 2, 3] 20 0), .call (.alloc 1 3),
        .scope 1 [.call (.alloc 1 3), .call (.alloc 1 3)] true, .call (.restore 1 ⟨8⟩) ]
    let small : Arena :=
      { bytes := Array.replicate 16 0 ++ #[3, 0, 0, 0, 0, 0, 0, 0], capacity := 20, offset := 8 }
    (run {} actions).2.arenas[1]? = some { arena := some small, account := 0 } ∧
      small.InBounds ∧ small.Resolves ⟨0, 24⟩ ∧ small.read? ⟨0, 24⟩ = none := by
  intro actions small
  have hmade : Arena.ofBytes (Array.replicate 24 0) 24 =
      .ok { bytes := Array.replicate 24 0, capacity := 24 } := rfl
  have hother : Arena.Genuine { bytes := Array.replicate 24 0, capacity := 24, offset := 8 } :=
    .worked [.alloc 8] hmade (by simp)
  have hforeign : Checkpoint.Genuine ⟨8⟩ := hother.checkpoint
  have hplace : Arena.place { bytes := Array.replicate 24 0, capacity := 24 } 24 =
      .ok ⟨0, 24⟩ := rfl
  have hregion : Region.Genuine ⟨0, 24⟩ := .granted (Arena.Genuine.made hmade) hplace
  have hrun : (run {} actions).2 = ({} : System).performAll (unrollAll {} actions) :=
    snd_run {} actions
  have hslot : (({} : System).performAll (unrollAll {} actions)).arenas[1]? =
      some { arena := some small, account := 0 } := rfl
  obtain ⟨harenas, -⟩ := arenas_in_bounds Host.standard actions
    (by simp [actions, Action.runTargets, Action.targets, Call.target?, hforeign])
    (List.prefix_rfl (l := unrollAll {} actions))
  obtain ⟨hbounds, -, -, hresolves, -⟩ := harenas 1 small 0 hslot
  exact ⟨hrun ▸ hslot, hbounds, hresolves _ hregion, rfl⟩

end System

end Allotment

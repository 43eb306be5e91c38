import Allotment.Proofs.Arena.Checkpoints
import Mathlib.Data.List.Induction

set_option autoImplicit false

/-!
A grant is live as long as the arena was never filled less far than to its end.
Live grants do not overlap: a later one starts where the earlier ones end or after
that. So an arena can be read through a live grant like memory of one's own: it
shows zero bytes with the edits made through this grant laid over them, whatever
was granted, written and rolled back elsewhere, as long as nobody writes through
a grant that is not live.
-/

namespace Allotment

/-- One move of a run, with the arena before and after it. -/
structure Moment where
  step : ArenaMove
  before : Arena
  after : Arena

namespace Moment

/-- The move is a request for `size` bytes that is granted `region`. -/
def Grants (moment : Moment) (size : UInt64) (region : Region) : Prop :=
  moment.step = .alloc size ∧ moment.before.place size = .ok region

/-- The move is an edit of `region` that takes place. -/
def Writes (moment : Moment) (region : Region) : Prop :=
  (∃ edit, moment.step = .write region edit) ∧
    region.stop.toNat ≤ moment.before.used.toNat

/-- The edit that the move makes through `region`, if it is one. -/
def edit? (moment : Moment) (region : Region) : Option Edit :=
  match moment.step with
  | .write other edit => if other = region then some edit else none
  | _ => none

end Moment

/-- The moments of a run, in order. -/
def Arena.history (arena : Arena) : List ArenaMove → List Moment
  | [] => []
  | step :: rest => ⟨step, arena, arena.move step⟩ :: (arena.move step).history rest

/-- The move number `i` of a run granted `region`, and ever since then the arena
was filled up to its end. -/
structure LiveGrant (moments : List Moment) (i : ℕ) (size : UInt64) (region : Region) : Prop where
  granted : ∃ moment, moments[i]? = some moment ∧ moment.Grants size region
  kept : ∀ j moment, i ≤ j → moments[j]? = some moment →
    region.stop.toNat ≤ moment.after.used.toNat

/-- Every write of a run went through a grant that was live at that time. -/
def WritesAreLive (moments : List Moment) : Prop :=
  ∀ i moment region, moments[i]? = some moment → moment.Writes region →
    ∃ j size, LiveGrant (moments.take i) j size region

/-- The edits made through `region` after the move number `i`, in order. -/
def editsSince (moments : List Moment) (i : ℕ) (region : Region) : List Edit :=
  (moments.drop (i + 1)).filterMap fun moment => moment.edit? region

/-- As many zero bytes as the region has, after edits in order. -/
def Region.edited (region : Region) (edits : List Edit) : Bytes :=
  edits.foldl (fun bytes edit => edit.apply bytes) (Array.replicate region.length.toNat 0)

namespace LiveGrant

variable {moments : List Moment} {last : Moment} {i : ℕ} {size : UInt64} {region : Region}

/-- A live grant was made at one of the moments. -/
theorem lt_length (h : LiveGrant moments i size region) : i < moments.length := by
  obtain ⟨moment, hmoment, -⟩ := h.granted
  exact (List.getElem?_eq_some_iff.1 hmoment).1

/-- At each moment one region is granted at most. -/
theorem region_unique {other : UInt64} {region' : Region} (h : LiveGrant moments i size region)
    (h' : LiveGrant moments i other region') : region = region' := by
  obtain ⟨moment, hmoment, hstep, hplace⟩ := h.granted
  obtain ⟨moment', hmoment', hstep', hplace'⟩ := h'.granted
  obtain rfl : moment = moment' := Option.some.inj (hmoment.symm.trans hmoment')
  obtain rfl : size = other := ArenaMove.alloc.inj (hstep.symm.trans hstep')
  exact Except.ok.inj (hplace.symm.trans hplace')

/-- A grant that is live after one more move is an earlier live one, or was made
by this move. -/
theorem of_append_singleton (h : LiveGrant (moments ++ [last]) i size region) :
    region.stop.toNat ≤ last.after.used.toNat ∧
      (LiveGrant moments i size region ∨ i = moments.length ∧ last.Grants size region) := by
  have hle : i ≤ moments.length := by
    have := h.lt_length
    rw [List.length_append, List.length_singleton] at this
    omega
  refine ⟨h.kept moments.length last hle (by simp), ?_⟩
  obtain ⟨moment, hmoment, hgrants⟩ := h.granted
  rcases Nat.lt_or_eq_of_le hle with hlt | rfl
  · left
    rw [List.getElem?_append_left hlt] at hmoment
    refine ⟨⟨moment, hmoment, hgrants⟩, ?_⟩
    intro j later hij hlater
    have hj := (List.getElem?_eq_some_iff.1 hlater).1
    exact h.kept j later hij (by rw [List.getElem?_append_left hj, hlater])
  · right
    obtain rfl : last = moment := by simpa using hmoment
    exact ⟨rfl, hgrants⟩

end LiveGrant

/-- A grant that no move since has rolled back beyond is live. -/
theorem LiveGrant.of_drop {moments : List Moment} {moment : Moment} {i : ℕ} {size : UInt64}
    {region : Region} (hmoment : moments[i]? = some moment) (hgrants : moment.Grants size region)
    (hkept : ∀ later ∈ moments.drop i, region.stop.toNat ≤ later.after.used.toNat) :
    LiveGrant moments i size region := by
  refine ⟨⟨moment, hmoment, hgrants⟩, ?_⟩
  intro j later hij hlater
  have hdrop : (moments.drop i)[j - i]? = some later := by
    rw [List.getElem?_drop, Nat.add_sub_cancel' hij, hlater]
  exact hkept later (List.mem_of_getElem? hdrop)

/-- If all writes of a history go through live grants, so do those before the last moment; and
at the last one a write goes through a grant that was live before. -/
theorem WritesAreLive.of_append_singleton {moments : List Moment} {last : Moment}
    (h : WritesAreLive (moments ++ [last])) :
    WritesAreLive moments ∧
      ∀ region, last.Writes region → ∃ j size, LiveGrant moments j size region := by
  constructor
  · intro i moment region hmoment hwrites
    have hi := (List.getElem?_eq_some_iff.1 hmoment).1
    have := h i moment region (by rw [List.getElem?_append_left hi, hmoment]) hwrites
    rwa [List.take_append_of_le_length hi.le] at this
  · intro region hwrites
    simpa using h moments.length last region (by simp) hwrites

/-- The edits of a region since an earlier moment are continued by the one of the last moment,
if it is one of this region. -/
theorem editsSince_append_singleton {moments : List Moment} {i : ℕ} (h : i < moments.length)
    (last : Moment) (region : Region) :
    editsSince (moments ++ [last]) i region =
      editsSince moments i region ++ (last.edit? region).toList := by
  unfold editsSince
  rw [List.drop_append_of_le_length h, List.filterMap_append]
  cases hedit : last.edit? region <;> simp [hedit]

/-- Since the last moment nothing was edited. -/
theorem editsSince_length (moments : List Moment) (last : Moment) (region : Region) :
    editsSince (moments ++ [last]) moments.length region = [] := by
  simp [editsSince]

/-- What holds of a run that led to `arena`: its live grants are aligned and
granted, each later one starts at or after the end of the earlier ones, and their
slices show the edits made through them. -/
structure Isolated (moments : List Moment) (arena : Arena) : Prop where
  reached : ∀ {i size region}, LiveGrant moments i size region →
    region.stop.toNat ≤ arena.offset.toNat
  shaped : ∀ {i size region}, LiveGrant moments i size region →
    8 ∣ region.offset.toNat ∧ region.length.toNat = roundUp size.toNat ∧
      region.stop.toNat = region.offset.toNat + region.length.toNat
  apart : ∀ {i j size size' region region'}, i < j → LiveGrant moments i size region →
    LiveGrant moments j size' region' → region.stop.toNat ≤ region'.offset.toNat
  shown : WritesAreLive moments → ∀ {i size region}, LiveGrant moments i size region →
    arena.slice region = region.edited (editsSince moments i region)

namespace Isolated

variable {moments : List Moment} {arena : Arena}

/-- Nothing was granted yet, so that nothing can overlap. -/
theorem nil (arena : Arena) : Isolated [] arena := by
  have hnone : ∀ {i size region}, ¬ LiveGrant [] i size region := by
    intro i size region h
    exact Nat.not_lt_zero i h.lt_length
  exact ⟨fun h => absurd h hnone, fun h => absurd h hnone, fun _ h => absurd h hnone,
    fun _ _ _ _ h => absurd h hnone⟩

/-- The region of a live grant and that of a write are the same or disjoint. -/
theorem eq_or_disjoint (hiso : Isolated moments arena) {i j : ℕ} {size size' : UInt64}
    {region other : Region} (h : LiveGrant moments i size region)
    (h' : LiveGrant moments j size' other) :
    other = region ∨ region.stop.toNat ≤ other.offset.toNat ∨
      other.stop.toNat ≤ region.offset.toNat := by
  rcases Nat.lt_trichotomy i j with hlt | rfl | hgt
  · exact .inr (.inl (hiso.apart hlt h h'))
  · exact .inl (h'.region_unique h)
  · exact .inr (.inr (hiso.apart hgt h' h))

end Isolated

/-- One edit more is made to the bytes that the earlier edits left. -/
theorem Region.edited_append (region : Region) (edits : List Edit) (last : Option Edit) :
    region.edited (edits ++ last.toList) =
      last.elim (region.edited edits) fun edit => edit.apply (region.edited edits) := by
  cases last <;> simp [Region.edited, List.foldl_append]

/-- A move changes the slice of a reached region by an edit of that region only,
if what it writes to is this region or disjoint from it. -/
theorem Arena.slice_move {arena : Arena} (hsound : arena.Sound) (step : ArenaMove)
    {region : Region} (hreach : region.stop.toNat ≤ arena.offset.toNat)
    (hapart : ∀ other, Moment.Writes ⟨step, arena, arena.move step⟩ other →
      other = region ∨ region.stop.toNat ≤ other.offset.toNat ∨
        other.stop.toNat ≤ region.offset.toNat) :
    (arena.move step).slice region =
      (Moment.edit? ⟨step, arena, arena.move step⟩ region).elim (arena.slice region)
        fun edit => edit.apply (arena.slice region) := by
  have hmoved := arena.moved step
  generalize arena.announced step = events, arena.move step = after at hmoved hapart ⊢
  cases hmoved with
  | granted hplace =>
    obtain ⟨hoffset, -⟩ := place_eq_ok hplace
    exact arena.slice_grant_of_le (by rw [hoffset]; exact hreach)
  | @written target edit hle =>
    by_cases hsame : target = region
    · subst hsame
      have hslice := arena.slice_store_self target (edit.size_apply (arena.slice target))
        (hsound.stop_le hle)
      simpa [Moment.edit?] using hslice
    · have hdisjoint := (hapart target ⟨⟨edit, rfl⟩, hle⟩).resolve_left hsame
      have hslice := arena.slice_store_of_disjoint target
        (edit.size_apply (arena.slice target)) hdisjoint
      simpa [Moment.edit?, hsame] using hslice
  | @missed target edit hlt =>
    have hother : target ≠ region := by
      intro h
      rw [h] at hlt
      omega
    simp [Moment.edit?, hother]
  | refused | rolled | ignored => rfl

namespace Isolated

variable {moments : List Moment} {arena : Arena}

/-- Live grants stay isolated over one more move of a sound arena: a request is served beyond all
of them, a rollback only ends some, and an edit through one of them leaves the others alone. -/
theorem append (hiso : Isolated moments arena) (hsound : arena.Sound) (step : ArenaMove) :
    Isolated (moments ++ [⟨step, arena, arena.move step⟩]) (arena.move step) := by
  -- a grant of the new move starts at the offset and ends at the new one
  have hnew : ∀ {size region}, Moment.Grants ⟨step, arena, arena.move step⟩ size region →
      arena.place size = .ok region ∧ arena.move step = arena.grant region := by
    rintro size region ⟨hstep, hplace⟩
    refine ⟨hplace, ?_⟩
    simp only at hstep hplace
    simp only [hstep, Arena.move, hplace]
  refine ⟨?_, ?_, ?_, ?_⟩
  · intro i size region h
    exact h.of_append_singleton.1
  · intro i size region h
    obtain ⟨-, hold | ⟨rfl, hgrants⟩⟩ := h.of_append_singleton
    · exact hiso.shaped hold
    · obtain ⟨hoffset, hlength, hstop, -⟩ := Arena.place_eq_ok (hnew hgrants).1
      rw [hoffset]
      exact ⟨hsound.aligned, hlength, hstop⟩
  · intro i j size size' region region' hij h h'
    obtain ⟨-, hold' | ⟨rfl, hgrants'⟩⟩ := h'.of_append_singleton
    · obtain ⟨-, hold | ⟨rfl, -⟩⟩ := h.of_append_singleton
      · exact hiso.apart hij hold hold'
      · exact absurd hold'.lt_length (by omega)
    · obtain ⟨-, hold | ⟨rfl, -⟩⟩ := h.of_append_singleton
      · obtain ⟨hoffset, -⟩ := Arena.place_eq_ok (hnew hgrants').1
        rw [hoffset]
        exact hiso.reached hold
      · exact absurd hij (Nat.lt_irrefl _)
  · intro hlive i size region h
    obtain ⟨hbefore, hwrite⟩ := hlive.of_append_singleton
    obtain ⟨-, hold | ⟨rfl, hgrants⟩⟩ := h.of_append_singleton
    · rw [Arena.slice_move hsound step (hiso.reached hold) ?_, hiso.shown hbefore hold,
        editsSince_append_singleton hold.lt_length, region.edited_append]
      intro other hwrites
      obtain ⟨j, size', hother⟩ := hwrite other hwrites
      exact hiso.eq_or_disjoint hold hother
    · obtain ⟨hplace, hafter⟩ := hnew hgrants
      obtain ⟨hoffset, -, hstop, hcap⟩ := Arena.place_eq_ok hplace
      rw [editsSince_length, hafter]
      exact arena.slice_grant_self (by rw [hstop, hoffset]) (hcap.trans hsound.backed)

end Isolated

/-- One more move adds one more moment to the history. -/
theorem Arena.history_append (arena : Arena) (moves : List ArenaMove) (last : ArenaMove) :
    arena.history (moves ++ [last]) =
      arena.history moves ++
        [⟨last, arena.moveAll moves, (arena.moveAll moves).move last⟩] := by
  induction moves generalizing arena with
  | nil => rfl
  | cons step rest ih =>
    show _ :: (arena.move step).history (rest ++ [last]) = _
    rw [ih]
    rfl

/-- The live grants of every run from a sound arena are kept apart, if it rolls
back to aligned offsets only. -/
theorem Isolated.of_history {arena : Arena} (hsound : arena.Sound) (moves : List ArenaMove)
    (haligned : ∀ target, .restore target ∈ moves → 8 ∣ target.offset.toNat) :
    Isolated (arena.history moves) (arena.moveAll moves) := by
  induction moves using List.reverseRecOn with
  | nil => exact Isolated.nil arena
  | append_singleton moves last ih =>
    have hbefore : ∀ target, .restore target ∈ moves → 8 ∣ target.offset.toNat := by
      intro target h
      exact haligned target (List.mem_append_left _ h)
    have hstep := (ih hbefore).append (hsound.moveAll hbefore) last
    rw [arena.history_append]
    simpa [Arena.moveAll] using hstep

/-- Whatever a program does with an arena and wherever it stands, also midway
through its scopes and replays: of two live grants the earlier one ends before the
later one starts; a live grant is aligned, spans the least multiple of 8 that
holds the request, and ends within the used part; and it can be read, with zero
bytes and the edits made through it as its contents if every write so far went
through a live grant. -/
theorem live_grants_isolated {bytes : Bytes} {capacity : UInt64} {start : Arena}
    (counters : Counters) (calls : List ArenaCall) {moves : List ArenaMove}
    (hmade : Arena.ofBytes bytes capacity = .ok start)
    (hgenuine : ∀ target ∈ ArenaCall.programTargets calls, target.Genuine)
    (hmoves : moves <+: Metered.programMoves { subject := start, counters } calls) :
    (∀ i j size size' region region', i < j →
      LiveGrant (start.history moves) i size region →
      LiveGrant (start.history moves) j size' region' →
      region.stop.toNat ≤ region'.offset.toNat) ∧
    ∀ i size region, LiveGrant (start.history moves) i size region →
      8 ∣ region.offset.toNat ∧
      IsLeast {n | 8 ∣ n ∧ size.toNat ≤ n} region.length.toNat ∧
      region.stop.toNat = region.offset.toNat + region.length.toNat ∧
      region.stop.toNat ≤ (start.moveAll moves).used.toNat ∧
      (start.moveAll moves).used.toNat ≤ capacity.toNat ∧
      ∃ slice, (start.moveAll moves).read? region = some slice ∧
        slice.size = region.length.toNat ∧
        (WritesAreLive (start.history moves) →
          slice = region.edited (editsSince (start.history moves) i region)) := by
  have hstart := Arena.sound_of_ofBytes hmade
  have hdvd : ∀ target ∈ ArenaCall.programTargets calls, 8 ∣ target.offset.toNat := by
    intro target h
    exact (hgenuine target h).dvd
  have haligned : ∀ target, .restore target ∈ moves → 8 ∣ target.offset.toNat := by
    intro target h
    exact Metered.dvd_of_mem_programMoves _ hstart calls hdvd target (hmoves.subset h)
  have hiso := Isolated.of_history hstart moves haligned
  have hsound := hstart.moveAll haligned
  have hcapacity : start.capacity = capacity := by rw [(Arena.ofBytes_eq_ok hmade).2]
  have hused := hsound.fits
  rw [start.capacity_moveAll, hcapacity] at hused
  constructor
  · intro i j size size' region region' hij h h'
    exact hiso.apart hij h h'
  · intro i size region h
    obtain ⟨hoffset, hlength, hstop⟩ := hiso.shaped h
    have hreach := hiso.reached h
    have hin := hsound.stop_le hreach
    have hread := (Arena.read?_eq_some_iff _ _ _).2 ⟨hreach, rfl⟩
    refine ⟨hoffset, hlength ▸ isLeast_roundUp _, hstop, hreach, hused, _, hread, ?_, ?_⟩
    · rw [Arena.size_slice]
      omega
    · intro hlive
      exact hiso.shown hlive h

/-- Two grants in a buffer full of old bytes, of which the earlier one is written to,
and a checkpoint of another arena that lies not before them. -/
theorem live_grants_isolated_of_two :
    let start : Arena := { bytes := Array.replicate 24 255, capacity := 24 }
    let moves : List ArenaMove :=
      [.alloc 3, .alloc 8, .write ⟨0, 8⟩ { fill := some 7 }, .restore ⟨16⟩]
    (Region.mk 0 8).stop.toNat ≤ (Region.mk 8 8).offset.toNat ∧
      (start.moveAll moves).read? ⟨0, 8⟩ = some (Array.replicate 8 7) := by
  intro start moves
  have hmade : Arena.ofBytes (Array.replicate 24 255) 24 = .ok start := rfl
  have hother : Arena.ofBytes (Array.replicate 16 0) 16 =
      .ok { bytes := Array.replicate 16 0, capacity := 16 } := rfl
  have hforeign : Checkpoint.Genuine ⟨16⟩ :=
    .taken {} [.alloc 16] hother (by simp [ArenaCall.programTargets, ArenaCall.targets])
  have hfirst : LiveGrant (start.history moves) 0 3 ⟨0, 8⟩ :=
    .of_drop rfl ⟨rfl, rfl⟩ (by decide +kernel)
  have hsecond : LiveGrant (start.history moves) 1 8 ⟨8, 8⟩ :=
    .of_drop rfl ⟨rfl, rfl⟩ (by decide +kernel)
  have hearlier : LiveGrant ((start.history moves).take 2) 0 3 ⟨0, 8⟩ :=
    .of_drop rfl ⟨rfl, rfl⟩ (by decide +kernel)
  have hwrites : WritesAreLive (start.history moves) := by
    rintro (_ | _ | _ | _ | i) moment region hmoment ⟨⟨edit, hstep⟩, -⟩
    · obtain rfl := Option.some.inj hmoment
      cases hstep
    · obtain rfl := Option.some.inj hmoment
      cases hstep
    · obtain rfl := Option.some.inj hmoment
      obtain ⟨rfl, -⟩ := ArenaMove.write.inj hstep
      exact ⟨0, 3, hearlier⟩
    · obtain rfl := Option.some.inj hmoment
      cases hstep
    · cases hmoment
  obtain ⟨hapart, hshown⟩ := live_grants_isolated {}
    [.alloc 3, .alloc 8, .write ⟨0, 8⟩ { fill := some 7 }, .restore ⟨16⟩] hmade
    (by simp [ArenaCall.programTargets, ArenaCall.targets, hforeign]) (List.prefix_rfl (l := moves))
  obtain ⟨-, -, -, -, -, slice, hread, -, hslice⟩ := hshown 0 3 ⟨0, 8⟩ hfirst
  refine ⟨hapart 0 1 3 8 _ _ Nat.zero_lt_one hfirst hsecond, ?_⟩
  rw [hread, hslice hwrites]
  rfl

end Allotment

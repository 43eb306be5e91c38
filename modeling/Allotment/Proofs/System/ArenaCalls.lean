import Allotment.Proofs.System.Courses
import Allotment.Proofs.System.Ledger

set_option autoImplicit false

/-!
What single calls do to the bytes of arenas, read off the calls. Each of them makes one move
of one arena, where giving a buffer back counts as a rollback to the start, or it moves the
bytes of no arena; the journal tells the moves in order, and what an arena has granted is what
its requests were served less what its rollbacks reclaimed.
-/

namespace Allotment

/-- The move that a single call makes, and of which arena. A buffer that is given back is
rolled back first. -/
def Call.move? : Call → Option (ArenaId × ArenaMove)
  | .alloc id bytes => some (id, .alloc bytes)
  | .restore id target => some (id, .restore target)
  | .reset id => some (id, .restore { offset := 0 })
  | .write id region change => some (id, .write region change)
  | .giveBack id => some (id, .restore { offset := 0 })
  | _ => none

/-- Whether a line tells that an arena moved bytes. -/
def Entry.isArenaMove (entry : Entry) : Bool :=
  match entry.source with
  | .arena _ => entry.event.charge?.isSome
  | .heap _ => false

/-- The events in some lines, from the sources that are asked for. -/
def eventsFrom (told : Source → Bool) (entries : List Entry) : List Event :=
  (entries.filter fun entry => told entry.source).map Entry.event

/-- The events of two stretches of lines are those of the first, then those of the second. -/
theorem eventsFrom_append (told : Source → Bool) (first second : List Entry) :
    eventsFrom told (first ++ second) = eventsFrom told first ++ eventsFrom told second := by
  unfold eventsFrom
  rw [List.filter_append, List.map_append]

/-- Lines from one source are all told or none of them is. -/
theorem eventsFrom_map (told : Source → Bool) (source : Source) (events : List Event) :
    eventsFrom told (events.map (Entry.mk source)) = if told source then events else [] := by
  unfold eventsFrom
  cases h : told source <;> simp [List.filter_map, Function.comp_def, h]

/-- Every event that an arena announces is a charge of its account. -/
theorem Arena.charged_of_announced {arena : Arena} {step : ArenaMove} {event : Event}
    (h : event ∈ arena.announced step) : event.charge?.isSome := by
  have hmoved := arena.moved step
  generalize arena.announced step = events, arena.move step = after at hmoved h
  cases hmoved <;> simp_all [Event.charge?]

namespace Arena

/-- A rollback moves the offset to the checkpoint, unless the arena is filled less than that. -/
theorem move_restore (arena : Arena) (target : Checkpoint) :
    arena.move (.restore target) = { arena with offset := min target.offset arena.used } := by
  show ((if target.offset ≤ arena.offset then _ else _) : Option (UInt64 × Arena)).elim _ _ =
    { arena with offset := if target.offset ≤ arena.offset then target.offset else arena.offset }
  split <;> rfl

/-- A rollback is announced exactly when it does not go forward, with the bytes it reclaims. -/
theorem announced_restore (arena : Arena) (target : Checkpoint) :
    arena.announced (.restore target) =
      if target.offset ≤ arena.used then [.restored (arena.used - target.offset) target.offset]
      else [] := by
  show ((if target.offset ≤ arena.offset then _ else _) : Option (UInt64 × Arena)).elim _ _ =
    if target.offset ≤ arena.offset then _ else _
  split <;> rfl

end Arena

namespace System

variable {s s' : System} {call : Call} {entries : List Entry} {id : ArenaId} {arena : Arena}
  {account : AccountId}

/-- The bytes that an arena has granted, or had when it was dropped; none when its buffer was
given back. -/
def granted (s : System) (id : ArenaId) : ℕ :=
  s.arenas[id]?.elim 0 ArenaSlot.granted

/-- The lines of the journal that tell the moves of arenas. -/
def moveLines (s : System) : List Entry :=
  s.journal.toList.filter Entry.isArenaMove

/-- The lines that tell the move which a single call makes. -/
def arenaLines (s : System) (call : Call) : List Entry :=
  call.move?.elim [] fun (id, step) =>
    (s.arena? id).elim [] fun arena => (arena.announced step).map (Entry.mk (.arena id))

/-- What a single call is granted of an arena: the size that it asks for, and the region. -/
def grant? (s : System) (id : ArenaId) : Call → Option (UInt64 × Region)
  | .alloc other size =>
    if other = id then (s.alloc other size).1.toOption.map (Prod.mk size) else none
  | _ => none

/-- What the calls of a run are granted of an arena, in order. -/
def grants (s : System) (id : ArenaId) : List Call → List (UInt64 × Region)
  | [] => []
  | call :: rest => (s.grant? id call).toList ++ (s.perform call).2.grants id rest

/-- An arena that is there has granted the bytes up to its offset. -/
theorem granted_eq (hslot : s.arenas[id]? = some { arena := some arena, account }) :
    s.granted id = arena.used.toNat := by
  unfold granted
  rw [hslot]
  rfl

/-- The lines of a move are the announcements of the arena it is made of, in their order. -/
theorem arenaLines_of_arena? {step : ArenaMove} (hmove : call.move? = some (id, step))
    (harena : s.arena? id = some arena) :
    s.arenaLines call = (arena.announced step).map (Entry.mk (.arena id)) := by
  simp only [arenaLines, hmove, harena, Option.elim_some]

/-- A move of an arena that cannot be worked with is told by no line. -/
theorem arenaLines_of_none {step : ArenaMove} (hmove : call.move? = some (id, step))
    (hgone : s.arena? id = none) : s.arenaLines call = [] := by
  simp only [arenaLines, hmove, hgone, Option.elim_some, Option.elim_none]

/-- What a move tells depends only on its arena and on whether that arena is asked for. -/
theorem eventsFrom_arenaLines (told : Source → Bool) {step : ArenaMove}
    (hmove : call.move? = some (id, step)) :
    eventsFrom told (s.arenaLines call) =
      if told (.arena id) then (s.arena? id).elim [] fun arena => arena.announced step else [] := by
  cases harena : s.arena? id with
  | none =>
    rw [arenaLines_of_none hmove harena]
    simp [eventsFrom]
  | some arena =>
    rw [arenaLines_of_arena? hmove harena, eventsFrom_map, Option.elim_some]

/-- A run is granted what its first part is granted and then what the rest is granted there. -/
theorem grants_append (s : System) (id : ArenaId) (first second : List Call) :
    s.grants id (first ++ second) = s.grants id first ++ (s.performAll first).grants id second := by
  induction first generalizing s with
  | nil => rfl
  | cons call rest ih => simp [grants, ih]

section Lines

/-- Recording events adds to the lines of arena moves those events that are such moves. -/
theorem moveLines_record (s : System) (source : Source) (account : AccountId)
    (events : List Event) :
    (s.record source account events).moveLines =
      s.moveLines ++ (events.map (Entry.mk source)).filter Entry.isArenaMove := by
  unfold moveLines
  rw [journal_record, List.filter_append]

/-- An arena put in its place after a move adds the lines of that move. -/
theorem moveLines_place (s : System) (slot : ArenaSlot) (arena : Arena) (step : ArenaMove) :
    (s.place id slot (arena.announced step)).moveLines =
      s.moveLines ++ (arena.announced step).map (Entry.mk (.arena id)) := by
  have hall : ((arena.announced step).map (Entry.mk (.arena id))).filter Entry.isArenaMove =
      (arena.announced step).map (Entry.mk (.arena id)) := by
    rw [List.filter_eq_self]
    intro entry hentry
    obtain ⟨event, hevent, rfl⟩ := List.mem_map.1 hentry
    exact Arena.charged_of_announced hevent
  unfold place
  rw [moveLines_record, hall]
  rfl

/-- The lines of arena moves do not depend on the heaps, the objects or the tokens. -/
theorem offHeaps_moveLines : OffHeaps moveLines where
  onHeap s heap work := by
    unfold onHeap
    split
    · simp [settle, moveLines, Entry.isArenaMove]
    · rfl
  withTokens _ _ := rfl

/-- Opening a heap tells of no arena move. -/
theorem moveLines_openHeap (s : System) (account : AccountId) :
    (s.openHeap account).2.moveLines = s.moveLines := by
  unfold openHeap
  split <;> rfl

/-- An event that charges nothing is no arena move. -/
theorem moveLines_announce (s : System) (source : Source) {event : Event}
    (hquiet : event.charge? = none) : (s.announce source event).moveLines = s.moveLines := by
  show (s.journal.push ⟨source, event⟩).toList.filter Entry.isArenaMove = _
  have hno : Entry.isArenaMove ⟨source, event⟩ = false := by
    cases source <;> simp [Entry.isArenaMove, hquiet]
  simp [moveLines, hno]

/-- Placing a new arena tells of no move, whether or not the host had the buffer. -/
theorem moveLines_placeArena (s : System) (built : Except Violation Arena) (account : AccountId) :
    (s.placeArena built account).2.moveLines = s.moveLines := by
  unfold placeArena
  split
  · split
    · rfl
    · exact moveLines_announce _ _ rfl
  · rfl

/-- Building a context tells of no arena move. -/
theorem moveLines_buildContext (s : System) (configuration : Configuration) :
    (s.buildContext configuration).2.moveLines = s.moveLines := by
  unfold buildContext
  split
  · rfl
  · exact (moveLines_announce _ _ rfl).trans (moveLines_announce _ _ rfl)

/-- Giving a buffer back tells of the move that empties the arena. -/
theorem moveLines_giveBack (s : System) (id : ArenaId) :
    (s.giveBack id).2.moveLines = s.moveLines ++ s.arenaLines (.giveBack id) := by
  cases harena : s.arena? id with
  | none =>
    rw [giveBack_of_none harena, arenaLines_of_none rfl harena, List.append_nil]
  | some arena =>
    obtain ⟨account, hslot⟩ := arena?_eq_some.1 harena
    have hannounced :
        [Event.restored arena.offset 0] = arena.announced (.restore { offset := 0 }) := by
      simp [Arena.announced, Arena.restore?]
    rw [giveBack_eq hslot, arenaLines_of_arena? rfl harena, hannounced]
    exact moveLines_place s _ arena _

/-- Dropping an arena tells of no move: its bytes stay granted. -/
theorem moveLines_dropArena (s : System) (id : ArenaId) :
    (s.dropArena id).moveLines = s.moveLines := by
  unfold dropArena
  split <;> rfl

/-- A move of an arena that cannot be worked with changes nothing. -/
theorem perform_toCall_of_none (hgone : s.arena? id = none) (step : ArenaMove) :
    (s.perform (step.toCall id)).2 = s := by
  cases step with
  | alloc size =>
    show (s.alloc id size).2 = s
    unfold alloc
    rw [unknown_onArena hgone]
  | restore target =>
    show (s.restore id target).2 = s
    unfold restore
    rw [unknown_onArena hgone]
  | write region edit =>
    show (s.write id region edit).2 = s
    unfold write
    rw [unknown_onArena hgone]

/-- The journal tells of a single call the move that it makes, and no other move. -/
theorem moveLines_perform (s : System) (hsingle : call.IsSingle) :
    (s.perform call).2.moveLines = s.moveLines ++ s.arenaLines call := by
  have hmove : ∀ (id : ArenaId) (step : ArenaMove),
      (s.perform (step.toCall id)).2.moveLines =
        s.moveLines ++ (s.arena? id).elim [] fun arena =>
          (arena.announced step).map (Entry.mk (.arena id)) := by
    intro id step
    cases harena : s.arena? id with
    | none =>
      rw [perform_toCall_of_none harena, Option.elim_none, List.append_nil]
    | some arena =>
      obtain ⟨account, hslot⟩ := arena?_eq_some.1 harena
      rw [snd_perform_toCall hslot, Option.elim_some]
      exact moveLines_place s _ arena step
  have hnone : call.move? = none → (s.perform call).2.moveLines = s.moveLines →
      (s.perform call).2.moveLines = s.moveLines ++ s.arenaLines call := by
    intro hcall hsame
    rw [hsame, arenaLines, hcall, Option.elim_none, List.append_nil]
  cases call with
  | alloc id size => exact hmove id (.alloc size)
  | restore id target => exact hmove id (.restore target)
  | reset id => exact hmove id (.restore { offset := 0 })
  | write id region edit => exact hmove id (.write region edit)
  | giveBack id => exact s.moveLines_giveBack id
  | dropArena id => exact hnone rfl (s.moveLines_dropArena id)
  | createArena capacity account => exact hnone rfl (s.moveLines_placeArena _ account)
  | lendArena units capacity account => exact hnone rfl (s.moveLines_placeArena _ account)
  | openHeap account => exact hnone rfl (s.moveLines_openHeap account)
  | create heap size => exact hnone rfl (offHeaps_moveLines.createObject s heap size)
  | retain heap token => exact hnone rfl (offHeaps_moveLines.retain s heap token)
  | release heap token => exact hnone rfl (offHeaps_moveLines.release s heap token)
  | lose token => exact hnone rfl (offHeaps_moveLines.lose s token)
  | edit heap token edit => exact hnone rfl (offHeaps_moveLines.editPayload s heap token edit)
  | createContext configuration =>
    apply hnone rfl
    show (s.createContext configuration).2.moveLines = _
    unfold createContext
    split
    · rfl
    · exact s.moveLines_buildContext configuration
  | createDefaultContext =>
    apply hnone rfl
    simp only [perform, report]
    exact s.moveLines_buildContext Configuration.default
  | replay _ _ | sumBatch _ _ => exact hsingle.elim
  | openAccount | checkpoint _ | read _ _ | makeNull | references _ _ | size _ _ | payload _ _
    | sameObject _ _ | changeHost _ => exact hnone rfl rfl

end Lines

section Granted

/-- Putting an arena in its place changes what this arena has granted, and no other one. -/
theorem granted_place (hslot : s.arenas[id]? = some { arena := some arena, account })
    (left : Option Arena) (dropped : Bool) (events : List Event) (other : ArenaId) :
    (s.place id ⟨left, account, dropped⟩ events).granted other =
      if id = other then (ArenaSlot.mk left account dropped).granted else s.granted other := by
  unfold granted
  split
  · rename_i hother
    subst hother
    rw [arenas_place hslot]
    rfl
  · rename_i hother
    rw [show (s.place id ⟨left, account, dropped⟩ events).arenas[other]? = s.arenas[other]? from
      Array.getElem?_setIfInBounds_ne hother]

/-- A new arena has granted nothing, so the arenas that are there have granted what they had. -/
theorem granted_push {bytes : Bytes} {capacity : UInt64}
    (hmade : Arena.ofBytes bytes capacity = .ok arena) (hpushed : s'.arenas =
      s.arenas.push { arena := some arena, account }) : s'.granted id = s.granted id := by
  unfold granted
  rw [hpushed, Array.getElem?_push]
  split
  · rename_i hid
    rw [hid, Array.getElem?_eq_none (Nat.le_refl _), (Arena.ofBytes_eq_ok hmade).2]
    rfl
  · rfl

/-- An arena fills and empties by what it announces. -/
theorem Stepped.granted_eq (h : Stepped s call entries s') (id : ArenaId) :
    s'.granted id + ((eventsFrom (· = .arena id) entries).map Event.reclaimedBytes).sum =
      s.granted id + ((eventsFrom (· = .arena id) entries).map Event.grantedBytes).sum := by
  have hplaced : ∀ {other : ArenaId} {arena : Arena} {account : AccountId} {left : Option Arena}
      {dropped : Bool} {events : List Event},
      s.arenas[other]? = some { arena := some arena, account } →
      (ArenaSlot.mk left account dropped).granted + (events.map Event.reclaimedBytes).sum =
        arena.used.toNat + (events.map Event.grantedBytes).sum →
      (s.place other ⟨left, account, dropped⟩ events).granted id +
          ((eventsFrom (· = .arena id) (events.map (Entry.mk (.arena other)))).map
            Event.reclaimedBytes).sum =
        s.granted id + ((eventsFrom (· = .arena id) (events.map (Entry.mk (.arena other)))).map
          Event.grantedBytes).sum := by
    intro other arena account left dropped events hslot hbalance
    rw [granted_place hslot, eventsFrom_map]
    by_cases hother : other = id
    · subst hother
      simpa [System.granted_eq hslot] using hbalance
    · simp [hother]
  cases h with
  | arenaAdded hopen hmade =>
    rw [granted_push hmade (s := s) rfl]
    simp [eventsFrom, List.filter_cons]
    split <;> rfl
  | contextAdded hmade =>
    rw [granted_push hmade (s := s) rfl]
    simp [eventsFrom, List.filter_cons]
    split <;> rfl
  | @arenaMoved _ other account arena step hslot =>
    exact hplaced hslot (offset_move_eq arena step)
  | @bufferReturned other account arena hslot =>
    have hreturned := @hplaced other arena account none false [.restored arena.offset 0] hslot (by
      simp [ArenaSlot.granted, Event.reclaimedBytes, Event.grantedBytes, Arena.used])
    exact hreturned
  | @arenaDropped other account arena hslot =>
    exact @hplaced other arena account arena true [] hslot rfl
  | _ => rfl

/-- A request is granted the region that the arena places, or nothing. -/
theorem grant?_alloc (hslot : s.arenas[id]? = some { arena := some arena, account })
    (size : UInt64) :
    s.grant? id (.alloc id size) = (arena.place size).toOption.map (Prod.mk size) := by
  simp only [grant?, if_true, alloc_eq hslot]
  cases arena.place size <;> rfl

/-- An arena that cannot be worked with grants nothing. -/
theorem grant?_of_gone (hgone : s.arena? id = none) (call : Call) : s.grant? id call = none := by
  cases call with
  | alloc other size =>
    simp only [grant?]
    split
    · rename_i hother
      subst hother
      unfold alloc
      rw [unknown_onArena hgone]
      rfl
    · rfl
  | _ => rfl

/-- A request is granted nothing of an arena it was not made to. -/
theorem grant?_of_ne {other : ArenaId} (hother : other ≠ id) (size : UInt64) :
    s.grant? id (.alloc other size) = none :=
  if_neg hother

/-- A move that is no request grants nothing. -/
theorem grantedBytes_of_announced {step : ArenaMove} (hstep : ∀ size, step ≠ .alloc size) :
    ((arena.announced step).map Event.grantedBytes).sum = 0 := by
  have hmoved := arena.moved step
  generalize arena.announced step = events, arena.move step = after at hmoved
  cases hmoved with
  | granted | refused => exact absurd rfl (hstep _)
  | rolled | ignored | written | missed => rfl

/-- What a call is granted is a region of the rounded size. -/
theorem length_of_grant? {size : UInt64} {region : Region}
    (h : s.grant? id call = some (size, region)) : region.length.toNat = roundUp size.toNat := by
  cases harena : s.arena? id with
  | none =>
    rw [grant?_of_gone harena] at h
    cases h
  | some arena =>
    obtain ⟨account, hslot⟩ := arena?_eq_some.1 harena
    cases call with
    | alloc other asked =>
      by_cases hother : other = id
      · subst hother
        rw [grant?_alloc hslot] at h
        cases hplace : arena.place asked with
        | error failure => simp [hplace, Except.toOption] at h
        | ok placed =>
          simp only [hplace, Except.toOption, Option.map_some, Option.some.injEq,
            Prod.mk.injEq] at h
          obtain ⟨rfl, rfl⟩ := h
          exact (Arena.place_eq_ok hplace).2.1
      · rw [grant?_of_ne hother] at h
        cases h
    | _ => cases h

/-- Every region that a run is granted has the rounded size of its request. -/
theorem length_of_mem_grants {calls : List Call} {grant : UInt64 × Region}
    (h : grant ∈ s.grants id calls) : grant.2.length.toNat = roundUp grant.1.toNat := by
  induction calls generalizing s with
  | nil => cases h
  | cons call rest ih =>
    rcases List.mem_append.1 h with h | h
    · exact length_of_grant? (Option.mem_toList.1 h)
    · exact ih h

/-- The lines of a call tell of an arena the length of what the call is granted of it. -/
theorem sum_grantedBytes_arenaLines (s : System) (id : ArenaId) (call : Call) :
    ((eventsFrom (· = .arena id) (s.arenaLines call)).map Event.grantedBytes).sum =
      (s.grant? id call).elim 0 fun grant => grant.2.length.toNat := by
  have hother : ∀ {other : ArenaId} {step : ArenaMove}, call.move? = some (other, step) →
      (∀ size, step ≠ .alloc size) →
      ((eventsFrom (· = .arena id) (s.arenaLines call)).map Event.grantedBytes).sum = 0 := by
    intro other step hmove hstep
    rw [eventsFrom_arenaLines _ hmove]
    split
    · cases s.arena? other with
      | none => rfl
      | some arena => exact grantedBytes_of_announced hstep
    · rfl
  cases call with
  | alloc other size =>
    rw [eventsFrom_arenaLines _ rfl]
    by_cases hid : other = id
    · subst hid
      cases harena : s.arena? other with
      | none =>
        rw [grant?_of_gone harena]
        simp
      | some arena =>
        obtain ⟨account, hslot⟩ := arena?_eq_some.1 harena
        rw [grant?_alloc hslot]
        cases hplace : arena.place size <;>
          simp [Arena.announced, hplace, Except.toOption, Event.grantedBytes]
    · rw [grant?_of_ne hid]
      simp [hid]
  | restore | reset | write | giveBack =>
    apply hother rfl
    intro size h
    cases h
  | _ => rfl

/-- What a single call does, with the lines of its arena moves. -/
theorem exists_stepped (s : System) (hsingle : call.IsSingle) :
    ∃ entries, Stepped s call entries (s.perform call).2 ∧
      entries.filter Entry.isArenaMove = s.arenaLines call := by
  obtain ⟨entries, h⟩ := s.stepped hsingle
  have hlines := s.moveLines_perform hsingle
  unfold moveLines at hlines
  rw [h.journal_eq, List.filter_append] at hlines
  exact ⟨entries, h, List.append_cancel_left hlines⟩

/-- What moves no bytes is not in the sum over the events of an arena. -/
theorem sum_eventsFrom_filter {f : Event → ℕ} (hquiet : ∀ event, event.charge? = none → f event = 0)
    (id : ArenaId) (entries : List Entry) :
    ((eventsFrom (· = .arena id) (entries.filter Entry.isArenaMove)).map f).sum =
      ((eventsFrom (· = .arena id) entries).map f).sum := by
  induction entries with
  | nil => rfl
  | cons entry rest ih =>
    obtain ⟨source, event⟩ := entry
    have hcons : ∀ entries : List Entry, eventsFrom (· = .arena id) (⟨source, event⟩ :: entries) =
        if source = .arena id then event :: eventsFrom (· = .arena id) entries
        else eventsFrom (· = .arena id) entries := by
      intro entries
      by_cases hsource : source = .arena id <;> simp [eventsFrom, hsource]
    by_cases hsource : source = .arena id
    · subst hsource
      cases hcharge : event.charge? with
      | none =>
        rw [List.filter_cons_of_neg (by simp [Entry.isArenaMove, hcharge]), ih, hcons, if_pos rfl,
          List.map_cons, List.sum_cons, hquiet event hcharge, Nat.zero_add]
      | some charge =>
        rw [List.filter_cons_of_pos (by simp [Entry.isArenaMove, hcharge]), hcons, hcons,
          if_pos rfl, if_pos rfl, List.map_cons, List.sum_cons, List.map_cons, List.sum_cons, ih]
    · rw [List.filter_cons, hcons, if_neg hsource]
      split
      · rw [hcons, if_neg hsource, ih]
      · exact ih

/-- The arena that a call names fills and empties by the move that the call makes. -/
theorem granted_perform_eq (s : System) (hsingle : call.IsSingle) (id : ArenaId) :
    (s.perform call).2.granted id +
        ((eventsFrom (· = .arena id) (s.arenaLines call)).map Event.reclaimedBytes).sum =
      s.granted id +
        ((eventsFrom (· = .arena id) (s.arenaLines call)).map Event.grantedBytes).sum := by
  obtain ⟨entries, h, hlines⟩ := s.exists_stepped hsingle
  rw [← hlines, sum_eventsFrom_filter fun _ h => (Event.weights_of_quiet h UInt64.toNat).1,
    sum_eventsFrom_filter fun _ h => (Event.weights_of_quiet h UInt64.toNat).2.1]
  exact h.granted_eq id

/-- A rollback leaves an arena where it was to go, unless it has granted less. -/
theorem granted_perform_of_restore (hsingle : call.IsSingle) {target : Checkpoint}
    (hmove : call.move? = some (id, .restore target)) (harena : s.arena? id = some arena) :
    (s.perform call).2.granted id = min target.offset.toNat (s.granted id) := by
  have hbalance := s.granted_perform_eq hsingle id
  obtain ⟨account, hslot⟩ := arena?_eq_some.1 harena
  rw [eventsFrom_arenaLines _ hmove] at hbalance
  simp only [harena, Option.elim_some, decide_true, if_true, granted_eq hslot] at hbalance ⊢
  have hmoved := arena.moved (.restore target)
  generalize arena.announced (.restore target) = events, arena.move (.restore target) = next
    at hmoved hbalance
  cases hmoved with
  | rolled hle =>
    have hsub := UInt64.toNat_sub_of_le _ _ (UInt64.le_iff_toNat_le.2 hle)
    simp only [List.map_singleton, List.sum_singleton, Event.reclaimedBytes,
      Event.grantedBytes, Arena.used] at hbalance ⊢
    omega
  | ignored hlt =>
    simp only [List.map_nil, List.sum_nil, Arena.used] at hbalance ⊢
    omega

/-- No rollback takes an arena below the checkpoint, and what is left of an arena that is gone
stays as it is. -/
theorem le_granted_perform_of_restore (hsingle : call.IsSingle) {target : Checkpoint}
    (hmove : call.move? = some (id, .restore target)) :
    min target.offset.toNat (s.granted id) ≤ (s.perform call).2.granted id := by
  cases harena : s.arena? id with
  | none =>
    have hbalance := s.granted_perform_eq hsingle id
    rw [arenaLines_of_none hmove harena] at hbalance
    have hsame : (s.perform call).2.granted id = s.granted id := hbalance
    rw [hsame]
    exact Nat.min_le_right _ _
  | some arena => exact (granted_perform_of_restore hsingle hmove harena).ge

/-- Only a rollback makes an arena have granted less. -/
theorem granted_le_perform (hsingle : call.IsSingle)
    (hother : ∀ target, call.move? ≠ some (id, .restore target)) :
    s.granted id ≤ (s.perform call).2.granted id := by
  suffices hnone : ((eventsFrom (· = .arena id) (s.arenaLines call)).map
      Event.reclaimedBytes).sum = 0 by
    have hbalance := s.granted_perform_eq hsingle id
    omega
  cases hmove : call.move? with
  | none =>
    unfold arenaLines
    rw [hmove]
    rfl
  | some move =>
    obtain ⟨other, step⟩ := move
    rw [eventsFrom_arenaLines _ hmove]
    split
    · rename_i hid
      obtain rfl : other = id := by simpa using hid
      cases s.arena? other with
      | none => rfl
      | some arena =>
        have hmoved := arena.moved step
        rw [Option.elim_some]
        generalize arena.announced step = events, arena.move step = after at hmoved
        cases hmoved with
        | rolled | ignored => exact absurd hmove (hother _)
        | granted | refused | written | missed => rfl
    · rfl

/-- The bytes that the rollbacks of an arena reclaimed so far. -/
def reclaimed (s : System) (id : ArenaId) : ℕ :=
  ((eventsFrom (· = .arena id) s.journal.toList).map Event.reclaimedBytes).sum

/-- A single call keeps the books of every arena. -/
theorem granted_perform (s : System) (hsingle : call.IsSingle) (id : ArenaId) :
    (s.perform call).2.granted id + (s.perform call).2.reclaimed id =
      s.granted id + s.reclaimed id +
        (s.grant? id call).elim 0 fun grant => grant.2.length.toNat := by
  obtain ⟨entries, h, hlines⟩ := s.exists_stepped hsingle
  have hbalance := s.granted_perform_eq hsingle id
  have hgrants := s.sum_grantedBytes_arenaLines id call
  have hreclaimed : (s.perform call).2.reclaimed id = s.reclaimed id +
      ((eventsFrom (· = .arena id) (s.arenaLines call)).map Event.reclaimedBytes).sum := by
    rw [← hlines, sum_eventsFrom_filter fun _ h => (Event.weights_of_quiet h UInt64.toNat).2.1]
    unfold reclaimed
    rw [h.journal_eq, eventsFrom_append, List.map_append, List.sum_append]
  omega

/-- One more call adds to the bytes that a run was granted the length of its own grant. -/
theorem sum_grants_concat (s : System) (id : ArenaId) (calls : List Call) (call : Call) :
    ((s.grants id (calls ++ [call])).map fun grant => grant.2.length.toNat).sum =
      ((s.grants id calls).map fun grant => grant.2.length.toNat).sum +
        ((s.performAll calls).grant? id call).elim 0 fun grant => grant.2.length.toNat := by
  rw [grants_append, List.map_append, List.sum_append]
  cases hgrant : (s.performAll calls).grant? id call <;> simp [grants, hgrant]

/-- What an arena has granted after a run is what it was granted less what was reclaimed. -/
theorem granted_performAll (s : System) (id : ArenaId) {calls : List Call}
    (hsingle : ∀ call ∈ calls, call.IsSingle) :
    (s.performAll calls).granted id + (s.performAll calls).reclaimed id =
      s.granted id + s.reclaimed id +
        ((s.grants id calls).map fun grant => grant.2.length.toNat).sum := by
  induction calls using List.reverseRecOn with
  | nil => rfl
  | append_singleton calls call ih =>
    obtain ⟨hbefore, hlast⟩ := List.forall_mem_append.1 hsingle
    have hcall : call.IsSingle := List.forall_mem_singleton.1 hlast
    rw [performAll_append, performAll_cons, performAll_nil, granted_perform _ hcall, ih hbefore,
      sum_grants_concat, Nat.add_assoc]

end Granted

end System

end Allotment

import Allotment.Proofs.Arena.Genuine
import Allotment.Proofs.Arena.Isolation
import Allotment.Proofs.System.Journal

set_option autoImplicit false

/-!
An arena of a system goes its own way: whatever a run does with the rest of the system,
the arena makes the moves of the calls that name it, until it is dropped or its buffer is
given back.
Checkpoints go from one arena to any other; since arenas hand out genuine ones only,
every arena of a run that makes up none is genuine itself.
-/

namespace Allotment

/-- The moves that a single call lets an arena make. -/
def Call.movesOn (id : ArenaId) : Call → List ArenaMove
  | .alloc other bytes => if other = id then [.alloc bytes] else []
  | .restore other target => if other = id then [.restore target] else []
  | .reset other => if other = id then [.restore { offset := 0 }] else []
  | .write other region change => if other = id then [.write region change] else []
  | _ => []

/-- The moves that single calls let an arena make, in order. -/
def movesOn (id : ArenaId) (calls : List Call) : List ArenaMove :=
  calls.flatMap (Call.movesOn id)

/-- The arena that a call takes away for good. -/
def Call.ended? : Call → Option ArenaId
  | .giveBack id | .dropArena id => some id
  | _ => none

/-- The checkpoint that a call is given. -/
def Call.target? : Call → Option Checkpoint
  | .restore _ target => some target
  | _ => none

mutual

/-- The checkpoints that the calls of an action are given. -/
def Action.targets : Action → List Checkpoint
  | .call single => single.target?.toList
  | .scope _ body _ => Action.runTargets body

/-- The checkpoints that the calls of a run are given. -/
def Action.runTargets : List Action → List Checkpoint
  | [] => []
  | action :: rest => action.targets ++ Action.runTargets rest

end

/-- A move that is made as a call is a move of its own arena only. -/
theorem ArenaMove.movesOn_toCall (step : ArenaMove) (id other : ArenaId) :
    (step.toCall other).movesOn id = if other = id then [step] else [] := by
  cases step <;> rfl

/-- No move changes the size of the buffer. -/
theorem Arena.size_bytes_move (arena : Arena) (step : ArenaMove) :
    (arena.move step).bytes.size = arena.bytes.size := by
  have h := arena.moved step
  generalize arena.announced step = events, arena.move step = after at h
  cases h with
  | granted | written => simp
  | refused | rolled | ignored | missed => rfl

/-- No moves change the size of the buffer. -/
theorem Arena.size_bytes_moveAll (arena : Arena) (moves : List ArenaMove) :
    (arena.moveAll moves).bytes.size = arena.bytes.size := by
  induction moves generalizing arena with
  | nil => rfl
  | cons step rest ih => exact (ih (arena.move step)).trans (arena.size_bytes_move step)

namespace System

variable {s s' : System} {call : Call} {entries : List Entry} {id : ArenaId} {arena : Arena}
  {account : AccountId}

/-- Work of an arena leaves the other arenas alone. -/
theorem arenas_onArena_of_ne {α : Type} {other : ArenaId} (h : other ≠ id)
    (work : Metered Arena → Outcome α × Metered Arena) :
    (s.onArena other work).2.arenas[id]? = s.arenas[id]? := by
  unfold onArena
  split
  · exact Array.getElem?_setIfInBounds_ne h
  · rfl

/-- An arena that gives its buffer back leaves the other arenas alone. -/
theorem arenas_giveBack_of_ne {other : ArenaId} (h : other ≠ id) :
    (s.giveBack other).2.arenas[id]? = s.arenas[id]? := by
  have hworked := arenas_onArena_of_ne (s := s) h
    fun m => (Except.ok m.reset.subject.units, m.reset)
  unfold giveBack
  split
  · rename_i heq
    rw [heq] at hworked
    exact (Array.getElem?_modify ..).trans ((if_neg h).trans hworked)
  · rename_i heq
    rw [heq] at hworked
    exact hworked

/-- An arena that is dropped leaves the other arenas alone. -/
theorem arenas_dropArena_of_ne {other : ArenaId} (h : other ≠ id) :
    (s.dropArena other).arenas[id]? = s.arenas[id]? := by
  unfold dropArena
  split
  · rfl
  · exact (Array.getElem?_modify ..).trans (if_neg h)

/-- The places of arenas are no business of the heaps. -/
theorem offHeaps_arenas : OffHeaps System.arenas where
  onHeap s heap work := by
    unfold onHeap
    split <;> rfl
  withTokens _ _ := rfl

/-- A new arena leaves the places of the others as they are. -/
theorem arenas_placeArena {built : Except Violation Arena} {owner : AccountId}
    {slot : ArenaSlot} (hslot : s.arenas[id]? = some slot) :
    (s.placeArena built owner).2.arenas[id]? = some slot := by
  unfold placeArena
  split
  · split
    · exact hslot
    · exact getElem?_push_of_eq_some hslot _
  · exact hslot

/-- A new context leaves the places of the other arenas as they are. -/
theorem arenas_buildContext (configuration : Configuration) {slot : ArenaSlot}
    (hslot : s.arenas[id]? = some slot) :
    (s.buildContext configuration).2.arenas[id]? = some slot := by
  unfold buildContext
  split
  · exact hslot
  · exact getElem?_push_of_eq_some hslot _

/-- A call lets an arena make the moves it has for it, unless it takes the arena away. -/
theorem arenas_perform (hslot : s.arenas[id]? = some { arena := some arena, account })
    (hsingle : call.IsSingle) (hkept : call.ended? ≠ some id) :
    (s.perform call).2.arenas[id]? =
      some { arena := some (arena.moveAll (call.movesOn id)), account } := by
  -- four of the calls are moves, made of this arena or of another one
  have hmove : ∀ (other : ArenaId) (step : ArenaMove),
      (s.perform (step.toCall other)).2.arenas[id]? =
        some { arena := some (arena.moveAll ((step.toCall other).movesOn id)), account } := by
    intro other step
    rw [step.movesOn_toCall]
    split
    · rename_i h
      subst h
      rw [snd_perform_toCall hslot, arenas_place hslot]
      rfl
    · rename_i h
      show (s.perform (step.toCall other)).2.arenas[id]? = some { arena := some arena, account }
      rw [← hslot]
      cases step <;> exact arenas_onArena_of_ne h _
  cases call with
  | alloc other size => exact hmove other (.alloc size)
  | restore other target => exact hmove other (.restore target)
  | reset other => exact hmove other (.restore { offset := 0 })
  | write other region edit => exact hmove other (.write region edit)
  | giveBack other =>
    have hother : other ≠ id := by
      rintro rfl
      exact hkept rfl
    exact (arenas_giveBack_of_ne hother).trans hslot
  | dropArena other =>
    have hother : other ≠ id := by
      rintro rfl
      exact hkept rfl
    exact (arenas_dropArena_of_ne hother).trans hslot
  | createArena capacity owner => exact arenas_placeArena hslot
  | lendArena units capacity owner => exact arenas_placeArena hslot
  | openHeap owner =>
    show (s.openHeap owner).2.arenas[id]? = _
    unfold openHeap
    split <;> exact hslot
  | create heap size =>
    show (s.createObject heap size).2.arenas[id]? = _
    rw [offHeaps_arenas.createObject]
    exact hslot
  | retain heap token =>
    show (s.retain heap token).2.arenas[id]? = _
    rw [offHeaps_arenas.retain]
    exact hslot
  | release heap token =>
    show (s.release heap token).2.arenas[id]? = _
    rw [offHeaps_arenas.release]
    exact hslot
  | lose token =>
    show (s.lose token).arenas[id]? = _
    rw [offHeaps_arenas.lose]
    exact hslot
  | edit heap token edit =>
    show (s.editPayload heap token edit).2.arenas[id]? = _
    rw [offHeaps_arenas.editPayload]
    exact hslot
  | createContext configuration =>
    show (s.createContext configuration).2.arenas[id]? = _
    unfold createContext
    split
    · exact hslot
    · exact arenas_buildContext configuration hslot
  | createDefaultContext =>
    simp only [perform, report]
    exact arenas_buildContext Configuration.default hslot
  | replay _ _ | sumBatch _ _ => exact hsingle.elim
  | openAccount | checkpoint _ | read _ _ | makeNull | references _ _ | size _ _ | payload _ _
    | sameObject _ _ | changeHost _ => exact hslot

/-- A call that takes an arena away leaves nothing in its place to work with. -/
theorem arenas_of_ended (hslot : s.arenas[id]? = some { arena := some arena, account })
    (hended : call.ended? = some id) :
    ∃ slot, (s.perform call).2.arenas[id]? = some slot ∧ slot.working? = none := by
  cases call with
  | giveBack other =>
    obtain rfl := Option.some.inj hended
    refine ⟨{ arena := none, account }, ?_, rfl⟩
    show (s.giveBack other).2.arenas[other]? = _
    rw [giveBack_eq hslot]
    exact arenas_place hslot _ _
  | dropArena other =>
    obtain rfl := Option.some.inj hended
    refine ⟨{ arena := some arena, account, dropped := true }, ?_, rfl⟩
    show (s.dropArena other).arenas[other]? = _
    rw [dropArena_eq hslot]
    exact arenas_place hslot _ _
  | _ => cases hended

section Gone

variable {slot : ArenaSlot} (hgone : s.arenas[id]? = some slot) (hidle : slot.working? = none)
include hgone hidle

/-- What is left of an arena stays as it is. -/
theorem Stepped.gone_kept (h : Stepped s call entries s') : s'.arenas[id]? = some slot := by
  have hset : ∀ {other : ArenaId} {owner : AccountId} {found : Arena},
      s.arenas[other]? = some { arena := some found, account := owner } → ∀ next : ArenaSlot,
        (s.arenas.setIfInBounds other next)[id]? = some slot := by
    intro other owner found hother next
    have hne : other ≠ id := by
      rintro rfl
      rw [hother] at hgone
      cases hgone
      cases hidle
    rw [Array.getElem?_setIfInBounds_ne hne, hgone]
  cases h with
  | arenaAdded hopen hmade => exact getElem?_push_of_eq_some hgone _
  | contextAdded hmade => exact getElem?_push_of_eq_some hgone _
  | arenaMoved step hslot => exact hset hslot _
  | bufferReturned hslot | arenaDropped hslot => exact hset hslot _
  | _ => exact hgone

/-- What is left of an arena that cannot be worked with stays as it is for ever. -/
theorem gone_performAll {calls : List Call} (hsingle : ∀ call ∈ calls, call.IsSingle) :
    (s.performAll calls).arenas[id]? = some slot :=
  performAll_induction (P := fun s => s.arenas[id]? = some slot)
    (fun hgone h => h.gone_kept hgone hidle) hgone hsingle

end Gone

/-- An arena that can still be worked with has made its moves and nothing else has happened
to it. -/
theorem course (hslot : s.arenas[id]? = some { arena := some arena, account })
    {calls : List Call} (hsingle : ∀ call ∈ calls, call.IsSingle) {later : Arena}
    {owner : AccountId}
    (hlater : (s.performAll calls).arenas[id]? = some { arena := some later, account := owner }) :
    later = arena.moveAll (movesOn id calls) ∧ owner = account := by
  induction calls generalizing s arena with
  | nil =>
    rw [performAll_nil, hslot] at hlater
    cases hlater
    exact ⟨rfl, rfl⟩
  | cons call rest ih =>
    obtain ⟨hcall, hrest⟩ := List.forall_mem_cons.1 hsingle
    rw [performAll_cons] at hlater
    -- once a call has ended the arena, nothing is found in its place later
    by_cases hended : call.ended? = some id
    · obtain ⟨slot, hgone, hidle⟩ := arenas_of_ended hslot hended
      rw [gone_performAll hgone hidle hrest] at hlater
      cases hlater
      cases hidle
    · obtain ⟨rfl, rfl⟩ := ih (arenas_perform hslot hcall hended) hrest hlater
      exact ⟨(Arena.moveAll_append _ _ _).symm, rfl⟩

/-- Every arena that can be worked with is a genuine one. -/
def ArenasGenuine (s : System) : Prop :=
  ∀ (id : ArenaId) (arena : Arena) (account : AccountId),
    s.arenas[id]? = some { arena := some arena, account } → arena.Genuine

/-- An arena that was not there before a step was just made. -/
theorem Stepped.made_of_new (h : Stepped s call entries s')
    (hafter : s'.arenas[id]? = some { arena := some arena, account })
    (hnew : ∀ found owner, s.arenas[id]? ≠ some { arena := some found, account := owner }) :
    arena.Genuine := by
  have hold : s.arenas[id]? ≠ some { arena := some arena, account } := hnew arena account
  have hpush : ∀ {bytes : Bytes} {capacity : UInt64} {made : Arena} {owner : AccountId},
      Arena.ofBytes bytes capacity = .ok made →
      (s.arenas.push { arena := some made, account := owner })[id]? =
        some { arena := some arena, account } → arena.Genuine := by
    intro bytes capacity made owner hmade hpushed
    rw [Array.getElem?_push] at hpushed
    split at hpushed
    · cases hpushed
      exact .made hmade
    · exact absurd hpushed hold
  have hset : ∀ {other : ArenaId} {found : Arena} {owner : AccountId} {next : ArenaSlot},
      s.arenas[other]? = some { arena := some found, account := owner } →
      (s.arenas.setIfInBounds other next)[id]? = some { arena := some arena, account } →
        arena.Genuine := by
    intro other found owner next hslot hplaced
    have hne : other ≠ id := by
      rintro rfl
      exact hnew found owner hslot
    rw [Array.getElem?_setIfInBounds_ne hne] at hplaced
    exact absurd hplaced hold
  cases h with
  | arenaAdded hopen hmade => exact hpush hmade hafter
  | contextAdded hmade => exact hpush hmade hafter
  | arenaMoved step hslot => exact hset hslot hafter
  | bufferReturned hslot | arenaDropped hslot => exact hset hslot hafter
  | _ => exact absurd hafter hold

end System

/-- A call that is given genuine checkpoints rolls back to genuine ones only. -/
theorem Call.genuine_of_mem_movesOn {call : Call} {id : ArenaId} {target : Checkpoint}
    (hgiven : ∀ target, call.target? = some target → target.Genuine)
    (h : .restore target ∈ call.movesOn id) : target.Genuine := by
  cases call with
  | restore other given =>
    have heq : target = given := by
      by_cases hother : other = id <;> simp_all [movesOn]
    exact hgiven target (heq ▸ rfl)
  | reset other =>
    have heq : target = { offset := 0 } := by
      by_cases hother : other = id <;> simp_all [movesOn]
    exact heq ▸ Checkpoint.genuine_zero
  | _ => simp [movesOn] at h

namespace System

variable {s : System} {call : Call}

namespace ArenasGenuine

/-- An empty system has genuine arenas only. -/
theorem start (host : Host) : ({ host } : System).ArenasGenuine := by
  intro id arena account h
  simp at h

/-- A call that is given genuine checkpoints leaves genuine arenas only. -/
theorem perform (hs : s.ArenasGenuine) (hsingle : call.IsSingle)
    (hgiven : ∀ target, call.target? = some target → target.Genuine) :
    (s.perform call).2.ArenasGenuine := by
  intro id arena account hafter
  by_cases hthere : ∃ found owner, s.arenas[id]? = some { arena := some found, account := owner }
  · obtain ⟨found, owner, hslot⟩ := hthere
    have hone : ∀ only ∈ [call], only.IsSingle := by simpa using hsingle
    obtain ⟨rfl, -⟩ := course hslot hone hafter
    apply (hs _ _ _ hslot).moveAll
    intro target hmem
    rw [movesOn, List.flatMap_singleton] at hmem
    exact call.genuine_of_mem_movesOn hgiven hmem
  · obtain ⟨entries, h⟩ := s.stepped hsingle
    apply h.made_of_new hafter
    intro found owner hslot
    exact hthere ⟨found, owner, hslot⟩

/-- Calls that are given genuine checkpoints leave genuine arenas only. -/
theorem performAll (hs : s.ArenasGenuine) {calls : List Call}
    (hsingle : ∀ call ∈ calls, call.IsSingle)
    (hgiven : ∀ call ∈ calls, ∀ target, call.target? = some target → target.Genuine) :
    (s.performAll calls).ArenasGenuine := by
  induction calls generalizing s with
  | nil => exact hs
  | cons call rest ih =>
    obtain ⟨hcall, hrest⟩ := List.forall_mem_cons.1 hsingle
    obtain ⟨hfirst, hlater⟩ := List.forall_mem_cons.1 hgiven
    exact ih (hs.perform hcall hfirst) hrest hlater

/-- A checkpoint that is taken of a genuine arena is genuine. -/
theorem checkpoint (hs : s.ArenasGenuine) {id : ArenaId} {target : Checkpoint}
    (h : s.checkpoint id = .ok target) : target.Genuine := by
  unfold System.checkpoint at h
  split at h
  · cases h
  · rename_i arena harena
    obtain ⟨account, hslot⟩ := arena?_eq_some.1 harena
    obtain rfl := Except.ok.inj h
    exact (hs _ _ _ hslot).checkpoint

/-- An arena that works on its account is a genuine one. -/
theorem metered (hs : s.ArenasGenuine) {id : ArenaId} {m : Metered Arena}
    (h : s.metered? id = some m) : m.subject.Genuine := by
  obtain ⟨account, hslot, -⟩ := arenas_of_metered? h
  exact hs _ _ _ hslot

end ArenasGenuine

/-- The checkpoint of a move that is made as a call is the one of the move. -/
theorem target_of_mem_toCall {moves : List ArenaMove} {id : ArenaId} {target : Checkpoint}
    (hmem : call ∈ moves.map (ArenaMove.toCall id)) (htarget : call.target? = some target) :
    .restore target ∈ moves := by
  obtain ⟨step, hstep, rfl⟩ := List.mem_map.1 hmem
  cases step with
  | restore given =>
    obtain rfl := Option.some.inj htarget
    exact hstep
  | alloc size => cases htarget
  | write region edit => cases htarget

/-- A batch rolls back to where the arena stood before it. -/
theorem offset_of_mem_batchMoves {m : Metered Arena} {samples : List Int32} {target : Checkpoint}
    (h : .restore target ∈ Batch.moves m samples) : target = m.subject.checkpoint := by
  unfold Batch.moves at h
  split at h
  · simpa using h
  · cases hall : samples.all Batch.isDoublable <;> simp_all

/-- The single calls of a call roll back to genuine checkpoints, if the one it was given is
genuine. -/
theorem genuine_of_mem_unrollCall (hs : s.ArenasGenuine)
    (hgiven : ∀ target, call.target? = some target → target.Genuine) {single : Call}
    (h : single ∈ s.unrollCall call) {target : Checkpoint}
    (htarget : single.target? = some target) : target.Genuine := by
  cases call with
  | replay id sizes =>
    cases hm : s.metered? id with
    | none => simp [unrollCall, hm] at h
    | some m =>
      simp only [unrollCall, hm, Option.elim_some] at h
      have hzero := Metered.offset_of_mem_replayMoves (target_of_mem_toCall h htarget)
      obtain ⟨offset⟩ := target
      obtain rfl : offset = 0 := hzero
      exact Checkpoint.genuine_zero
  | sumBatch id samples =>
    cases hm : s.metered? id with
    | none => simp [unrollCall, hm] at h
    | some m =>
      simp only [unrollCall, hm, Option.elim_some] at h
      rw [offset_of_mem_batchMoves (target_of_mem_toCall h htarget)]
      exact (hs.metered hm).checkpoint
  | _ =>
    obtain rfl := List.mem_singleton.1 h
    exact hgiven target htarget

mutual

/-- The single calls of an action roll back to genuine checkpoints, if those it was given
are genuine: a scope takes its own from the arena. -/
theorem genuine_of_mem_unroll (s : System) (hs : s.ArenasGenuine) :
    ∀ action : Action, (∀ given ∈ action.targets, given.Genuine) →
      ∀ single ∈ s.unroll action, ∀ target, single.target? = some target → target.Genuine
  | .call call, hgiven, single, h, target, htarget => by
    apply genuine_of_mem_unrollCall hs ?_ h htarget
    intro given hmem
    exact hgiven given (by simpa [Action.targets] using hmem)
  | .scope arena body abandoned, hgiven, single, h, target, htarget => by
    have hbody := s.genuine_of_mem_unrollAll hs body hgiven
    unfold unroll at h
    cases hmark : s.checkpoint arena with
    | error refusal => simp [hmark] at h
    | ok mark =>
      simp only [hmark, List.mem_append] at h
      rcases h with h | h
      · exact hbody single h target htarget
      · cases abandoned with
        | true => cases h
        | false =>
          obtain rfl := List.mem_singleton.1 h
          obtain rfl := Option.some.inj htarget
          exact hs.checkpoint hmark

/-- The single calls of a run roll back to genuine checkpoints, if those it was given are
genuine. -/
theorem genuine_of_mem_unrollAll (s : System) (hs : s.ArenasGenuine) :
    ∀ actions : List Action, (∀ given ∈ Action.runTargets actions, given.Genuine) →
      ∀ single ∈ s.unrollAll actions, ∀ target, single.target? = some target → target.Genuine
  | [], _, single, h, _, _ => by cases h
  | action :: rest, hgiven, single, h, target, htarget => by
    have hfirst := s.genuine_of_mem_unroll hs action fun given hmem =>
      hgiven given (List.mem_append_left _ hmem)
    have hafter : (s.act action).2.ArenasGenuine := by
      rw [snd_act]
      apply hs.performAll ?_ hfirst
      intro call hcall
      exact isSingle_of_mem_unroll s action hcall
    have hlater := (s.act action).2.genuine_of_mem_unrollAll hafter rest fun given hmem =>
      hgiven given (List.mem_append_right _ hmem)
    rw [unrollAll, List.mem_append] at h
    rcases h with h | h
    · exact hfirst single h target htarget
    · exact hlater single h target htarget

end

end System

end Allotment

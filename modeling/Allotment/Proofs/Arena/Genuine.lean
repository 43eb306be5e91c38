import Allotment.Proofs.Arena.Checkpoints

set_option autoImplicit false

/-!
Holders do not make up arenas, checkpoints and regions. An arena is genuine if it was made
on a buffer and has rolled back to genuine checkpoints only; it hands out genuine
checkpoints and regions, and a genuine arena is sound. The end of a genuine region is
its start and its length added up, also for an arena that did not make it.
-/

namespace Allotment

/-- An arena that was made on a buffer and has worked since then. -/
inductive Arena.Genuine : Arena → Prop
  | worked {bytes : Bytes} {capacity : UInt64} {start : Arena} (moves : List ArenaMove)
    (hmade : Arena.ofBytes bytes capacity = .ok start)
    (htargets : ∀ target, .restore target ∈ moves → target.Genuine) :
    Genuine (start.moveAll moves)

/-- A region that some arena handed out: it is where a request to a genuine arena is
served. -/
inductive Region.Genuine : Region → Prop
  | granted {arena : Arena} {size : UInt64} {region : Region} (harena : arena.Genuine)
    (hplace : arena.place size = .ok region) : Genuine region

/-- The call of an arena program that makes a move. -/
def ArenaMove.toArenaCall : ArenaMove → ArenaCall
  | .alloc size => .alloc size
  | .restore target => .restore target
  | .write region edit => .write region edit

/-- Moves that are asked for one by one, as calls, are made as they are. -/
theorem Metered.snd_performAll_toArenaCall (m : Metered Arena) (moves : List ArenaMove) :
    (m.performAll (moves.map ArenaMove.toArenaCall)).2 = m.moveAll moves := by
  induction moves generalizing m with
  | nil => rfl
  | cons step rest ih =>
    have hstep : (m.perform step.toArenaCall).2 = m.move step := by
      cases step <;> rfl
    show ((m.perform step.toArenaCall).2.performAll (rest.map ArenaMove.toArenaCall)).2 = _
    rw [hstep, ih]
    rfl

/-- The checkpoints that such calls ask for are those of the rollbacks among the moves. -/
theorem ArenaCall.mem_programTargets_toArenaCall {moves : List ArenaMove} {target : Checkpoint}
    (h : target ∈ ArenaCall.programTargets (moves.map ArenaMove.toArenaCall)) :
    .restore target ∈ moves := by
  induction moves with
  | nil => cases h
  | cons step rest ih =>
    rw [List.map_cons, programTargets, List.mem_append] at h
    rcases h with h | h
    · cases step with
      | restore given =>
        obtain rfl := List.mem_singleton.1 h
        exact List.mem_cons_self
      | alloc size => cases h
      | write region edit => cases h
    · exact List.mem_cons_of_mem _ (ih h)

namespace Arena.Genuine

variable {arena : Arena}

/-- A new arena is genuine. -/
theorem made {bytes : Bytes} {capacity : UInt64} (h : ofBytes bytes capacity = .ok arena) :
    arena.Genuine :=
  .worked [] h fun _ hmem => absurd hmem List.not_mem_nil

/-- A genuine arena stays genuine over moves whose rollbacks go to genuine checkpoints. -/
theorem moveAll (h : arena.Genuine) {moves : List ArenaMove}
    (htargets : ∀ target, .restore target ∈ moves → target.Genuine) :
    (arena.moveAll moves).Genuine := by
  obtain ⟨before, hmade, hbefore⟩ := h
  rw [← moveAll_append]
  apply worked (before ++ moves) hmade
  intro target hmem
  rcases List.mem_append.1 hmem with hmem | hmem
  · exact hbefore target hmem
  · exact htargets target hmem

/-- A checkpoint that is taken of a genuine arena is genuine. -/
theorem checkpoint (h : arena.Genuine) : arena.checkpoint.Genuine := by
  obtain ⟨moves, hmade, htargets⟩ := h
  have htaken : Checkpoint.Genuine _ :=
    .taken {} (moves.map ArenaMove.toArenaCall) hmade fun target hmem =>
      htargets target (ArenaCall.mem_programTargets_toArenaCall hmem)
  rwa [Metered.snd_performAll_toArenaCall, Metered.subject_moveAll] at htaken

/-- A genuine arena is sound. -/
theorem sound (h : arena.Genuine) : arena.Sound := by
  obtain ⟨moves, hmade, htargets⟩ := h
  exact (sound_of_ofBytes hmade).moveAll fun target hmem => (htargets target hmem).dvd

end Arena.Genuine

/-- A reset rolls back to a checkpoint that every arena could have handed out at first. -/
theorem Checkpoint.genuine_zero : Checkpoint.Genuine { offset := 0 } := by
  have hmade : Arena.ofBytes #[] 0 = .ok { bytes := #[], capacity := 0 } := rfl
  exact (Arena.Genuine.made hmade).checkpoint

/-- The end of a genuine region is the exact sum of its offset and its length. -/
theorem Region.Genuine.toNat_stop {region : Region} (h : region.Genuine) :
    region.stop.toNat = region.offset.toNat + region.length.toNat := by
  obtain ⟨harena, hplace⟩ := h
  obtain ⟨hoffset, -, hstop, -⟩ := Arena.place_eq_ok hplace
  rw [hoffset]
  exact hstop

/-- The end of a genuine region lies in the word range. -/
theorem Region.Genuine.stop?_eq {region : Region} (h : region.Genuine) :
    region.stop? = .ok region.stop := by
  have hexact := h.toNat_stop
  have hlt := region.stop.toNat_lt
  have hsize : UInt64.size = 2 ^ 64 := rfl
  cases hsum : Word.sum? region.offset region.length with
  | none =>
    have hover := (Word.sum?_eq_none_iff _ _).1 hsum
    omega
  | some stop =>
    have hstop : stop = region.stop := by
      apply UInt64.toNat_inj.1
      rw [Word.toNat_of_sum?_eq_some hsum, hexact]
    rw [Region.stop?, hsum, hstop]

end Allotment

import Allotment.Proofs.Arena.Moves

set_option autoImplicit false

/-!
A checkpoint is handed out by an arena and by nothing else, but it may be used on
any arena and at any later time. Since an arena that rolls back to aligned
offsets only stays aligned itself, every checkpoint there can be is aligned, and
so is every offset that a program reaches with such checkpoints.
-/

namespace Allotment

mutual

/-- The checkpoints that a call rolls back to, those inside a scope included. -/
def ArenaCall.targets : ArenaCall → List Checkpoint
  | .restore target => [target]
  | .scope body _ => ArenaCall.programTargets body
  | _ => []

/-- The checkpoints that a program rolls back to. -/
def ArenaCall.programTargets : List ArenaCall → List Checkpoint
  | [] => []
  | call :: rest => call.targets ++ ArenaCall.programTargets rest

end

/-- A checkpoint that some arena handed out: one that was made on a buffer and
has worked since then, rolling back to checkpoints that arenas handed out. -/
inductive Checkpoint.Genuine : Checkpoint → Prop
  | taken {bytes : Bytes} {capacity : UInt64} {arena : Arena} (counters : Counters)
    (calls : List ArenaCall) (hmade : Arena.ofBytes bytes capacity = .ok arena)
    (htargets : ∀ target ∈ ArenaCall.programTargets calls, target.Genuine) :
    Genuine (Metered.performAll { subject := arena, counters } calls).2.subject.checkpoint

namespace Arena

/-- An arena stays sound over moves whose rollbacks go to aligned places. -/
theorem Sound.moveAll {arena : Arena} (hsound : arena.Sound) {moves : List ArenaMove}
    (haligned : ∀ target, .restore target ∈ moves → 8 ∣ target.offset.toNat) :
    (arena.moveAll moves).Sound := by
  induction moves generalizing arena with
  | nil => exact hsound
  | cons step rest ih =>
    have hstep : (arena.move step).Sound := by
      apply hsound.move step
      intro target h
      exact haligned target (h ▸ List.mem_cons_self)
    apply ih hstep
    intro target h
    exact haligned target (List.mem_cons_of_mem _ h)

end Arena

namespace Metered

variable {m : Metered Arena}

/-- A replay rolls back to the start only. -/
theorem offset_of_mem_replayMoves {sizes : List UInt64} {target : Checkpoint}
    (h : .restore target ∈ m.replayMoves sizes) : target.offset = 0 := by
  induction sizes generalizing m with
  | nil => cases h
  | cons size rest ih =>
    unfold replayMoves at h
    split at h
    · simp only [List.mem_cons, reduceCtorEq, false_or] at h
      exact ih h
    · simp only [List.mem_cons, reduceCtorEq, ArenaMove.restore.injEq, false_or] at h
      rcases h with rfl | h
      · rfl
      · exact ih h

mutual

/-- On a sound arena a call rolls back to aligned offsets only. -/
theorem dvd_of_mem_moves (m : Metered Arena) (hsound : m.subject.Sound) :
    ∀ call : ArenaCall, (∀ target ∈ call.targets, 8 ∣ target.offset.toNat) →
      ∀ target, .restore target ∈ m.moves call → 8 ∣ target.offset.toNat
  | .alloc _, _, _, hmem => by simp [moves] at hmem
  | .checkpoint, _, _, hmem => by simp [moves] at hmem
  | .restore given, htargets, target, hmem => by
    obtain rfl : target = given := by simpa [moves] using hmem
    exact htargets target (by simp [ArenaCall.targets])
  | .reset, _, target, hmem => by
    obtain rfl : target = { offset := 0 } := by simpa [moves] using hmem
    exact Nat.dvd_zero 8
  | .read _, _, _, hmem => by simp [moves] at hmem
  | .write _ _, _, _, hmem => by simp [moves] at hmem
  | .replay sizes, _, target, hmem => by
    rw [offset_of_mem_replayMoves hmem]
    exact Nat.dvd_zero 8
  | .scope body abandoned, htargets, target, hmem => by
    rw [moves, List.mem_append] at hmem
    rcases hmem with hmem | hmem
    · exact m.dvd_of_mem_programMoves hsound body htargets target hmem
    · cases abandoned with
      | true => cases hmem
      | false =>
        obtain rfl : target = m.subject.checkpoint := by simpa using hmem
        exact hsound.aligned

/-- The moves of a program on a sound arena roll back to aligned places, if the checkpoints that
it was given are aligned. -/
theorem dvd_of_mem_programMoves (m : Metered Arena) (hsound : m.subject.Sound) :
    ∀ calls : List ArenaCall,
      (∀ target ∈ ArenaCall.programTargets calls, 8 ∣ target.offset.toNat) →
      ∀ target, .restore target ∈ m.programMoves calls → 8 ∣ target.offset.toNat
  | [], _, _, hmem => by cases hmem
  | call :: rest, htargets, target, hmem => by
    have hcall : ∀ target, .restore target ∈ m.moves call → 8 ∣ target.offset.toNat := by
      apply m.dvd_of_mem_moves hsound call
      intro other h
      exact htargets other (List.mem_append_left _ h)
    have hlater : ∀ target ∈ ArenaCall.programTargets rest, 8 ∣ target.offset.toNat := by
      intro other h
      exact htargets other (List.mem_append_right _ h)
    rw [programMoves, List.mem_append] at hmem
    rcases hmem with hmem | hmem
    · exact hcall target hmem
    · have hafter : (m.perform call).2.subject.Sound := by
        rw [perform_eq_moveAll, subject_moveAll]
        exact hsound.moveAll hcall
      exact (m.perform call).2.dvd_of_mem_programMoves hafter rest hlater target hmem

end

end Metered

/-- A genuine checkpoint is aligned. -/
theorem Checkpoint.Genuine.dvd {checkpoint : Checkpoint} (h : checkpoint.Genuine) :
    8 ∣ checkpoint.offset.toNat := by
  induction h with
  | @taken bytes capacity arena counters calls hmade htargets ih =>
    have hsound := Arena.sound_of_ofBytes hmade
    have hmoves := Metered.dvd_of_mem_programMoves { subject := arena, counters } hsound calls ih
    have hafter := hsound.moveAll hmoves
    show 8 ∣ (Metered.performAll { subject := arena, counters } calls).2.subject.offset.toNat
    rw [Metered.performAll_eq_moveAll, Metered.subject_moveAll]
    exact hafter.aligned

end Allotment

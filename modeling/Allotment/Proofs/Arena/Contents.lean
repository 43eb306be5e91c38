import Allotment.Proofs.Arena.Isolation

set_option autoImplicit false

/-!
What every byte of a buffer is after a run of its arena. Only two things change a byte: a
grant that covers it makes it zero, and a write that reaches it may put a byte there. Since
a region is reached only as far as the buffer was granted before, a byte that no grant
covered is never written either, and it is what it was when the buffer was lent.
-/

namespace Allotment

/-- The byte that an edit puts at a place, if it puts one there. -/
def Edit.stored? (edit : Edit) (place : ℕ) : Option UInt8 :=
  if edit.start ≤ place ∧ place < edit.start + edit.run.length then
    edit.run[place - edit.start]?
  else edit.fill

/-- Whether a byte of a buffer lies in a region. -/
def Region.Covers (region : Region) (i : ℕ) : Prop :=
  region.offset.toNat ≤ i ∧ i < region.stop.toNat

instance (region : Region) (i : ℕ) : Decidable (region.Covers i) :=
  inferInstanceAs (Decidable (_ ∧ _))

namespace Moment

/-- The move is a grant that covers a byte. -/
def Clears (moment : Moment) (i : ℕ) : Prop :=
  ∃ size region, moment.Grants size region ∧ region.Covers i

/-- The region that the move grants, if it is a grant. -/
def granted? (moment : Moment) : Option Region :=
  match moment.step with
  | .alloc size => (moment.before.place size).toOption
  | _ => none

/-- A moment has a granted region if the move at this moment is a request that is served there.
-/
theorem granted?_eq_some_iff (moment : Moment) (region : Region) :
    moment.granted? = some region ↔ ∃ size, moment.Grants size region := by
  obtain ⟨step, before, after⟩ := moment
  cases step with
  | alloc size =>
    cases hplace : before.place size <;> simp [granted?, Grants, hplace, Except.toOption]
  | restore target => simp [granted?, Grants]
  | write region edit => simp [granted?, Grants]

/-- A moment clears a byte if it grants a region that covers it. -/
theorem clears_iff (moment : Moment) (i : ℕ) :
    moment.Clears i ↔ moment.granted?.any (fun region => decide (region.Covers i)) = true := by
  simp only [Clears, Option.any_eq_true, granted?_eq_some_iff, decide_eq_true_eq]
  exact ⟨fun ⟨size, region, hgrants, hcovers⟩ => ⟨region, ⟨size, hgrants⟩, hcovers⟩,
    fun ⟨region, ⟨size, hgrants⟩, hcovers⟩ => ⟨size, region, hgrants, hcovers⟩⟩

instance (moment : Moment) (i : ℕ) : Decidable (moment.Clears i) :=
  decidable_of_iff _ (moment.clears_iff i).symm

/-- What the move puts in the place of a byte, if it is a write that takes place and puts
something there. -/
def stored? (moment : Moment) (i : ℕ) : Option UInt8 :=
  match moment.step with
  | .write region edit =>
    if region.stop.toNat ≤ moment.before.used.toNat ∧ region.Covers i then
      edit.stored? (i - region.offset.toNat)
    else none
  | _ => none

end Moment

/-- What a byte is after a run of moments, and why: what it was, if no grant covered it, and
else what was stored there last since the last grant that covered it, or zero. -/
structure LastWritten (moments : List Moment) (i : ℕ) (was now : Option UInt8) : Prop where
  untouched : (∀ moment ∈ moments, ¬ moment.Clears i) → now = was
  cleared : ∀ earlier grant later, moments = earlier ++ grant :: later → grant.Clears i →
    (∀ moment ∈ later, ¬ moment.Clears i) → (∀ moment ∈ later, moment.stored? i = none) →
    now = some 0
  stored : ∀ earlier grant between writer later byte,
    moments = earlier ++ grant :: (between ++ writer :: later) → grant.Clears i →
    (∀ moment ∈ between ++ writer :: later, ¬ moment.Clears i) →
    writer.stored? i = some byte → (∀ moment ∈ later, moment.stored? i = none) →
    now = some byte

/-- A byte after an edit is the one that the edit stored there, or else the old one. -/
theorem Edit.getElem?_apply (edit : Edit) {bytes : Bytes} {place : ℕ} (h : place < bytes.size) :
    (edit.apply bytes)[place]? = (edit.stored? place).or bytes[place]? := by
  have hfilled :
      ((edit.fill.elim bytes fun byte => Array.replicate bytes.size byte) : Bytes)[place]? =
        edit.fill.or bytes[place]? := by
    cases edit.fill with
    | none => rfl
    | some byte => simp [h]
  have hsize : (edit.fill.elim bytes fun byte => Array.replicate bytes.size byte).size =
      bytes.size := by
    cases edit.fill <;> simp
  unfold apply stored?
  simp only [Bytes.getElem?_overlay, hsize, h, and_true, hfilled]
  split
  · rename_i hin
    rw [List.getElem?_eq_getElem (by omega)]
    rfl
  · rfl

namespace Arena

variable {arena : Arena} {step : ArenaMove} {i : ℕ}

/-- A grant that covers a byte makes it zero. -/
theorem Bounded.getElem?_of_clears (hbounded : arena.Bounded)
    (h : Moment.Clears ⟨step, arena, arena.move step⟩ i) :
    (arena.move step).bytes[i]? = some 0 := by
  obtain ⟨size, region, ⟨hstep, hplace⟩, hstart, hend⟩ := h
  simp only at hstep hplace
  obtain ⟨hoffset, -, hstop, hcap⟩ := place_eq_ok hplace
  have hmove : arena.move step = arena.grant region := by
    simp only [hstep, Arena.move, hplace]
  have hbacked := hbounded.backed
  have hlength : (Bytes.zeros region.length.toNat).length = region.length.toNat :=
    List.length_replicate
  rw [← hoffset] at hstop
  rw [hmove, grant, Bytes.getElem?_overlay, if_pos (by omega), Bytes.zeros,
    List.getElem?_replicate, if_pos (by omega)]

/-- A move that does not clear a byte leaves it as it was or as it was stored. -/
theorem Bounded.getElem?_move (hbounded : arena.Bounded)
    (h : ¬ Moment.Clears ⟨step, arena, arena.move step⟩ i) :
    (arena.move step).bytes[i]? =
      (Moment.stored? ⟨step, arena, arena.move step⟩ i).or arena.bytes[i]? := by
  have hmoved := arena.moved step
  generalize arena.announced step = events, arena.move step = after at hmoved h ⊢
  cases hmoved with
  | @granted size region hplace =>
    have hbeside : i < region.offset.toNat ∨ region.stop.toNat ≤ i := by
      by_contra hin
      exact h ⟨size, region, ⟨rfl, hplace⟩, by omega, by omega⟩
    obtain ⟨hoffset, -, hstop, -⟩ := place_eq_ok hplace
    rw [← hoffset] at hstop
    apply Bytes.getElem?_overlay_of_outside
    rw [Bytes.zeros, List.length_replicate]
    omega
  | @written region edit hle =>
    have hin := hbounded.stop_le hle
    have hsize := arena.size_slice region
    rw [Nat.min_eq_left hin] at hsize
    simp only [Moment.stored?, used, hle, true_and, store, Bytes.getElem?_overlay,
      Array.length_toList, Edit.size_apply, hsize]
    split
    · rename_i hwithin
      have hcovers : region.Covers i := ⟨hwithin.1, by omega⟩
      have hback : region.offset.toNat + (i - region.offset.toNat) = i := by omega
      rw [if_pos hcovers, Array.getElem?_toList, edit.getElem?_apply (by omega),
        arena.getElem?_slice (by omega), hback]
    · rename_i hbeside
      have hmissed : ¬ region.Covers i := by
        rintro ⟨hstart, hend⟩
        omega
      rw [if_neg hmissed]
      rfl
  | @missed region edit hlt =>
    simp only [Moment.stored?, used, Nat.not_le_of_lt hlt, false_and, if_false]
    rfl
  | refused | rolled | ignored => rfl

/-- The moments of a run before, at and after one of them. -/
theorem history_split {moves : List ArenaMove} {earlier later : List Moment} {moment : Moment}
    (h : arena.history moves = earlier ++ moment :: later) :
    ∃ first rest, moves = first ++ moment.step :: rest ∧ earlier = arena.history first ∧
      moment = ⟨moment.step, arena.moveAll first, (arena.moveAll first).move moment.step⟩ ∧
      later = moment.after.history rest := by
  induction earlier generalizing arena moves with
  | nil =>
    cases moves with
    | nil => cases h
    | cons step rest =>
      obtain ⟨rfl, rfl⟩ := List.cons.inj h
      exact ⟨[], rest, rfl, rfl, rfl, rfl⟩
  | cons first before ih =>
    cases moves with
    | nil => cases h
    | cons step rest =>
      obtain ⟨rfl, htail⟩ := List.cons.inj h
      obtain ⟨taken, last, rfl, rfl, hmoment, hlater⟩ := ih htail
      exact ⟨step :: taken, last, rfl, rfl, hmoment, hlater⟩

/-- A byte that no moment of a run clears or stores is what it was. -/
theorem Bounded.getElem?_moveAll (hbounded : arena.Bounded) {moves : List ArenaMove}
    (hclears : ∀ moment ∈ arena.history moves, ¬ moment.Clears i)
    (hstored : ∀ moment ∈ arena.history moves, moment.stored? i = none) :
    (arena.moveAll moves).bytes[i]? = arena.bytes[i]? := by
  induction moves generalizing arena with
  | nil => rfl
  | cons step rest ih =>
    obtain ⟨hclear, hclears⟩ := List.forall_mem_cons.1 hclears
    obtain ⟨hstore, hstored⟩ := List.forall_mem_cons.1 hstored
    have hstep := hbounded.getElem?_move hclear
    rw [hstore, Option.none_or] at hstep
    exact (ih (hbounded.move step) hclears hstored).trans hstep

/-- Whatever is granted beyond what was granted at first, some moment cleared. -/
theorem cleared_of_lt_used {moves : List ArenaMove} (h : i < (arena.moveAll moves).used.toNat) :
    i < arena.used.toNat ∨ ∃ moment ∈ arena.history moves, moment.Clears i := by
  induction moves generalizing arena with
  | nil => exact .inl h
  | cons step rest ih =>
    rcases ih h with hnext | ⟨moment, hmem, hclears⟩
    · have hmoved := arena.moved step
      by_cases hold : i < arena.used.toNat
      · exact .inl hold
      · right
        refine ⟨_, List.mem_cons_self, ?_⟩
        generalize arena.announced step = events, arena.move step = after at hmoved hnext ⊢
        cases hmoved with
        | @granted size region hplace =>
          obtain ⟨hoffset, -⟩ := place_eq_ok hplace
          have hstart : region.offset.toNat ≤ i := by
            rw [hoffset]
            exact Nat.le_of_not_lt hold
          exact ⟨size, region, ⟨rfl, hplace⟩, hstart, hnext⟩
        | rolled hle => exact absurd (hnext.trans_le hle) hold
        | refused | ignored | written | missed => exact absurd hnext hold
    · exact .inr ⟨moment, List.mem_cons_of_mem _ hmem, hclears⟩

/-- In a run of an arena with nothing granted at first, a byte that is stored was cleared
before. -/
theorem cleared_of_stored {moves : List ArenaMove} (hempty : arena.offset = 0)
    {moment : Moment} {byte : UInt8} (hmem : moment ∈ arena.history moves)
    (hstored : moment.stored? i = some byte) :
    ∃ moment ∈ arena.history moves, moment.Clears i := by
  obtain ⟨earlier, later, hsplit⟩ := List.append_of_mem hmem
  obtain ⟨first, rest, -, rfl, hmoment, -⟩ := history_split hsplit
  have hreach : i < (arena.moveAll first).used.toNat := by
    rw [hmoment] at hstored
    unfold Moment.stored? at hstored
    split at hstored
    · split at hstored
      · rename_i hwithin
        exact hwithin.2.2.trans_le hwithin.1
      · cases hstored
    · cases hstored
  rcases cleared_of_lt_used hreach with hgranted | ⟨grant, hgrant, hclears⟩
  · have hzero : arena.used.toNat = 0 := congrArg UInt64.toNat hempty
    omega
  · rw [hsplit]
    exact ⟨grant, List.mem_append_left _ hgrant, hclears⟩

/-- Every byte of a buffer on which an arena has worked is explained by its last writer. -/
theorem Bounded.lastWritten (hbounded : arena.Bounded) (hempty : arena.offset = 0)
    (moves : List ArenaMove) (i : ℕ) :
    LastWritten (arena.history moves) i arena.bytes[i]? (arena.moveAll moves).bytes[i]? where
  untouched hclears := by
    apply hbounded.getElem?_moveAll hclears
    intro moment hmem
    cases hstored : moment.stored? i with
    | none => rfl
    | some byte =>
      obtain ⟨grant, hgrant, hcovers⟩ := cleared_of_stored hempty hmem hstored
      exact absurd hcovers (hclears grant hgrant)
  cleared earlier grant later hsplit hgrant hclears hstored := by
    obtain ⟨first, rest, rfl, -, hmoment, rfl⟩ := history_split hsplit
    have hbefore := hbounded.moveAll first
    rw [hmoment] at hgrant
    have hzero := hbefore.getElem?_of_clears hgrant
    rw [hmoment] at hclears hstored
    rw [moveAll_append]
    exact ((hbefore.move _).getElem?_moveAll hclears hstored).trans hzero
  stored earlier grant between writer later byte hsplit hgrant hclears hwriter hstored := by
    rw [← List.cons_append, ← List.append_assoc] at hsplit
    obtain ⟨first, rest, rfl, -, hmoment, rfl⟩ := history_split hsplit
    have hbefore := hbounded.moveAll first
    have hnot := hclears writer (List.mem_append_right _ List.mem_cons_self)
    rw [hmoment] at hwriter hnot
    have hbyte := hbefore.getElem?_move hnot
    rw [hwriter, Option.some_or] at hbyte
    have hlater : ∀ moment ∈ writer.after.history rest, ¬ moment.Clears i := by
      intro moment hmem
      exact hclears moment (List.mem_append_right _ (List.mem_cons_of_mem _ hmem))
    rw [hmoment] at hlater hstored
    rw [moveAll_append]
    exact ((hbefore.move _).getElem?_moveAll hlater hstored).trans hbyte

end Arena

end Allotment

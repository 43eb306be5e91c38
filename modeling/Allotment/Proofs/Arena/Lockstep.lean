import Allotment.Proofs.Arena.Moves

set_option autoImplicit false

/-!
Two arenas with the same granted bytes, whatever lies beyond these and whatever their capacities
are. As long as they serve the same requests, a program moves them in lockstep: it makes the
same moves of both, gets the same replies up to what refusals tell, has them announce the same
events, and leaves them with the same granted bytes. A grant clears what it exposes, so nothing
of what lies beyond shows.
-/

namespace Allotment

/-- Two answers to a request that come to the same: one region, or two refusals of which
something holds. -/
inductive Answered (P : AllocationFailure → AllocationFailure → Prop) :
    Except AllocationFailure Region → Except AllocationFailure Region → Prop
  | served (region : Region) : Answered P (.ok region) (.ok region)
  | refused {failure failure' : AllocationFailure} (h : P failure failure') :
    Answered P (.error failure) (.error failure')

mutual

/-- Two replies that are the same but for refusals in the same places, of which something
holds. -/
def ArenaReply.Agrees (P : AllocationFailure → AllocationFailure → Prop) :
    ArenaReply → ArenaReply → Prop
  | .refused failure, .refused failure' => P failure failure'
  | .scope inner, .scope inner' => ArenaReply.AllAgree P inner inner'
  | reply, reply' => reply = reply'

def ArenaReply.AllAgree (P : AllocationFailure → AllocationFailure → Prop) :
    List ArenaReply → List ArenaReply → Prop
  | [], [] => True
  | reply :: rest, reply' :: rest' => reply.Agrees P reply' ∧ ArenaReply.AllAgree P rest rest'
  | _, _ => False

end

namespace ArenaReply

variable {P : AllocationFailure → AllocationFailure → Prop}

mutual

/-- Replies are the same if their refusals are. -/
theorem Agrees.eq (hP : ∀ {failure failure'}, P failure failure' → failure = failure') :
    ∀ {reply reply' : ArenaReply}, reply.Agrees P reply' → reply = reply'
  | .refused _, .refused _, h => by rw [hP h]
  | .scope _, .scope _, h => by rw [AllAgree.eq hP h]
  | .granted _, _, h => h
  | .marked _, _, h => h
  | .done, _, h => h
  | .bytes _, _, h => h
  | .replayed _, _, h => h

/-- Replies that agree are the same if refusals in the same places are. -/
theorem AllAgree.eq (hP : ∀ {failure failure'}, P failure failure' → failure = failure') :
    ∀ {replies replies' : List ArenaReply}, AllAgree P replies replies' → replies = replies'
  | [], [], _ => rfl
  | _ :: _, _ :: _, h => by rw [h.1.eq hP, AllAgree.eq hP h.2]

end

end ArenaReply

namespace Arena

variable {P : AllocationFailure → AllocationFailure → Prop} {a b : Arena}

/-- Two arenas with the same granted bytes. -/
structure SameGrants (a b : Arena) : Prop where
  used : a.used = b.used
  bytes : ∀ i, i < a.used.toNat → a.bytes[i]? = b.bytes[i]?

/-- Two arenas that make the same moves and answer every request among them to the same
effect. -/
def InStep (P : AllocationFailure → AllocationFailure → Prop) :
    Arena → Arena → List ArenaMove → Prop
  | _, _, [] => True
  | a, b, step :: rest =>
    (∀ size, step = .alloc size → Answered P (a.place size) (b.place size)) ∧
      InStep P (a.move step) (b.move step) rest

/-- Arenas are in step over moves and more moves if they are so over the first ones, and from
there over the others. -/
theorem inStep_append {first second : List ArenaMove} :
    InStep P a b (first ++ second) ↔
      InStep P a b first ∧ InStep P (a.moveAll first) (b.moveAll first) second := by
  induction first generalizing a b with
  | nil => exact (and_iff_right trivial).symm
  | cons step rest ih =>
    rw [List.cons_append, InStep, InStep, ih, and_assoc]
    rfl

namespace SameGrants

/-- Arenas with the same grants stand at the same checkpoint. -/
theorem checkpoint_eq (h : a.SameGrants b) : a.checkpoint = b.checkpoint :=
  congrArg Checkpoint.mk h.used

/-- Arenas with the same grants hold the same bytes in every region that ends within these. -/
theorem slice_eq (h : a.SameGrants b) {region : Region}
    (hreach : region.stop.toNat ≤ a.used.toNat) : a.slice region = b.slice region := by
  apply Array.ext_getElem?
  intro i
  unfold slice
  rw [Array.getElem?_extract, Array.getElem?_extract]
  by_cases hi : region.offset.toNat + i < region.stop.toNat
  · have hbyte := h.bytes (region.offset.toNat + i) (by omega)
    have hsize : region.offset.toNat + i < a.bytes.size ↔
        region.offset.toNat + i < b.bytes.size := by
      rw [← not_iff_not, Nat.not_lt, Nat.not_lt, ← Array.getElem?_eq_none_iff, hbyte,
        Array.getElem?_eq_none_iff]
    rw [hbyte]
    exact ite_congr (propext (by omega)) (fun _ => rfl) fun _ => rfl
  · rw [if_neg (by omega), if_neg (by omega)]

/-- Arenas with the same grants show the same for every region. -/
theorem read?_eq (h : a.SameGrants b) (region : Region) : a.read? region = b.read? region := by
  have hreach : a.reaches region = b.reaches region := by
    unfold reaches
    rw [show a.offset = b.offset from h.used]
  unfold read?
  rw [← hreach]
  split <;> rename_i hyes
  · rw [h.slice_eq ((a.reaches_iff region).1 hyes)]
  · rfl

/-- Two arenas that grant the same region have the same granted bytes after it. -/
theorem grant (h : a.SameGrants b) (ha : a.Bounded) (hb : b.Bounded) {size : UInt64}
    {region : Region} (hplace : a.place size = .ok region) (hplace' : b.place size = .ok region) :
    (a.grant region).SameGrants (b.grant region) := by
  obtain ⟨hoffset, -, hstop, hcap⟩ := place_eq_ok hplace
  obtain ⟨-, -, -, hcap'⟩ := place_eq_ok hplace'
  -- before the region the bytes are those of before, in it the grant clears them
  refine ⟨rfl, ?_⟩
  intro i hi
  have hleft := ha.backed
  have hright := hb.backed
  replace hi : i < region.stop.toNat := hi
  have hstart : region.offset.toNat = a.used.toNat := congrArg UInt64.toNat hoffset
  have hend : region.stop.toNat = a.used.toNat + region.length.toNat := hstop
  have hlength : (Bytes.zeros region.length.toNat).length = region.length.toNat :=
    List.length_replicate
  simp only [Arena.grant, Bytes.getElem?_overlay, hlength, hstart]
  by_cases hnew : a.used.toNat ≤ i
  · rw [if_pos (by omega), if_pos (by omega)]
  · rw [if_neg (by omega), if_neg (by omega)]
    exact h.bytes i (Nat.lt_of_not_le hnew)

/-- The same bytes that are stored in both arenas leave them with the same grants. -/
theorem store (h : a.SameGrants b) (ha : a.Bounded) (hb : b.Bounded) (region : Region)
    (bytes : Bytes) : (a.store region bytes).SameGrants (b.store region bytes) := by
  refine ⟨h.used, ?_⟩
  intro i hi
  replace hi : i < a.used.toNat := hi
  have hleft : i < a.bytes.size := hi.trans_le (ha.fits.trans ha.backed)
  have hright : i < b.bytes.size := by
    rw [h.used] at hi
    exact hi.trans_le (hb.fits.trans hb.backed)
  simp only [Arena.store, Bytes.getElem?_overlay, hleft, hright, h.bytes i hi]

/-- A move leaves the granted bytes of two arenas the same and announces the same of both, if
they answer it to the same effect. -/
theorem move (h : a.SameGrants b) (ha : a.Bounded) (hb : b.Bounded) {step : ArenaMove}
    (hstep : ∀ size, step = .alloc size → Answered P (a.place size) (b.place size)) :
    (a.move step).SameGrants (b.move step) ∧ a.announced step = b.announced step := by
  cases step with
  | alloc size =>
    have hanswered := hstep size rfl
    rcases hplace : a.place size with failure | region <;>
      rcases hplace' : b.place size with failure' | region' <;>
      rw [hplace, hplace'] at hanswered <;> cases hanswered <;>
      simp only [Arena.move, announced, hplace, hplace']
    · exact ⟨h, trivial⟩
    · exact ⟨h.grant ha hb hplace hplace', trivial⟩
  | restore target =>
    have hoffset : b.offset = a.offset := h.used.symm
    by_cases hle : target.offset ≤ a.offset
    · simp only [Arena.move, announced, restore?, hoffset, hle, if_true, Option.elim_some]
      refine ⟨⟨rfl, ?_⟩, trivial⟩
      intro i hi
      exact h.bytes i (Nat.lt_of_lt_of_le hi (UInt64.le_iff_toNat_le.1 hle))
    · simp only [Arena.move, announced, restore?, hoffset, hle, if_false, Option.elim_none]
      exact ⟨h, trivial⟩
  | write region edit =>
    have hread := h.read?_eq region
    cases hbytes : a.read? region with
    | none =>
      simp only [Arena.move, announced, ← hread, hbytes, Option.elim_none]
      exact ⟨h, trivial⟩
    | some bytes =>
      simp only [Arena.move, announced, ← hread, hbytes, Option.elim_some]
      exact ⟨h.store ha hb region _, trivial⟩

/-- Arenas with the same grants keep them over moves in step, and announce the same events. -/
theorem moveAll (h : a.SameGrants b) (ha : a.Bounded) (hb : b.Bounded) {moves : List ArenaMove}
    (hsteps : InStep P a b moves) :
    (a.moveAll moves).SameGrants (b.moveAll moves) ∧
      a.announcedAll moves = b.announcedAll moves := by
  induction moves generalizing a b with
  | nil => exact ⟨h, rfl⟩
  | cons step rest ih =>
    obtain ⟨hmove, hevents⟩ := h.move ha hb hsteps.1
    obtain ⟨hrest, hlater⟩ := ih hmove (ha.move step) (hb.move step) hsteps.2
    refine ⟨hrest, ?_⟩
    rw [announcedAll, announcedAll, hevents, hlater]

end SameGrants

end Arena

namespace Metered

variable {P : AllocationFailure → AllocationFailure → Prop} {m n : Metered Arena}

/-- Two metered arenas with the same granted bytes, within their bounds. -/
structure Abreast (m n : Metered Arena) : Prop where
  granted : m.subject.SameGrants n.subject
  left : m.subject.Bounded
  right : n.subject.Bounded

/-- Arenas that are abreast stay so over moves in step. -/
theorem Abreast.moveAll (h : m.Abreast n) {moves : List ArenaMove}
    (hsteps : Arena.InStep P m.subject n.subject moves) :
    (m.moveAll moves).Abreast (n.moveAll moves) := by
  rw [moveAll_eq, moveAll_eq]
  exact ⟨(h.granted.moveAll h.left h.right hsteps).1, h.left.moveAll moves, h.right.moveAll moves⟩

/-- Lockstep over the first part of some moves, and over the rest behind it. -/
theorem Abreast.split (h : m.Abreast n) {first second : List ArenaMove}
    (hsteps : Arena.InStep P m.subject n.subject (first ++ second)) :
    (m.moveAll first).Abreast (n.moveAll first) ∧
      Arena.InStep P (m.moveAll first).subject (n.moveAll first).subject second := by
  obtain ⟨hfirst, hlater⟩ := Arena.inStep_append.1 hsteps
  rw [← subject_moveAll, ← subject_moveAll] at hlater
  exact ⟨h.moveAll hfirst, hlater⟩

/-- What the two places of a request come to is what the two answers to it come to. -/
theorem answered_alloc {size : UInt64}
    (h : Answered P (m.subject.place size) (n.subject.place size)) :
    Answered P (m.alloc size).1 (n.alloc size).1 := by
  rwa [fst_alloc, fst_alloc]

/-- A replay resets both arenas equally often, by the same moves. -/
theorem Abreast.replay (h : m.Abreast n) (sizes : List UInt64)
    (hsteps : Arena.InStep P m.subject n.subject (m.replayMoves sizes)) :
    (m.replay sizes).1 = (n.replay sizes).1 ∧ m.replayMoves sizes = n.replayMoves sizes := by
  induction sizes generalizing m n with
  | nil => exact ⟨rfl, rfl⟩
  | cons size rest ih =>
    rcases hm : m.alloc size with ⟨failure | region, after⟩ <;>
      rcases hn : n.alloc size with ⟨failure' | region', after'⟩ <;>
      rw [replayMoves, hm] at hsteps <;>
      have hanswered := answered_alloc (hsteps.1 size rfl) <;>
      rw [hm, hn] at hanswered <;> cases hanswered
    · have hafter : m.move (.alloc size) = after := congrArg Prod.snd hm
      have hafter' : n.move (.alloc size) = after' := congrArg Prod.snd hn
      obtain ⟨hagain, hlater⟩ := h.split
        (show Arena.InStep P _ _ ([.alloc size, .restore { offset := 0 }, .alloc size] ++ _)
          from hsteps)
      have hleft : m.moveAll [.alloc size, .restore { offset := 0 }, .alloc size] =
          (after.reset.alloc size).2 := by
        rw [← hafter]
        rfl
      have hright : n.moveAll [.alloc size, .restore { offset := 0 }, .alloc size] =
          (after'.reset.alloc size).2 := by
        rw [← hafter']
        rfl
      rw [hleft, hright] at hagain hlater
      obtain ⟨hcount, hmoves⟩ := ih hagain hlater
      simp only [Metered.replay, replayMoves, hm, hn, hcount, hmoves, true_and]
    · obtain ⟨hnext, hlater⟩ := h.split (show Arena.InStep P _ _ ([.alloc size] ++ _) from hsteps)
      have hleft : m.moveAll [.alloc size] = after := congrArg Prod.snd hm
      have hright : n.moveAll [.alloc size] = after' := congrArg Prod.snd hn
      rw [hleft, hright] at hnext hlater
      obtain ⟨hcount, hmoves⟩ := ih hnext hlater
      simp only [Metered.replay, replayMoves, hm, hn, hcount, hmoves, true_and]

mutual

/-- A call gets replies from both arenas that agree, by the same moves. -/
theorem Abreast.perform {m n : Metered Arena} (h : m.Abreast n) :
    ∀ call : ArenaCall, Arena.InStep P m.subject n.subject (m.moves call) →
      (m.perform call).1.Agrees P (n.perform call).1 ∧ m.moves call = n.moves call
  | .alloc size, hsteps => by
    refine ⟨?_, rfl⟩
    have hanswered := answered_alloc (hsteps.1 size rfl)
    show (allocReply (m.alloc size).1).Agrees P (allocReply (n.alloc size).1)
    generalize (m.alloc size).1 = answer at hanswered ⊢
    generalize (n.alloc size).1 = answer' at hanswered ⊢
    cases hanswered with
    | served region => rfl
    | refused hP => exact hP
  | .checkpoint, _ => by
    refine ⟨?_, rfl⟩
    exact congrArg ArenaReply.marked h.granted.checkpoint_eq
  | .restore _, _ => ⟨rfl, rfl⟩
  | .reset, _ => ⟨rfl, rfl⟩
  | .read region, _ => by
    refine ⟨?_, rfl⟩
    show ArenaReply.bytes (m.subject.read? region) = .bytes (n.subject.read? region)
    rw [h.granted.read?_eq]
  | .write region edit, _ => by
    refine ⟨?_, rfl⟩
    show ArenaReply.bytes (m.write region edit).1 = .bytes (n.write region edit).1
    rw [fst_write, fst_write, h.granted.read?_eq]
  | .replay sizes, hsteps => by
    obtain ⟨hcount, hmoves⟩ := h.replay sizes hsteps
    refine ⟨?_, hmoves⟩
    show ArenaReply.replayed (m.replay sizes).1 = .replayed (n.replay sizes).1
    rw [hcount]
  | .scope body abandoned, hsteps => by
    obtain ⟨hinner, hmoves⟩ := h.performAll body (Arena.inStep_append.1 hsteps).1
    refine ⟨hinner, ?_⟩
    simp only [moves, hmoves, h.granted.checkpoint_eq]

/-- A program gets replies that agree from arenas that are abreast, and makes the same moves
with them, if they answer every request among these to the same effect. -/
theorem Abreast.performAll {m n : Metered Arena} (h : m.Abreast n) :
    ∀ calls : List ArenaCall, Arena.InStep P m.subject n.subject (m.programMoves calls) →
      ArenaReply.AllAgree P (m.performAll calls).1 (n.performAll calls).1 ∧
        m.programMoves calls = n.programMoves calls
  | [], _ => ⟨trivial, rfl⟩
  | call :: rest, hsteps => by
    rw [programMoves] at hsteps
    obtain ⟨hreply, hmoves⟩ := h.perform call (Arena.inStep_append.1 hsteps).1
    obtain ⟨hafter, hlater⟩ := h.split hsteps
    rw [← perform_eq_moveAll, hmoves, ← perform_eq_moveAll] at hafter hlater
    obtain ⟨hreplies, hmoves'⟩ := hafter.performAll rest hlater
    refine ⟨⟨hreply, hreplies⟩, ?_⟩
    rw [programMoves, programMoves, hmoves, hmoves']

end

end Metered

end Allotment

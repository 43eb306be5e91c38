import Allotment.Proofs.System.Atomicity
import Allotment.Proofs.System.Log
import Allotment.Proofs.System.Scratch

set_option autoImplicit false

/-!
A batch computes in scratch space of an arena and leaves nothing of it. It tells one rollback,
and adds to the total of its account and maybe to the peak; all else is as before, whether the
batch was served or refused. So no other call of a run can tell whether batches were made
between, as long as the arena they worked in keeps its buffer.
-/

namespace Allotment

open Batch (Tidy)

namespace Call

/-- Whether a call is a batch whose size in bytes is a word and whose samples can be doubled. -/
def isTidyBatch : Call → Bool
  | .sumBatch _ samples => Tidy samples
  | _ => false

/-- A call that leaves the unused bytes of the arenas where scratch work is done to themselves:
tidy batches go to such arenas, and their buffers are not given back. -/
def Respects (scratch : ArenaId → Prop) : Call → Prop
  | .sumBatch id samples => Tidy samples → scratch id
  | .giveBack id => ¬ scratch id
  | _ => True

end Call

namespace Action

mutual

/-- The calls of an action, those inside a scope included. -/
def calls : Action → List Call
  | .call single => [single]
  | .scope _ body _ => allCalls body

def allCalls : List Action → List Call
  | [] => []
  | action :: rest => action.calls ++ allCalls rest

end

mutual

/-- What is left of an action without its tidy batches: nothing of such a batch itself. -/
def unbatched : Action → List Action
  | .call single => if single.isTidyBatch then [] else [.call single]
  | .scope arena body abandoned => [.scope arena (allUnbatched body) abandoned]

def allUnbatched : List Action → List Action
  | [] => []
  | action :: rest => action.unbatched ++ allUnbatched rest

end

mutual

/-- What is left of the reply to an action without the replies to tidy batches. -/
def otherReplies : Action → ActionReply → List ActionReply
  | .call single, reply => if single.isTidyBatch then [] else [reply]
  | .scope _ body _, .scope inner => [.scope (allOtherReplies body inner)]
  | .scope _ _ _, reply => [reply]

def allOtherReplies : List Action → List ActionReply → List ActionReply
  | action :: rest, reply :: replies =>
    action.otherReplies reply ++ allOtherReplies rest replies
  | _, _ => []

end

end Action

namespace Counters

/-- Scratch space that is granted and reclaimed leaves the bytes in use, and shows in the total
and in the peak. -/
theorem foldl_note_scratch (c : Counters) {length : UInt64}
    (hfit : c.inUse.toNat + length.toNat < 2 ^ 64) (offset : UInt64) :
    [Event.granted length, .restored length offset].foldl note c =
      { c with total := c.total + length, peak := max c.peak (c.inUse + length) } := by
  have hback : Word.monus (c.inUse + length) length = c.inUse := by
    apply UInt64.toNat_inj.1
    rw [Word.toNat_monus, Word.toNat_add_of_lt hfit, Nat.add_sub_cancel]
  show { c.grow length with inUse := Word.monus (c.inUse + length) length } = _
  rw [hback]
  rfl

/-- A rollback that reclaims nothing changes no counter. -/
theorem foldl_note_idle (c : Counters) (offset : UInt64) :
    [Event.restored 0 offset].foldl note c = c := by
  have hback : Word.monus c.inUse 0 = c.inUse := by
    apply UInt64.toNat_inj.1
    rw [Word.toNat_monus]
    rfl
  show { c with inUse := Word.monus c.inUse 0 } = c
  rw [hback]

end Counters

namespace System

variable {s t : System} {id : ArenaId} {arena : Arena} {account : AccountId} {samples : List Int32}

section Single

variable (hslot : s.arenas[id]? = some { arena := some arena, account })
include hslot

/-- A batch whose scratch space is refused answers the refusal, and rolls back to where it
started. -/
theorem sumBatch_of_failure {failure : AllocationFailure}
    (hplace : arena.place (Batch.size samples) = .error failure) :
    s.sumBatch id samples =
      (.error (.exhausted failure),
        s.place id { arena := some arena, account } [.restored 0 arena.used]) := by
  let m : Metered Arena := { subject := arena, counters := s.counters account }
  obtain ⟨hanswer, hmoves⟩ := Batch.sum_of_failure (m := m) hplace
  obtain ⟨hafter, hevents⟩ := Arena.moveAll_of_failure hplace
  unfold sumBatch
  rw [onArena_eq hslot (Batch.moves m samples) (Batch.snd_sum m samples), hanswer, hmoves, hafter,
    hevents]

/-- A tidy batch that is served leaves its arena as it was, but for bytes where its scratch
space was, and announces a grant and a rollback of the same size. -/
theorem snd_sumBatch_of_place (htidy : Tidy samples) {region : Region}
    (hplace : arena.place (Batch.size samples) = .ok region) :
    (s.sumBatch id samples).2 =
      s.place id { arena := some (arena.scratched region (Batch.scratch samples)), account }
        [.granted region.length, .restored region.length arena.used] := by
  let m : Metered Arena := { subject := arena, counters := s.counters account }
  obtain ⟨-, hmoves⟩ := Batch.sum_of_place (m := m) htidy hplace
  obtain ⟨hafter, hevents⟩ := Arena.moveAll_scratchMoves hplace (Batch.scratch samples)
  unfold sumBatch
  rw [onArena_eq hslot (Batch.moves m samples) (Batch.snd_sum m samples), hmoves, hafter, hevents]

/-- The account of a batch that was served has as much in use as before. -/
theorem counters_sumBatch_of_place (hs : s.Attained) (htidy : Tidy samples) {region : Region}
    (hplace : arena.place (Batch.size samples) = .ok region)
    (hfit : (s.sumBatch id samples).2.handedOut account < 2 ^ 64) :
    let c := s.counters account
    c.total.toNat + region.length.toNat < 2 ^ 64 ∧ c.inUse.toNat + region.length.toNat < 2 ^ 64 ∧
      (s.sumBatch id samples).2.counters account = { c with
        total := c.total + region.length, peak := max c.peak (c.inUse + region.length) } := by
  intro c
  rw [snd_sumBatch_of_place hslot htidy hplace] at hfit ⊢
  rw [handedOut_place hslot] at hfit
  have hbytes : ([Event.granted region.length, .restored region.length arena.used].map
      Event.bytesIn).sum = region.length.toNat := Nat.add_zero _
  rw [hbytes] at hfit
  have hbooked := hs.booked account (by omega)
  have htotal : c.total.toNat = s.handedOut account := hbooked.total
  have hinUse : c.inUse.toNat ≤ c.total.toNat := hbooked.inUse
  have hroom : c.inUse.toNat + region.length.toNat < 2 ^ 64 := by omega
  refine ⟨by omega, hroom, ?_⟩
  rw [counters_place hslot hs.coherent]
  exact c.foldl_note_scratch hroom arena.used

end Single

/-- What a tidy batch answers and leaves, made on an arena that reports to an account. With `a`
for its rounded size in bytes, it is served if `a` bytes are left. -/
structure BatchDone (s : System) (id : ArenaId) (before : Arena) (account : AccountId)
    (samples : List Int32) : Prop where
  /-- The arena has granted the same bytes, and no buffer changed its size. -/
  arena : ∃ after, (s.sumBatch id samples).2.arenas[id]? = some { arena := some after, account } ∧
    after.Alike before ∧ after.bufferSize = before.bufferSize
  others : ∀ other, other ≠ id → (s.sumBatch id samples).2.arenas[other]? = s.arenas[other]?
  heaps : (s.sumBatch id samples).2.heaps = s.heaps ∧ (s.sumBatch id samples).2.store = s.store ∧
    (s.sumBatch id samples).2.tokens = s.tokens
  accounts : ∀ other, other ≠ account →
    (s.sumBatch id samples).2.counters other = s.counters other
  /-- The log tells one rollback more, to where the arena stood. -/
  log : ∃ reclaimed : UInt64,
    reclaimed.toNat =
      (if before.used.toNat + roundUp (4 * samples.length) ≤ before.capacity.toNat then
        roundUp (4 * samples.length) else 0) ∧
    ∀ told, (s.sumBatch id samples).2.log told =
      s.log told ++ if told (.arena id) then [.restored reclaimed before.used] else []
  served : before.used.toNat + roundUp (4 * samples.length) ≤ before.capacity.toNat →
    (∃ sum, (s.sumBatch id samples).1 = .ok sum ∧
      sum.toInt = 2 * (samples.map Int32.toInt).sum) ∧
    ((s.sumBatch id samples).2.handedOut account < 2 ^ 64 →
      let c := s.counters account
      let d := (s.sumBatch id samples).2.counters account
      d.SameUse c ∧ d.total.toNat = c.total.toNat + roundUp (4 * samples.length) ∧
        d.peak.toNat = max c.peak.toNat (c.inUse.toNat + roundUp (4 * samples.length)))
  refused : before.capacity.toNat < before.used.toNat + roundUp (4 * samples.length) →
    (∃ failure, (s.sumBatch id samples).1 = .error (.exhausted failure) ∧
      failure.requested.toNat = roundUp (4 * samples.length) ∧
      failure.available.toNat = before.capacity.toNat - before.used.toNat) ∧
    (s.sumBatch id samples).2.counters account = s.counters account

section Done

variable (hs : s.Attained) (hslot : s.arenas[id]? = some { arena := some arena, account })
  (htidy : Tidy samples)
include hs hslot htidy

/-- A batch whose scratch space is granted answers the sum and leaves nothing but charges. -/
theorem batchDone_of_place {region : Region}
    (hplace : arena.place (Batch.size samples) = .ok region) :
    s.BatchDone id arena account samples := by
  have hafter := snd_sumBatch_of_place hslot htidy hplace
  obtain ⟨-, hlength, -, -⟩ := Arena.place_eq_ok hplace
  have hroom := (arena.exists_place_iff (Batch.size samples)).1 ⟨region, hplace⟩
  rw [Batch.toNat_size htidy] at hlength hroom
  refine ⟨?_, ?_, ?_, ?_, ?_, ?_, fun hfull => absurd hroom (Nat.not_le.2 hfull)⟩
  · rw [hafter]
    exact ⟨_, arenas_place hslot _ _, Arena.scratched_alike hplace _,
      arena.size_bytes_scratched _ _⟩
  · intro other hother
    rw [hafter]
    exact Array.getElem?_setIfInBounds_ne hother.symm
  · rw [hafter]
    exact ⟨rfl, rfl, rfl⟩
  · intro other hother
    rw [hafter]
    exact counters_place_of_ne hslot hs.coherent _ _ hother
  · refine ⟨region.length, by rw [if_pos hroom, hlength], ?_⟩
    intro told
    rw [hafter, log_place]
    rfl
  · intro _
    refine ⟨?_, ?_⟩
    · let m : Metered Arena := { subject := arena, counters := s.counters account }
      obtain ⟨sum, hanswer, hsum⟩ := Batch.fst_sum_of_place (m := m) htidy (hs.bounded hslot) hplace
      refine ⟨sum, ?_, hsum⟩
      unfold sumBatch
      rw [onArena_eq hslot (Batch.moves m samples) (Batch.snd_sum m samples)]
      exact hanswer
    · intro hfit c d
      obtain ⟨htotal, hinUse, hcounters⟩ := counters_sumBatch_of_place hslot hs htidy hplace hfit
      have hd : d = { c with
          total := c.total + region.length, peak := max c.peak (c.inUse + region.length) } :=
        hcounters
      rw [hd, ← hlength]
      refine ⟨⟨rfl, rfl, rfl⟩, Word.toNat_add_of_lt htotal, ?_⟩
      rw [Word.toNat_max, Word.toNat_add_of_lt hinUse]

/-- A batch whose scratch space is refused leaves nothing at all but a line of its rollback. -/
theorem batchDone_of_failure {failure : AllocationFailure}
    (hplace : arena.place (Batch.size samples) = .error failure) :
    s.BatchDone id arena account samples := by
  have hsum := sumBatch_of_failure hslot hplace
  obtain ⟨hfull, rfl⟩ := (arena.place_eq_error_iff (Batch.size samples) failure).1 hplace
  have hrequested := arena.toNat_requested (Batch.size samples)
  have hfew := htidy.1
  have hlt : roundUp (4 * samples.length) < 2 ^ 64 := by
    unfold roundUp
    omega
  rw [Batch.toNat_size htidy] at hfull hrequested
  rw [if_pos hlt] at hrequested
  replace hfull : arena.capacity.toNat < arena.used.toNat + roundUp (4 * samples.length) := hfull
  refine ⟨?_, ?_, ?_, ?_, ?_, fun hroom => absurd hroom (Nat.not_le.2 hfull), fun _ => ⟨?_, ?_⟩⟩
  · rw [hsum]
    exact ⟨arena, arenas_place hslot _ _, .refl arena, rfl⟩
  · intro other hother
    rw [hsum]
    exact Array.getElem?_setIfInBounds_ne hother.symm
  · rw [hsum]
    exact ⟨rfl, rfl, rfl⟩
  · intro other hother
    rw [hsum]
    exact counters_place_of_ne hslot hs.coherent _ _ hother
  · refine ⟨0, (if_neg (Nat.not_le.2 hfull)).symm, ?_⟩
    intro told
    rw [hsum, log_place]
    rfl
  · rw [hsum]
    exact ⟨_, rfl, hrequested, (hs.bounded hslot).toNat_remaining⟩
  · rw [hsum, counters_place hslot hs.coherent]
    exact Counters.foldl_note_idle _ _

/-- What a batch does is told by whether its scratch space is granted. -/
theorem batchDone : s.BatchDone id arena account samples := by
  cases hplace : arena.place (Batch.size samples) with
  | ok region => exact batchDone_of_place hs hslot htidy hplace
  | error failure => exact batchDone_of_failure hs hslot htidy hplace

end Done

namespace Unmarked

variable {scratch : ArenaId → Prop} {settled : AccountId → Prop}

/-- Two systems stay the same but for scratch work if only the first one takes over an arena
that is like before, and the account does so too. -/
theorem place_left (h : Unmarked scratch settled s t) (hs : s.Attained) (hid : scratch id)
    (hslot : s.arenas[id]? = some { arena := some arena, account }) {after : Arena}
    (halike : after.Alike arena) {events : List Event}
    (hcounters : settled account → (events.foldl Counters.note (s.counters account)).SameUse
      (s.counters account)) :
    Unmarked scratch settled (s.place id { arena := some after, account } events) t := by
  obtain ⟨arenas, accounts, journal, rfl⟩ := h.exists_eq
  refine ⟨rfl, ?_, ?_, ?_, ?_, ?_⟩
  · show arenas.size = (s.arenas.setIfInBounds _ _).size
    rw [Array.size_setIfInBounds]
    exact h.arenas
  · intro other slot hother
    obtain ⟨slot', hslot', hsame⟩ := h.slots hslot
    by_cases hne : id = other
    · subst hne
      rw [arenas_place hslot] at hother
      obtain rfl := Option.some.inj hother
      refine ⟨slot', hslot', ?_⟩
      cases hsame with
      | same => exact .alike hid halike account false
      | alike _ hbefore => exact .alike hid (halike.trans hbefore) account false
    · have hunchanged : (s.place id { arena := some after, account } events).arenas[other]? =
          s.arenas[other]? := Array.getElem?_setIfInBounds_ne hne
      rw [hunchanged] at hother
      exact h.slots hother
  · show accounts.size = (Counters.bookAll _ _ _).size
    rw [size_bookAll]
    exact h.accounts
  · intro other hsettled
    have hother := h.counters other hsettled
    by_cases hne : other = account
    · subst hne
      rw [counters_place hslot hs.coherent]
      obtain ⟨hinUse, hcreated, hdestroyed⟩ := hcounters hsettled
      exact ⟨hinUse.trans hother.inUse, hcreated.trans hother.created,
        hdestroyed.trans hother.destroyed⟩
    · rwa [counters_place_of_ne hslot hs.coherent _ _ hne]
  · rw [journal_place]
    exact h.journal.trans (List.sublist_append_left _ _)

/-- A tidy batch that only the first system makes leaves the systems the same but for scratch
work. -/
theorem sumBatch_left (h : Unmarked scratch settled s t) (hs : s.Attained) (hid : scratch id)
    (htidy : Tidy samples)
    (hfit : ∀ account, settled account → (s.sumBatch id samples).2.handedOut account < 2 ^ 64) :
    Unmarked scratch settled (s.sumBatch id samples).2 t := by
  cases harena : s.arena? id with
  | none =>
    unfold sumBatch
    rwa [unknown_onArena harena]
  | some arena =>
    obtain ⟨account, hslot⟩ := arena?_eq_some.1 harena
    cases hplace : arena.place (Batch.size samples) with
    | error failure =>
      rw [sumBatch_of_failure hslot hplace]
      apply h.place_left hs hid hslot (.refl arena)
      intro _
      -- the batch reclaims nothing, for there was nothing to reclaim
      rw [Counters.foldl_note_idle]
      exact .refl _
    | ok region =>
      have hcounted := fun hsettled =>
        counters_sumBatch_of_place hslot hs htidy hplace (hfit account hsettled)
      rw [snd_sumBatch_of_place hslot htidy hplace] at hcounted ⊢
      apply h.place_left hs hid hslot (Arena.scratched_alike hplace _)
      intro hsettled
      obtain ⟨-, hroom, -⟩ := hcounted hsettled
      rw [Counters.foldl_note_scratch _ hroom]
      exact ⟨rfl, rfl, rfl⟩

end Unmarked

/-- What is handed out only grows along a run. -/
theorem handedOut_le_run (hs : s.Attained) (actions : List Action) (account : AccountId) :
    s.handedOut account ≤ (s.run actions).2.handedOut account := by
  rw [snd_run]
  exact (grown_performAll hs.coherent account fun _ => s.isSingle_of_mem_unrollAll actions).1

section Runs

variable {scratch : ArenaId → Prop} {settled : AccountId → Prop}

mutual

/-- An action without its tidy batches gets the same replies, and keeps the systems the same
but for scratch work. -/
theorem Unmarked.act {s t : System} (h : Unmarked scratch settled s t) (hs : s.Attained)
    (ht : t.Attained) :
    ∀ action : Action, (∀ call ∈ action.calls, call.Respects scratch) →
      (∀ account, settled account → (s.act action).2.handedOut account < 2 ^ 64) →
      (t.run action.unbatched).1 = action.otherReplies (s.act action).1 ∧
        Unmarked scratch settled (s.act action).2 (t.run action.unbatched).2
  | .call single, hcalls, hfit => by
    have hsingle := hcalls single List.mem_cons_self
    simp only [Action.unbatched, Action.otherReplies]
    split
    · rename_i hbatch
      refine ⟨rfl, ?_⟩
      cases single with
      | sumBatch id samples =>
        have htidy : Tidy samples := of_decide_eq_true hbatch
        exact h.sumBatch_left hs (hsingle htidy) htidy hfit
      | _ => cases hbatch
    · have hkept : ∀ id, single = .giveBack id → ¬ scratch id := by
        rintro id rfl
        exact hsingle
      obtain ⟨hanswer, hafter⟩ := h.sameAnswer_perform hs ht single hkept
      exact ⟨congrArg (fun outcome => [ActionReply.call outcome]) hanswer.symm, hafter⟩
  | .scope arena body abandoned, hcalls, hfit => by
    have hmark := h.checkpoint_eq arena
    cases htarget : s.checkpoint arena with
    | error refusal =>
      rw [htarget] at hmark
      rw [act_scope_of_barred htarget]
      simp only [Action.unbatched, System.run, act_scope_of_barred hmark.symm]
      exact ⟨rfl, h⟩
    | ok target =>
      rw [htarget] at hmark
      rw [act_scope_of_checkpoint htarget] at hfit ⊢
      -- the rollback at the end hands nothing out, so the body stays within the bound too
      have hbodyFit : ∀ account, settled account → (s.run body).2.handedOut account < 2 ^ 64 := by
        intro account hsettled
        refine (?_ : _ ≤ _).trans_lt (hfit account hsettled)
        cases abandoned with
        | true => exact le_refl _
        | false => exact handedOut_le_run (hs.run body) [.call (.restore arena target)] account
      obtain ⟨hinner, hbody⟩ := h.run hs ht body hcalls hbodyFit
      simp only [Action.unbatched, System.run, act_scope_of_checkpoint hmark.symm,
        Action.otherReplies, hinner]
      refine ⟨trivial, ?_⟩
      cases abandoned with
      | true => exact hbody
      | false => exact (hbody.sameAnswer_restore (hs.run body) (ht.run _) arena target).2

/-- A run and the same run without its tidy batches give the same other replies, and lead to
systems that are the same but for scratch work. -/
theorem Unmarked.run {s t : System} (h : Unmarked scratch settled s t) (hs : s.Attained)
    (ht : t.Attained) :
    ∀ actions : List Action, (∀ call ∈ Action.allCalls actions, call.Respects scratch) →
      (∀ account, settled account → (s.run actions).2.handedOut account < 2 ^ 64) →
      (t.run (Action.allUnbatched actions)).1 = Action.allOtherReplies actions (s.run actions).1 ∧
        Unmarked scratch settled (s.run actions).2 (t.run (Action.allUnbatched actions)).2
  | [], _, _ => ⟨rfl, h⟩
  | action :: rest, hcalls, hfit => by
    have hattained : (s.act action).2.Attained := hs.run [action]
    have hfirstFit : ∀ account, settled account →
        (s.act action).2.handedOut account < 2 ^ 64 := fun account hsettled =>
      (handedOut_le_run hattained rest account).trans_lt (hfit account hsettled)
    obtain ⟨hfirst, hnext⟩ := h.act hs ht action
      (fun call hmem => hcalls call (List.mem_append_left _ hmem)) hfirstFit
    obtain ⟨hlater, hlast⟩ := hnext.run hattained (ht.run _) rest
      (fun call hmem => hcalls call (List.mem_append_right _ hmem)) hfit
    simp only [System.run, Action.allUnbatched, Action.allOtherReplies, run_append, hfirst, hlater]
    exact ⟨trivial, hlast⟩

end

end Runs

/-- In every attained system, wherever an arena stands and whatever lies beyond its granted
bytes, a batch of fewer than `2 ^ 32` samples from `-2 ^ 30` up to `2 ^ 30 - 1` returns twice
their exact sum if its rounded size fits, and else tells that size and what is left. Either way
it leaves the arena with the same granted bytes, all objects and tokens as they were, and the
bytes in use and the objects counted as before; the log tells one rollback more. Only the total
and the peak of the account rise, and only if the batch was served. So a run gets the same
replies if all these batches are deleted from it, scopes included, as long as no arena that a
batch was made on gives its buffer back. It leads to a system with the same objects, tokens and
granted bytes, whose journal has the other lines in the same order, and in which every account
whose total stays a word counts the same use. -/
theorem batches_leave_no_trace (hs : s.Attained) :
    (∀ {id : ArenaId} {arena : Arena} {account : AccountId} {samples : List Int32},
      s.arenas[id]? = some { arena := some arena, account } → Tidy samples →
        s.BatchDone id arena account samples) ∧
    ∀ actions : List Action,
      let calls := Action.allCalls actions
      let scratch := fun id => ∃ samples, Tidy samples ∧ .sumBatch id samples ∈ calls
      let settled := fun account => (s.run actions).2.handedOut account < 2 ^ 64
      let rerun := s.run (Action.allUnbatched actions)
      (∀ id, .giveBack id ∈ calls → ¬ scratch id) →
        rerun.1 = Action.allOtherReplies actions (s.run actions).1 ∧
          Unmarked scratch settled (s.run actions).2 rerun.2 := by
  refine ⟨fun hslot htidy => batchDone hs hslot htidy, ?_⟩
  intro actions calls scratch settled rerun hkept
  apply (Unmarked.refl s).run hs hs actions
  · intro call hcall
    cases call with
    | sumBatch id samples => exact fun htidy => ⟨samples, htidy, hcall⟩
    | giveBack id => exact hkept id hcall
    | _ => trivial
  · exact fun _ hsettled => hsettled

/-- An odd number of samples over bytes that were left there before, and a batch that does not
fit, on the arena of a context. Between other calls, and in a scope too, batches make no
difference to what these answer. -/
theorem batches_leave_no_trace_of_stale_bytes :
    let s := ({} : System).performAll
      [ .createContext { capacity := 24 }, .alloc 0 16, .write 0 ⟨0, 16⟩ { fill := some 255 },
        .reset 0, .alloc 0 8, .create 0 5 ]
    let odd : List Int32 := [3, -5, 1073741823]
    let long : List Int32 := [1, 1, 1, 1, 1]
    let others : List Action :=
      [ .call (.alloc 0 4), .scope 0 [.call (.alloc 0 1), .call (.read 0 ⟨16, 8⟩)] false,
        .call (.payload 0 0) ]
    let actions : List Action :=
      [ .call (.sumBatch 0 odd), .call (.alloc 0 4),
        .scope 0 [.call (.sumBatch 0 [7]), .call (.alloc 0 1), .call (.read 0 ⟨16, 8⟩)] false,
        .call (.sumBatch 0 long), .call (.payload 0 0) ]
    ((∃ sum, (s.sumBatch 0 odd).1 = .ok sum ∧ sum.toInt = 2147483642) ∧
        ((s.sumBatch 0 odd).2.counters 0).inUse = (s.counters 0).inUse ∧
        ((s.sumBatch 0 odd).2.counters 0).total.toNat = (s.counters 0).total.toNat + 16) ∧
      (∃ failure, (s.sumBatch 0 long).1 = .error (.exhausted failure) ∧
        failure.requested.toNat = 24 ∧ failure.available.toNat = 16) ∧
      (s.run others).1 = Action.allOtherReplies actions (s.run actions).1 := by
  intro s odd long others actions
  have hs : s.Attained := attained_performAll Host.standard _
  let arena : Arena :=
    { bytes := Array.replicate 8 0 ++ Array.replicate 8 255 ++ Array.replicate 8 0
      capacity := 24
      offset := 8 }
  have hslot : s.arenas[0]? = some { arena := some arena, account := 0 } := rfl
  obtain ⟨hsingle, hdeleted⟩ := batches_leave_no_trace hs
  have htidyOdd : Tidy odd := by decide +kernel
  have htidyLong : Tidy long := by decide +kernel
  have htidyInner : Tidy [7] := by decide +kernel
  have hodd := hsingle hslot htidyOdd
  have hlong := hsingle hslot htidyLong
  obtain ⟨⟨sum, hanswer, hsum⟩, hcharged⟩ := hodd.served (by decide)
  obtain ⟨huse, htotal, -⟩ := hcharged (by decide +kernel)
  obtain ⟨hrefused, -⟩ := hlong.refused (by decide)
  have hsizes : roundUp (4 * odd.length) = 16 ∧ roundUp (4 * long.length) = 24 := by decide
  have hdouble : 2 * (odd.map Int32.toInt).sum = 2147483642 := by decide
  have hleft : arena.capacity.toNat - arena.used.toNat = 16 := by decide
  rw [hdouble] at hsum
  rw [hsizes.1] at htotal
  rw [hsizes.2, hleft] at hrefused
  have hkept : ∀ id, .giveBack id ∉ Action.allCalls actions := by
    intro id hmem
    have hcalls : Action.allCalls actions =
        [ .sumBatch 0 odd, .alloc 0 4, .sumBatch 0 [7], .alloc 0 1, .read 0 ⟨16, 8⟩,
          .sumBatch 0 long, .payload 0 0 ] := rfl
    simp [hcalls] at hmem
  obtain ⟨hreplies, -⟩ := hdeleted actions fun id hmem => absurd hmem (hkept id)
  have hothers : Action.allUnbatched actions = others := by
    simp [actions, others, Action.allUnbatched, Action.unbatched, Call.isTidyBatch, htidyOdd,
      htidyLong, htidyInner]
  rw [hothers] at hreplies
  exact ⟨⟨⟨sum, hanswer, hsum⟩, huse.inUse, htotal⟩, hrefused, hreplies⟩

end System

end Allotment

import Allotment.Proofs.System.LastWriter
import Allotment.Proofs.System.Log
import Allotment.Proofs.System.Rollback

set_option autoImplicit false

/-!
A scope is exact. Whatever its body does, the end of the scope takes the arena back to the
smaller one of what was granted when the scope was entered and what is granted now, and tells
so unless the body had rolled back further. What the arena has granted is never less than at
the start as long as every rollback goes to where the arena stood at some moment since; then
the account of the arena has in use again what it had, if nobody else used the account.
-/

namespace Allotment

/-- The checkpoints to which a call asks an arena to be rolled back. A replay may reset. -/
def Call.asked (id : ArenaId) : Call → List Checkpoint
  | .restore other target => if other = id then [target] else []
  | .reset other | .replay other _ | .giveBack other => if other = id then [{ offset := 0 }] else []
  | _ => []

mutual

/-- The checkpoints to which the calls of an action ask an arena to be rolled back. What
scopes do at their ends is not among them. -/
def Action.asked (id : ArenaId) : Action → List Checkpoint
  | .call single => single.asked id
  | .scope _ body _ => Action.askedAll id body

def Action.askedAll (id : ArenaId) : List Action → List Checkpoint
  | [] => []
  | action :: rest => action.asked id ++ Action.askedAll id rest

end

/-- A last call of a beginning of two runs in a row is a call of the first one, or a call of the
second one after the whole first one. -/
theorem prefix_append_cases {α : Type} {before first later : List α} {last : α}
    (h : before ++ [last] <+: first ++ later) :
    before ++ [last] <+: first ∨ ∃ mid, before = first ++ mid ∧ mid ++ [last] <+: later := by
  rcases List.prefix_or_prefix_of_prefix h (List.prefix_append first later) with hin | hout
  · exact .inl hin
  · rcases List.prefix_concat_iff.1 hout with rfl | ⟨mid, rfl⟩
    · exact .inl List.prefix_rfl
    · rw [List.append_assoc, List.prefix_append_right_inj] at h
      exact .inr ⟨mid, rfl, h⟩

namespace System

variable {s s' : System} {host : Host} {call : Call} {entries : List Entry} {id : ArenaId}
  {arena : Arena} {account : AccountId} {target : Checkpoint}

/-- At some moment of a run an arena stood at a checkpoint, so that it could be taken there. -/
def StoodAt (s : System) (id : ArenaId) (calls : List Call) (target : Checkpoint) : Prop :=
  ∃ before, before <+: calls ∧ (s.performAll before).checkpoint id = .ok target

/-- A checkpoint of an arena that is there is its offset. -/
theorem checkpoint_eq (hslot : s.arenas[id]? = some { arena := some arena, account }) :
    s.checkpoint id = .ok arena.checkpoint := by
  simp only [checkpoint, arena?_eq_some.2 ⟨account, hslot⟩]

/-- The checkpoint of an arena is what it has granted. -/
theorem granted_of_checkpoint (h : s.checkpoint id = .ok target) :
    s.granted id = target.offset.toNat := by
  unfold checkpoint at h
  cases harena : s.arena? id with
  | none => simp [harena] at h
  | some arena =>
    obtain ⟨account, hslot⟩ := arena?_eq_some.1 harena
    simp only [harena, Except.ok.injEq] at h
    rw [granted_eq hslot, ← h]
    rfl

section Rollbacks

/-- A rollback among the calls that an unrolled call comes to goes to a checkpoint at which the
arena stood, or was asked for. -/
theorem stoodAt_or_asked_of_unrollCall {before : List Call} {single : Call}
    (h : before ++ [single] <+: s.unrollCall call)
    (hmove : single.move? = some (id, .restore target)) :
    StoodAt s id before target ∨ target ∈ call.asked id := by
  have hmem := h.subset (List.mem_append_right before (List.mem_singleton_self single))
  have hmoves : ∀ {other : ArenaId} {moves : List ArenaMove},
      single ∈ moves.map (ArenaMove.toCall other) → other = id ∧ .restore target ∈ moves := by
    intro other moves hmem
    obtain ⟨step, hstep, rfl⟩ := List.mem_map.1 hmem
    cases step with
    | restore given =>
      obtain ⟨rfl, hgiven⟩ := Prod.mk.inj (Option.some.inj hmove)
      exact ⟨rfl, hgiven ▸ hstep⟩
    | alloc | write => simp [ArenaMove.toCall, Call.move?] at hmove
  cases call with
  | replay other sizes =>
    cases hm : s.metered? other with
    | none => simp [unrollCall, hm] at hmem
    | some m =>
      simp only [unrollCall, hm, Option.elim_some] at hmem
      obtain ⟨rfl, hrestore⟩ := hmoves hmem
      have hzero := Metered.offset_of_mem_replayMoves hrestore
      obtain ⟨offset⟩ := target
      obtain rfl : offset = 0 := hzero
      exact .inr (by simp [Call.asked])
  | sumBatch other samples =>
    cases hm : s.metered? other with
    | none => simp [unrollCall, hm] at hmem
    | some m =>
      simp only [unrollCall, hm, Option.elim_some] at hmem
      obtain ⟨rfl, hrestore⟩ := hmoves hmem
      obtain ⟨account, hslot, -⟩ := arenas_of_metered? hm
      rw [offset_of_mem_batchMoves hrestore]
      exact .inl ⟨[], List.nil_prefix, checkpoint_eq hslot⟩
  | restore | reset | giveBack =>
    obtain rfl := List.mem_singleton.1 hmem
    obtain ⟨rfl, hgiven⟩ := Prod.mk.inj (Option.some.inj hmove)
    obtain rfl := ArenaMove.restore.inj hgiven
    exact .inr (by simp [Call.asked])
  | alloc | write =>
    obtain rfl := List.mem_singleton.1 hmem
    simp [Call.move?] at hmove
  | _ =>
    obtain rfl := List.mem_singleton.1 hmem
    cases hmove

mutual

/-- An action rolls an arena back to where it stood since the action began, or it was asked to:
the end of a scope takes the arena back to the start of it. -/
theorem stoodAt_or_asked_of_unroll (s : System) (before : List Call)
    (hmove : call.move? = some (id, .restore target)) :
    ∀ action : Action, before ++ [call] <+: s.unroll action →
      StoodAt s id before target ∨ target ∈ action.asked id
  | .call _, h => stoodAt_or_asked_of_unrollCall h hmove
  | .scope other body abandoned, h => by
    have hbody := s.stoodAt_or_asked_of_unrollAll before hmove body
    unfold unroll at h
    cases hmark : s.checkpoint other with
    | error refusal => simp [hmark] at h
    | ok mark =>
      simp only [hmark] at h
      rcases prefix_append_cases h with hin | ⟨mid, -, hend⟩
      · exact hbody hin
      · cases abandoned with
        | true => simp at hend
        | false =>
          have hmem := hend.subset (List.mem_append_right mid (List.mem_singleton_self call))
          obtain rfl := List.mem_singleton.1 hmem
          obtain ⟨rfl, hgiven⟩ := Prod.mk.inj (Option.some.inj hmove)
          obtain rfl := ArenaMove.restore.inj hgiven
          exact .inl ⟨[], List.nil_prefix, hmark⟩

/-- A rollback in an unrolled run goes to a checkpoint at which the arena stood, as at the end
of a scope, or was asked for. -/
theorem stoodAt_or_asked_of_unrollAll (s : System) (before : List Call)
    (hmove : call.move? = some (id, .restore target)) :
    ∀ actions : List Action, before ++ [call] <+: s.unrollAll actions →
      StoodAt s id before target ∨ target ∈ Action.askedAll id actions
  | [], h => by simp [unrollAll] at h
  | action :: rest, h => by
    have hfirst := s.stoodAt_or_asked_of_unroll before hmove action
    rw [unrollAll] at h
    rcases prefix_append_cases h with hin | ⟨mid, rfl, hlater⟩
    · rcases hfirst hin with hstood | hasked
      · exact .inl hstood
      · exact .inr (List.mem_append_left _ hasked)
    · have hrest := (s.act action).2.stoodAt_or_asked_of_unrollAll mid hmove rest hlater
      rcases hrest with ⟨moment, hmoment, hmark⟩ | hasked
      · refine .inl ⟨s.unroll action ++ moment, (List.prefix_append_right_inj _).2 hmoment, ?_⟩
        rw [performAll_append, ← snd_act]
        exact hmark
      · exact .inr (List.mem_append_right _ hasked)

end

/-- An arena that is only rolled back to where it stood since a moment never has less granted
than at that moment. -/
theorem granted_le_of_stoodAt {calls : List Call} (hsingle : ∀ call ∈ calls, call.IsSingle)
    (hback : ∀ before call target, before ++ [call] <+: calls →
      call.move? = some (id, .restore target) → StoodAt s id before target)
    {before : List Call} (hbefore : before <+: calls) :
    s.granted id ≤ (s.performAll before).granted id := by
  -- the moment to which a rollback returns lies before it, so all of them are compared at once
  suffices hall : ∀ moment, moment <+: before →
      s.granted id ≤ (s.performAll moment).granted id from hall before List.prefix_rfl
  induction before using List.reverseRecOn with
  | nil =>
    intro moment hmoment
    rw [List.prefix_nil.1 hmoment]
    exact le_refl _
  | append_singleton before call ih =>
    have hearlier := ih ((List.prefix_append _ _).trans hbefore)
    intro moment hmoment
    rcases List.prefix_concat_iff.1 hmoment with rfl | hmoment
    · have hcall : call.IsSingle := hsingle call (hbefore.subset (by simp))
      have hlast := hearlier before List.prefix_rfl
      rw [performAll_append, performAll_cons, performAll_nil]
      by_cases hrolls : ∃ target, call.move? = some (id, .restore target)
      · obtain ⟨target, hmove⟩ := hrolls
        obtain ⟨since, hsince, hmark⟩ := hback before call target hbefore hmove
        have hstood := hearlier since hsince
        rw [granted_of_checkpoint hmark] at hstood
        exact (le_min hstood hlast).trans (le_granted_perform_of_restore hcall hmove)
      · exact hlast.trans (granted_le_perform hcall fun target h => hrolls ⟨target, h⟩)
    · exact hearlier moment hmoment

end Rollbacks

section Account

/-- Where one arena alone moves the bytes of its account, the account moves by what that arena
announces. -/
theorem sum_eventsIn_alone (hsourced : ∀ entry ∈ entries, entry.IsSourced)
    (hknown : s.account? (.arena id) = some account)
    (halone : ∀ entry ∈ entries, s.account? entry.source = some account →
      entry.event.charge?.isSome → entry.source = .arena id) :
    ((s.eventsIn account entries).map Event.bytesIn).sum =
        ((eventsFrom (· = .arena id) entries).map Event.grantedBytes).sum ∧
      ((s.eventsIn account entries).map Event.bytesOut).sum =
        ((eventsFrom (· = .arena id) entries).map Event.reclaimedBytes).sum := by
  have hsum : ∀ f : Event → ℕ, (∀ event, event.charge? = none → f event = 0) →
      ((s.eventsIn account entries).map f).sum =
        ((eventsFrom (· = .arena id) entries).map f).sum := by
    intro f hquiet
    apply sum_eventsIn_eq hquiet
    intro entry hentry hnonzero
    rw [decide_eq_true_iff]
    constructor
    · rintro hsource
      rw [hsource, hknown]
    · intro hreported
      apply halone entry hentry hreported
      rw [Option.isSome_iff_ne_none]
      exact fun hnone => hnonzero (hquiet _ hnone)
  have hobjects : ∀ event ∈ eventsFrom (· = .arena id) entries,
      event.bornWeight UInt64.toNat = 0 ∧ event.diedWeight UInt64.toNat = 0 := by
    intro event hevent
    obtain ⟨⟨source, event⟩, hentry, rfl⟩ := List.mem_map.1 hevent
    obtain ⟨hentry, hsource⟩ := List.mem_filter.1 hentry
    obtain rfl : source = .arena id := by simpa using hsource
    have hfrom := hsourced _ hentry
    cases event <;> simp_all [Entry.IsSourced, Event.bornWeight, Event.diedWeight]
  constructor
  · rw [hsum _ fun event h => by
      rw [event.bytesIn_eq, (Event.weights_of_quiet h UInt64.toNat).1,
        (Event.weights_of_quiet h _).2.2.1]]
    congr 1
    apply List.map_congr_left
    intro event hevent
    rw [event.bytesIn_eq, (hobjects event hevent).1, Nat.add_zero]
  · rw [hsum _ fun event h => by
      rw [event.bytesOut_eq, (Event.weights_of_quiet h UInt64.toNat).2.1,
        (Event.weights_of_quiet h _).2.2.2]]
    congr 1
    apply List.map_congr_left
    intro event hevent
    rw [event.bytesOut_eq, (hobjects event hevent).2, Nat.add_zero]

/-- A run adds lines to the journal and takes none away. -/
theorem journal_performAll (s : System) {calls : List Call}
    (hsingle : ∀ call ∈ calls, call.IsSingle) :
    ∃ added, (s.performAll calls).journal.toList = s.journal.toList ++ added := by
  apply performAll_induction (P := fun after => ∃ added,
    after.journal.toList = s.journal.toList ++ added)
  · rintro before after call entries ⟨added, hadded⟩ h
    exact ⟨added ++ entries, by rw [h.journal_eq, hadded, List.append_assoc]⟩
  · exact ⟨[], (List.append_nil _).symm⟩
  · exact hsingle

/-- No other allocator moved bytes on an account in a run: the lines that a run added to the
journal and that the account had to record come from one arena. -/
def Alone (s s' : System) (id : ArenaId) (account : AccountId) : Prop :=
  ∀ entry ∈ s'.journal.toList.drop s.journal.size,
    s'.account? entry.source = some account → entry.event.charge?.isSome →
      entry.source = .arena id

/-- If one arena alone moved bytes up to the end of a run, then it did up to the last call, and
in that call as well. -/
theorem Alone.split {start : System} {added : List Entry} (halone : Alone start s' id account)
    (hadded : s.journal.toList = start.journal.toList ++ added) (h : Stepped s call entries s') :
    Alone start s id account ∧
      ∀ entry ∈ entries, s'.account? entry.source = some account → entry.event.charge?.isSome →
        entry.source = .arena id := by
  have hdrop : ∀ later, (start.journal.toList ++ later).drop start.journal.size = later :=
    fun later => List.drop_left' Array.length_toList
  unfold Alone at halone ⊢
  rw [h.journal_eq, hadded, List.append_assoc, hdrop] at halone
  rw [hadded, hdrop]
  constructor
  · intro entry hentry hreported
    exact halone entry (List.mem_append_left _ hentry) (h.account?_eq hreported)
  · intro entry hentry
    exact halone entry (List.mem_append_right _ hentry)

/-- An account that one arena uses alone has in use more than before what the arena has granted
more than before, as long as that is never less, and its total has grown by what the arena was
granted. -/
theorem charged_of_alone (hs : s.Coherent) (hb : s.Booked account)
    (hknown : s.account? (.arena id) = some account) {calls : List Call}
    (hsingle : ∀ call ∈ calls, call.IsSingle) (halone : Alone s (s.performAll calls) id account)
    (hfit : (s.performAll calls).handedOut account < 2 ^ 64)
    (hfloor : ∀ before, before <+: calls → s.granted id ≤ (s.performAll before).granted id) :
    (s.performAll calls).Booked account ∧
      ((s.performAll calls).counters account).inUse.toNat + s.granted id =
        (s.counters account).inUse.toNat + (s.performAll calls).granted id ∧
      ((s.performAll calls).counters account).total.toNat = (s.counters account).total.toNat +
        ((s.grants id calls).map fun grant => grant.2.length.toNat).sum := by
  induction calls using List.reverseRecOn with
  | nil => exact ⟨hb, rfl, rfl⟩
  | append_singleton calls call ih =>
    obtain ⟨hbefore, hlast⟩ := List.forall_mem_append.1 hsingle
    have hcall : call.IsSingle := List.forall_mem_singleton.1 hlast
    obtain ⟨entries, h, hlines⟩ := (s.performAll calls).exists_stepped hcall
    have hend : s.performAll (calls ++ [call]) = ((s.performAll calls).perform call).2 := by
      rw [performAll_append]
      rfl
    rw [← hend] at h
    have hcoherent : (s.performAll calls).Coherent :=
      performAll_induction (fun hs h => hs.step h) hs hbefore
    obtain ⟨added, hadded⟩ := s.journal_performAll hbefore
    obtain ⟨hearlier, hnew⟩ := halone.split hadded h
    obtain ⟨hbooked, hinUse, htotal⟩ := ih hbefore hearlier
      ((h.handedOut_le hcoherent account).trans_lt hfit)
      fun before hle => hfloor before (hle.trans (List.prefix_append _ _))
    have hreports : (s.performAll (calls ++ [call])).account? (.arena id) = some account := by
      exact performAll_induction (P := fun after => after.account? (.arena id) = some account)
        (fun hreported h => h.account?_eq hreported) hknown hsingle
    obtain ⟨hin, hout⟩ := sum_eventsIn_alone (fun entry hentry => h.sourced hentry) hreports hnew
    obtain ⟨hbooked', htotal', hinUse'⟩ := h.booked hcoherent hbooked hfit
    have hbalance := h.granted_eq id
    have hgranted := (s.performAll calls).sum_grantedBytes_arenaLines id call
    rw [← hlines, sum_eventsFrom_filter fun _ h => (Event.weights_of_quiet h UInt64.toNat).1]
      at hgranted
    have hnow := hfloor calls (List.prefix_append _ _)
    have hthen := hfloor _ List.prefix_rfl
    have hgrants := s.sum_grants_concat id calls call
    rw [hin] at htotal'
    rw [hin, hout] at hinUse'
    exact ⟨hbooked', by omega, by omega⟩

end Account

section Ends

variable (h : Reached host s) (hslot : s.arenas[id]? = some { arena := some arena, account })
include hslot

/-- A scope is its body and then a rollback to where the arena stood. -/
theorem snd_act_scope (body : List Action) :
    (s.act (.scope id body false)).2 =
      s.performAll (s.unrollAll body ++ [.restore id arena.checkpoint]) := by
  rw [snd_act, unroll, checkpoint_eq hslot]
  rfl

/-- The end of a scope shows in the place of its arena and in the journal, and nowhere else but
in the account. -/
theorem snd_act_scope_eq_place {body : List Action}
    (hkept : ∀ call ∈ s.unrollAll body, call.ended? ≠ some id) :
    ∃ last : Arena,
      (s.run body).2.arenas[id]? = some { arena := some last, account } ∧
      (s.act (.scope id body false)).2 =
        (s.run body).2.place id
          { arena := some { last with offset := min arena.used last.used }, account }
          (if arena.used ≤ last.used then [.restored (last.used - arena.used) arena.used]
          else []) := by
  have hinside : ∀ call ∈ s.unrollAll body, call.IsSingle :=
    fun _ hin => isSingle_of_mem_unrollAll s body hin
  have hlast := arenas_performAll hslot hinside hkept
  rw [← snd_run] at hlast
  generalize arena.moveAll (movesOn id (s.unrollAll body)) = last at hlast
  refine ⟨last, hlast, ?_⟩
  have hmoved := last.move_restore arena.checkpoint
  have htold := last.announced_restore arena.checkpoint
  rw [snd_act_scope hslot, performAll_append, ← snd_run]
  show ((s.run body).2.perform (ArenaMove.toCall id (.restore arena.checkpoint))).2 = _
  rw [snd_perform_toCall hlast, hmoved, htold]
  rfl

include h

/-- A scope in which the arena never has less granted than at the start leaves its account as
the scope found it, if nobody else used the account: only the total has grown. -/
theorem charged_of_scope {inside : List Call} (hinside : ∀ call ∈ inside, call.IsSingle)
    {last : Arena}
    (hlast : (s.performAll inside).arenas[id]? = some { arena := some last, account })
    (hfloor : ∀ before, before <+: inside →
      arena.used.toNat ≤ (s.performAll before).granted id) :
    let after := s.performAll (inside ++ [.restore id arena.checkpoint])
    Alone s after id account → after.handedOut account < 2 ^ 64 →
      (after.counters account).inUse = (s.counters account).inUse ∧
      (after.counters account).total.toNat = (s.counters account).total.toNat +
        ((s.grants id inside).map fun grant => roundUp grant.1.toNat).sum := by
  intro after halone hfit
  have hsingle : ∀ call ∈ inside ++ [.restore id arena.checkpoint], call.IsSingle :=
    List.forall_mem_append.2 ⟨hinside, List.forall_mem_singleton.2 trivial⟩
  have hs := h.attained.coherent
  have hb := h.attained.booked account ((grown_performAll hs account hsingle).1.trans_lt hfit)
  have hback : after.granted id = arena.used.toNat := by
    have hclosing : (Call.restore id arena.checkpoint).IsSingle := trivial
    have hended := granted_perform_of_restore hclosing rfl (arena?_eq_some.2 ⟨account, hlast⟩)
    show (s.performAll (inside ++ [.restore id arena.checkpoint])).granted id = _
    rw [performAll_append]
    exact hended.trans (Nat.min_eq_left (hfloor inside List.prefix_rfl))
  -- the body never goes below the offset at the beginning, and the rollback goes back to it
  have hnever : ∀ before, before <+: inside ++ [.restore id arena.checkpoint] →
      s.granted id ≤ (s.performAll before).granted id := by
    intro before hbefore
    rw [granted_eq hslot]
    rcases List.prefix_concat_iff.1 hbefore with rfl | hbefore
    · exact hback.ge
    · exact hfloor before hbefore
  obtain ⟨-, hinUse, htotal⟩ :=
    charged_of_alone hs hb (account?_of_arena hslot) hsingle halone hfit hnever
  rw [hback, granted_eq hslot] at hinUse
  rw [sum_grants_concat, List.map_congr_left fun grant hgrant => length_of_mem_grants hgrant]
    at htotal
  exact ⟨UInt64.toNat_inj.1 (Nat.add_right_cancel hinUse), htotal⟩

end Ends

/-- A scope whose body ends normally, whatever it did short of taking the arena away: with
refused requests, resets, replays, changes of the host, and scopes inside that may be abandoned.
Its end leaves granted the smaller one of what was granted at its start and what the body left,
changes no byte of the buffer, and is told in one line, or in none if the body had rolled back
beyond the start. A body whose calls only roll back to where the arena stood since the start
never goes below what was granted there, and then the scope ends with just that granted; if
nobody else moved bytes on the account meanwhile and its total is a word, it has in use what it
had at the start, and its total has grown by the rounded sizes of the requests that were served.
-/
theorem scopes_are_exact (h : Reached host s)
    (hslot : s.arenas[id]? = some { arena := some arena, account }) (body : List Action)
    (hkept : ∀ call ∈ s.unrollAll body, call.ended? ≠ some id) :
    let inside := s.unrollAll body
    let ending := (s.run body).2
    let after := (s.act (.scope id body false)).2
    ∃ last : Arena,
      ending.arenas[id]? = some { arena := some last, account } ∧
      after.arenas[id]? =
        some { arena := some { last with offset := min arena.used last.used }, account } ∧
      (∀ told, after.log told = ending.log told ++
        if told (.arena id) ∧ arena.used ≤ last.used then
          [.restored (last.used - arena.used) arena.used]
        else []) ∧
      ((∀ before call target, before ++ [call] <+: inside →
          call.move? = some (id, .restore target) → target ∈ Action.askedAll id body →
            StoodAt s id before target) →
        ∀ before, before <+: inside → arena.used.toNat ≤ (s.performAll before).granted id) ∧
      ((∀ before, before <+: inside → arena.used.toNat ≤ (s.performAll before).granted id) →
        min arena.used last.used = arena.used ∧
        (Alone s after id account → after.handedOut account < 2 ^ 64 →
          (after.counters account).inUse = (s.counters account).inUse ∧
          (after.counters account).total.toNat = (s.counters account).total.toNat +
            ((s.grants id inside).map fun grant => roundUp grant.1.toNat).sum)) := by
  intro inside ending after
  have hinside : ∀ call ∈ inside, call.IsSingle := fun _ hin => isSingle_of_mem_unrollAll s body hin
  obtain ⟨last, hlast, hplaced⟩ := snd_act_scope_eq_place hslot hkept
  refine ⟨last, hlast, ?_, ?_, ?_, ?_⟩
  · show (s.act (.scope id body false)).2.arenas[id]? = _
    rw [hplaced]
    exact arenas_place hlast _ _
  · intro told
    show (s.act (.scope id body false)).2.log told = _
    rw [hplaced, log, place, journal_record, eventsFrom_append, eventsFrom_map,
      List.filterMap_append]
    congr 1
    by_cases hle : arena.used ≤ last.used <;> cases told (.arena id) <;>
      simp [hle, Event.logLine?, LogLine.restored]
  · intro hasked before hbefore
    rw [← granted_eq hslot]
    apply granted_le_of_stoodAt hinside ?_ hbefore
    intro earlier call target hearlier hmove
    -- the ends of inner scopes go to where the arena stood; what calls ask for is assumed to
    rcases s.stoodAt_or_asked_of_unrollAll earlier hmove body hearlier with hstood | hin
    · exact hstood
    · exact hasked earlier call target hearlier hmove hin
  · intro hfloor
    have hended := hfloor inside List.prefix_rfl
    rw [← snd_run, granted_eq hlast] at hended
    refine ⟨if_pos (UInt64.le_iff_toNat_le.2 hended), ?_⟩
    have hstays : (s.performAll inside).arenas[id]? = some { arena := some last, account } :=
      s.snd_run body ▸ hlast
    have hcharged := charged_of_scope h hslot hinside hstays hfloor
    rwa [← snd_act_scope hslot] at hcharged

/-- In a scope entered with eight bytes granted, a request is refused in a scope that is
abandoned, what that scope left is rolled back by hand, and another scope ends normally. -/
theorem scopes_are_exact_of_nested :
    let opening : List Action :=
      [.call .openAccount, .call (.lendArena #[1, 2, 3, 4, 5] 40 0), .call (.alloc 0 5)]
    let s := (run { host := Host.standard } opening).2
    let body : List Action :=
      [ .call (.alloc 0 3), .scope 0 [.call (.alloc 0 100), .call (.alloc 0 8)] true,
        .call (.restore 0 ⟨16⟩), .scope 0 [.call (.alloc 0 1)] false,
        .call (.write 0 ⟨8, 8⟩ { fill := some 9 }) ]
    let after := (s.act (.scope 0 body false)).2
    (after.arena? 0).map Arena.used = some 8 ∧
      after.log (fun _ => true) = (s.run body).2.log (fun _ => true) ++ [.restored 8 8] ∧
      (after.counters 0).inUse = (s.counters 0).inUse ∧
      (after.counters 0).total.toNat = (s.counters 0).total.toNat + 24 := by
  intro opening s body after
  have hreached : Reached Host.standard s := ⟨opening, rfl⟩
  have hplace : (s.arena? 0).map Arena.used = some 8 := by decide +kernel
  have howner : s.arenas[0]?.map ArenaSlot.account = some 0 := by decide +kernel
  have hending : ((s.run body).2.arena? 0).map Arena.used = some 16 := by decide +kernel
  have hmark : ((s.performAll [.alloc 0 3]).arena? 0).map Arena.used = some 16 := by decide +kernel
  have hfirst : s.unrollAll body =
      .alloc 0 3 :: (s.act (.call (.alloc 0 3))).2.unrollAll body.tail := rfl
  have hkept : ∀ call ∈ s.unrollAll body, call.ended? ≠ some 0 := by decide +kernel
  obtain ⟨arena, harena, hused⟩ := Option.map_eq_some_iff.1 hplace
  obtain ⟨account, hslot⟩ := arena?_eq_some.1 harena
  obtain rfl : account = 0 := by simpa [hslot] using howner
  obtain ⟨last, hlast, hafter, hlog, hasked, hcharged⟩ :=
    scopes_are_exact hreached hslot body hkept
  have hlastUsed : last.used = 16 := by simpa [arena?_eq_some.2 ⟨0, hlast⟩] using hending
  have hfloor := hasked (by
    intro before call target hbefore hmove htarget
    obtain rfl : target = ⟨16⟩ := by
      simpa [body, Action.askedAll, Action.asked, Call.asked] using htarget
    rw [hfirst] at hbefore
    cases before with
    | nil =>
      obtain rfl : call = .alloc 0 3 := by simpa using hbefore
      cases hmove
    | cons first rest =>
      obtain ⟨rfl, -⟩ := List.cons_prefix_cons.1 hbefore
      obtain ⟨marked, hmarked, hoffset⟩ := Option.map_eq_some_iff.1 hmark
      refine ⟨[.alloc 0 3], by simp, ?_⟩
      simp only [checkpoint, hmarked, Arena.checkpoint, ← hoffset]
      rfl)
  obtain ⟨hmin, hbytes⟩ := hcharged hfloor
  obtain ⟨hinUse, htotal⟩ := hbytes (by unfold Alone; decide +kernel) (by decide +kernel)
  have hsizes :
      ((s.grants 0 (s.unrollAll body)).map fun grant => roundUp grant.1.toNat).sum = 24 := by
    decide +kernel
  refine ⟨?_, ?_, hinUse, htotal.trans (congrArg _ hsizes)⟩
  · have hback : (after.arena? 0).map Arena.used = some (min arena.used last.used) := by
      simp [after, arena?_eq_some.2 ⟨0, hafter⟩, Arena.used]
    rw [hback, hmin, hused]
  · rw [hlog, hused, hlastUsed]
    rfl

end System

end Allotment

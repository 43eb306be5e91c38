import Allotment.Proofs.Arena.Moves
import Allotment.System.Program

set_option autoImplicit false

/-!
A run of actions, with scopes of any depth, replays and batches, is a run of single
calls, each of which moves at most one arena once. The moments of a run are the
systems between these calls; so something that is said of every moment also holds
midway through a scope, a replay or a batch.
-/

namespace Allotment

/-- The call that lets an arena of a system make a move. -/
def ArenaMove.toCall (id : ArenaId) : ArenaMove → Call
  | .alloc size => .alloc id size
  | .restore target => .restore id target
  | .write region edit => .write id region edit

/-- A call that makes no more than one move of an arena. -/
def Call.IsSingle : Call → Prop
  | .replay _ _ | .sumBatch _ _ => False
  | _ => True

/-- The moves of a batch: scratch space, the doubled samples, and the rollback unless
a sample cannot be doubled. -/
def Batch.moves (m : Metered Arena) (samples : List Int32) : List ArenaMove :=
  match m.alloc (UInt64.ofNat (4 * samples.length)) with
  | (.error _, _) =>
    [.alloc (UInt64.ofNat (4 * samples.length)), .restore m.subject.checkpoint]
  | (.ok region, _) =>
    .alloc (UInt64.ofNat (4 * samples.length)) :: .write region { run := scratch samples } ::
      if samples.all isDoublable then [.restore m.subject.checkpoint] else []

/-- A batch does to an arena and its account what its moves do. -/
theorem Batch.snd_sum (m : Metered Arena) (samples : List Int32) :
    (sum m samples).2 = m.moveAll (moves m samples) := by
  unfold sum moves Metered.scope
  generalize UInt64.ofNat (4 * samples.length) = size
  rcases halloc : m.alloc size with ⟨result, after⟩
  have hafter : m.move (.alloc size) = after := congrArg Prod.snd halloc
  cases result with
  | error failure =>
    simp only [halloc]
    rw [← hafter]
    rfl
  | ok region =>
    simp only [halloc]
    rw [← hafter]
    cases hall : samples.all isDoublable <;> rfl

namespace Counters

/-- The counters of all accounts after one of them records events. -/
def bookAll (accounts : Array Counters) (account : AccountId) (events : List Event) :
    Array Counters :=
  accounts.setIfInBounds account (events.foldl note (accounts[account]?.getD {}))

/-- No events change no account. -/
theorem bookAll_nil (accounts : Array Counters) (account : AccountId) :
    bookAll accounts account [] = accounts := by
  unfold bookAll
  by_cases h : account < accounts.size <;> simp [Array.setIfInBounds, h]

/-- Events that an account takes note of one group after the other come to the same as all at
once. -/
theorem bookAll_bookAll (accounts : Array Counters) (account : AccountId)
    (events later : List Event) :
    bookAll (bookAll accounts account events) account later =
      bookAll accounts account (events ++ later) := by
  apply Array.ext_getElem?
  intro i
  unfold bookAll
  by_cases hi : account = i
  · subst hi
    by_cases hopen : account < accounts.size <;> simp [hopen]
  · simp [Array.getElem?_setIfInBounds_ne hi]

end Counters

namespace System

variable {s : System}

/-- An arena that can still be worked with, with the counters of its account. -/
def metered? (s : System) (id : ArenaId) : Option (Metered Arena) :=
  match s.arenas[id]? with
  | some { arena := some arena, account, dropped := false } =>
    some { subject := arena, counters := s.counters account }
  | _ => none

/-- The system after an account and the journal took over announced events. -/
def record (s : System) (source : Source) (account : AccountId) (events : List Event) : System :=
  { s with
    accounts := Counters.bookAll s.accounts account events
    journal := s.journal ++ (events.map (Entry.mk source)).toArray }

/-- The system after the place of an arena took over what is left of it, and its
account and the journal what it announced. -/
def place (s : System) (id : ArenaId) (slot : ArenaSlot) (events : List Event) : System :=
  { s with arenas := s.arenas.setIfInBounds id slot }.record (.arena id) slot.account events

/-- The system after calls in order. -/
def performAll (s : System) (calls : List Call) : System :=
  calls.foldl (fun s call => (s.perform call).2) s

/-- No calls change nothing. -/
@[simp]
theorem performAll_nil (s : System) : s.performAll [] = s :=
  rfl

/-- A run goes on from what its first call left. -/
@[simp]
theorem performAll_cons (s : System) (call : Call) (rest : List Call) :
    s.performAll (call :: rest) = (s.perform call).2.performAll rest :=
  rfl

/-- Calls one after the other are made one after the other. -/
@[simp]
theorem performAll_append (s : System) (first second : List Call) :
    s.performAll (first ++ second) = (s.performAll first).performAll second :=
  List.foldl_append

/-- The single calls of a call: those of the moves of a replay or a batch, and else
the call itself. -/
def unrollCall (s : System) : Call → List Call
  | .replay id sizes =>
    (s.metered? id).elim [] fun m => (m.replayMoves sizes).map (ArenaMove.toCall id)
  | .sumBatch id samples =>
    (s.metered? id).elim [] fun m => (Batch.moves m samples).map (ArenaMove.toCall id)
  | call => [call]

mutual

/-- The single calls that an action comes to: those of the body of a scope, and then its
rollback. -/
def unroll (s : System) : Action → List Call
  | .call call => s.unrollCall call
  | .scope arena body abandoned =>
    match s.checkpoint arena with
    | .error _ => []
    | .ok target => s.unrollAll body ++ if abandoned then [] else [.restore arena target]

/-- The single calls that some actions come to. -/
def unrollAll (s : System) : List Action → List Call
  | [] => []
  | action :: rest => s.unroll action ++ (s.act action).2.unrollAll rest

end

/-- An arena that works on its account is in its place, and the account is the one it reports
to. -/
theorem arenas_of_metered? {id : ArenaId} {m : Metered Arena} (h : s.metered? id = some m) :
    ∃ account, s.arenas[id]? = some { arena := some m.subject, account } ∧
      m = { subject := m.subject, counters := s.counters account } := by
  unfold metered? at h
  split at h
  · rename_i arena account hslot
    obtain rfl := Option.some.inj h
    exact ⟨account, hslot, rfl⟩
  · cases h

/-- Where no arena is that can be worked with, nothing changes. -/
theorem snd_onArena_of_none {α : Type} {id : ArenaId}
    {work : Metered Arena → Outcome α × Metered Arena} (h : s.metered? id = none) :
    (s.onArena id work).2 = s := by
  unfold onArena
  split
  · rename_i arena account hslot
    simp [metered?, hslot] at h
  · rfl

/-- Work of an arena shows in its place, in its account and in the journal. -/
theorem snd_onArena {α : Type} {id : ArenaId} {account : AccountId} {arena after : Arena}
    {events : List Event} {work : Metered Arena → Outcome α × Metered Arena}
    (hslot : s.arenas[id]? = some { arena := some arena, account })
    (hwork : (work { subject := arena, counters := s.counters account }).2 =
      { subject := after
        counters := events.foldl Counters.note (s.counters account)
        events := events.toArray }) :
    (s.onArena id work).2 = s.place id { arena := some after, account } events := by
  simp only [onArena, hslot, hwork, settle, place, record, List.map_toArray]
  rfl

/-- What a place takes over is there afterwards. -/
theorem arenas_place {id : ArenaId} {slot : ArenaSlot} (h : s.arenas[id]? = some slot)
    (next : ArenaSlot) (events : List Event) :
    (s.place id next events).arenas[id]? = some next := by
  have hid : id < s.arenas.size := (Array.getElem?_eq_some_iff.1 h).1
  simp [place, record, hid]

/-- A place that takes over what is there, with nothing announced, changes nothing. -/
theorem place_self {id : ArenaId} {slot : ArenaSlot} (h : s.arenas[id]? = some slot) :
    s.place id slot [] = s := by
  have hslot : s.arenas.setIfInBounds id slot = s.arenas := by
    obtain ⟨hid, rfl⟩ := Array.getElem?_eq_some_iff.1 h
    simp [Array.setIfInBounds, hid]
  simp [place, record, hslot, Counters.bookAll_nil]

/-- What a place takes over later replaces what it took over before, and the account and the
journal take note of both. -/
theorem place_place (s : System) (id : ArenaId) (account : AccountId) (first last : Option Arena)
    (events later : List Event) :
    (s.place id { arena := first, account } events).place id { arena := last, account } later =
      s.place id { arena := last, account } (events ++ later) := by
  have hbooked := Counters.bookAll_bookAll s.accounts account events later
  simp [place, record, hbooked]

/-- A move of an arena of a system is that of the arena alone. -/
theorem snd_perform_toCall {id : ArenaId} {account : AccountId} {arena : Arena}
    (h : s.arenas[id]? = some { arena := some arena, account }) (step : ArenaMove) :
    (s.perform (step.toCall id)).2 =
      s.place id { arena := some (arena.move step), account } (arena.announced step) := by
  have hmove := Metered.move_eq { subject := arena, counters := s.counters account } step
  rw [Array.empty_append] at hmove
  cases step with
  | alloc size =>
    show (s.alloc id size).2 = _
    exact snd_onArena h hmove
  | restore target =>
    show (s.restore id target).2 = _
    exact snd_onArena h hmove
  | write region edit =>
    show (s.write id region edit).2 = _
    exact snd_onArena h hmove

/-- Moves that are made as calls one by one lead an arena where the moves lead it. -/
theorem performAll_toCall {id : ArenaId} {account : AccountId} {arena : Arena}
    (h : s.arenas[id]? = some { arena := some arena, account }) (moves : List ArenaMove) :
    s.performAll (moves.map (ArenaMove.toCall id)) =
      s.place id { arena := some (arena.moveAll moves), account } (arena.announcedAll moves) := by
  induction moves generalizing s arena with
  | nil => exact (place_self h).symm
  | cons step rest ih =>
    rw [List.map_cons, performAll_cons, snd_perform_toCall h, ih (arenas_place h _ _), place_place]
    rfl

/-- Work that leads where moves lead is done by the calls of these moves. -/
theorem snd_onArena_eq_performAll {α : Type} (id : ArenaId)
    {work : Metered Arena → Outcome α × Metered Arena} {moves : Metered Arena → List ArenaMove}
    (hwork : ∀ m, (work m).2 = m.moveAll (moves m)) :
    (s.onArena id work).2 =
      s.performAll ((s.metered? id).elim [] fun m => (moves m).map (ArenaMove.toCall id)) := by
  cases hm : s.metered? id with
  | none => exact snd_onArena_of_none hm
  | some m =>
    obtain ⟨account, hslot, heq⟩ := arenas_of_metered? hm
    have hafter := (hwork m).trans (m.moveAll_eq (moves m))
    rw [Option.elim_some, performAll_toCall hslot]
    apply snd_onArena hslot
    rw [← heq, hafter, heq, Array.empty_append]

/-- A call leads where its single calls lead. -/
theorem snd_perform (s : System) (call : Call) :
    (s.perform call).2 = s.performAll (s.unrollCall call) := by
  cases call with
  | replay id sizes =>
    show (s.replay id sizes).2 = _
    apply snd_onArena_eq_performAll
    intro m
    exact m.replay_eq_moveAll sizes
  | sumBatch id samples =>
    show (s.sumBatch id samples).2 = _
    apply snd_onArena_eq_performAll
    intro m
    exact Batch.snd_sum m samples
  | _ => rfl

/-- A scope of an arena that is there runs its body, and rolls back at its end unless it is
abandoned. -/
theorem act_scope_of_checkpoint {id : ArenaId} {body : List Action} {abandoned : Bool}
    {target : Checkpoint} (htarget : s.checkpoint id = .ok target) :
    s.act (.scope id body abandoned) =
      (.scope (s.run body).1,
        if abandoned then (s.run body).2 else ((s.run body).2.restore id target).2) := by
  simp only [act, htarget]

/-- A scope of an arena that cannot be worked with is not entered. -/
theorem act_scope_of_barred {id : ArenaId} {body : List Action} {abandoned : Bool}
    {refusal : Refusal} (htarget : s.checkpoint id = .error refusal) :
    s.act (.scope id body abandoned) = (.barred refusal, s) := by
  simp only [act, htarget]

mutual

/-- An action leaves the system that its single calls leave. -/
theorem snd_act (s : System) :
    ∀ action : Action, (s.act action).2 = s.performAll (s.unroll action)
  | .call call => s.snd_perform call
  | .scope arena body abandoned => by
    have hbody := s.snd_run body
    unfold act unroll
    cases s.checkpoint arena with
    | error refusal => rfl
    | ok target =>
      cases abandoned with
      | true => simpa using hbody
      | false =>
        simp only [performAll_append, ← hbody]
        rfl

/-- A run leaves the system that its single calls leave, however deep its scopes. -/
theorem snd_run (s : System) :
    ∀ actions : List Action, (s.run actions).2 = s.performAll (s.unrollAll actions)
  | [] => rfl
  | action :: rest => by
    have haction := s.snd_act action
    have hrest := (s.act action).2.snd_run rest
    rw [unrollAll, performAll_append, ← haction, ← hrest]
    rfl

end

/-- A call is unrolled into single ones. -/
theorem isSingle_of_mem_unrollCall {call single : Call} (h : single ∈ s.unrollCall call) :
    single.IsSingle := by
  have hmove : ∀ id (moves : List ArenaMove),
      single ∈ moves.map (ArenaMove.toCall id) → single.IsSingle := by
    intro id moves hmem
    obtain ⟨step, -, rfl⟩ := List.mem_map.1 hmem
    cases step <;> trivial
  cases call with
  | replay id sizes | sumBatch id samples =>
    cases hm : s.metered? id with
    | none => simp [unrollCall, hm] at h
    | some m =>
      simp only [unrollCall, hm, Option.elim_some] at h
      exact hmove id _ h
  | _ =>
    obtain rfl := List.mem_singleton.1 h
    trivial

mutual

/-- An action is unrolled into single calls. -/
theorem isSingle_of_mem_unroll (s : System) {single : Call} :
    ∀ action : Action, single ∈ s.unroll action → single.IsSingle
  | .call call, h => isSingle_of_mem_unrollCall h
  | .scope arena body abandoned, h => by
    have hbody : single ∈ s.unrollAll body → single.IsSingle :=
      s.isSingle_of_mem_unrollAll body
    unfold unroll at h
    cases hmark : s.checkpoint arena with
    | error refusal => simp [hmark] at h
    | ok target =>
      simp only [hmark, List.mem_append] at h
      rcases h with h | h
      · exact hbody h
      · cases abandoned with
        | true => cases h
        | false =>
          obtain rfl := List.mem_singleton.1 h
          trivial

/-- A run is unrolled into single calls. -/
theorem isSingle_of_mem_unrollAll (s : System) {single : Call} :
    ∀ actions : List Action, single ∈ s.unrollAll actions → single.IsSingle
  | [], h => by cases h
  | action :: rest, h => by
    rw [unrollAll, List.mem_append] at h
    rcases h with h | h
    · exact s.isSingle_of_mem_unroll action h
    · exact (s.act action).2.isSingle_of_mem_unrollAll rest h

end

/-- At every moment of an unrolled run the calls so far are single ones. -/
theorem isSingle_of_moment {actions : List Action} {calls : List Call}
    (hmoment : calls <+: s.unrollAll actions) : ∀ call ∈ calls, call.IsSingle := by
  intro call h
  exact s.isSingle_of_mem_unrollAll actions (hmoment.subset h)

/-- A run of single calls is unrolled already. -/
theorem unrollAll_map_call (s : System) {calls : List Call}
    (hsingle : ∀ call ∈ calls, call.IsSingle) : s.unrollAll (calls.map .call) = calls := by
  induction calls generalizing s with
  | nil => rfl
  | cons call rest ih =>
    obtain ⟨hcall, hrest⟩ := List.forall_mem_cons.1 hsingle
    have hone : s.unrollCall call = [call] := by
      cases call with
      | replay _ _ | sumBatch _ _ => exact hcall.elim
      | _ => rfl
    rw [List.map_cons, unrollAll, unroll, hone, ih _ hrest]
    rfl

end System

end Allotment

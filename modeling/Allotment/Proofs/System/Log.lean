import Allotment.Proofs.System.ArenaCalls
import Allotment.Proofs.System.References
import Allotment.Proofs.System.SharedAccount

set_option autoImplicit false

/-!
The log is a ledger. A reader who is told when arenas are rolled back and objects destroyed
can work out from these lines what every arena has granted, how many objects of an account
are gone, and how much of what the account handed out it took back. That holds since a
rollback is told exactly when it is carried out, with what it reclaims, and by nothing else.
-/

namespace Allotment

/-- A line comes from one who can announce it: objects come and go on heaps, and everything
else is told by arenas. -/
def Entry.IsSourced (entry : Entry) : Prop :=
  match entry.source, entry.event with
  | .heap _, .created _ | .heap _, .destroyed _ => True
  | .heap _, _ | .arena _, .created _ | .arena _, .destroyed _ => False
  | .arena _, _ => True

namespace LogLine

/-- The number in a field of a line. -/
def number (name : String) (line : LogLine) : ℕ :=
  match line.fields.lookup name with
  | some (.number n) => n.toNat
  | _ => 0

/-- The line that tells of a rollback. -/
def restored (reclaimed offset : UInt64) : LogLine :=
  ⟨.trace, "arena restored", [("reclaimed", .number reclaimed), ("offset", .number offset)]⟩

/-- Whether a line tells of a rollback. -/
def isRollback (line : LogLine) : Bool :=
  line.message = "arena restored"

/-- Whether a line tells of a destroyed object. -/
def isDestruction (line : LogLine) : Bool :=
  line.message = "refcounted object destroyed"

end LogLine

/-- The lines that tell of rollbacks among some events. -/
def rollbackLines (events : List Event) : List LogLine :=
  (events.filterMap Event.logLine?).filter LogLine.isRollback

/-- The lines that tell of destroyed objects among some events. -/
def destructionLines (events : List Event) : List LogLine :=
  (events.filterMap Event.logLine?).filter LogLine.isDestruction

/-- The rollbacks among two stretches of events are those of the first, then those of the
second. -/
theorem rollbackLines_append (first second : List Event) :
    rollbackLines (first ++ second) = rollbackLines first ++ rollbackLines second := by
  unfold rollbackLines
  rw [List.filterMap_append, List.filter_append]

/-- A rollback is logged with its numbers, and no other event is logged as one. -/
theorem rollbackLines_cons (event : Event) (rest : List Event) :
    rollbackLines (event :: rest) =
      (match event with
        | .restored reclaimed offset => [.restored reclaimed offset]
        | _ => []) ++ rollbackLines rest := by
  cases event <;>
    simp [rollbackLines, List.filterMap_cons, Event.logLine?, LogLine.isRollback, LogLine.restored]

/-- A destroyed object is logged with its size, and no other event is logged as one. -/
theorem destructionLines_cons (event : Event) (rest : List Event) :
    destructionLines (event :: rest) =
      (match event with
        | .destroyed size => [⟨.trace, "refcounted object destroyed", [("size", .number size)]⟩]
        | _ => []) ++ destructionLines rest := by
  cases event <;>
    simp [destructionLines, List.filterMap_cons, Event.logLine?, LogLine.isDestruction]

/-- The reclaimed bytes that are logged add up to those of the events. -/
theorem sum_rollbackLines (events : List Event) :
    ((rollbackLines events).map (LogLine.number "reclaimed")).sum =
      (events.map Event.reclaimedBytes).sum := by
  induction events with
  | nil => rfl
  | cons event rest ih =>
    rw [rollbackLines_cons, List.map_append, List.sum_append, ih, List.map_cons, List.sum_cons]
    cases event <;> rfl

/-- The sizes that are logged of destroyed objects add up to those of the events. -/
theorem sum_destructionLines (events : List Event) :
    ((destructionLines events).map (LogLine.number "size")).sum =
      (events.map (Event.diedWeight UInt64.toNat)).sum := by
  induction events with
  | nil => rfl
  | cons event rest ih =>
    rw [destructionLines_cons, List.map_append, List.sum_append, ih, List.map_cons, List.sum_cons]
    cases event <;> rfl

/-- There is one line for each destroyed object. -/
theorem length_destructionLines (events : List Event) :
    (destructionLines events).length = (events.map Event.deaths).sum := by
  induction events with
  | nil => rfl
  | cons event rest ih =>
    rw [destructionLines_cons, List.length_append, ih, List.map_cons, List.sum_cons]
    cases event <;> rfl

/-- Only the moves of arenas are told as rollbacks. -/
theorem rollbackLines_filter (told : Source → Bool) {entries : List Entry}
    (hsourced : ∀ entry ∈ entries, entry.IsSourced) :
    rollbackLines (eventsFrom told (entries.filter Entry.isArenaMove)) =
      rollbackLines (eventsFrom told entries) := by
  induction entries with
  | nil => rfl
  | cons entry rest ih =>
    obtain ⟨hentry, hrest⟩ := List.forall_mem_cons.1 hsourced
    have hcons : ∀ entries : List Entry, eventsFrom told (entry :: entries) =
        eventsFrom told [entry] ++ eventsFrom told entries :=
      fun entries => eventsFrom_append told [entry] entries
    rw [List.filter_cons]
    split
    · rw [hcons, hcons rest, rollbackLines_append, rollbackLines_append, ih hrest]
    · rename_i hquiet
      have hsilent : rollbackLines (eventsFrom told [entry]) = [] := by
        obtain ⟨source, event⟩ := entry
        cases htold : told source with
        | false => simp [eventsFrom, htold, rollbackLines]
        | true =>
          have hone : eventsFrom told [⟨source, event⟩] = [event] := by simp [eventsFrom, htold]
          rw [hone, rollbackLines_cons]
          cases source <;> cases event <;> first
            | rfl
            | exact hentry.elim
            | exact absurd rfl hquiet
      rw [hcons, rollbackLines_append, hsilent, List.nil_append, ih hrest]

namespace System

variable {s s' : System} {call : Call} {entries : List Entry} {id : ArenaId} {arena : Arena}
  {account : AccountId}

/-- What the log tells of some sources. -/
def log (s : System) (told : Source → Bool) : List LogLine :=
  (eventsFrom told s.journal.toList).filterMap Event.logLine?

/-- The lines of the log that tell of rollbacks. -/
def rollbacks (s : System) (told : Source → Bool) : List LogLine :=
  (s.log told).filter LogLine.isRollback

/-- The lines of the log that tell of destroyed objects. -/
def destructions (s : System) (told : Source → Bool) : List LogLine :=
  (s.log told).filter LogLine.isDestruction

/-- The arenas that report to an account. -/
def arenasOn (s : System) (account : AccountId) : Source → Bool
  | .arena id => s.account? (.arena id) = some account
  | .heap _ => false

/-- The heaps that report to an account. -/
def heapsOn (s : System) (account : AccountId) : Source → Bool
  | .arena _ => false
  | .heap id => s.account? (.heap id) = some account

/-- Every line that a call adds comes from one who can announce it. -/
theorem Stepped.sourced (h : Stepped s call entries s') {entry : Entry} (hentry : entry ∈ entries) :
    entry.IsSourced := by
  cases h with
  | @arenaMoved _ id account arena step hslot =>
    obtain ⟨event, hevent, rfl⟩ := List.mem_map.1 hentry
    have hmoved := arena.moved step
    generalize arena.announced step = events, arena.move step = after at hmoved hevent
    cases hmoved <;> simp_all [Entry.IsSourced]
  | contextAdded hmade =>
    rw [List.mem_cons, List.mem_singleton] at hentry
    rcases hentry with rfl | rfl <;> exact trivial
  | _ => simp_all [Entry.IsSourced]

/-- Every line of the journal of an attained system comes from one who can announce it. -/
theorem Attained.sourced (h : s.Attained) : ∀ entry ∈ s.journal.toList, entry.IsSourced := by
  apply h.kept (P := fun s => ∀ entry ∈ s.journal.toList, entry.IsSourced)
  · intro s s' call entries hsourced hstep entry hentry
    rw [hstep.journal_eq, List.mem_append] at hentry
    rcases hentry with hold | hnew
    · exact hsourced entry hold
    · exact hstep.sourced hnew
  · intro host entry hentry
    simp at hentry

/-- An arena put in its place adds to the log the lines of the events it announces. -/
theorem log_place (s : System) (id : ArenaId) (slot : ArenaSlot) (events : List Event)
    (told : Source → Bool) :
    (s.place id slot events).log told =
      s.log told ++ if told (.arena id) then events.filterMap Event.logLine? else [] := by
  unfold log
  rw [journal_place, eventsFrom_append, eventsFrom_map, List.filterMap_append]
  split <;> rfl

/-- The log tells of a single call the rollback that it makes, and no other. -/
theorem rollbacks_perform (s : System) (hsingle : call.IsSingle) (told : Source → Bool) :
    (s.perform call).2.rollbacks told =
      s.rollbacks told ++ rollbackLines (eventsFrom told (s.arenaLines call)) := by
  obtain ⟨entries, h, hlines⟩ := s.exists_stepped hsingle
  have hgrown : (s.perform call).2.rollbacks told =
      rollbackLines (eventsFrom told (s.perform call).2.journal.toList) := rfl
  rw [hgrown, h.journal_eq, eventsFrom_append, rollbackLines_append, ← hlines,
    rollbackLines_filter told fun entry hentry => h.sourced hentry]
  rfl

/-- A rollback that is carried out is told, with what it reclaims, and leaves the arena where
it says. -/
theorem rollbacks_perform_of_le {target : Checkpoint} (hsingle : call.IsSingle)
    (hmove : call.move? = some (id, .restore target)) (harena : s.arena? id = some arena)
    (hle : target.offset ≤ arena.used) :
    (∀ told, (s.perform call).2.rollbacks told = s.rollbacks told ++
      if told (.arena id) then [.restored (arena.used - target.offset) target.offset] else []) ∧
    (s.perform call).2.granted id = target.offset.toNat := by
  constructor
  · intro told
    rw [s.rollbacks_perform hsingle, eventsFrom_arenaLines told hmove, harena, Option.elim_some,
      Arena.announced_restore, if_pos hle]
    split <;> rfl
  · obtain ⟨account, hslot⟩ := arena?_eq_some.1 harena
    rw [granted_perform_of_restore hsingle hmove harena, granted_eq hslot]
    exact Nat.min_eq_left (UInt64.le_iff_toNat_le.1 hle)

/-- Nothing else is told as a rollback. -/
theorem rollbacks_perform_of_not_le (hsingle : call.IsSingle)
    (hnone : ∀ id target arena, call.move? = some (id, .restore target) →
      s.arena? id = some arena → arena.used < target.offset) (told : Source → Bool) :
    (s.perform call).2.rollbacks told = s.rollbacks told := by
  suffices hsilent : rollbackLines (eventsFrom told (s.arenaLines call)) = [] by
    rw [s.rollbacks_perform hsingle, hsilent, List.append_nil]
  cases hmove : call.move? with
  | none => simp [arenaLines, hmove, eventsFrom, rollbackLines]
  | some move =>
    obtain ⟨id, step⟩ := move
    rw [eventsFrom_arenaLines told hmove]
    cases harena : s.arena? id with
    | none => simp [rollbackLines]
    | some arena =>
      split
      · have hmoved := arena.moved step
        rw [Option.elim_some]
        generalize arena.announced step = events, arena.move step = after at hmoved
        cases hmoved with
        | granted | refused | ignored | written | missed => rfl
        | @rolled target hle =>
          have hlt := UInt64.lt_iff_toNat_lt.1 (hnone id target arena hmove harena)
          exact absurd hle (Nat.not_le_of_lt hlt)
      · rfl

/-- What an account records of a kind of event is what the log tells of those who announce
that kind on the account. -/
theorem sum_eventsIn_eq {f : Event → ℕ} (hquiet : ∀ event, event.charge? = none → f event = 0)
    (told : Source → Bool) {entries : List Entry}
    (htold : ∀ entry ∈ entries, f entry.event ≠ 0 →
      (told entry.source = true ↔ s.account? entry.source = some account)) :
    ((s.eventsIn account entries).map f).sum = ((eventsFrom told entries).map f).sum := by
  induction entries with
  | nil => rfl
  | cons entry rest ih =>
    obtain ⟨hentry, hrest⟩ := List.forall_mem_cons.1 htold
    have hone :
        ((s.eventsIn account [entry]).map f).sum = ((eventsFrom told [entry]).map f).sum := by
      rw [sum_eventsIn_singleton hquiet]
      by_cases hzero : f entry.event = 0
      · cases h : told entry.source <;> simp [eventsFrom, h, hzero]
      · by_cases hknown : s.account? entry.source = some account
        · simp [eventsFrom, hknown, (hentry hzero).2 hknown]
        · have hother : told entry.source = false := by
            simpa using fun h => hknown ((hentry hzero).1 h)
          simp [eventsFrom, hknown, hother]
    have hin := s.eventsIn_append account [entry] rest
    have hfrom := eventsFrom_append told [entry] rest
    rw [List.singleton_append] at hin hfrom
    rw [hin, hfrom, List.map_append, List.map_append, List.sum_append, List.sum_append, hone,
      ih hrest]

/-- The objects that an account saw destroyed are those that the log tells of its heaps. -/
theorem sum_diedWeight_eq (hsourced : ∀ entry ∈ s.journal.toList, entry.IsSourced)
    (account : AccountId) (weight : UInt64 → ℕ) :
    ((s.eventsOf account).map (Event.diedWeight weight)).sum =
      ((eventsFrom (s.heapsOn account) s.journal.toList).map (Event.diedWeight weight)).sum := by
  apply sum_eventsIn_eq fun _ h => (Event.weights_of_quiet h weight).2.2.2
  rintro ⟨source, event⟩ hentry hnonzero
  have hfrom := hsourced _ hentry
  cases source <;> cases event <;> simp_all [Event.diedWeight, Entry.IsSourced, heapsOn]

/-- The objects destroyed on an account are as many as the lines that tell of them. -/
theorem destroyedOn_eq (hsourced : ∀ entry ∈ s.journal.toList, entry.IsSourced)
    (account : AccountId) :
    s.destroyedOn account = (s.destructions (s.heapsOn account)).length :=
  (sum_diedWeight_eq hsourced account _).trans (length_destructionLines _).symm

/-- What an account took back is what the log tells of its arenas and heaps. -/
theorem takenBack_eq (hsourced : ∀ entry ∈ s.journal.toList, entry.IsSourced)
    (account : AccountId) :
    s.takenBack account =
      ((s.rollbacks (s.arenasOn account)).map (LogLine.number "reclaimed")).sum +
        ((s.destructions (s.heapsOn account)).map (LogLine.number "size")).sum := by
  have hreclaimed : ((s.eventsOf account).map Event.reclaimedBytes).sum =
      ((s.rollbacks (s.arenasOn account)).map (LogLine.number "reclaimed")).sum := by
    refine Eq.trans ?_ (sum_rollbackLines _).symm
    apply sum_eventsIn_eq fun _ h => (Event.weights_of_quiet h UInt64.toNat).2.1
    rintro ⟨source, event⟩ hentry hnonzero
    have hfrom := hsourced _ hentry
    cases source <;> cases event <;> simp_all [Event.reclaimedBytes, Entry.IsSourced, arenasOn]
  have hdied : ((s.eventsOf account).map (Event.diedWeight UInt64.toNat)).sum =
      ((s.destructions (s.heapsOn account)).map (LogLine.number "size")).sum :=
    (sum_diedWeight_eq hsourced account _).trans (sum_destructionLines _).symm
  have hout : Event.bytesOut =
      fun event => event.reclaimedBytes + event.diedWeight UInt64.toNat :=
    funext Event.bytesOut_eq
  unfold takenBack
  rw [hout, List.sum_map_add, hreclaimed, hdied]

/-- The log of a run is a ledger of it, at every moment, also midway through a scope, a replay
or a batch, and wherever the host changes. What an arena has granted, also one that was dropped,
and what its rollbacks are told to have reclaimed, make up the regions that its requests were
served. A rollback to a checkpoint that is not beyond what is granted is told once, with what it
reclaims, even if that is nothing, and leaves the arena where it says; no other call is told as
a rollback. As long as the counts of an account are words, it has seen as many objects destroyed
as the log tells of its heaps, and what it handed out is in use or was, as the log tells,
reclaimed by its arenas or left by destroyed objects. Heaps are numbered by words, so no two
heaps are taken for one another as long as there are less than `2 ^ 64` of them. -/
theorem log_is_ledger (host : Host) (actions : List Action) {calls : List Call}
    (hmoment : calls <+: ({ host } : System).unrollAll actions) :
    let s := ({ host } : System).performAll calls
    (∀ id, s.granted id +
        ((s.rollbacks (· = .arena id)).map (LogLine.number "reclaimed")).sum =
      ((({ host } : System).grants id calls).map fun grant => grant.2.length.toNat).sum) ∧
    (∀ call : Call, call.IsSingle →
      let after := (s.perform call).2
      (∀ id target arena, call.move? = some (id, .restore target) → s.arena? id = some arena →
        target.offset ≤ arena.used →
          (∀ told, after.rollbacks told = s.rollbacks told ++
            if told (.arena id) then [.restored (arena.used - target.offset) target.offset]
            else []) ∧
          after.granted id = target.offset.toNat) ∧
      ((∀ id target arena, call.move? = some (id, .restore target) → s.arena? id = some arena →
        arena.used < target.offset) → ∀ told, after.rollbacks told = s.rollbacks told)) ∧
    ∀ account,
      ((s.destructions (s.heapsOn account)).length < 2 ^ 64 →
        (s.counters account).destroyed.toNat = (s.destructions (s.heapsOn account)).length) ∧
      (s.handedOut account < 2 ^ 64 → s.heaps.size < 2 ^ 64 →
        (s.counters account).total.toNat = (s.counters account).inUse.toNat +
          ((s.rollbacks (s.arenasOn account)).map (LogLine.number "reclaimed")).sum +
          ((s.destructions (s.heapsOn account)).map (LogLine.number "size")).sum) := by
  intro s
  have hsingle := isSingle_of_moment hmoment
  have hs : s.Attained := attained_performAll host calls
  refine ⟨?_, ?_, ?_⟩
  · intro id
    have hbooks := granted_performAll { host } id hsingle
    -- at first nothing is granted and nothing was reclaimed
    have hempty : ({ host } : System).granted id + ({ host } : System).reclaimed id = 0 := by
      simp [granted, reclaimed, eventsFrom]
    rw [hempty, Nat.zero_add] at hbooks
    rw [← hbooks]
    exact congrArg _ (sum_rollbackLines _)
  · intro call hcall after
    exact ⟨fun id target arena hmove harena hle =>
      rollbacks_perform_of_le hcall hmove harena hle, rollbacks_perform_of_not_le hcall⟩
  · intro account
    constructor
    · intro hfew
      have hcounters : (s.counters account).destroyed.toNat = s.destroyedOn account % 2 ^ 64 := by
        rw [hs.counters_eq]
        exact (Counters.toNat_foldl_note_objects _).2
      rw [hcounters, destroyedOn_eq hs.sourced, Nat.mod_eq_of_lt hfew]
    · intro hfit hdistinct
      have hb := balanced_performAll host account hsingle hfit hdistinct
      rw [hb.total, hb.inUse, Nat.add_assoc, ← takenBack_eq hs.sourced]
      exact hb.conserved

/-- An object is destroyed in a scope with a scope inside that is abandoned; the trace replayed
after it needs a reset, and has a size in it that never fits. Then the buffer is given back. -/
theorem log_is_ledger_of_scopes :
    let actions : List Action :=
      [ .call .openAccount, .call (.lendArena #[1, 2, 3] 24 0), .call (.openHeap 0),
        .call (.create 0 10),
        .scope 0
          [.call (.alloc 0 7), .scope 0 [.call (.alloc 0 1)] true, .call (.release 0 0)] false,
        .call (.replay 0 [20, 30, 8]) ]
    let calls := ({ host := Host.standard } : System).unrollAll actions
    let s := ({ host := Host.standard } : System).performAll calls
    let after := (s.perform (.giveBack 0)).2
    (s.granted 0 = 8 ∧ s.granted 0 +
        ((s.rollbacks (· = .arena 0)).map (LogLine.number "reclaimed")).sum = 48) ∧
      (after.rollbacks (fun _ => true) = s.rollbacks (fun _ => true) ++ [.restored 8 0] ∧
        after.granted 0 = 0) ∧
      (s.perform (.restore 0 ⟨16⟩)).2.rollbacks (fun _ => true) = s.rollbacks (fun _ => true) ∧
      (s.counters 0).destroyed.toNat = (s.destructions (s.heapsOn 0)).length ∧
      (s.counters 0).total.toNat = (s.counters 0).inUse.toNat + 40 + 10 := by
  intro actions calls s after
  obtain ⟨hbooks, hcall, haccounts⟩ :=
    log_is_ledger Host.standard actions (List.prefix_rfl (l := calls))
  have hplace : (s.arena? 0).map Arena.used = some 8 := by decide +kernel
  obtain ⟨arena, harena, hused⟩ := Option.map_eq_some_iff.1 hplace
  have hgrants : ((({ host := Host.standard } : System).grants 0 calls).map
      fun grant => grant.2.length.toNat).sum = 48 := by decide +kernel
  have hreturned := (hcall (.giveBack 0) trivial).1 0 ⟨0⟩ arena rfl harena (by simp [hused])
  rw [hused] at hreturned
  have hignored := (hcall (.restore 0 ⟨16⟩) trivial).2 fun id target found hmove hfound => by
    obtain ⟨rfl, rfl⟩ : 0 = id ∧ ⟨16⟩ = target := by simpa [Call.move?] using hmove
    obtain rfl := Option.some.inj (harena.symm.trans hfound)
    rw [hused]
    decide
  obtain ⟨hdestroyed, htotal⟩ := haccounts 0
  have hsums : ((s.rollbacks (s.arenasOn 0)).map (LogLine.number "reclaimed")).sum = 40 ∧
      ((s.destructions (s.heapsOn 0)).map (LogLine.number "size")).sum = 10 := by decide +kernel
  rw [hsums.1, hsums.2] at htotal
  refine ⟨⟨by decide +kernel, (hbooks 0).trans hgrants⟩, ⟨hreturned.1 _, hreturned.2⟩,
    hignored _, hdestroyed (by decide +kernel), htotal (by decide +kernel) (by decide +kernel)⟩

end System

end Allotment

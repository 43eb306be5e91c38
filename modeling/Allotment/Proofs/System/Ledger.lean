import Allotment.Proofs.System.Objects
import Mathlib.Algebra.BigOperators.Group.Finset.Basic

set_option autoImplicit false

/-!
The ledger of an account. What is outstanding on an account is what its arenas have
granted, unless they gave their buffers back, and the sizes of the objects its heaps
created that are not destroyed. A dropped arena counts with what it had granted when it
was dropped. Every step changes it by what is announced on the
account, so the counters of the account can be read off the arenas and the objects,
whoever shares the account and however the run went on.
-/

namespace Allotment

open Finset

/-- A sum after one of its terms changed. -/
theorem sum_range_update {f g : ℕ → ℕ} {n k : ℕ} (hk : k < n)
    (h : ∀ i, i < n → i ≠ k → f i = g i) :
    ∑ i ∈ range n, f i + g k = ∑ i ∈ range n, g i + f k := by
  have hmem := mem_range.2 hk
  have hrest : ∑ i ∈ (range n).erase k, f i = ∑ i ∈ (range n).erase k, g i := by
    apply sum_congr rfl
    intro i hi
    exact h i (mem_range.1 (mem_of_mem_erase hi)) (ne_of_mem_erase hi)
  rw [← add_sum_erase _ f hmem, ← add_sum_erase _ g hmem, hrest]
  omega

/-- The bytes that are granted of the arena in a place, or were when it was dropped. -/
def ArenaSlot.granted (slot : ArenaSlot) : ℕ :=
  slot.arena.elim 0 fun arena => arena.used.toNat

namespace System

variable {s s' : System} {call : Call} {entries : List Entry}

/-- The bytes of an account that the arena in a place has granted. -/
def arenaShare (s : System) (account : AccountId) (i : ArenaId) : ℕ :=
  s.arenas[i]?.elim 0 fun slot => if slot.account = account then slot.granted else 0

/-- The weight of an object that a heap of an account created; nothing is left of it
when it is destroyed. -/
def objectShare (s : System) (account : AccountId) (weight : UInt64 → ℕ) (k : ObjectId) : ℕ :=
  if s.owner? k = some account then (s.store.object? k).elim 0 fun object => weight object.size
  else 0

/-- The bytes that the arenas of an account have granted. -/
def inArenas (s : System) (account : AccountId) : ℕ :=
  ∑ i ∈ range s.arenas.size, s.arenaShare account i

/-- The sum of a weight over the objects of an account that are not destroyed. -/
def sumObjects (s : System) (account : AccountId) (weight : UInt64 → ℕ) : ℕ :=
  ∑ k ∈ range s.store.objects.size, s.objectShare account weight k

/-- The bytes that are granted or allocated on an account and not given back. -/
def outstanding (s : System) (account : AccountId) : ℕ :=
  s.inArenas account + s.sumObjects account UInt64.toNat

/-- A new place of an arena adds what it has granted to its account. -/
theorem inArenas_push (s : System) (slot : ArenaSlot) (account : AccountId) :
    ({ s with arenas := s.arenas.push slot } : System).inArenas account =
      s.inArenas account + if slot.account = account then slot.granted else 0 := by
  have hsize : (s.arenas.push slot).size = s.arenas.size + 1 := Array.size_push _
  unfold inArenas
  simp only [hsize, sum_range_succ]
  congr 1
  · apply sum_congr rfl
    intro i hi
    have hne : i ≠ s.arenas.size := (mem_range.1 hi).ne
    simp only [arenaShare, Array.getElem?_push, hne, if_false]
  · simp [arenaShare]

/-- A new arena has granted nothing yet. -/
theorem inArenas_push_made {bytes : Bytes} {capacity : UInt64} {arena : Arena}
    (hmade : Arena.ofBytes bytes capacity = .ok arena) (s : System) (owner account : AccountId) :
    ({ s with arenas := s.arenas.push ⟨arena, owner, false⟩ } : System).inArenas account =
      s.inArenas account := by
  have hempty : (ArenaSlot.mk (some arena) owner false).granted = 0 := by
    rw [(Arena.ofBytes_eq_ok hmade).2]
    rfl
  rw [inArenas_push, hempty, ite_self, Nat.add_zero]

/-- What is left of an arena takes the place of what the arena had granted on its account. -/
theorem inArenas_place {id : ArenaId} {arena : Arena} {account : AccountId}
    (hslot : s.arenas[id]? = some { arena := some arena, account }) (left : Option Arena)
    (dropped : Bool) (events : List Event) (other : AccountId) :
    (s.place id ⟨left, account, dropped⟩ events).inArenas other +
        (if account = other then arena.used.toNat else 0) =
      s.inArenas other +
        if account = other then (ArenaSlot.mk left account dropped).granted else 0 := by
  have hid := (Array.getElem?_eq_some_iff.1 hslot).1
  have hsize : (s.place id ⟨left, account, dropped⟩ events).arenas.size = s.arenas.size :=
    Array.size_setIfInBounds
  have hsame : ∀ i, i < s.arenas.size → i ≠ id →
      (s.place id ⟨left, account, dropped⟩ events).arenaShare other i = s.arenaShare other i := by
    intro i _ hi
    unfold arenaShare
    rw [show (s.place id ⟨left, account, dropped⟩ events).arenas[i]? = s.arenas[i]? from
      Array.getElem?_setIfInBounds_ne (Ne.symm hi)]
  have hupdate := sum_range_update hid hsame
  have hold : s.arenaShare other id = if account = other then arena.used.toNat else 0 := by
    unfold arenaShare
    rw [hslot]
    rfl
  have hnew : (s.place id ⟨left, account, dropped⟩ events).arenaShare other id =
      if account = other then (ArenaSlot.mk left account dropped).granted else 0 := by
    unfold arenaShare
    rw [arenas_place hslot]
    rfl
  unfold inArenas
  rw [hsize, ← hold, ← hnew, hupdate]

/-- What an account does not record weighs nothing. -/
theorem sum_eventsIn_map {f : Event → ℕ} (hquiet : ∀ event, event.charge? = none → f event = 0)
    (s : System) (account : AccountId) (source : Source) (events : List Event) :
    ((s.eventsIn account (events.map (Entry.mk source))).map f).sum =
      if s.account? source = some account then (events.map f).sum else 0 := by
  rw [eventsIn_map]
  split
  · induction events with
    | nil => rfl
    | cons event rest ih =>
      cases hcharge : event.charge? with
      | none =>
        rw [List.filter_cons_of_neg (by simp [hcharge]), ih, List.map_cons, List.sum_cons,
          hquiet event hcharge, Nat.zero_add]
      | some charge =>
        rw [List.filter_cons_of_pos (by simp [hcharge]), List.map_cons, List.map_cons,
          List.sum_cons, List.sum_cons, ih]
  · rfl

/-- What an arena announces in its place is handed out on its account. -/
theorem handedOut_place {id : ArenaId} {arena : Arena} {account : AccountId}
    (hslot : s.arenas[id]? = some { arena := some arena, account }) (left : Option Arena)
    (events : List Event) :
    (s.place id { arena := left, account } events).handedOut account =
      s.handedOut account + (events.map Event.bytesIn).sum := by
  have hsame : (s.place id { arena := left, account } events).eventsIn account s.journal.toList =
      s.eventsOf account := by
    unfold eventsIn eventsOf
    simp only [account?_place hslot]
    rfl
  have hquiet : ∀ event : Event, event.charge? = none → event.bytesIn = 0 := by
    intro event h
    rw [event.bytesIn_eq, (Event.weights_of_quiet h UInt64.toNat).1,
      (Event.weights_of_quiet h UInt64.toNat).2.2.1]
  unfold handedOut
  rw [eventsOf, journal_place, eventsIn_append, hsame, List.map_append, List.sum_append,
    sum_eventsIn_map hquiet, account?_place hslot, account?_of_arena hslot, if_pos rfl]

/-- One event counts on the account of its source only. -/
theorem sum_eventsIn_singleton {f : Event → ℕ}
    (hquiet : ∀ event, event.charge? = none → f event = 0) (s : System) (account : AccountId)
    (source : Source) (event : Event) :
    ((s.eventsIn account [⟨source, event⟩]).map f).sum =
      if s.account? source = some account then f event else 0 := by
  have hsum := sum_eventsIn_map hquiet s account source [event]
  rwa [List.map_singleton, List.map_singleton, List.sum_singleton] at hsum

/-- Events that count for nothing add up to nothing. -/
theorem sum_eventsIn_eq_zero {f : Event → ℕ} (s : System) (account : AccountId)
    {entries : List Entry} (h : ∀ entry ∈ entries, f entry.event = 0) :
    ((s.eventsIn account entries).map f).sum = 0 := by
  apply List.sum_eq_zero
  intro n hn
  obtain ⟨event, hevent, rfl⟩ := List.mem_map.1 hn
  obtain ⟨entry, hentry, hsome⟩ := List.mem_filterMap.1 hevent
  split at hsome
  · obtain rfl := Option.some.inj hsome
    exact h entry hentry
  · cases hsome

/-- The moves of arenas concern no objects. -/
theorem objects_of_announced {arena : Arena} {step : ArenaMove} {event : Event}
    (h : event ∈ arena.announced step) (weight : UInt64 → ℕ) :
    event.bornWeight weight = 0 ∧ event.diedWeight weight = 0 := by
  have hmoved := arena.moved step
  generalize arena.announced step = events, arena.move step = after at hmoved h
  cases hmoved <;> simp_all [Event.bornWeight, Event.diedWeight]

/-- What an arena has granted after a move balances with what the move reclaimed and granted. -/
theorem offset_move_eq (arena : Arena) (step : ArenaMove) :
    (arena.move step).used.toNat + ((arena.announced step).map Event.reclaimedBytes).sum =
      arena.used.toNat + ((arena.announced step).map Event.grantedBytes).sum := by
  have hin : (arena.announced step).map Event.bytesIn =
      (arena.announced step).map Event.grantedBytes := by
    apply List.map_congr_left
    intro event hevent
    rw [event.bytesIn_eq, (objects_of_announced hevent _).1, Nat.add_zero]
  have hout : (arena.announced step).map Event.bytesOut =
      (arena.announced step).map Event.reclaimedBytes := by
    apply List.map_congr_left
    intro event hevent
    rw [event.bytesOut_eq, (objects_of_announced hevent _).2, Nat.add_zero]
  rw [← hin, ← hout]
  exact arena.offset_move step

/-- An arena that changes in its place by what it announces changes what its account
has in arenas by that. -/
theorem inArenas_place_eq {id : ArenaId} {arena : Arena} {account : AccountId} {dropped : Bool}
    (hslot : s.arenas[id]? = some { arena := some arena, account }) {left : Option Arena}
    {events : List Event}
    (hbalance : (ArenaSlot.mk left account dropped).granted +
        (events.map Event.reclaimedBytes).sum =
      arena.used.toNat + (events.map Event.grantedBytes).sum) (other : AccountId) :
    (s.place id ⟨left, account, dropped⟩ events).inArenas other +
        (((s.place id ⟨left, account, dropped⟩ events).eventsIn other
          (events.map (Entry.mk (.arena id)))).map Event.reclaimedBytes).sum =
      s.inArenas other +
        (((s.place id ⟨left, account, dropped⟩ events).eventsIn other
          (events.map (Entry.mk (.arena id)))).map Event.grantedBytes).sum := by
  have hsum := inArenas_place hslot left dropped events other
  have hknown := (account?_place hslot left dropped events _).trans (account?_of_arena hslot)
  rw [sum_eventsIn_map fun _ h => (Event.weights_of_quiet h UInt64.toNat).1,
    sum_eventsIn_map fun _ h => (Event.weights_of_quiet h UInt64.toNat).2.1, hknown]
  by_cases hother : account = other
  · simp only [hother, if_true] at hsum hbalance ⊢
    omega
  · have hother' : some account ≠ some other := by
      intro h
      exact hother (Option.some.inj h)
    simp only [hother, hother', if_false] at hsum ⊢
    omega

/-- The arenas of an account fill and empty by what is announced on it. -/
theorem Stepped.inArenas_eq (h : Stepped s call entries s') (account : AccountId) :
    s'.inArenas account + ((s'.eventsIn account entries).map Event.reclaimedBytes).sum =
      s.inArenas account + ((s'.eventsIn account entries).map Event.grantedBytes).sum := by
  cases h with
  | @arenaAdded _ bytes capacity arena owner hopen hmade =>
    rw [sum_eventsIn_eq_zero _ _ (by simp [Event.reclaimedBytes]),
      sum_eventsIn_eq_zero _ _ (by simp [Event.grantedBytes])]
    exact inArenas_push_made hmade s owner account
  | @contextAdded _ bytes capacity arena hmade =>
    rw [sum_eventsIn_eq_zero _ _ (by simp [Event.reclaimedBytes]),
      sum_eventsIn_eq_zero _ _ (by simp [Event.grantedBytes])]
    exact inArenas_push_made hmade s s.accounts.size account
  | @arenaMoved _ id owner arena step hslot =>
    have hbalance : (ArenaSlot.mk (some (arena.move step)) owner false).granted + _ = _ :=
      offset_move_eq arena step
    exact inArenas_place_eq hslot hbalance account
  | @bufferReturned id owner arena hslot =>
    have hbalance : (ArenaSlot.mk none owner false).granted +
        ([Event.restored arena.offset 0].map Event.reclaimedBytes).sum =
        arena.used.toNat + ([Event.restored arena.offset 0].map Event.grantedBytes).sum := by
      simp [ArenaSlot.granted, Event.reclaimedBytes, Event.grantedBytes, Arena.used]
    exact inArenas_place_eq hslot hbalance account
  | @arenaDropped id owner arena hslot =>
    -- what the arena had granted stays in its place
    have hbalance : (ArenaSlot.mk (some arena) owner true).granted +
        (([] : List Event).map Event.reclaimedBytes).sum =
        arena.used.toNat + (([] : List Event).map Event.grantedBytes).sum := rfl
    exact inArenas_place_eq hslot hbalance account
  | objectCreated hheap =>
    rw [sum_eventsIn_eq_zero _ _ (by simp [Event.reclaimedBytes]),
      sum_eventsIn_eq_zero _ _ (by simp [Event.grantedBytes])]
    rfl
  | objectDestroyed hheap htoken hobject hlast =>
    rw [sum_eventsIn_eq_zero _ _ (by simp [Event.reclaimedBytes]),
      sum_eventsIn_eq_zero _ _ (by simp [Event.grantedBytes])]
    rfl
  | _ => rfl

/-- The sum over the objects of an account does not change with what neither moves objects
between accounts nor changes their sizes. -/
theorem sumObjects_congr {account : AccountId} {weight : UInt64 → ℕ}
    (hsize : s'.store.objects.size = s.store.objects.size)
    (howner : ∀ k, k < s.store.objects.size → s'.owner? k = s.owner? k)
    (hobject : ∀ k, (s'.store.object? k).map Object.size = (s.store.object? k).map Object.size) :
    s'.sumObjects account weight = s.sumObjects account weight := by
  unfold sumObjects
  rw [hsize]
  apply sum_congr rfl
  intro k hk
  have hweight : ∀ found : Option Object, found.elim 0 (fun object => weight object.size) =
      (found.map Object.size).elim 0 weight := by
    rintro (_ | object) <;> rfl
  unfold objectShare
  rw [howner k (mem_range.1 hk), hweight, hweight, hobject]

/-- An object that takes the place of one of its size leaves all sizes as they are. -/
theorem map_size_put {store : Store} {k : ObjectId} {object next : Object}
    (hobject : store.object? k = some object) (hsize : next.size = object.size) (j : ObjectId) :
    ((store.put k (some next)).object? j).map Object.size = (store.object? j).map Object.size := by
  rw [Store.object?_put (Store.lt_size_of_object? hobject)]
  split
  · rename_i hj
    subst hj
    rw [hobject, Option.map_some, Option.map_some, hsize]
  · rfl

/-- A new object weighs on the account of its heap. -/
theorem sumObjects_created (hs : s.Coherent) (hr : s.Recorded) {id : HeapId} {heap : Heap}
    {size : UInt64} (hheap : s.heaps[id]? = some heap)
    (h : Stepped s call [⟨.heap id, .created size⟩] s')
    (hstore : s'.store = (s.addObject (Object.fresh size)).store) (account : AccountId)
    (weight : UInt64 → ℕ) :
    s'.sumObjects account weight +
        ((s'.eventsIn account [⟨.heap id, .created size⟩]).map (Event.diedWeight weight)).sum =
      s.sumObjects account weight +
        ((s'.eventsIn account [⟨.heap id, .created size⟩]).map (Event.bornWeight weight)).sum := by
  have hsize : s'.store.objects.size = s.store.objects.size + 1 := h.size_objects
  have hobject : ∀ k, s'.store.object? k =
      if k = s.store.objects.size then some (Object.fresh size) else s.store.object? k := by
    intro k
    rw [hstore, object?_addObject]
  have howner : s'.owner? s.store.objects.size = some heap.account := by
    unfold owner?
    rw [h.births_eq, ← hr.born]
    simpa [Entry.birth?] using h.account?_eq (account?_of_heap hheap)
  have hnew : s'.objectShare account weight s.store.objects.size =
      if some heap.account = some account then weight size else 0 := by
    unfold objectShare
    rw [howner, hobject, if_pos rfl]
    rfl
  have hold : ∑ k ∈ range s.store.objects.size, s'.objectShare account weight k =
      s.sumObjects account weight := by
    apply sum_congr rfl
    intro k hk
    have hlt := mem_range.1 hk
    unfold objectShare
    rw [h.owner?_eq hs (hr.born ▸ hlt), hobject, if_neg hlt.ne]
  rw [sum_eventsIn_eq_zero _ _ (by simp [Event.diedWeight]),
    sum_eventsIn_singleton (fun _ h => (Event.weights_of_quiet h weight).2.2.1),
    h.account?_eq (account?_of_heap hheap)]
  unfold sumObjects
  rw [hsize, sum_range_succ, hold, hnew]
  rfl

/-- An object that is destroyed leaves the sum over its account by its weight. -/
theorem sumObjects_destroyed (hs : s.Coherent) (hr : s.Recorded) {id : HeapId} {heap : Heap}
    {k : ObjectId} {object : Object} (hheap : s.heaps[id]? = some heap)
    (hobject : s.store.object? k = some object) (howner : s.owner? k = some heap.account)
    (h : Stepped s call [⟨.heap id, .destroyed object.size⟩] s')
    (hstore : s'.store = s.store.put k none) (account : AccountId) (weight : UInt64 → ℕ) :
    s'.sumObjects account weight +
        ((s'.eventsIn account [⟨.heap id, .destroyed object.size⟩]).map
          (Event.diedWeight weight)).sum =
      s.sumObjects account weight +
        ((s'.eventsIn account [⟨.heap id, .destroyed object.size⟩]).map
          (Event.bornWeight weight)).sum := by
  have hk := Store.lt_size_of_object? hobject
  have hafter : ∀ j, s'.store.object? j = if j = k then none else s.store.object? j := by
    intro j
    rw [hstore, Store.object?_put hk]
  have hsize : s'.store.objects.size = s.store.objects.size := by
    rw [hstore, Store.size_put]
  have hgone : s'.objectShare account weight k = 0 := by
    unfold objectShare
    rw [hafter, if_pos rfl]
    exact ite_self 0
  have hwas : s.objectShare account weight k =
      if some heap.account = some account then weight object.size else 0 := by
    unfold objectShare
    rw [howner, hobject]
    rfl
  have hsame : ∀ j, j < s.store.objects.size → j ≠ k →
      s'.objectShare account weight j = s.objectShare account weight j := by
    intro j hlt hj
    unfold objectShare
    rw [h.owner?_eq hs (hr.born ▸ hlt), hafter, if_neg hj]
  have hupdate := sum_range_update hk hsame
  rw [sum_eventsIn_singleton (fun _ h => (Event.weights_of_quiet h weight).2.2.2),
    sum_eventsIn_eq_zero _ _ (by simp [Event.bornWeight]),
    h.account?_eq (account?_of_heap hheap)]
  unfold sumObjects
  rw [hsize]
  rw [hwas, hgone] at hupdate
  exact hupdate

/-- The objects of an account come and go by what is announced on it, as long as no
two heaps have the same number. -/
theorem Stepped.sumObjects_eq (h : Stepped s call entries s') (hs : s.Coherent)
    (hr : s.Recorded) (hattributed : s.Attributed) (account : AccountId)
    (weight : UInt64 → ℕ) :
    s'.sumObjects account weight +
        ((s'.eventsIn account entries).map (Event.diedWeight weight)).sum =
      s.sumObjects account weight +
        ((s'.eventsIn account entries).map (Event.bornWeight weight)).sum := by
  have hquiet : s'.store.objects.size = s.store.objects.size →
      (∀ k, (s'.store.object? k).map Object.size = (s.store.object? k).map Object.size) →
      (∀ entry ∈ entries, entry.event.bornWeight weight = 0 ∧
        entry.event.diedWeight weight = 0) →
      s'.sumObjects account weight +
          ((s'.eventsIn account entries).map (Event.diedWeight weight)).sum =
        s.sumObjects account weight +
          ((s'.eventsIn account entries).map (Event.bornWeight weight)).sum := by
    intro hsize hobject hentries
    have howner : ∀ k, k < s.store.objects.size → s'.owner? k = s.owner? k := by
      intro k hk
      exact h.owner?_eq hs (hr.born ▸ hk)
    rw [sumObjects_congr hsize howner hobject,
      sum_eventsIn_eq_zero s' account fun entry hentry => (hentries entry hentry).1,
      sum_eventsIn_eq_zero s' account fun entry hentry => (hentries entry hentry).2]
  have hstep := h
  cases h with
  | @arenaMoved _ id owner arena step hslot =>
    apply hquiet rfl (fun _ => rfl)
    intro entry hentry
    obtain ⟨event, hevent, rfl⟩ := List.mem_map.1 hentry
    exact objects_of_announced hevent weight
  | referenceTaken htoken hobject hmax =>
    exact hquiet (Store.size_put _ _ _) (map_size_put hobject rfl) (by simp)
  | referenceGivenUp htoken hobject hmore =>
    exact hquiet (Store.size_put _ _ _) (map_size_put hobject rfl) (by simp)
  | objectEdited payload hobject =>
    exact hquiet (Store.size_put _ _ _) (map_size_put hobject rfl) (by simp)
  | @objectCreated id heap size hheap =>
    exact sumObjects_created hs hr hheap hstep rfl account weight
  | @objectDestroyed id heap token k object hheap htoken hobject hlast =>
    have howner := hattributed hheap htoken
    exact sumObjects_destroyed hs hr hheap hobject howner hstep rfl account weight
  | _ => exact hquiet rfl (fun _ => rfl) (by simp [Event.diedWeight, Event.bornWeight])

/-- What is outstanding on an account balances over every step with what the step handed out and
took back. -/
theorem Stepped.outstanding_eq (h : Stepped s call entries s') (hs : s.Coherent)
    (hr : s.Recorded) (hattributed : s.Attributed) (account : AccountId) :
    s'.outstanding account + ((s'.eventsIn account entries).map Event.bytesOut).sum =
      s.outstanding account + ((s'.eventsIn account entries).map Event.bytesIn).sum := by
  have harenas := h.inArenas_eq account
  have hobjects := h.sumObjects_eq hs hr hattributed account UInt64.toNat
  -- what an event hands out or takes back is the arenas' part and the objects' part of it
  have hin : Event.bytesIn = fun event => event.grantedBytes + event.bornWeight UInt64.toNat :=
    funext Event.bytesIn_eq
  have hout : Event.bytesOut =
      fun event => event.reclaimedBytes + event.diedWeight UInt64.toNat :=
    funext Event.bytesOut_eq
  unfold outstanding
  rw [hin, hout, List.sum_map_add, List.sum_map_add]
  omega

/-- The books of an account are right after some calls: every byte that was handed out
is outstanding or was taken back, and the counters say so, the peak being the greatest
sum that was outstanding at any moment of the run. -/
structure Balanced (start : System) (calls : List Call) (account : AccountId) : Prop where
  total : ((start.performAll calls).counters account).total.toNat =
    (start.performAll calls).handedOut account
  inUse : ((start.performAll calls).counters account).inUse.toNat =
    (start.performAll calls).outstanding account
  conserved : (start.performAll calls).handedOut account =
    (start.performAll calls).outstanding account + (start.performAll calls).takenBack account
  peak : IsGreatest
    {n | ∃ before, before <+: calls ∧ (start.performAll before).outstanding account = n}
    ((start.performAll calls).counters account).peak.toNat

namespace Balanced

variable {start : System} {calls : List Call} {account : AccountId}

/-- The books of an empty system are balanced. -/
theorem nil (host : Host) (account : AccountId) : Balanced { host } [] account where
  total := rfl
  inUse := rfl
  conserved := rfl
  peak := by
    refine ⟨⟨[], List.prefix_rfl, rfl⟩, ?_⟩
    rintro n ⟨before, hbefore, rfl⟩
    rw [List.prefix_nil.1 hbefore]
    exact le_refl 0

/-- The books stay right over one more call, if what it hands out fits. -/
theorem append (hb : Balanced start calls account)
    (hs : (start.performAll calls).Coherent) (hr : (start.performAll calls).Recorded)
    (hattributed : (start.performAll calls).Attributed) (hsingle : call.IsSingle)
    (hfit : (start.performAll (calls ++ [call])).handedOut account < 2 ^ 64) :
    Balanced start (calls ++ [call]) account := by
  obtain ⟨entries, h⟩ := start.stepped_last calls hsingle
  obtain ⟨htotal, hinUse, hconserved, hgreatest⟩ := hb
  have hevents := h.eventsOf_eq hs account
  have hcounters := h.counters_eq hs account
  have houtstanding := h.outstanding_eq hs hr hattributed account
  have hfew := h.length_eventsIn_le account
  have hpeak : (start.performAll calls).outstanding account ≤
      ((start.performAll calls).counters account).peak.toNat :=
    hgreatest.2 ⟨calls, List.prefix_rfl, rfl⟩
  generalize (start.performAll (calls ++ [call])).eventsIn account entries = events at *
  have hhanded : (start.performAll (calls ++ [call])).handedOut account =
      (start.performAll calls).handedOut account + (events.map Event.bytesIn).sum := by
    unfold handedOut
    rw [hevents, List.map_append, List.sum_append]
  have htaken : (start.performAll (calls ++ [call])).takenBack account =
      (start.performAll calls).takenBack account + (events.map Event.bytesOut).sum := by
    unfold takenBack
    rw [hevents, List.map_append, List.sum_append]
  obtain ⟨htotal', hinUse', hpeak'⟩ :=
    ((start.performAll calls).counters account).foldl_note_of_few hfew (by omega) (by omega)
      (by omega)
  rw [← hcounters] at htotal' hinUse' hpeak'
  have hnow : ((start.performAll (calls ++ [call])).counters account).inUse.toNat =
      (start.performAll (calls ++ [call])).outstanding account := by omega
  refine ⟨by omega, hnow, by omega, ?_⟩
  rw [moments_concat fun before => (start.performAll before).outstanding account, hpeak', hnow,
    max_comm]
  exact hgreatest.insert _

end Balanced

/-- No step makes less what was handed out. -/
theorem Stepped.handedOut_le (h : Stepped s call entries s') (hs : s.Coherent)
    (account : AccountId) : s.handedOut account ≤ s'.handedOut account := by
  unfold handedOut
  rw [h.eventsOf_eq hs, List.map_append, List.sum_append]
  exact Nat.le_add_right _ _

/-- The counters of an account have counted all that was handed out, and hold no more in use
than that. -/
structure Booked (s : System) (account : AccountId) : Prop where
  total : (s.counters account).total.toNat = s.handedOut account
  inUse : (s.counters account).inUse.toNat ≤ (s.counters account).total.toNat
  peak : (s.counters account).inUse.toNat ≤ (s.counters account).peak.toNat

/-- What a step moves on an account shows in its counters, as long as the total is a word. -/
theorem Stepped.booked (h : Stepped s call entries s') (hs : s.Coherent) {account : AccountId}
    (hb : s.Booked account) (hfit : s'.handedOut account < 2 ^ 64) :
    s'.Booked account ∧
      (s'.counters account).total.toNat = (s.counters account).total.toNat +
        ((s'.eventsIn account entries).map Event.bytesIn).sum ∧
      (s'.counters account).inUse.toNat = (s.counters account).inUse.toNat +
        ((s'.eventsIn account entries).map Event.bytesIn).sum -
        ((s'.eventsIn account entries).map Event.bytesOut).sum := by
  obtain ⟨htotal, hinUse, hpeak⟩ := hb
  have hhanded : s'.handedOut account = s.handedOut account +
      ((s'.eventsIn account entries).map Event.bytesIn).sum := by
    unfold handedOut
    rw [h.eventsOf_eq hs, List.map_append, List.sum_append]
  obtain ⟨htotal', hinUse', hpeak'⟩ := (s.counters account).foldl_note_of_few
    (h.length_eventsIn_le account) (by omega) hinUse hpeak
  rw [← h.counters_eq hs] at htotal' hinUse' hpeak'
  exact ⟨⟨by omega, by omega, by omega⟩, htotal', hinUse'⟩

/-- The counters of an account have counted all that was handed out on it. -/
theorem Attained.booked (h : s.Attained) (account : AccountId)
    (hfit : s.handedOut account < 2 ^ 64) : s.Booked account := by
  suffices hbooked : s.Coherent ∧ (s.handedOut account < 2 ^ 64 → s.Booked account) from
    hbooked.2 hfit
  apply h.kept (P := fun s => s.Coherent ∧ (s.handedOut account < 2 ^ 64 → s.Booked account))
  · rintro s s' call entries ⟨hs, hb⟩ hstep
    refine ⟨hs.step hstep, fun hfit => ?_⟩
    exact (hstep.booked hs (hb ((hstep.handedOut_le hs account).trans_lt hfit)) hfit).1
  · exact fun host => ⟨Coherent.start host, fun _ => ⟨rfl, le_refl 0, le_refl 0⟩⟩

/-- No step takes a heap away. -/
theorem Stepped.size_heaps_le (h : Stepped s call entries s') :
    s.heaps.size ≤ s'.heaps.size := by
  cases h with
  | heapAdded hopen =>
    show _ ≤ (s.heaps.push _).size
    simp
  | contextAdded hmade =>
    show _ ≤ (s.heaps.push _).size
    simp
  | _ => exact le_refl _

/-- A run only adds to what was handed out and to the heaps. -/
theorem grown_performAll (hs : s.Coherent) (account : AccountId) {calls : List Call}
    (hsingle : ∀ call ∈ calls, call.IsSingle) :
    s.handedOut account ≤ (s.performAll calls).handedOut account ∧
      s.heaps.size ≤ (s.performAll calls).heaps.size := by
  suffices hgrown : (s.performAll calls).Coherent ∧
      s.handedOut account ≤ (s.performAll calls).handedOut account ∧
      s.heaps.size ≤ (s.performAll calls).heaps.size from hgrown.2
  apply performAll_induction (P := fun after => after.Coherent ∧
    s.handedOut account ≤ after.handedOut account ∧ s.heaps.size ≤ after.heaps.size)
  · rintro after later call entries ⟨hafter, hbytes, hheaps⟩ h
    exact ⟨hafter.step h, hbytes.trans (h.handedOut_le hafter account),
      hheaps.trans h.size_heaps_le⟩
  · exact ⟨hs, le_refl _, le_refl _⟩
  · exact hsingle

/-- The books of an account are right at every moment of a run of single calls, if every
heap that accepts a token reports to the account of its object. -/
theorem balanced_of_attributed (host : Host) (account : AccountId) {calls : List Call}
    (hsingle : ∀ call ∈ calls, call.IsSingle)
    (hfit : (({ host } : System).performAll calls).handedOut account < 2 ^ 64)
    (hattributed : ∀ before, before <+: calls →
      (({ host } : System).performAll before).Attributed) :
    Balanced { host } calls account := by
  -- from the end of the run: the bounds hold before the last call if they hold after it
  induction calls using List.reverseRecOn with
  | nil => exact Balanced.nil host account
  | append_singleton calls call ih =>
    obtain ⟨hbefore, hlast⟩ := List.forall_mem_append.1 hsingle
    have hcall : call.IsSingle := List.forall_mem_singleton.1 hlast
    have hs := (attained_performAll host calls).coherent
    have hr := (attained_performAll host calls).recorded
    obtain ⟨entries, h⟩ := ({ host } : System).stepped_last calls hcall
    have hearlier : ∀ before, before <+: calls →
        (({ host } : System).performAll before).Attributed := by
      intro before hle
      exact hattributed before (hle.trans (List.prefix_append _ _))
    have hb := ih hbefore ((h.handedOut_le hs account).trans_lt hfit) hearlier
    exact hb.append hs hr (hearlier calls List.prefix_rfl) hcall hfit

/-- Heaps that are less than the words there are never mistake a token. -/
theorem attributed_of_prefix (host : Host) {calls : List Call}
    (hsingle : ∀ call ∈ calls, call.IsSingle)
    (hdistinct : (({ host } : System).performAll calls).heaps.size < 2 ^ 64) {before : List Call}
    (hle : before <+: calls) : (({ host } : System).performAll before).Attributed := by
  obtain ⟨later, rfl⟩ := hle
  obtain ⟨hbefore, hlater⟩ := List.forall_mem_append.1 hsingle
  have hs := attained_performAll host before
  have hgrown := (grown_performAll hs.coherent 0 hlater).2
  rw [← performAll_append] at hgrown
  exact hs.recorded.attributed hs.coherent (hgrown.trans_lt hdistinct)

/-- The books of every account are right at every moment of a run of single calls. -/
theorem balanced_performAll (host : Host) (account : AccountId) {calls : List Call}
    (hsingle : ∀ call ∈ calls, call.IsSingle)
    (hfit : (({ host } : System).performAll calls).handedOut account < 2 ^ 64)
    (hdistinct : (({ host } : System).performAll calls).heaps.size < 2 ^ 64) :
    Balanced { host } calls account :=
  balanced_of_attributed host account hsingle hfit fun _ =>
    attributed_of_prefix host hsingle hdistinct

/-- An attained system is the end of a run whose books are right. -/
theorem Attained.exists_balanced (h : s.Attained) (account : AccountId)
    (hfit : s.handedOut account < 2 ^ 64) (hdistinct : s.heaps.size < 2 ^ 64) :
    ∃ (host : Host) (calls : List Call),
      s = ({ host } : System).performAll calls ∧ Balanced { host } calls account := by
  obtain ⟨host, calls, hsingle, rfl⟩ := h.exists_calls
  exact ⟨host, calls, rfl, balanced_performAll host account hsingle hfit hdistinct⟩

/-- The peak never goes back. -/
theorem Balanced.peak_mono {start : System} {before calls : List Call} {account : AccountId}
    (hbefore : Balanced start before account) (hb : Balanced start calls account)
    (hle : before <+: calls) :
    ((start.performAll before).counters account).peak.toNat ≤
      ((start.performAll calls).counters account).peak.toNat := by
  obtain ⟨⟨moment, hmoment, hpeak⟩, -⟩ := hbefore.peak
  exact hb.peak.2 ⟨moment, hmoment.trans hle, hpeak⟩

/-- The ledger of an account, at every moment of every run, whoever shares the account,
whatever was refused, abandoned or lost before, and wherever the host changed: what is in
use is what the arenas of the account have granted, dropped ones too, and what the objects
of its heaps take up; everything that was ever handed out is in use or was taken back,
byte by byte; the peak is the greatest sum that was outstanding at any moment so far; and
neither the total nor the peak ever goes back. Heaps are numbered by words, so no two
heaps are taken for one another as long as there are less than `2 ^ 64` of them. -/
theorem ledger_balanced (host : Host) (actions : List Action) (account : AccountId)
    {calls : List Call} (hmoment : calls <+: ({ host } : System).unrollAll actions)
    (hfit : (({ host } : System).performAll calls).handedOut account < 2 ^ 64)
    (hdistinct : (({ host } : System).performAll calls).heaps.size < 2 ^ 64) :
    let moment := fun calls => ({ host } : System).performAll calls
    let counters := fun calls => (moment calls).counters account
    (counters calls).inUse.toNat = (moment calls).outstanding account ∧
    (counters calls).total.toNat = (moment calls).handedOut account ∧
    (counters calls).total.toNat =
      (counters calls).inUse.toNat + (moment calls).takenBack account ∧
    IsGreatest {n | ∃ before, before <+: calls ∧ (moment before).outstanding account = n}
      (counters calls).peak.toNat ∧
    ∀ before, before <+: calls →
      (counters before).total.toNat ≤ (counters calls).total.toNat ∧
      (counters before).peak.toNat ≤ (counters calls).peak.toNat := by
  have hsingle := isSingle_of_moment hmoment
  have hb := balanced_performAll host account hsingle hfit hdistinct
  refine ⟨hb.inUse, hb.total, ?_, hb.peak, ?_⟩
  · rw [hb.total, hb.inUse]
    exact hb.conserved
  · rintro before ⟨later, rfl⟩
    -- the run up to the earlier moment is balanced too, as the bounds hold all the more there
    obtain ⟨hbefore, hlater⟩ := List.forall_mem_append.1 hsingle
    have hgrown := grown_performAll (attained_performAll host before).coherent account hlater
    rw [← performAll_append] at hgrown
    have hearlier := balanced_performAll host account hbefore (hgrown.1.trans_lt hfit)
      (hgrown.2.trans_lt hdistinct)
    refine ⟨?_, hearlier.peak_mono hb (List.prefix_append _ _)⟩
    rw [hearlier.total, hb.total]
    exact hgrown.1

/-- An arena and a heap share an account; an object is destroyed inside a scope whose
end rolls the arena back. -/
theorem ledger_balanced_after_scope :
    let calls := ({} : System).unrollAll
      [ .call .openAccount, .call (.lendArena #[1, 2, 3] 20 0), .call (.openHeap 0),
        .call (.create 0 10), .scope 0 [.call (.alloc 0 12), .call (.release 0 0)] false ]
    let s := ({} : System).performAll calls
    (s.counters 0).inUse.toNat = s.outstanding 0 ∧ s.outstanding 0 = 0 ∧
      (s.counters 0).total.toNat = (s.counters 0).inUse.toNat + s.takenBack 0 ∧
      s.takenBack 0 = 26 := by
  intro calls s
  obtain ⟨hinUse, -, hconserved, -⟩ :=
    ledger_balanced Host.standard _ 0 (List.prefix_rfl (l := calls)) (by decide +kernel)
      (by decide +kernel)
  exact ⟨hinUse, by decide +kernel, hconserved, by decide +kernel⟩

end System

end Allotment

import Allotment.Proofs.System.Steps

set_option autoImplicit false

/-!
The journal tells of every account what was announced on it. Names are never given
to anything else, so what the journal once told of an account it tells for ever, and
the counters of an account are what its events make of counters that start at zero.
-/

namespace Allotment

/-- The heap and the size of the object whose creation a line announces. -/
def Entry.birth? : Entry → Option (HeapId × UInt64)
  | ⟨.heap id, .created size⟩ => some (id, size)
  | _ => none

namespace System

variable {s s' : System} {call : Call} {entries : List Entry}

/-- The account that a source reports to. -/
def account? (s : System) : Source → Option AccountId
  | .arena id => s.arenas[id]?.map ArenaSlot.account
  | .heap id => s.heaps[id]?.map Heap.account

/-- The events among some lines that an account has to record. -/
def eventsIn (s : System) (account : AccountId) (entries : List Entry) : List Event :=
  entries.filterMap fun entry =>
    if s.account? entry.source = some account ∧ entry.event.charge?.isSome then some entry.event
    else none

/-- The events that an account had to record so far. -/
def eventsOf (s : System) (account : AccountId) : List Event :=
  s.eventsIn account s.journal.toList

/-- The bytes that were ever handed out on an account. -/
def handedOut (s : System) (account : AccountId) : ℕ :=
  ((s.eventsOf account).map Event.bytesIn).sum

/-- The bytes that were ever taken back on an account. -/
def takenBack (s : System) (account : AccountId) : ℕ :=
  ((s.eventsOf account).map Event.bytesOut).sum

/-- The heaps and the sizes of the objects, in the order of their creation. -/
def births (s : System) : List (HeapId × UInt64) :=
  s.journal.toList.filterMap Entry.birth?

/-- The account of the heap that created an object. -/
def owner? (s : System) (k : ObjectId) : Option AccountId :=
  s.births[k]?.bind fun birth => s.account? (.heap birth.1)

/-- Every name that is in use names something: the accounts of arenas and heaps are
open, heaps are numbered from 1 on, and the journal knows who announced what. -/
structure Coherent (s : System) : Prop where
  arenas : ∀ {i : ArenaId} {slot : ArenaSlot}, s.arenas[i]? = some slot →
    slot.account < s.accounts.size
  heaps : ∀ {i : HeapId} {heap : Heap}, s.heaps[i]? = some heap →
    heap.account < s.accounts.size ∧ heap.number = UInt64.ofNat (i + 1)
  next : s.nextHeap = UInt64.ofNat (s.heaps.size + 1)
  journal : ∀ {entry : Entry}, entry ∈ s.journal.toList →
    ∃ account, s.account? entry.source = some account

/-- An arena reports to the account that is written in its place. -/
theorem account?_of_arena {id : ArenaId} {slot : ArenaSlot} (h : s.arenas[id]? = some slot) :
    s.account? (.arena id) = some slot.account :=
  congrArg (Option.map ArenaSlot.account) h

/-- A heap reports to the account that it was opened on. -/
theorem account?_of_heap {id : HeapId} {heap : Heap} (h : s.heaps[id]? = some heap) :
    s.account? (.heap id) = some heap.account :=
  congrArg (Option.map Heap.account) h

/-- What is recorded is added at the end of the journal. -/
theorem journal_record (s : System) (source : Source) (account : AccountId)
    (events : List Event) :
    (s.record source account events).journal.toList =
      s.journal.toList ++ events.map (Entry.mk source) := by
  simp [record]

/-- What an arena announces is added at the end of the journal. -/
theorem journal_place (s : System) (id : ArenaId) (slot : ArenaSlot) (events : List Event) :
    (s.place id slot events).journal.toList =
      s.journal.toList ++ events.map (Entry.mk (.arena id)) :=
  journal_record _ _ _ events

/-- A step adds its lines at the end of the journal. -/
theorem Stepped.journal_eq (h : Stepped s call entries s') :
    s'.journal.toList = s.journal.toList ++ entries := by
  cases h with
  | arenaMoved step hslot => exact journal_record _ _ _ _
  | bufferReturned hslot => exact journal_record _ _ _ [_]
  | @objectCreated id heap size hheap => exact journal_record _ (.heap id) heap.account [_]
  | @objectDestroyed id heap token k object hheap htoken hobject hlast =>
    exact journal_record (s.putObject k none) (.heap id) heap.account [_]
  | arenaAdded hopen hmade => exact Array.toList_push
  | contextAdded hmade =>
    show ((s.journal.push _).push _).toList = _
    rw [Array.toList_push, Array.toList_push, List.append_assoc]
    rfl
  | _ => exact (List.append_nil _).symm

/-- What is in an array stays in its place if something is added at the end. -/
theorem getElem?_push_of_eq_some {α : Type} {xs : Array α} {i : ℕ} {x : α}
    (h : xs[i]? = some x) (last : α) : (xs.push last)[i]? = some x := by
  have hi := (Array.getElem?_eq_some_iff.1 h).1
  rw [Array.getElem?_push, if_neg (by omega), h]

/-- A new arena changes nobody else's account. -/
theorem account?_push_arena {source : Source} {account : AccountId} (slot : ArenaSlot)
    (h : s.account? source = some account) :
    ({ s with arenas := s.arenas.push slot } : System).account? source = some account := by
  cases source with
  | arena id =>
    obtain ⟨found, hfound, rfl⟩ := Option.map_eq_some_iff.1 h
    exact congrArg (Option.map ArenaSlot.account) (getElem?_push_of_eq_some hfound slot)
  | heap id => exact h

/-- A new heap changes nobody else's account. -/
theorem account?_push_heap {source : Source} {account : AccountId} (heap : Heap)
    (h : s.account? source = some account) :
    ({ s with heaps := s.heaps.push heap } : System).account? source = some account := by
  cases source with
  | arena id => exact h
  | heap id =>
    obtain ⟨found, hfound, rfl⟩ := Option.map_eq_some_iff.1 h
    exact congrArg (Option.map Heap.account) (getElem?_push_of_eq_some hfound heap)

/-- A new arena reports to the account that it was made on. -/
theorem account?_addArena (s : System) (arena : Arena) (account : AccountId) :
    (s.addArena arena account).2.account? (.arena s.arenas.size) = some account :=
  congrArg (Option.map ArenaSlot.account) Array.getElem?_push_size

/-- What is left of an arena reports where the arena did, and so does everybody else. -/
theorem account?_place {id : ArenaId} {arena : Arena} {account : AccountId}
    (hslot : s.arenas[id]? = some { arena := some arena, account }) (left : Option Arena)
    (dropped : Bool) (events : List Event) (source : Source) :
    (s.place id ⟨left, account, dropped⟩ events).account? source = s.account? source := by
  cases source with
  | arena other =>
    show Option.map ArenaSlot.account
      (s.arenas.setIfInBounds id ⟨left, account, dropped⟩)[other]? = _
    rw [Array.getElem?_setIfInBounds]
    split
    · rename_i hother
      subst hother
      have hid := (Array.getElem?_eq_some_iff.1 hslot).1
      rw [if_pos hid]
      exact (account?_of_arena hslot).symm
    · rfl
  | heap other => rfl

/-- Whoever reports to an account goes on reporting to it. -/
theorem Stepped.account?_eq (h : Stepped s call entries s') {source : Source}
    {account : AccountId} (hknown : s.account? source = some account) :
    s'.account? source = some account := by
  cases h with
  | arenaAdded hopen hmade => exact account?_push_arena _ hknown
  | heapAdded hopen => exact account?_push_heap _ hknown
  | contextAdded hmade => exact account?_push_heap _ (account?_push_arena _ hknown)
  | arenaMoved step hslot =>
    rw [account?_place hslot]
    exact hknown
  | bufferReturned hslot | arenaDropped hslot =>
    rw [account?_place hslot]
    exact hknown
  | _ => exact hknown

/-- Taking note of events opens no account. -/
@[simp]
theorem size_bookAll (accounts : Array Counters) (account : AccountId) (events : List Event) :
    (Counters.bookAll accounts account events).size = accounts.size := by
  simp [Counters.bookAll]

namespace Coherent

/-- A new account leaves a system coherent. -/
theorem openAccount (hs : s.Coherent) : s.openAccount.2.Coherent where
  arenas h := by
    show _ < (s.accounts.push {}).size
    rw [Array.size_push]
    exact Nat.lt_succ_of_lt (hs.arenas h)
  heaps h := by
    show _ < (s.accounts.push {}).size ∧ _
    rw [Array.size_push]
    exact ⟨Nat.lt_succ_of_lt (hs.heaps h).1, (hs.heaps h).2⟩
  next := hs.next
  journal h := hs.journal h

/-- An arena on an open account leaves a system coherent. -/
theorem pushArena (hs : s.Coherent) {slot : ArenaSlot} (hopen : slot.account < s.accounts.size) :
    ({ s with arenas := s.arenas.push slot } : System).Coherent where
  arenas {i found} h := by
    replace h : (s.arenas.push slot)[i]? = some found := h
    rw [Array.getElem?_push] at h
    split at h
    · obtain rfl := Option.some.inj h
      exact hopen
    · exact hs.arenas h
  heaps h := hs.heaps h
  next := hs.next
  journal h := by
    obtain ⟨account, hknown⟩ := hs.journal h
    exact ⟨account, account?_push_arena slot hknown⟩

/-- A heap on an open account leaves a system coherent. -/
theorem addHeap (hs : s.Coherent) {account : AccountId} (hopen : account < s.accounts.size) :
    (s.addHeap account).2.Coherent where
  arenas h := hs.arenas h
  heaps {i found} h := by
    replace h : (s.heaps.push { number := s.nextHeap, account })[i]? = some found := h
    rw [Array.getElem?_push] at h
    split at h
    · rename_i hi
      obtain rfl := Option.some.inj h
      exact ⟨hopen, hi ▸ hs.next⟩
    · exact hs.heaps h
  next := by
    show s.nextHeap + 1 = UInt64.ofNat ((s.heaps.push _).size + 1)
    rw [hs.next, Array.size_push]
    simp
  journal h := by
    obtain ⟨account, hknown⟩ := hs.journal h
    exact ⟨account, account?_push_heap _ hknown⟩

/-- Events of a source that is known leave a system coherent. -/
theorem record (hs : s.Coherent) {source : Source} {account reported : AccountId}
    (hknown : s.account? source = some reported) (events : List Event) :
    (s.record source account events).Coherent where
  arenas h := by
    show _ < (Counters.bookAll s.accounts account events).size
    rw [size_bookAll]
    exact hs.arenas h
  heaps h := by
    show _ < (Counters.bookAll s.accounts account events).size ∧ _
    rw [size_bookAll]
    exact hs.heaps h
  next := hs.next
  journal {entry} h := by
    rw [journal_record, List.mem_append, List.mem_map] at h
    rcases h with h | ⟨event, -, rfl⟩
    · exact hs.journal h
    · exact ⟨reported, hknown⟩

/-- One event of a source that is known leaves a system coherent. -/
theorem announce (hs : s.Coherent) {source : Source} {account : AccountId}
    (hknown : s.account? source = some account) (event : Event) :
    (s.announce source event).Coherent where
  arenas h := hs.arenas h
  heaps h := hs.heaps h
  next := hs.next
  journal {entry} h := by
    replace h : entry ∈ (s.journal.push ⟨source, event⟩).toList := h
    rw [Array.toList_push, List.mem_append, List.mem_singleton] at h
    rcases h with h | rfl
    · exact hs.journal h
    · exact ⟨account, hknown⟩

/-- What an arena leaves in its place leaves a system coherent. -/
theorem place (hs : s.Coherent) {id : ArenaId} {arena : Arena} {account : AccountId}
    (hslot : s.arenas[id]? = some { arena := some arena, account }) (left : Option Arena)
    (dropped : Bool) (events : List Event) :
    (s.place id ⟨left, account, dropped⟩ events).Coherent := by
  have hset : ({ s with arenas := s.arenas.setIfInBounds id ⟨left, account, dropped⟩ } :
      System).Coherent :=
    { arenas := by
        intro i slot h
        replace h : (s.arenas.setIfInBounds id ⟨left, account, dropped⟩)[i]? = some slot := h
        rw [Array.getElem?_setIfInBounds] at h
        split at h
        · split at h
          · obtain rfl := Option.some.inj h
            have hopen := hs.arenas hslot
            exact hopen
          · cases h
        · exact hs.arenas h
      heaps := hs.heaps
      next := hs.next
      journal := by
        intro entry h
        obtain ⟨reported, hknown⟩ := hs.journal h
        exact ⟨reported, (account?_place hslot left dropped [] _).trans hknown⟩ }
  exact hset.record
    ((account?_place hslot left dropped [] _).trans (account?_of_arena hslot)) events

/-- A new arena that announces itself leaves a system coherent. -/
theorem addArena (hs : s.Coherent) (arena : Arena) {account : AccountId}
    (hopen : account < s.accounts.size) : (s.addArena arena account).2.Coherent := by
  have hpushed : ({ s with
      arenas := s.arenas.push { arena := some arena, account } } : System).Coherent :=
    hs.pushArena hopen
  have hknown : ({ s with arenas := s.arenas.push { arena := some arena, account } } :
      System).account? (.arena s.arenas.size) = some account := s.account?_addArena arena account
  exact hpushed.announce hknown _

/-- A new context leaves a system coherent. -/
theorem addContext (hs : s.Coherent) (arena : Arena) : (s.addContext arena).Coherent := by
  have hopen : s.accounts.size < s.openAccount.2.accounts.size := by
    show _ < (s.accounts.push {}).size
    rw [Array.size_push]
    exact Nat.lt_succ_self _
  have hplaced := hs.openAccount.addArena arena hopen
  have hready := hplaced.announce (s.openAccount.2.account?_addArena arena s.accounts.size)
    (.contextReady arena.capacity)
  exact hready.addHeap hopen

/-- Every step leaves a system coherent. -/
theorem step (hs : s.Coherent) (h : Stepped s call entries s') : s'.Coherent := by
  cases h with
  | accountOpened => exact hs.openAccount
  | arenaAdded hopen hmade => exact hs.addArena _ hopen
  | heapAdded hopen => exact hs.addHeap hopen
  | contextAdded hmade => exact hs.addContext _
  | arenaMoved step hslot => exact hs.place hslot _ _ _
  | bufferReturned hslot | arenaDropped hslot => exact hs.place hslot _ _ _
  | @objectCreated id heap size hheap =>
    obtain ⟨harenas, hheaps, hnext, hjournal⟩ := hs.record (account?_of_heap hheap) [.created size]
    exact ⟨harenas, hheaps, hnext, hjournal⟩
  | @objectDestroyed id heap token k object hheap htoken hobject hlast =>
    obtain ⟨harenas, hheaps, hnext, hjournal⟩ :=
      hs.record (account?_of_heap hheap) [.destroyed object.size]
    exact ⟨harenas, hheaps, hnext, hjournal⟩
  | _ => exact ⟨hs.arenas, hs.heaps, hs.next, hs.journal⟩

/-- An empty system is coherent. -/
theorem start (host : Host) : ({ host } : System).Coherent where
  arenas h := by simp at h
  heaps h := by simp at h
  next := rfl
  journal h := by simp at h

end Coherent

/-- The events of an account in lines one after the other are those in the first ones and those
in the others. -/
theorem eventsIn_append (s : System) (account : AccountId) (first second : List Entry) :
    s.eventsIn account (first ++ second) =
      s.eventsIn account first ++ s.eventsIn account second :=
  List.filterMap_append

/-- The events of one source belong to the account that it reports to. -/
theorem eventsIn_map (s : System) (account : AccountId) (source : Source)
    (events : List Event) :
    s.eventsIn account (events.map (Entry.mk source)) =
      if s.account? source = some account then events.filter fun event => event.charge?.isSome
      else [] := by
  unfold eventsIn
  rw [List.filterMap_map]
  split <;> rename_i h
  · rw [← List.filterMap_eq_filter]
    apply List.filterMap_congr
    intro event _
    simp [h, Option.guard]
  · simp [h]

/-- Events without a charge do not change the counters. -/
theorem foldl_note_filter (c : Counters) (events : List Event) :
    (events.filter fun event => event.charge?.isSome).foldl Counters.note c =
      events.foldl Counters.note c := by
  induction events generalizing c with
  | nil => rfl
  | cons event rest ih =>
    cases hcharge : event.charge? with
    | none =>
      have hquiet : c.note event = c := by simp only [Counters.note, hcharge]
      rw [List.filter_cons_of_neg (by simp [hcharge]), List.foldl_cons, hquiet, ih]
    | some charge =>
      rw [List.filter_cons_of_pos (by simp [hcharge]), List.foldl_cons, List.foldl_cons, ih]

/-- A step adds to the events of an account what it announces on it. -/
theorem Stepped.eventsOf_eq (h : Stepped s call entries s') (hs : s.Coherent)
    (account : AccountId) :
    s'.eventsOf account = s.eventsOf account ++ s'.eventsIn account entries := by
  have hold : s'.eventsIn account s.journal.toList = s.eventsIn account s.journal.toList := by
    apply List.filterMap_congr
    intro entry hentry
    obtain ⟨reported, hknown⟩ := hs.journal hentry
    rw [hknown, h.account?_eq hknown]
  unfold eventsOf
  rw [h.journal_eq, eventsIn_append, hold]

/-- A step adds the creations among its lines. -/
theorem Stepped.births_eq (h : Stepped s call entries s') :
    s'.births = s.births ++ entries.filterMap Entry.birth? := by
  unfold births
  rw [h.journal_eq, List.filterMap_append]

/-- Whoever announced a creation is a heap. -/
theorem Coherent.of_mem_births (hs : s.Coherent) {birth : HeapId × UInt64}
    (h : birth ∈ s.births) : ∃ heap, s.heaps[birth.1]? = some heap := by
  obtain ⟨⟨source, event⟩, hentry, hbirth⟩ := List.mem_filterMap.1 h
  unfold Entry.birth? at hbirth
  split at hbirth
  · rename_i id size heq
    obtain rfl := Option.some.inj hbirth
    obtain ⟨rfl, rfl⟩ := Entry.mk.inj heq
    obtain ⟨account, hknown⟩ := hs.journal hentry
    obtain ⟨heap, hheap, -⟩ := Option.map_eq_some_iff.1 hknown
    exact ⟨heap, hheap⟩
  · cases hbirth

/-- An object that is there stays on the account that it was created on. -/
theorem Stepped.owner?_eq (h : Stepped s call entries s') (hs : s.Coherent) {k : ObjectId}
    (hk : k < s.births.length) : s'.owner? k = s.owner? k := by
  have hbirth := List.getElem?_eq_getElem hk
  obtain ⟨heap, hheap⟩ := hs.of_mem_births (List.getElem_mem hk)
  have hknown := account?_of_heap hheap
  unfold owner?
  rw [h.births_eq, List.getElem?_append_left hk, hbirth, Option.bind_some, Option.bind_some,
    hknown, h.account?_eq hknown]

/-- Only the account of the source takes note of what is recorded. -/
theorem counters_record (s : System) (source : Source) {account : AccountId}
    (hopen : account < s.accounts.size) (events : List Event) (other : AccountId) :
    (s.record source account events).counters other =
      if account = other then events.foldl Counters.note (s.counters other)
      else s.counters other := by
  show ((Counters.bookAll s.accounts account events)[other]?).getD {} = _
  unfold Counters.bookAll
  by_cases h : account = other
  · subst h
    rw [Array.getElem?_setIfInBounds_self_of_lt hopen, if_pos rfl]
    rfl
  · rw [Array.getElem?_setIfInBounds_ne h, if_neg h]
    rfl

/-- Every account takes note of those events among the recorded ones that belong to it. -/
theorem counters_record_eq {source : Source} {account : AccountId}
    (hknown : s.account? source = some account) (hopen : account < s.accounts.size)
    (events : List Event) (other : AccountId) :
    (s.record source account events).counters other =
      ((s.record source account events).eventsIn other (events.map (Entry.mk source))).foldl
        Counters.note (s.counters other) := by
  have hsame : (s.record source account events).account? source = s.account? source := rfl
  rw [eventsIn_map, hsame, hknown, s.counters_record source hopen]
  by_cases h : account = other
  · rw [if_pos h, if_pos (by rw [h]), foldl_note_filter]
  · rw [if_neg h, if_neg (by simpa using h)]
    rfl

/-- A new account starts at zero, and the others keep their counters. -/
theorem counters_push (s : System) (other : AccountId) :
    ((s.accounts.push {})[other]?).getD {} = s.counters other := by
  rw [Array.getElem?_push]
  split
  · rename_i h
    subst h
    simp [counters]
  · rfl

/-- The counters of an account change by what is announced on it, and by nothing else. -/
theorem Stepped.counters_eq (h : Stepped s call entries s') (hs : s.Coherent)
    (account : AccountId) :
    s'.counters account =
      (s'.eventsIn account entries).foldl Counters.note (s.counters account) := by
  cases h with
  | accountOpened => exact s.counters_push account
  | @arenaAdded _ bytes capacity arena owner hopen hmade =>
    have hquiet : (s.addArena arena owner).2.eventsIn account
        [⟨.arena s.arenas.size, .arenaReady arena.capacity⟩] = [] := by
      simp [eventsIn, Event.charge?]
    rw [hquiet]
    rfl
  | @contextAdded _ bytes capacity arena hmade =>
    have hquiet : (s.addContext arena).eventsIn account
        [⟨.arena s.arenas.size, .arenaReady arena.capacity⟩,
          ⟨.arena s.arenas.size, .contextReady arena.capacity⟩] = [] := by
      simp [eventsIn, Event.charge?]
    rw [hquiet]
    exact s.counters_push account
  | @arenaMoved _ id owner arena step hslot =>
    have hset : ({ s with arenas := s.arenas.setIfInBounds id ⟨arena.move step, owner, false⟩ } :
        System).account? (.arena id) = some owner :=
      (account?_place hslot _ _ [] _).trans (account?_of_arena hslot)
    exact counters_record_eq hset (hs.arenas hslot) _ account
  | @bufferReturned id owner arena hslot =>
    have hset : ({ s with arenas := s.arenas.setIfInBounds id ⟨none, owner, false⟩ } :
        System).account? (.arena id) = some owner :=
      (account?_place hslot _ _ [] _).trans (account?_of_arena hslot)
    exact counters_record_eq hset (hs.arenas hslot) [_] account
  | arenaDropped hslot =>
    rw [place, record_nil]
    rfl
  | @objectCreated id heap size hheap =>
    have hknown := account?_of_heap hheap
    exact counters_record_eq hknown (hs.heaps hheap).1 [.created size] account
  | @objectDestroyed id heap token k object hheap htoken hobject hlast =>
    have hknown := account?_of_heap hheap
    exact counters_record_eq hknown (hs.heaps hheap).1 [.destroyed object.size] account
  | _ => rfl

/-- Every attained system is coherent. -/
theorem Attained.coherent (h : s.Attained) : s.Coherent :=
  h.kept (fun hs hstep => hs.step hstep) Coherent.start

/-- The counters of an account are what its events make of counters at zero. -/
theorem Attained.counters_eq (h : s.Attained) (account : AccountId) :
    s.counters account = (s.eventsOf account).foldl Counters.note {} := by
  suffices hcounted : s.Coherent ∧
      s.counters account = (s.eventsOf account).foldl Counters.note {} from hcounted.2
  apply h.kept (P := fun s => s.Coherent ∧
    s.counters account = (s.eventsOf account).foldl Counters.note {})
  · rintro s s' call entries ⟨hs, hcounters⟩ hstep
    refine ⟨hs.step hstep, ?_⟩
    rw [hstep.counters_eq hs, hstep.eventsOf_eq hs, List.foldl_append, hcounters]
  · exact fun host => ⟨Coherent.start host, rfl⟩

section Place

variable {id : ArenaId} {arena : Arena} {account : AccountId}
  (hslot : s.arenas[id]? = some { arena := some arena, account }) (hs : s.Coherent)
include hslot hs

/-- The account of an arena records what the arena announces. -/
theorem counters_place (left : Option Arena) (events : List Event) :
    (s.place id { arena := left, account } events).counters account =
      events.foldl Counters.note (s.counters account) := by
  have hbooked := ({ s with arenas := s.arenas.setIfInBounds id ⟨left, account, false⟩ } : System)
    |>.counters_record (.arena id) (hs.arenas hslot) events account
  rwa [if_pos rfl] at hbooked

/-- An arena leaves accounts alone that it does not report to. -/
theorem counters_place_of_ne (left : Option Arena) (events : List Event) {other : AccountId}
    (hother : other ≠ account) :
    (s.place id { arena := left, account } events).counters other = s.counters other := by
  have hbooked := ({ s with arenas := s.arenas.setIfInBounds id ⟨left, account, false⟩ } : System)
    |>.counters_record (.arena id) (hs.arenas hslot) events other
  rwa [if_neg hother.symm] at hbooked

end Place

/-- A step moves the bytes of an account at most once. -/
theorem Stepped.length_eventsIn_le (h : Stepped s call entries s') (account : AccountId) :
    (s'.eventsIn account entries).length ≤ 1 := by
  cases h with
  | contextAdded hmade => simp [eventsIn, Event.charge?]
  | @arenaMoved _ id owner arena step hslot =>
    apply (List.length_filterMap_le _ _).trans
    rw [List.length_map]
    exact arena.length_announced_le step
  | _ => exact (List.length_filterMap_le _ _).trans (by simp)

end System

end Allotment

import Allotment.Proofs.System.Unrolled

set_option autoImplicit false

/-!
What each call of a system answers and where it leads, in one equation for each, by the
slot, the heap and the token that it names. Whoever reasons about a call reads it off here.
-/

namespace Allotment

namespace Store

variable {store : Store} {heap : UInt64} {token : Token}

/-- A heap finds an object behind its own tokens only. -/
theorem findOwn_eq_some {k : ObjectId} {object : Object}
    (h : store.findOwn heap token = .ok (some (k, object))) :
    token = .reference k heap ∧ store.object? k = some object := by
  cases token with
  | null => cases h
  | reference id maker =>
    simp only [findOwn, find] at h
    split at h
    · rename_i hmaker
      split at h
      · cases h
      · rename_i hobject
        simp only [Except.ok.injEq, Option.some.injEq, Prod.mk.injEq] at h
        obtain ⟨rfl, rfl⟩ := h
        exact ⟨by rw [hmaker], hobject⟩
    · cases h

/-- A heap finds the object of a token that carries its number, if the object is there. -/
theorem findOwn_of_object? {k : ObjectId} {object : Object}
    (h : store.object? k = some object) (heap : UInt64) :
    store.findOwn heap (.reference k heap) = .ok (some (k, object)) := by
  simp only [findOwn, find, h, if_true]

/-- Nothing is behind the null token only. -/
theorem findOwn_eq_none (h : store.findOwn heap token = .ok none) : token = .null := by
  cases token with
  | null => rfl
  | reference id maker =>
    simp only [findOwn, find] at h
    split at h
    · split at h <;> cases h
    · cases h

end Store

/-- A reset takes back all that is granted, and tells so. -/
theorem Metered.reset_eq (m : Metered Arena) :
    m.reset =
      { subject := { m.subject with offset := 0 }
        counters := m.counters.note (.restored m.subject.offset 0)
        events := m.events.push (.restored m.subject.offset 0) } := by
  simp [reset, restore, Arena.restore?, announce]

namespace System

variable {s : System}

/-- The system after an object took its place in the store. -/
def putObject (s : System) (k : ObjectId) (object : Option Object) : System :=
  { s with store := s.store.put k object }

/-- The system with one more object in the store. -/
def addObject (s : System) (object : Object) : System :=
  { s with store := { objects := s.store.objects.push (some object) } }

/-- The system after a context was set up around an arena. -/
def addContext (s : System) (arena : Arena) : System :=
  let opened := s.openAccount.2
  let placed := (opened.addArena arena s.accounts.size).2
  ((placed.announce (.arena s.arenas.size) (.contextReady arena.capacity)).addHeap
    s.accounts.size).2

/-- Nothing announced leaves nothing to record. -/
@[simp]
theorem record_nil (s : System) (source : Source) (account : AccountId) :
    s.record source account [] = s := by
  simp [record, Counters.bookAll_nil]

/-- What a heap does on the store and on its account changes these, and the journal tells what
it announced. -/
theorem onHeap_eq {α : Type} {id : HeapId} {heap : Heap}
    {work : UInt64 → Metered Store → Outcome α × Metered Store}
    (hheap : s.heaps[id]? = some heap) (outcome : Outcome α) (after : Store)
    (events : List Event)
    (hwork : work heap.number { subject := s.store, counters := s.counters heap.account } =
      (outcome,
        { subject := after
          counters := events.foldl Counters.note (s.counters heap.account)
          events := events.toArray })) :
    s.onHeap id work =
      (outcome, { s with store := after }.record (.heap id) heap.account events) := by
  simp only [onHeap, hheap, hwork, settle, record, List.map_toArray]
  rfl

/-- A call of a heap that announces nothing changes nothing but the store. -/
theorem onHeap_of_silent {α : Type} {id : HeapId} {heap : Heap}
    {work : UInt64 → Metered Store → Outcome α × Metered Store}
    (hheap : s.heaps[id]? = some heap) (outcome : Outcome α) (after : Store)
    (hwork : ∀ counters events, work heap.number ⟨s.store, counters, events⟩ =
      (outcome, ⟨after, counters, events⟩)) :
    s.onHeap id work = (outcome, { s with store := after }) := by
  have heq := onHeap_eq hheap outcome after [] (hwork _ _)
  rwa [record_nil] at heq

/-- A heap that there is not is unknown. -/
theorem onHeap_of_none {α : Type} {id : HeapId}
    {work : UInt64 → Metered Store → Outcome α × Metered Store} (h : s.heaps[id]? = none) :
    s.onHeap id work = (.error .unknown, s) := by
  simp only [onHeap, h]

/-- The working arena of a place is the one in it, unless it was dropped. -/
theorem working?_eq_some {slot : ArenaSlot} {arena : Arena} :
    slot.working? = some arena ↔ slot = { arena := some arena, account := slot.account } := by
  obtain ⟨found, account, dropped⟩ := slot
  cases dropped <;> simp [ArenaSlot.working?]

/-- An arena can be worked with if it is in its place and was not dropped. -/
theorem arena?_eq_some {id : ArenaId} {arena : Arena} :
    s.arena? id = some arena ↔
      ∃ account, s.arenas[id]? = some { arena := some arena, account } := by
  unfold arena?
  constructor
  · intro h
    obtain ⟨slot, hslot, hworking⟩ := Option.bind_eq_some_iff.1 h
    rw [working?_eq_some.1 hworking] at hslot
    exact ⟨slot.account, hslot⟩
  · rintro ⟨account, hslot⟩
    rw [hslot]
    rfl

/-- An arena that cannot be worked with is unknown. -/
theorem unknown_onArena {α : Type} {id : ArenaId} (h : s.arena? id = none)
    (work : Metered Arena → Outcome α × Metered Arena) :
    s.onArena id work = (.error .unknown, s) := by
  unfold onArena
  split
  · rename_i arena account hslot
    rw [arena?_eq_some.2 ⟨account, hslot⟩] at h
    cases h
  · rfl

section Arenas

variable {id : ArenaId} {arena : Arena} {account : AccountId}

/-- Work that leads where moves lead changes the place of its arena and tells what these
moves announce. -/
theorem onArena_eq {α : Type} (hslot : s.arenas[id]? = some { arena := some arena, account })
    {work : Metered Arena → Outcome α × Metered Arena} (moves : List ArenaMove)
    (hwork : (work { subject := arena, counters := s.counters account }).2 =
      Metered.moveAll { subject := arena, counters := s.counters account } moves) :
    s.onArena id work =
      ((work { subject := arena, counters := s.counters account }).1,
        s.place id { arena := some (arena.moveAll moves), account }
          (arena.announcedAll moves)) := by
  have hmoves := hwork.trans (Metered.moveAll_eq _ moves)
  rw [Array.empty_append] at hmoves
  apply Prod.ext
  · simp only [onArena, hslot]
  · exact snd_onArena hslot hmoves

/-- Work that makes one move changes the place of its arena and tells what this move
announces. -/
theorem onArena_move {α : Type} (hslot : s.arenas[id]? = some { arena := some arena, account })
    {work : Metered Arena → Outcome α × Metered Arena} (step : ArenaMove)
    (hwork : ∀ m, (work m).2 = m.move step) :
    s.onArena id work =
      ((work { subject := arena, counters := s.counters account }).1,
        s.place id { arena := some (arena.move step), account } (arena.announced step)) := by
  have heq := onArena_eq hslot [step] (hwork _)
  rwa [Arena.announcedAll, Arena.announcedAll, List.append_nil] at heq

variable (hslot : s.arenas[id]? = some { arena := some arena, account })
include hslot

/-- A request is answered by the place that the arena has for it, and the arena makes this move.
-/
theorem alloc_eq (size : UInt64) :
    s.alloc id size =
      ((arena.place size).mapError .exhausted,
        s.place id { arena := some (arena.move (.alloc size)), account }
          (arena.announced (.alloc size))) := by
  have hplace := Metered.fst_alloc { subject := arena, counters := s.counters account } size
  unfold alloc
  rw [onArena_move hslot (.alloc size) fun _ => rfl]
  exact congrArg (fun result => (result.mapError Refusal.exhausted, _)) hplace

/-- A write shows the edited bytes of the region, and announces nothing. -/
theorem write_eq (region : Region) (edit : Edit) :
    s.write id region edit =
      (.ok ((arena.read? region).map edit.apply),
        s.place id { arena := some (arena.move (.write region edit)), account } []) := by
  have hread := Metered.fst_write { subject := arena, counters := s.counters account } region edit
  unfold write
  rw [onArena_move hslot (.write region edit) fun _ => rfl]
  exact congrArg (fun after => (Except.ok after, _)) hread

/-- An arena that gives its buffer back shows all units, and leaves an empty place and the line
of a reset. -/
theorem giveBack_eq :
    s.giveBack id =
      (.ok arena.units, s.place id { arena := none, account } [.restored arena.offset 0]) := by
  have hemptied : (s.arenas.setIfInBounds id
      { arena := some { arena with offset := 0 }, account }).modify id
      (fun slot => { slot with arena := none }) =
        s.arenas.setIfInBounds id { arena := none, account } := by
    apply Array.ext_getElem?
    intro i
    rw [Array.getElem?_modify, Array.getElem?_setIfInBounds, Array.getElem?_setIfInBounds]
    split
    · split <;> rfl
    · rfl
  have hreset : s.onArena id (fun m => (.ok m.reset.subject.units, m.reset)) =
      (.ok arena.units,
        s.place id { arena := some { arena with offset := 0 }, account }
          [.restored arena.offset 0]) := by
    apply Prod.ext
    · simp only [onArena, hslot, Metered.reset_eq]
      rfl
    · exact snd_onArena hslot (Metered.reset_eq _)
  unfold giveBack
  rw [hreset, place, place, ← hemptied]
  rfl

/-- A dropped arena stays in its place with all that it had granted, and tells nothing. -/
theorem dropArena_eq :
    s.dropArena id = s.place id { arena := some arena, account, dropped := true } [] := by
  have hmarked : (s.arenas.modify id fun slot => { slot with dropped := true }) =
      s.arenas.setIfInBounds id { arena := some arena, account, dropped := true } := by
    apply Array.ext_getElem?
    intro i
    rw [Array.getElem?_modify, Array.getElem?_setIfInBounds]
    split
    · rename_i hi
      subst hi
      rw [hslot, if_pos (Array.getElem?_eq_some_iff.1 hslot).1]
      rfl
    · rfl
  have hfound : s.arena? id = some arena := arena?_eq_some.2 ⟨account, hslot⟩
  simp only [dropArena, hfound, hmarked]
  rw [place, record_nil]

end Arenas

/-- An arena that cannot be worked with gives nothing back. -/
theorem giveBack_of_none {id : ArenaId} (h : s.arena? id = none) :
    s.giveBack id = (.error .unknown, s) := by
  unfold giveBack
  rw [unknown_onArena h]

/-- An arena that cannot be worked with cannot be dropped. -/
theorem dropArena_of_none {id : ArenaId} (h : s.arena? id = none) : s.dropArena id = s := by
  simp only [dropArena, h]

section Heaps

variable {id : HeapId} {heap : Heap} {token : TokenId} {found : Token}
  (hheap : s.heaps[id]? = some heap)
include hheap

/-- An object is created if the host serves its block; the account and the journal take note of
it, and its first token is the next one. -/
theorem createObject_eq (size : UInt64) :
    s.createObject id size =
      if s.host.accepts size then
        (.ok s.tokens.size,
          (((s.addObject (Object.fresh size)).record (.heap id) heap.account [.created size]).hold
            (.reference s.store.objects.size heap.number)).2)
      else (.error (.exhausted { requested := size, available := 0 }), s) := by
  unfold createObject
  split
  · rename_i hserved
    rw [onHeap_eq hheap (.ok (.reference s.store.objects.size heap.number))
      (s.addObject (Object.fresh size)).store [.created size]]
    · rfl
    · simp [Metered.create, Store.create, hserved, Metered.announce, Except.mapError, addObject]
  · rename_i hrefused
    rw [onHeap_of_silent hheap (.error (.exhausted ⟨size, 0⟩)) s.store]
    · rfl
    · intro counters events
      simp [Metered.create, Store.create, hrefused, Except.mapError]

variable (htoken : s.token? token = some found)
include htoken

/-- A retain as it is answered by the heap, which looks at the token first, then at the object,
then at the count. -/
theorem retain_eq :
    s.retain id token =
      match s.store.findOwn heap.number found with
      | .error violation => (.error (.violated violation), s)
      | .ok none => (.ok s.tokens.size, (s.hold .null).2)
      | .ok (some (k, object)) =>
        if object.references = maxReferences then (.error (.violated .referenceOverflow), s)
        else
          (.ok s.tokens.size,
            ((s.putObject k (some { object with references := object.references + 1 })).hold
              found).2) := by
  simp only [retain, htoken]
  rcases hfind : s.store.findOwn heap.number found with violation | _ | ⟨k, object⟩
  · rw [onHeap_of_silent hheap (.error (.violated violation)) s.store]
    · rfl
    · intro counters events
      simp [Metered.retain, Store.retain, hfind, Except.mapError]
  · rw [onHeap_of_silent hheap (.ok .null) s.store]
    · rfl
    · intro counters events
      simp [Metered.retain, Store.retain, hfind, Except.mapError]
  · simp only
    split
    · rename_i hmax
      rw [onHeap_of_silent hheap (.error (.violated .referenceOverflow)) s.store]
      · rfl
      · intro counters events
        simp [Metered.retain, Store.retain, hfind, Except.mapError, hmax]
    · rename_i hmax
      rw [onHeap_of_silent hheap (.ok found)
        (s.store.put k (some { object with references := object.references + 1 }))]
      · rfl
      · intro counters events
        simp [Metered.retain, Store.retain, hfind, Except.mapError, hmax]

/-- A release as it is answered by the heap; the last reference takes the object away, and a
token that is refused is lost. -/
theorem release_eq :
    s.release id token =
      match s.store.findOwn heap.number found with
      | .error violation => (.error (.violated violation), s.retire token .lost)
      | .ok none => (.ok (), s.retire token .released)
      | .ok (some (k, object)) =>
        if object.references - 1 = 0 then
          (.ok (), ((s.putObject k none).record (.heap id) heap.account
            [.destroyed object.size]).retire token .released)
        else
          (.ok (), (s.putObject k
            (some { object with references := object.references - 1 })).retire token
              .released) := by
  simp only [release, hheap, htoken]
  rcases hfind : s.store.findOwn heap.number found with violation | _ | ⟨k, object⟩
  · rw [onHeap_of_silent hheap (.error (.violated violation)) s.store]
    intro counters events
    simp [Metered.release, Store.release, hfind, Except.mapError]
  · rw [onHeap_of_silent hheap (.ok ()) s.store]
    intro counters events
    simp [Metered.release, Store.release, hfind, Except.mapError]
  · by_cases hlast : object.references - 1 = 0
    · simp only [hlast, if_true]
      rw [onHeap_eq hheap (.ok ()) (s.store.put k none) [.destroyed object.size]]
      · rfl
      · simp [Metered.release, Store.release, hfind, Except.mapError, hlast, Metered.announce]
    · simp only [hlast, if_false]
      rw [onHeap_of_silent hheap (.ok ())
        (s.store.put k (some { object with references := object.references - 1 }))]
      · rfl
      · intro counters events
        simp [Metered.release, Store.release, hfind, Except.mapError, hlast]

/-- An edit changes the bytes of an object that the heap finds to be its own. -/
theorem editPayload_eq (edit : Edit) :
    s.editPayload id token edit =
      match s.store.findOwn heap.number found with
      | .error violation => (.error (.violated violation), s)
      | .ok none => (.ok (edit.apply #[]), s)
      | .ok (some (k, object)) =>
        (.ok (edit.apply object.payload),
          s.putObject k (some { object with payload := edit.apply object.payload })) := by
  simp only [editPayload, htoken]
  rcases hfind : s.store.findOwn heap.number found with violation | _ | ⟨k, object⟩
  · rw [onHeap_of_silent hheap (.error (.violated violation)) s.store]
    intro counters events
    simp [Metered.edit, Store.edit, hfind, Except.mapError, Except.map]
  · rw [onHeap_of_silent hheap (.ok (edit.apply #[])) s.store]
    intro counters events
    simp [Metered.edit, Store.edit, hfind, Except.mapError, Except.map]
  · rw [onHeap_of_silent hheap (.ok (edit.apply object.payload))
      (s.store.put k (some { object with payload := edit.apply object.payload }))]
    · rfl
    · intro counters events
      simp [Metered.edit, Store.edit, hfind, Except.mapError, Except.map]

/-- What a heap is asked about a held token is asked about the object behind it. -/
theorem inspect_eq {α : Type} (question : UInt64 → Store → Token → Except Violation α) :
    s.inspect id token question = (question heap.number s.store found).mapError .violated := by
  simp only [inspect, hheap, htoken]

end Heaps

/-- A heap that there is not creates nothing. -/
theorem createObject_of_none {id : HeapId} (h : s.heaps[id]? = none) (size : UInt64) :
    s.createObject id size = (.error .unknown, s) := by
  unfold createObject
  rw [onHeap_of_none h]
  rfl

/-- If neither the heap nor the token is unknown, both are there. -/
theorem exists_of_known {id : HeapId} {token : TokenId}
    (h : ¬ (s.heaps[id]? = none ∨ s.token? token = none)) :
    ∃ heap found, s.heaps[id]? = some heap ∧ s.token? token = some found := by
  rw [not_or, Option.eq_none_iff_forall_ne_some, Option.eq_none_iff_forall_ne_some] at h
  push Not at h
  obtain ⟨⟨heap, hheap⟩, found, hfound⟩ := h
  exact ⟨heap, found, hheap, hfound⟩

section Unknown

variable {id : HeapId} {token : TokenId} (h : s.heaps[id]? = none ∨ s.token? token = none)
include h

/-- An unknown heap or token cannot be retained. -/
theorem retain_of_none : s.retain id token = (.error .unknown, s) := by
  unfold retain
  cases htoken : s.token? token with
  | none => rfl
  | some found =>
    have hheap := h.resolve_right (by simp [htoken])
    simp only [onHeap_of_none hheap]
    rfl

/-- An unknown heap or token cannot be released. -/
theorem release_of_none : s.release id token = (.error .unknown, s) := by
  unfold release
  rcases h with h | h
  · rw [h]
  · rw [h]
    cases s.heaps[id]? <;> rfl

/-- An unknown heap or token cannot be edited through. -/
theorem editPayload_of_none (edit : Edit) : s.editPayload id token edit = (.error .unknown, s) := by
  unfold editPayload
  cases htoken : s.token? token with
  | none => rfl
  | some found =>
    have hheap := h.resolve_right (by simp [htoken])
    exact onHeap_of_none hheap

/-- About an unknown heap or token nothing can be asked. -/
theorem inspect_of_none {α : Type} (question : UInt64 → Store → Token → Except Violation α) :
    s.inspect id token question = .error .unknown := by
  unfold inspect
  rcases h with h | h
  · rw [h]
  · rw [h]
    cases s.heaps[id]? <;> rfl

end Unknown

/-- What neither the work of a heap nor a change of the tokens touches. -/
structure OffHeaps {β : Type} (f : System → β) : Prop where
  onHeap : ∀ {α : Type} (s : System) (id : HeapId)
    (work : UInt64 → Metered Store → Outcome α × Metered Store), f (s.onHeap id work).2 = f s
  withTokens : ∀ (s : System) (tokens : Array TokenSlot), f { s with tokens } = f s

namespace OffHeaps

variable {β : Type} {f : System → β} (hf : OffHeaps f) (s : System) (heap : HeapId)
include hf

/-- A token that finds its place changes nothing off the heaps. -/
theorem holdResult (result : Outcome Token × System) : f (holdResult result).2 = f result.2 := by
  obtain ⟨_ | token, after⟩ := result
  · rfl
  · exact hf.withTokens after _

/-- A creation changes nothing off the heaps. -/
theorem createObject (size : UInt64) : f (s.createObject heap size).2 = f s :=
  (hf.holdResult _).trans (hf.onHeap _ _ _)

/-- A retain changes nothing off the heaps. -/
theorem retain (token : TokenId) : f (s.retain heap token).2 = f s := by
  unfold System.retain
  split
  · rfl
  · exact (hf.holdResult _).trans (hf.onHeap _ _ _)

/-- A release changes nothing off the heaps. -/
theorem release (token : TokenId) : f (s.release heap token).2 = f s := by
  unfold System.release
  split
  · simp only
    split <;> exact (hf.withTokens _ _).trans (hf.onHeap _ _ _)
  · rfl

/-- A token that is lost changes nothing off the heaps. -/
theorem lose (token : TokenId) : f (s.lose token) = f s := by
  unfold System.lose
  split
  · rfl
  · exact hf.withTokens s _

/-- An edit changes nothing off the heaps. -/
theorem editPayload (token : TokenId) (edit : Edit) :
    f (s.editPayload heap token edit).2 = f s := by
  unfold System.editPayload
  split
  · rfl
  · exact hf.onHeap _ _ _

end OffHeaps

end System

end Allotment

import Allotment.Proofs.System.Calls

set_option autoImplicit false

/-!
Everything that a single call can do to a system, refusals included. A call that is
refused changes nothing, except that a token which a heap does not take back is lost.
What is to hold at every moment of every run has to be kept by these steps only.
-/

namespace Allotment

namespace System

variable {s : System}

/-- What a single call does to a system, and the lines it adds to the journal. -/
inductive Stepped (s : System) : Call → List Entry → System → Prop
  | idle {call : Call} : Stepped s call [] s
  | accountOpened {call : Call} : Stepped s call [] s.openAccount.2
  | arenaAdded {call : Call} {bytes : Bytes} {capacity : UInt64} {arena : Arena}
    {account : AccountId} (hopen : account < s.accounts.size)
    (hmade : Arena.ofBytes bytes capacity = .ok arena) :
    Stepped s call [⟨.arena s.arenas.size, .arenaReady arena.capacity⟩]
      (s.addArena arena account).2
  | heapAdded {call : Call} {account : AccountId} (hopen : account < s.accounts.size) :
    Stepped s call [] (s.addHeap account).2
  | contextAdded {call : Call} {bytes : Bytes} {capacity : UInt64} {arena : Arena}
    (hmade : Arena.ofBytes bytes capacity = .ok arena) :
    Stepped s call
      [⟨.arena s.arenas.size, .arenaReady arena.capacity⟩,
        ⟨.arena s.arenas.size, .contextReady arena.capacity⟩]
      (s.addContext arena)
  | arenaMoved {call : Call} {id : ArenaId} {account : AccountId} {arena : Arena}
    (step : ArenaMove) (hslot : s.arenas[id]? = some { arena := some arena, account }) :
    Stepped s call ((arena.announced step).map (Entry.mk (.arena id)))
      (s.place id { arena := some (arena.move step), account } (arena.announced step))
  | bufferReturned {id : ArenaId} {account : AccountId} {arena : Arena}
    (hslot : s.arenas[id]? = some { arena := some arena, account }) :
    Stepped s (.giveBack id) [⟨.arena id, .restored arena.offset 0⟩]
      (s.place id { arena := none, account } [.restored arena.offset 0])
  | arenaDropped {id : ArenaId} {account : AccountId} {arena : Arena}
    (hslot : s.arenas[id]? = some { arena := some arena, account }) :
    Stepped s (.dropArena id) []
      (s.place id { arena := some arena, account, dropped := true } [])
  | nullHeld {call : Call} : Stepped s call [] (s.hold .null).2
  | objectCreated {id : HeapId} {heap : Heap} {size : UInt64} (hheap : s.heaps[id]? = some heap) :
    Stepped s (.create id size) [⟨.heap id, .created size⟩]
      (((s.addObject (Object.fresh size)).record (.heap id) heap.account [.created size]).hold
        (.reference s.store.objects.size heap.number)).2
  | referenceTaken {heap : HeapId} {id : TokenId} {k : ObjectId} {maker : UInt64}
    {object : Object} (htoken : s.token? id = some (.reference k maker))
    (hobject : s.store.object? k = some object) (hmax : object.references ≠ maxReferences) :
    Stepped s (.retain heap id) []
      ((s.putObject k (some { object with references := object.references + 1 })).hold
        (.reference k maker)).2
  | referenceGivenUp {heap : HeapId} {id : TokenId} {k : ObjectId} {maker : UInt64}
    {object : Object} (htoken : s.token? id = some (.reference k maker))
    (hobject : s.store.object? k = some object) (hmore : object.references - 1 ≠ 0) :
    Stepped s (.release heap id) []
      ((s.putObject k (some { object with references := object.references - 1 })).retire id
        .released)
  | objectDestroyed {id : HeapId} {heap : Heap} {token : TokenId} {k : ObjectId}
    {object : Object} (hheap : s.heaps[id]? = some heap)
    (htoken : s.token? token = some (.reference k heap.number))
    (hobject : s.store.object? k = some object) (hlast : object.references - 1 = 0) :
    Stepped s (.release id token) [⟨.heap id, .destroyed object.size⟩]
      (((s.putObject k none).record (.heap id) heap.account [.destroyed object.size]).retire token
        .released)
  | nullGivenUp {heap : HeapId} {id : TokenId} (htoken : s.token? id = some .null) :
    Stepped s (.release heap id) [] (s.retire id .released)
  | tokenLost {call : Call} {id : TokenId} {token : Token} (htoken : s.token? id = some token) :
    Stepped s call [] (s.retire id .lost)
  | objectEdited {call : Call} {k : ObjectId} {object : Object} (payload : Bytes)
    (hobject : s.store.object? k = some object) :
    Stepped s call [] (s.putObject k (some { object with payload }))
  | hostChanged (host : Host) : Stepped s (.changeHost host) [] { s with host }

/-- Making an arena adds one in its place, or does nothing. -/
theorem stepped_placeArena {call : Call} {built : Except Violation Arena} {bytes : Bytes}
    {capacity : UInt64} (account : AccountId)
    (hbuilt : ∀ arena, built = .ok arena → Arena.ofBytes bytes capacity = .ok arena) :
    ∃ entries, Stepped s call entries (s.placeArena built account).2 := by
  unfold placeArena
  split
  · rename_i hopen
    cases built with
    | error violation => exact ⟨_, .idle⟩
    | ok arena => exact ⟨_, .arenaAdded hopen (hbuilt arena rfl)⟩
  · exact ⟨_, .idle⟩

/-- Work that is one move of an arena moves it, or does nothing. -/
theorem stepped_onArena {α : Type} {call : Call} {id : ArenaId}
    {work : Metered Arena → Outcome α × Metered Arena} (step : ArenaMove)
    (hwork : ∀ m, (work m).2 = m.move step) :
    ∃ entries, Stepped s call entries (s.onArena id work).2 := by
  cases hm : s.metered? id with
  | none =>
    rw [snd_onArena_of_none hm]
    exact ⟨_, .idle⟩
  | some m =>
    obtain ⟨account, hslot, -⟩ := arenas_of_metered? hm
    have hmove := Metered.move_eq { subject := m.subject, counters := s.counters account } step
    rw [Array.empty_append] at hmove
    rw [snd_onArena hslot ((hwork _).trans hmove)]
    exact ⟨_, .arenaMoved step hslot⟩

/-- Giving a buffer back empties the place of an arena, or does nothing. -/
theorem stepped_giveBack (id : ArenaId) :
    ∃ entries, Stepped s (.giveBack id) entries (s.giveBack id).2 := by
  cases harena : s.arena? id with
  | none =>
    rw [giveBack_of_none harena]
    exact ⟨_, .idle⟩
  | some arena =>
    obtain ⟨account, hslot⟩ := arena?_eq_some.1 harena
    rw [giveBack_eq hslot]
    exact ⟨_, .bufferReturned hslot⟩

/-- Dropping an arena marks its place, or does nothing. -/
theorem stepped_dropArena (id : ArenaId) :
    ∃ entries, Stepped s (.dropArena id) entries (s.dropArena id) := by
  cases harena : s.arena? id with
  | none =>
    rw [dropArena_of_none harena]
    exact ⟨_, .idle⟩
  | some arena =>
    obtain ⟨account, hslot⟩ := arena?_eq_some.1 harena
    rw [dropArena_eq hslot]
    exact ⟨_, .arenaDropped hslot⟩

/-- A creation adds an object with its first token, or does nothing. -/
theorem stepped_createObject (id : HeapId) (size : UInt64) :
    ∃ entries, Stepped s (.create id size) entries (s.createObject id size).2 := by
  cases hheap : s.heaps[id]? with
  | none =>
    unfold createObject
    rw [onHeap_of_none hheap]
    exact ⟨_, .idle⟩
  | some heap =>
    rw [createObject_eq hheap]
    split
    · exact ⟨_, .objectCreated hheap⟩
    · exact ⟨_, .idle⟩

/-- A retain takes a reference, holds another null token, or does nothing. -/
theorem stepped_retain (heap : HeapId) (id : TokenId) :
    ∃ entries, Stepped s (.retain heap id) entries (s.retain heap id).2 := by
  by_cases hknown : s.heaps[heap]? = none ∨ s.token? id = none
  · rw [retain_of_none hknown]
    exact ⟨_, .idle⟩
  · obtain ⟨owner, token, hheap, htoken⟩ := exists_of_known hknown
    rw [retain_eq hheap htoken]
    split
    · exact ⟨_, .idle⟩
    · exact ⟨_, .nullHeld⟩
    · rename_i k object hfind
      obtain ⟨rfl, hobject⟩ := Store.findOwn_eq_some hfind
      split
      · exact ⟨_, .idle⟩
      · rename_i hmax
        exact ⟨_, .referenceTaken htoken hobject hmax⟩

/-- The release that takes the count of an object to zero destroys it. -/
theorem snd_release_of_last {id : HeapId} {heap : Heap} {token : TokenId} {k : ObjectId}
    {object : Object} (hheap : s.heaps[id]? = some heap)
    (htoken : s.token? token = some (.reference k heap.number))
    (hobject : s.store.object? k = some object) (hlast : object.references - 1 = 0) :
    (s.release id token).2 =
      (((s.putObject k none).record (.heap id) heap.account [.destroyed object.size]).retire token
        .released) := by
  rw [release_eq hheap htoken, Store.findOwn_of_object? hobject]
  simp only [hlast, if_true]

/-- A release gives a reference up, destroys the object, gives a null token up, loses the token,
or does nothing. -/
theorem stepped_release (heap : HeapId) (id : TokenId) :
    ∃ entries, Stepped s (.release heap id) entries (s.release heap id).2 := by
  by_cases hknown : s.heaps[heap]? = none ∨ s.token? id = none
  · rw [release_of_none hknown]
    exact ⟨_, .idle⟩
  · obtain ⟨owner, token, hheap, htoken⟩ := exists_of_known hknown
    rw [release_eq hheap htoken]
    split
    · exact ⟨_, .tokenLost htoken⟩
    · rename_i hfind
      obtain rfl := Store.findOwn_eq_none hfind
      exact ⟨_, .nullGivenUp htoken⟩
    · rename_i k object hfind
      obtain ⟨rfl, hobject⟩ := Store.findOwn_eq_some hfind
      split
      · rename_i hlast
        exact ⟨_, .objectDestroyed hheap htoken hobject hlast⟩
      · rename_i hmore
        exact ⟨_, .referenceGivenUp htoken hobject hmore⟩

/-- An edit changes the bytes of an object, or does nothing. -/
theorem stepped_editPayload (heap : HeapId) (id : TokenId) (edit : Edit) :
    ∃ entries, Stepped s (.edit heap id edit) entries (s.editPayload heap id edit).2 := by
  by_cases hknown : s.heaps[heap]? = none ∨ s.token? id = none
  · rw [editPayload_of_none hknown]
    exact ⟨_, .idle⟩
  · obtain ⟨owner, token, hheap, htoken⟩ := exists_of_known hknown
    rw [editPayload_eq hheap htoken]
    split
    · exact ⟨_, .idle⟩
    · exact ⟨_, .idle⟩
    · rename_i k object hfind
      obtain ⟨-, hobject⟩ := Store.findOwn_eq_some hfind
      exact ⟨_, .objectEdited _ hobject⟩

/-- Opening a heap adds one, or does nothing. -/
theorem stepped_openHeap {call : Call} (account : AccountId) :
    ∃ entries, Stepped s call entries (s.openHeap account).2 := by
  unfold openHeap
  split
  · rename_i hopen
    exact ⟨_, .heapAdded hopen⟩
  · exact ⟨_, .idle⟩

/-- A token that is held is lost, and else nothing is done. -/
theorem stepped_lose {call : Call} (id : TokenId) :
    ∃ entries, Stepped s call entries (s.lose id) := by
  unfold lose
  cases htoken : s.token? id with
  | none => exact ⟨_, .idle⟩
  | some token => exact ⟨_, .tokenLost htoken⟩

/-- Setting a context up adds its account, its arena and its heap, or does nothing. -/
theorem stepped_buildContext {call : Call} (configuration : Configuration) :
    ∃ entries, Stepped s call entries (s.buildContext configuration).2 := by
  unfold buildContext
  cases hbuilt : Arena.create configuration.capacity with
  | error violation => exact ⟨_, .idle⟩
  | ok arena =>
    have hmade := Arena.ofBytes_of_create hbuilt
    have hcapacity : arena.capacity = configuration.capacity := by
      rw [(Arena.ofBytes_eq_ok hmade).2]
    have hadded : Stepped s call _ (s.addContext arena) := .contextAdded hmade
    unfold addContext at hadded
    rw [hcapacity] at hadded
    exact ⟨_, hadded⟩

/-- A configuration that is no good does nothing, and any other one sets a context up. -/
theorem stepped_createContext {call : Call} (configuration : Configuration) :
    ∃ entries, Stepped s call entries (s.createContext configuration).2 := by
  unfold createContext
  cases configuration.validate with
  | error error => exact ⟨_, .idle⟩
  | ok _ => exact stepped_buildContext configuration

/-- A single call does one of the things that calls can do. -/
theorem stepped (s : System) {call : Call} (h : call.IsSingle) :
    ∃ entries, Stepped s call entries (s.perform call).2 := by
  cases call with
  | openAccount => exact ⟨_, .accountOpened⟩
  | createArena capacity account =>
    apply stepped_placeArena account
    intro arena hbuilt
    exact Arena.ofBytes_of_create hbuilt
  | lendArena units capacity account =>
    apply stepped_placeArena account
    intro arena hbuilt
    exact hbuilt
  | alloc id size =>
    show ∃ entries, Stepped s _ entries (s.alloc id size).2
    apply stepped_onArena (.alloc size)
    intro m
    rfl
  | restore id target =>
    show ∃ entries, Stepped s _ entries (s.restore id target).2
    apply stepped_onArena (.restore target)
    intro m
    rfl
  | reset id =>
    show ∃ entries, Stepped s _ entries (s.reset id).2
    apply stepped_onArena (.restore { offset := 0 })
    intro m
    rfl
  | write id region edit =>
    show ∃ entries, Stepped s _ entries (s.write id region edit).2
    apply stepped_onArena (.write region edit)
    intro m
    rfl
  | giveBack id => exact stepped_giveBack id
  | dropArena id => exact stepped_dropArena id
  | openHeap account => exact stepped_openHeap account
  | makeNull => exact ⟨_, .nullHeld⟩
  | create id size => exact stepped_createObject id size
  | retain heap id => exact stepped_retain heap id
  | release heap id => exact stepped_release heap id
  | lose id => exact stepped_lose id
  | edit heap id edit => exact stepped_editPayload heap id edit
  | createContext configuration => exact stepped_createContext configuration
  | createDefaultContext =>
    simp only [perform, report]
    exact stepped_buildContext Configuration.default
  | changeHost host => exact ⟨_, .hostChanged host⟩
  | replay _ _ | sumBatch _ _ => exact h.elim
  | checkpoint _ | read _ _ | references _ _ | size _ _ | payload _ _ | sameObject _ _ =>
    exact ⟨_, .idle⟩

/-- What every step keeps holds of every moment of a run. -/
theorem performAll_induction {P : System → Prop}
    (hstep : ∀ {s s' : System} {call : Call} {entries : List Entry},
      P s → Stepped s call entries s' → P s')
    (hs : P s) {calls : List Call} (hsingle : ∀ call ∈ calls, call.IsSingle) :
    P (s.performAll calls) := by
  induction calls generalizing s with
  | nil => exact hs
  | cons call rest ih =>
    obtain ⟨hcall, hrest⟩ := List.forall_mem_cons.1 hsingle
    obtain ⟨entries, h⟩ := s.stepped hcall
    exact ih (hstep hs h) hrest

/-- A system that some calls lead to. Every moment of every run is one. -/
inductive Attained : System → Prop
  | start (host : Host) : Attained { host }
  | performed {s : System} (h : Attained s) (call : Call) : Attained (s.perform call).2

namespace Attained

/-- Calls lead from an attained system to another one. -/
theorem performAll (h : s.Attained) (calls : List Call) : (s.performAll calls).Attained := by
  induction calls generalizing s with
  | nil => exact h
  | cons call rest ih => exact ih (h.performed call)

/-- Actions lead from an attained system to another one. -/
theorem run (h : s.Attained) (actions : List Action) : (s.run actions).2.Attained := by
  rw [snd_run]
  exact h.performAll _

/-- What every step keeps holds of every attained system. -/
theorem kept {P : System → Prop}
    (hstep : ∀ {s s' : System} {call : Call} {entries : List Entry},
      P s → Stepped s call entries s' → P s')
    (hstart : ∀ host : Host, P { host }) (h : s.Attained) : P s := by
  induction h with
  | start host => exact hstart host
  | performed _ call ih =>
    rw [snd_perform]
    exact performAll_induction hstep ih fun _ => isSingle_of_mem_unrollCall

/-- An attained system is a moment of a run of single calls. -/
theorem exists_calls (h : s.Attained) :
    ∃ (host : Host) (calls : List Call), (∀ call ∈ calls, call.IsSingle) ∧
      s = ({ host } : System).performAll calls := by
  induction h with
  | start host => exact ⟨host, [], by simp, rfl⟩
  | @performed s _ call ih =>
    obtain ⟨host, calls, hsingle, rfl⟩ := ih
    have hcall : ∀ single ∈ (({ host } : System).performAll calls).unrollCall call,
        single.IsSingle := fun _ => isSingle_of_mem_unrollCall
    refine ⟨host, _, List.forall_mem_append.2 ⟨hsingle, hcall⟩, ?_⟩
    rw [performAll_append, snd_perform]

end Attained

/-- Every moment of a run of calls is an attained system. -/
theorem attained_performAll (host : Host) (calls : List Call) :
    (({ host } : System).performAll calls).Attained :=
  (Attained.start host).performAll calls

/-- What a run reaches is attained. -/
theorem Reached.attained {host : Host} (h : Reached host s) : s.Attained := by
  obtain ⟨actions, rfl⟩ := h
  exact (Attained.start host).run actions

/-- The last call of a run is a step from the moment before it. -/
theorem stepped_last (s : System) (calls : List Call) {call : Call} (h : call.IsSingle) :
    ∃ entries,
      Stepped (s.performAll calls) call entries (s.performAll (calls ++ [call])) := by
  obtain ⟨entries, hstep⟩ := (s.performAll calls).stepped h
  rw [performAll_append]
  exact ⟨entries, hstep⟩

end System

end Allotment

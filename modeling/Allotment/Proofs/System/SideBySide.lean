import Allotment.Proofs.System.Split

set_option autoImplicit false

/-!
A client of a shared system gets the answers that it would get alone, and its share changes as
the system would that it had alone. What an arena answers and where it moves does not depend on
the counters of its account, and a heap looks only at the object behind the token it is given.
-/

namespace Allotment

/-- Work whose result and whose moves depend on the arena only, and not on its account. -/
def Steered {α : Type} (work : Metered Arena → Outcome α × Metered Arena) : Prop :=
  ∀ arena : Arena, ∃ (answer : Outcome α) (moves : List ArenaMove),
    ∀ m : Metered Arena, m.subject = arena → (work m).1 = answer ∧ (work m).2 = m.moveAll moves

namespace Metered

/-- A metered move moves the arena as the plain one does. -/
theorem subject_move (m : Metered Arena) (step : ArenaMove) :
    (m.move step).subject = m.subject.move step := by
  rw [move_eq]

/-- A replay resets an arena as often, by the same moves, whatever its account says. -/
theorem exists_replay (arena : Arena) (sizes : List UInt64) :
    ∃ (resets : ℕ) (moves : List ArenaMove), ∀ m : Metered Arena, m.subject = arena →
      (m.replay sizes).1 = resets ∧ (m.replay sizes).2 = m.moveAll moves := by
  induction sizes generalizing arena with
  | nil => exact ⟨0, [], fun m _ => ⟨rfl, rfl⟩⟩
  | cons size rest ih =>
    cases hplace : arena.place size with
    | ok region =>
      obtain ⟨resets, moves, hrest⟩ := ih (arena.move (.alloc size))
      refine ⟨resets, .alloc size :: moves, ?_⟩
      intro m hm
      have halloc : m.alloc size = (.ok region, m.move (.alloc size)) :=
        Prod.ext ((m.fst_alloc size).trans (hm ▸ hplace)) rfl
      simp only [replay, halloc]
      exact hrest _ (by rw [subject_move, hm])
    | error failure =>
      obtain ⟨resets, moves, hrest⟩ :=
        ih (((arena.move (.alloc size)).move (.restore { offset := 0 })).move (.alloc size))
      refine ⟨resets + 1, .alloc size :: .restore { offset := 0 } :: .alloc size :: moves, ?_⟩
      intro m hm
      have halloc : m.alloc size = (.error failure, m.move (.alloc size)) :=
        Prod.ext ((m.fst_alloc size).trans (hm ▸ hplace)) rfl
      obtain ⟨hresets, hmoves⟩ := hrest
        (((m.move (.alloc size)).move (.restore { offset := 0 })).move (.alloc size))
        (by rw [subject_move, subject_move, subject_move, hm])
      simp only [replay, halloc]
      exact ⟨congrArg (· + 1) hresets, hmoves⟩

end Metered

namespace Steered

/-- A request looks at the arena only. -/
theorem alloc (size : UInt64) :
    Steered fun m => ((m.alloc size).1.mapError Refusal.exhausted, (m.alloc size).2) := by
  intro arena
  refine ⟨(arena.place size).mapError .exhausted, [.alloc size], ?_⟩
  intro m hm
  exact ⟨by simp only [m.fst_alloc, hm], rfl⟩

/-- A rollback looks at the arena only. -/
theorem restore (target : Checkpoint) : Steered fun m => (.ok (), m.restore target) :=
  fun _ => ⟨.ok (), [.restore target], fun _ _ => ⟨rfl, rfl⟩⟩

/-- A write looks at the arena only. -/
theorem write (region : Region) (edit : Edit) :
    Steered fun m => (.ok (m.write region edit).1, (m.write region edit).2) := by
  intro arena
  refine ⟨.ok ((arena.read? region).map edit.apply), [.write region edit], ?_⟩
  intro m hm
  exact ⟨by simp only [m.fst_write, hm], rfl⟩

/-- A replay looks at the arena only. -/
theorem replay (sizes : List UInt64) :
    Steered fun m => (.ok (m.replay sizes).1, (m.replay sizes).2) := by
  intro arena
  obtain ⟨resets, moves, h⟩ := Metered.exists_replay arena sizes
  refine ⟨.ok resets, moves, ?_⟩
  intro m hm
  exact ⟨congrArg Except.ok (h m hm).1, (h m hm).2⟩

/-- A batch looks at the arena only. -/
theorem sum (samples : List Int32) : Steered fun m => Batch.sum m samples := by
  intro arena
  generalize hsize : UInt64.ofNat (4 * samples.length) = size
  cases hplace : arena.place size with
  | error failure =>
    refine ⟨.error (.exhausted failure), [.alloc size, .restore arena.checkpoint], ?_⟩
    intro m hm
    have halloc : m.alloc size = (.error failure, m.move (.alloc size)) :=
      Prod.ext ((m.fst_alloc size).trans (hm ▸ hplace)) rfl
    constructor
    · simp only [Batch.sum, Metered.scope, hsize, halloc]
    · rw [Batch.snd_sum]
      simp only [Batch.moves, hsize, halloc, hm]
  | ok region =>
    refine ⟨if samples.all Batch.isDoublable then
        .ok (Batch.total ((((arena.move (.alloc size)).read? region).map
          ({ run := Batch.scratch samples } : Edit).apply).getD #[]).toList)
      else .error (.violated .productOverflow),
      .alloc size :: .write region { run := Batch.scratch samples } ::
        if samples.all Batch.isDoublable then [.restore arena.checkpoint] else [], ?_⟩
    intro m hm
    have halloc : m.alloc size = (.ok region, m.move (.alloc size)) :=
      Prod.ext ((m.fst_alloc size).trans (hm ▸ hplace)) rfl
    constructor
    · have hwritten := (m.move (.alloc size)).fst_write region { run := Batch.scratch samples }
      rw [Metered.subject_move, hm] at hwritten
      simp only [Batch.sum, Metered.scope, hsize, halloc, ← hwritten]
      split <;> rfl
    · rw [Batch.snd_sum]
      simp only [Batch.moves, hsize, halloc, hm]

end Steered

namespace ObjectsIn

variable {store own : Store} {objects : Array ObjectId} {token : Token}
  (h : ObjectsIn store objects own) (hknown : ∀ k, token.object? = some k → k < objects.size)
include h hknown

/-- Behind a token is the same object as where its client is alone. -/
theorem find_relocate :
    store.find (token.relocate objects) =
      (own.find token).map
        (Option.map fun found => (objects[found.1]?.getD found.1, found.2)) := by
  cases token with
  | null => rfl
  | reference k maker =>
    have hk := Array.getElem?_eq_getElem (hknown k rfl)
    have hobject := (h.object hk).2
    simp only [Token.relocate, Store.find, hk, Option.getD_some, hobject]
    cases own.object? k with
    | none => rfl
    | some object => simp only [Except.map, Option.map_some, hk, Option.getD_some]

/-- A heap finds the same object behind a token wherever the objects are, or refuses it alike.
-/
theorem findOwn_relocate (heap : UInt64) :
    store.findOwn heap (token.relocate objects) =
      (own.findOwn heap token).map
        (Option.map fun found => (objects[found.1]?.getD found.1, found.2)) := by
  have hfind := h.find_relocate hknown
  cases token with
  | null => rfl
  | reference k maker =>
    simp only [Token.relocate, Store.findOwn] at hfind ⊢
    split
    · exact hfind
    · rfl

/-- The count of an object is the same wherever the objects are. -/
theorem references_relocate :
    store.references (token.relocate objects) = own.references token := by
  unfold Store.references
  rw [h.find_relocate hknown]
  rcases own.find token with violation | _ | found <;> rfl

/-- The size of an object is the same wherever the objects are. -/
theorem size_relocate : store.size (token.relocate objects) = own.size token := by
  unfold Store.size
  rw [h.find_relocate hknown]
  rcases own.find token with violation | _ | found <;> rfl

/-- The bytes of an object are the same wherever the objects are, and a foreign token is refused
alike. -/
theorem payload_relocate (heap : UInt64) :
    store.payload heap (token.relocate objects) = own.payload heap token := by
  unfold Store.payload
  rw [h.findOwn_relocate hknown]
  rcases own.findOwn heap token with violation | _ | found <;> rfl

end ObjectsIn

open Function

variable {κ : Type} [DecidableEq κ] {owner : Source → κ} {c : κ} {s : System}
  {shares : κ → Share} {own : Share}

/-- A client of a shared system gets the answer that it gets alone, and the shared system has
afterwards what it has alone. -/
def Keeps {α : Type} (owner : Source → κ) (shares : κ → Share) (c : κ)
    (x : α × System × Array TokenId) (y : α × System) : Prop :=
  x.1 = y.1 ∧
    ∃ objects, Split owner x.2.1 (update shares c { system := y.2, names := x.2.2, objects })

namespace System

/-- A new token as the next name. -/
def nameToken (names : Array TokenId) :
    Outcome TokenId × System → Outcome TokenId × System × Array TokenId
  | (.ok id, s) => (.ok names.size, s, names.push id)
  | (.error refusal, s) => (.error refusal, s, names)

end System

namespace Keeps

/-- Outcomes that keep the shares are reported as answers that do, if no token is among them. -/
theorem report {α : Type} {x y : Outcome α × System} {names : Array TokenId}
    (h : Keeps owner shares c (x.1, x.2, names) y) {result : α → CallResult}
    (hresult : ∀ a id, result a ≠ .token id) :
    Keeps owner shares c (System.nameResult names (System.report result x))
      (System.report result y) := by
  obtain ⟨hsame, objects, hsplit⟩ := h
  have hnamed : System.nameResult names (System.report result x) =
      (x.1.map result, x.2, names) := by
    rcases x with ⟨refusal | a, after⟩
    · rfl
    · show System.nameResult names (.ok (result a), after) = (.ok (result a), after, names)
      generalize hr : result a = r
      cases r with
      | token id => exact absurd hr (hresult a id)
      | _ => rfl
  rw [hnamed]
  exact ⟨congrArg (Except.map result) hsame, objects, hsplit⟩

/-- A new token is reported as the next name on both sides. -/
theorem reportToken {x y : Outcome TokenId × System} {names : Array TokenId}
    (h : Keeps owner shares c (System.nameToken names x) y) :
    Keeps owner shares c (System.nameResult names (System.report .token x))
      (System.report .token y) := by
  obtain ⟨hsame, objects, hsplit⟩ := h
  rcases x with ⟨refusal | id, after⟩
  · exact ⟨congrArg (Except.map CallResult.token) hsame, objects, hsplit⟩
  · exact ⟨congrArg (Except.map CallResult.token) hsame, objects, hsplit⟩

end Keeps

namespace Split

section Calls

variable (h : Split owner s (update shares c own))
include h

/-- A call that is answered alike and changes nothing. -/
theorem keeps_of_eq {α : Type} {x y : α} (hsame : x = y) :
    Keeps owner shares c (x, s, own.names) (y, own.system) :=
  ⟨hsame, own.objects, h⟩

/-- A client finds an arena of its own as it does alone. -/
theorem arena?_eq {id : ArenaId} (hid : owner (.arena id) = c) :
    s.arena? id = own.system.arena? id := by
  unfold System.arena?
  rw [h.own_embedded.arenas hid]

/-- An arena of a client is in the same place on both sides, on the first account. -/
theorem arenas_of_arena? {id : ArenaId} (hid : owner (.arena id) = c) {arena : Arena}
    (harena : own.system.arena? id = some arena) :
    own.system.arenas[id]? = some { arena := some arena, account := 0 } ∧
      s.arenas[id]? = some { arena := some arena, account := 0 } := by
  obtain ⟨account, hslot⟩ := System.arena?_eq_some.1 harena
  obtain rfl := h.own_embedded.shared (System.account?_of_arena hslot)
  exact ⟨hslot, (h.own_embedded.arenas hid).trans hslot⟩

/-- An arena works the same on a shared account. -/
theorem onArena {α : Type} {id : ArenaId} (hid : owner (.arena id) = c)
    {work : Metered Arena → Outcome α × Metered Arena} (hwork : Steered work) :
    Keeps owner shares c ((s.onArena id work).1, (s.onArena id work).2, own.names)
      (own.system.onArena id work) := by
  cases harena : own.system.arena? id with
  | none =>
    rw [System.unknown_onArena harena, System.unknown_onArena ((h.arena?_eq hid).trans harena)]
    exact h.keeps_of_eq rfl
  | some arena =>
    obtain ⟨hslot, hslot'⟩ := h.arenas_of_arena? hid harena
    obtain ⟨answer, moves, hmoves⟩ := hwork arena
    rw [System.onArena_eq hslot moves (hmoves _ rfl).2,
      System.onArena_eq hslot' moves (hmoves _ rfl).2]
    exact ⟨(hmoves _ rfl).1.trans (hmoves _ rfl).1.symm, own.objects, h.place hid hslot _ _ _⟩

/-- A client that gives a buffer back gets the bytes that it gets alone. -/
theorem giveBack {id : ArenaId} (hid : owner (.arena id) = c) :
    Keeps owner shares c ((s.giveBack id).1, (s.giveBack id).2, own.names)
      (own.system.giveBack id) := by
  cases harena : own.system.arena? id with
  | none =>
    rw [System.giveBack_of_none harena, System.giveBack_of_none ((h.arena?_eq hid).trans harena)]
    exact h.keeps_of_eq rfl
  | some arena =>
    obtain ⟨hslot, hslot'⟩ := h.arenas_of_arena? hid harena
    rw [System.giveBack_eq hslot, System.giveBack_eq hslot']
    exact ⟨rfl, own.objects, h.place hid hslot _ _ _⟩

/-- A client drops an arena as it does alone. -/
theorem dropArena {id : ArenaId} (hid : owner (.arena id) = c) :
    Keeps owner shares c ((.ok .done : Outcome CallResult), s.dropArena id, own.names)
      (.ok .done, own.system.dropArena id) := by
  cases harena : own.system.arena? id with
  | none =>
    rw [System.dropArena_of_none harena, System.dropArena_of_none ((h.arena?_eq hid).trans harena)]
    exact h.keeps_of_eq rfl
  | some arena =>
    obtain ⟨hslot, hslot'⟩ := h.arenas_of_arena? hid harena
    rw [System.dropArena_eq hslot, System.dropArena_eq hslot']
    exact ⟨rfl, own.objects, h.place hid hslot _ _ _⟩

/-- A client gets the checkpoint that it gets alone. -/
theorem checkpoint_eq {id : ArenaId} (hid : owner (.arena id) = c) :
    s.checkpoint id = own.system.checkpoint id := by
  unfold System.checkpoint
  rw [h.arena?_eq hid]

/-- A client reads the bytes that it reads alone. -/
theorem read_eq {id : ArenaId} (hid : owner (.arena id) = c) (region : Region) :
    s.read id region = own.system.read id region := by
  unfold System.read
  rw [h.arena?_eq hid]

/-- A client makes a null token as it does alone. -/
theorem makeNull :
    Keeps owner shares c (s.performAs own.names .makeNull) (own.system.perform .makeNull) := by
  have hnull : ∀ k, Token.null.object? = some k → k < own.objects.size := by
    intro k hk
    cases hk
  refine ⟨?_, own.objects, h.hold hnull⟩
  show Except.ok (CallResult.token own.names.size) = .ok (.token own.system.tokens.size)
  rw [h.own_embedded.tokens.size]

/-- A client creates an object as it does alone, with the same token to it by its own names. -/
theorem createObject {id : HeapId} (hid : owner (.heap id) = c) (size : UInt64) :
    Keeps owner shares c (System.nameToken own.names (s.createObject id size))
      (own.system.createObject id size) := by
  have hembedded := h.own_embedded
  cases hheap : own.system.heaps[id]? with
  | none =>
    have hheap' : s.heaps[id]? = none := by rw [hembedded.heaps, hheap]
    unfold System.createObject
    rw [System.onHeap_of_none hheap, System.onHeap_of_none hheap']
    exact h.keeps_of_eq rfl
  | some heap =>
    have hheap' : s.heaps[id]? = some heap := by rw [hembedded.heaps, hheap]
    rw [System.createObject_eq hheap, System.createObject_eq hheap', hembedded.host]
    split
    · -- the new object is the last one in both systems, wherever that is
      have hplace : (Token.reference own.system.store.objects.size heap.number).relocate
          (own.objects.push s.store.objects.size) =
            .reference s.store.objects.size heap.number := by
        rw [← hembedded.objects.size, Token.relocate, Array.getElem?_push_size, Option.getD_some]
      have hlast : ∀ k, (Token.reference own.system.store.objects.size heap.number).object? =
          some k → k < (own.objects.push s.store.objects.size).size := by
        intro k hk
        obtain rfl := Option.some.inj hk
        rw [Array.size_push, ← hembedded.objects.size]
        exact Nat.lt_succ_self _
      have hcreated :=
        ((h.addObject (Object.fresh size)).record hid heap.account [.created size]).hold hlast
      rw [hplace] at hcreated
      exact ⟨congrArg Except.ok hembedded.tokens.size, _, hcreated⟩
    · exact h.keeps_of_eq rfl

section Tokens

variable {i : TokenId} {id : HeapId}

/-- What a client cannot name alone it cannot name in the shared system either. -/
theorem unknown_of_alone (hknown : own.system.heaps[id]? = none ∨ own.system.token? i = none) :
    s.heaps[id]? = none ∨ s.token? (s.tokenNamed own.names i) = none := by
  rwa [h.own_embedded.heaps, h.own_embedded.token?_name, Option.map_eq_none_iff]

/-- A heap and a token that a client knows are known to the shared system. -/
theorem exists_found (hknown : ¬ (own.system.heaps[id]? = none ∨ own.system.token? i = none)) :
    ∃ heap found, own.system.heaps[id]? = some heap ∧ own.system.token? i = some found ∧
      s.heaps[id]? = some heap ∧
      s.token? (s.tokenNamed own.names i) = some (found.relocate own.objects) ∧
      ∀ k, found.object? = some k → k < own.objects.size := by
  have hembedded := h.own_embedded
  obtain ⟨heap, found, hheap, htoken⟩ := System.exists_of_known hknown
  refine ⟨heap, found, hheap, htoken, by rw [hembedded.heaps, hheap],
    (hembedded.token?_name i).trans (congrArg _ htoken), ?_⟩
  intro k hk
  exact hembedded.known_of_token? htoken hk

/-- A client retains a token as it does alone. -/
theorem retain (id : HeapId) (i : TokenId) :
    Keeps owner shares c (System.nameToken own.names (s.retain id (s.tokenNamed own.names i)))
      (own.system.retain id i) := by
  have hembedded := h.own_embedded
  by_cases hknown : own.system.heaps[id]? = none ∨ own.system.token? i = none
  · rw [System.retain_of_none hknown, System.retain_of_none (h.unknown_of_alone hknown)]
    exact h.keeps_of_eq rfl
  · obtain ⟨heap, found, hheap, htoken, hheap', htoken', hplaced⟩ := h.exists_found hknown
    rw [System.retain_eq hheap htoken, System.retain_eq hheap' htoken',
      hembedded.objects.findOwn_relocate hplaced]
    rcases hfind : own.system.store.findOwn heap.number found with violation | _ | ⟨k, object⟩
    · exact h.keeps_of_eq rfl
    · obtain rfl := Store.findOwn_eq_none hfind
      exact ⟨congrArg Except.ok hembedded.tokens.size, own.objects, h.hold hplaced⟩
    · obtain ⟨rfl, hobject⟩ := Store.findOwn_eq_some hfind
      have hk := Array.getElem?_eq_getElem (hplaced k rfl)
      simp only [Except.map, Option.map_some, hk, Option.getD_some]
      split
      · exact h.keeps_of_eq rfl
      · exact ⟨congrArg Except.ok hembedded.tokens.size, own.objects,
          (h.putObject hk _).hold hplaced⟩

/-- A client releases a token as it does alone, with the last reference where it is the last one
alone. -/
theorem release (id : HeapId) (hid : owner (.heap id) = c) (i : TokenId) :
    Keeps owner shares c
      ((s.release id (s.tokenNamed own.names i)).1, (s.release id (s.tokenNamed own.names i)).2,
        own.names)
      (own.system.release id i) := by
  have hembedded := h.own_embedded
  by_cases hknown : own.system.heaps[id]? = none ∨ own.system.token? i = none
  · rw [System.release_of_none hknown, System.release_of_none (h.unknown_of_alone hknown)]
    exact h.keeps_of_eq rfl
  · obtain ⟨heap, found, hheap, htoken, hheap', htoken', hplaced⟩ := h.exists_found hknown
    have hname := hembedded.names_of_token? htoken
    rw [System.release_eq hheap htoken, System.release_eq hheap' htoken',
      hembedded.objects.findOwn_relocate hplaced]
    rcases hfind : own.system.store.findOwn heap.number found with violation | _ | ⟨k, object⟩
    · exact ⟨rfl, own.objects, h.retire hname .lost⟩
    · exact ⟨rfl, own.objects, h.retire hname .released⟩
    · obtain ⟨rfl, hobject⟩ := Store.findOwn_eq_some hfind
      have hk := Array.getElem?_eq_getElem (hplaced k rfl)
      simp only [Except.map, Option.map_some, hk, Option.getD_some]
      split
      · exact ⟨rfl, own.objects,
          ((h.putObject hk none).record hid heap.account _).retire hname .released⟩
      · exact ⟨rfl, own.objects, (h.putObject hk _).retire hname .released⟩

/-- A client loses a token as it does alone. -/
theorem lose (i : TokenId) :
    Keeps owner shares c ((.ok .done : Outcome CallResult), s.lose (s.tokenNamed own.names i),
      own.names) (.ok .done, own.system.lose i) := by
  have hembedded := h.own_embedded
  have htoken' := hembedded.token?_name i
  unfold System.lose
  rw [htoken']
  cases htoken : own.system.token? i with
  | none => exact h.keeps_of_eq rfl
  | some token =>
    exact ⟨rfl, own.objects, h.retire (hembedded.names_of_token? htoken) .lost⟩

/-- A client writes a payload as it does alone. -/
theorem editPayload (id : HeapId) (i : TokenId) (edit : Edit) :
    Keeps owner shares c
      ((s.editPayload id (s.tokenNamed own.names i) edit).1,
        (s.editPayload id (s.tokenNamed own.names i) edit).2, own.names)
      (own.system.editPayload id i edit) := by
  have hembedded := h.own_embedded
  by_cases hknown : own.system.heaps[id]? = none ∨ own.system.token? i = none
  · rw [System.editPayload_of_none hknown, System.editPayload_of_none (h.unknown_of_alone hknown)]
    exact h.keeps_of_eq rfl
  · obtain ⟨heap, found, hheap, htoken, hheap', htoken', hplaced⟩ := h.exists_found hknown
    rw [System.editPayload_eq hheap htoken, System.editPayload_eq hheap' htoken',
      hembedded.objects.findOwn_relocate hplaced]
    rcases hfind : own.system.store.findOwn heap.number found with violation | _ | ⟨k, object⟩
    · exact h.keeps_of_eq rfl
    · exact h.keeps_of_eq rfl
    · obtain ⟨rfl, hobject⟩ := Store.findOwn_eq_some hfind
      have hk := Array.getElem?_eq_getElem (hplaced k rfl)
      simp only [Except.map, Option.map_some, hk, Option.getD_some]
      exact ⟨rfl, own.objects, h.putObject hk _⟩

/-- A question about a token gets the same answer on both sides if it does not depend on where
the objects are. -/
theorem inspect_eq {α : Type} (id : HeapId) (i : TokenId)
    {question : UInt64 → Store → Token → Except Violation α}
    (hquestion : ∀ number token,
      (∀ k, token.object? = some k → k < own.objects.size) →
        question number s.store (token.relocate own.objects) =
          question number own.system.store token) :
    s.inspect id (s.tokenNamed own.names i) question = own.system.inspect id i question := by
  by_cases hknown : own.system.heaps[id]? = none ∨ own.system.token? i = none
  · rw [System.inspect_of_none hknown, System.inspect_of_none (h.unknown_of_alone hknown)]
  · obtain ⟨heap, found, hheap, htoken, hheap', htoken', hplaced⟩ := h.exists_found hknown
    rw [System.inspect_eq hheap htoken, System.inspect_eq hheap' htoken',
      hquestion heap.number found hplaced]

omit h in
/-- Two tokens to known objects are to the same one wherever the objects are, since no place
holds two. -/
theorem sameObject_relocate {store alone : Store} {objects : Array ObjectId}
    (hobjects : ObjectsIn store objects alone) {a b : Token}
    (ha : ∀ k, a.object? = some k → k < objects.size)
    (hb : ∀ k, b.object? = some k → k < objects.size) :
    (a.relocate objects).sameObject (b.relocate objects) = a.sameObject b := by
  cases a with
  | null => cases b <;> rfl
  | reference k maker =>
    cases b with
    | null => rfl
    | reference l other =>
      have hk := Array.getElem?_eq_getElem (ha k rfl)
      have hl := Array.getElem?_eq_getElem (hb l rfl)
      simp only [Token.sameObject, Token.relocate, Token.object?, hk, hl, Option.getD_some,
        Option.some.injEq, decide_eq_decide]
      constructor
      · intro heq
        exact hobjects.injective hk (heq ▸ hl)
      · rintro rfl
        rfl

/-- A client compares two tokens as it does alone. -/
theorem sameObject_eq (i j : TokenId) :
    s.sameObject (s.tokenNamed own.names i) (s.tokenNamed own.names j) =
      own.system.sameObject i j := by
  have hembedded := h.own_embedded
  unfold System.sameObject
  rw [hembedded.token?_name, hembedded.token?_name]
  cases hi : own.system.token? i with
  | none => rfl
  | some a =>
    cases hj : own.system.token? j with
    | none => rfl
    | some b =>
      have hsame := sameObject_relocate hembedded.objects
        (fun _ hk => hembedded.known_of_token? hi hk) fun _ hk => hembedded.known_of_token? hj hk
      exact congrArg Except.ok hsame

end Tokens

/-- A call of a client is answered as if the client were alone. -/
theorem perform {call : Call} (hcall : call.IsOf owner c) :
    Keeps owner shares c (s.performAs own.names call) (own.system.perform call) := by
  have hobjects := h.own_embedded.objects
  cases call with
  | alloc id size => exact (h.onArena hcall (.alloc size)).report (by simp)
  | restore id target => exact (h.onArena hcall (.restore target)).report (by simp)
  | reset id => exact (h.onArena hcall (.restore { offset := 0 })).report (by simp)
  | write id region edit => exact (h.onArena hcall (.write region edit)).report (by simp)
  | replay id sizes => exact (h.onArena hcall (.replay sizes)).report (by simp)
  | sumBatch id samples => exact (h.onArena hcall (.sum samples)).report (by simp)
  | giveBack id => exact (h.giveBack hcall).report (by simp)
  | dropArena id => exact h.dropArena hcall
  | checkpoint id =>
    have hsame := h.keeps_of_eq (h.checkpoint_eq hcall)
    exact Keeps.report (x := (s.checkpoint id, s)) hsame (by simp)
  | read id region =>
    have hsame := h.keeps_of_eq (h.read_eq hcall region)
    exact Keeps.report (x := (s.read id region, s)) hsame (by simp)
  | makeNull => exact h.makeNull
  | create id size => exact (h.createObject hcall size).reportToken
  | retain id i => exact (h.retain id i).reportToken
  | release id i => exact (h.release id hcall i).report (by simp)
  | lose i => exact h.lose i
  | references id i =>
    have hsame : s.references id _ = own.system.references id i :=
      h.inspect_eq id i fun _ _ hknown => hobjects.references_relocate hknown
    exact Keeps.report (x := (s.references id _, s)) (h.keeps_of_eq hsame) (by simp)
  | size id i =>
    have hsame : s.objectSize id _ = own.system.objectSize id i :=
      h.inspect_eq id i fun _ _ hknown => hobjects.size_relocate hknown
    exact Keeps.report (x := (s.objectSize id _, s)) (h.keeps_of_eq hsame) (by simp)
  | payload id i =>
    have hsame : s.payload id _ = own.system.payload id i :=
      h.inspect_eq id i fun number _ hknown => hobjects.payload_relocate hknown number
    exact Keeps.report (x := (s.payload id _, s)) (h.keeps_of_eq hsame) (by simp)
  | edit id i change => exact (h.editPayload id i change).report (by simp)
  | sameObject i j =>
    have hsame := h.keeps_of_eq (h.sameObject_eq i j)
    exact Keeps.report (x := (s.sameObject _ _, s)) hsame (by simp)
  | openAccount | createArena _ _ | lendArena _ _ _ | openHeap _ | createContext _
  | createDefaultContext | changeHost _ => exact hcall.elim

end Calls

mutual

/-- An action of a client, however deep its scopes, is answered as if the client were alone. -/
theorem act {s : System} {own : Share} (h : Split owner s (update shares c own)) :
    ∀ action : Action, action.IsOf owner c →
      Keeps owner shares c (s.actAs own.names action) (own.system.act action)
  | .call single, haction => by
    obtain ⟨hsame, objects, hsplit⟩ := h.perform haction
    exact ⟨congrArg ActionReply.call hsame, objects, hsplit⟩
  | .scope arena body abandoned, haction => by
    obtain ⟨harena, hbody⟩ := haction
    unfold System.actAs System.act
    rw [h.checkpoint_eq harena]
    cases own.system.checkpoint arena with
    | error refusal => exact h.keeps_of_eq rfl
    | ok target =>
      obtain ⟨hsame, objects, hsplit⟩ := h.run body hbody
      refine ⟨congrArg ActionReply.scope hsame, ?_⟩
      cases abandoned with
      | true => exact ⟨objects, hsplit⟩
      | false =>
        obtain ⟨-, later, hrolled⟩ := hsplit.onArena harena (.restore target)
        exact ⟨later, hrolled⟩

/-- A client that does several things in the shared system gets the answers it gets alone, and
keeps its share. -/
theorem run {s : System} {own : Share} (h : Split owner s (update shares c own)) :
    ∀ actions : List Action, Action.AreOf owner c actions →
      Keeps owner shares c (s.runAs own.names actions) (own.system.run actions)
  | [], _ => h.keeps_of_eq rfl
  | action :: rest, hactions => by
    obtain ⟨haction, hrest⟩ := hactions
    obtain ⟨hsame, objects, hsplit⟩ := h.act action haction
    obtain ⟨hsames, later, hlast⟩ := hsplit.run rest hrest
    exact ⟨congrArg₂ List.cons hsame hsames, later, hlast⟩

end

end Split

end Allotment

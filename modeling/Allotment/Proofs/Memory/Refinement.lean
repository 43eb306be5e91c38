import Allotment.Proofs.Memory.Machine

set_option autoImplicit false

/-!
A machine answers every call as the system does, wherever its objects lie, as long as no part
of memory is in use twice. Every object that is not destroyed lies in a block of its own, and
what is stored for another object or for an arena lies outside this block; a block that was
given back holds nothing that anybody would still read.
-/

namespace Allotment

namespace Memory

/-- Runs that lie outside a block leave the object in it alone. -/
theorem Holds.storeAll {m : Memory} {base : ℕ} {object : Object} (h : m.Holds base object)
    {runs : List (ℕ × Bytes)}
    (hapart : ∀ run ∈ runs, (Block.mk run.1 run.2.size).Apart (object.block base)) :
    (m.storeAll runs).Holds base object := by
  induction runs generalizing m with
  | nil => exact h
  | cons run rest ih =>
    obtain ⟨hfirst, hrest⟩ := List.forall_mem_cons.1 hapart
    have hstored := m.sameBut_store run.1 run.2.toList
    rw [Array.length_toList] at hstored
    exact ih (h.of_apart hstored hfirst) hrest

end Memory

namespace Placement

/-- The block of an object that is not destroyed. -/
def blockAt (place : Placement) (s : System) (k : ObjectId) : Option Block :=
  (s.store.object? k).map fun object => object.block (place.block k)

/-- An object that is there has the block that it was placed in. -/
theorem blockAt_eq (place : Placement) {s : System} {k : ObjectId} {object : Object}
    (h : s.store.object? k = some object) :
    place.blockAt s k = some (object.block (place.block k)) :=
  congrArg (Option.map _) h

/-- What takes the place of an object concerns the block of this object only. -/
theorem blockAt_putObject (place : Placement) {s : System} {k : ObjectId} {object : Object}
    (h : s.store.object? k = some object) (next : Option Object) (j : ObjectId) :
    place.blockAt (s.putObject k next) j =
      if j = k then next.map fun object => object.block (place.block k)
      else place.blockAt s j := by
  show ((s.store.put k next).object? j).map _ = _
  rw [Store.object?_put (Store.lt_size_of_object? h)]
  split
  · rename_i hj
    rw [hj]
  · rfl

/-- A new object has a block too, and the others keep theirs. -/
theorem blockAt_addObject (place : Placement) (s : System) (object : Object) (j : ObjectId) :
    place.blockAt (s.addObject object) j =
      if j = s.store.objects.size then some (object.block (place.block j))
      else place.blockAt s j := by
  unfold blockAt
  rw [System.object?_addObject]
  split <;> rfl

end Placement

namespace Machine

variable {place : Placement} {m : Machine} {s : System}

/-- A machine is in the state of a system: it has the same tokens as addresses, and the objects
that are not destroyed in memory, each in a block of its own. -/
structure Carries (place : Placement) (m : Machine) (s : System) : Prop where
  rest : m.rest = s.withObjects {} #[]
  made : m.made = s.store.objects.size
  pointers : m.pointers = s.tokens.map place.slot
  live : ∀ block, block ∈ m.live ↔ ∃ k, place.blockAt s k = some block
  apart : ∀ {j k : ObjectId} {a b : Block}, place.blockAt s j = some a →
    place.blockAt s k = some b → j ≠ k → a.Apart b
  holds : ∀ {k : ObjectId} {object : Object}, s.store.object? k = some object →
    m.memory.Holds (place.block k) object

/-- A call off the heap is made on what is not in memory. -/
theorem perform_of_isOffHeap {call : Call} (h : call.IsOffHeap) :
    m.perform place call = m.performOffHeap place call := by
  cases call with
  | makeNull | create _ _ | retain _ _ | release _ _ | lose _ | references _ _ | size _ _
    | payload _ _ | edit _ _ _ | sameObject _ _ => exact h.elim
  | _ => simp only [perform]

namespace Carries

/-- A machine that nothing was done with is in the state of an empty system. -/
theorem start (host : Host) (memory : Memory) :
    Carries place (Machine.start host memory) { host } where
  rest := rfl
  made := rfl
  pointers := by simp [Machine.start]
  live block := by simp [Machine.start, Placement.blockAt, Store.object?]
  apart h := by simp [Placement.blockAt, Store.object?] at h
  holds h := by simp [Store.object?] at h

section Frame

variable (h : Carries place m s)
include h

/-- A machine has the heaps of its system. -/
theorem heaps_eq (id : HeapId) : m.rest.heaps[id]? = s.heaps[id]? := by
  rw [h.rest]
  rfl

/-- A machine has as many tokens as its system. -/
theorem size_pointers : m.pointers.size = s.tokens.size := by
  rw [h.pointers, Array.size_map]

/-- A machine holds the address of a token if its system holds the token. -/
theorem pointer?_eq (id : TokenId) : m.pointer? id = (s.token? id).map place.pointer := by
  unfold pointer? System.token?
  rw [h.pointers, Array.getElem?_map]
  rcases s.tokens[id]? with _ | ⟨token, _ | _ | _⟩ <;> rfl

/-- A token and its address find their places alike. -/
theorem hold (token : Token) : Carries place (m.hold (place.pointer token)) (s.hold token).2 where
  rest := h.rest
  made := h.made
  pointers := by
    show m.pointers.push _ = (s.tokens.push _).map _
    rw [h.pointers, Array.map_push]
    rfl
  live := h.live
  apart := h.apart
  holds := h.holds

/-- A token and its address become released or lost alike. -/
theorem retire (id : TokenId) (fate : Holding) :
    Carries place (m.retire id fate) (s.retire id fate) where
  rest := h.rest
  made := h.made
  pointers := by
    apply Array.ext_getElem?
    intro i
    simp only [Machine.retire, System.retire, h.pointers, Array.getElem?_modify,
      Array.getElem?_map]
    split
    · rcases s.tokens[i]? with _ | slot <;> rfl
    · rfl
  live := h.live
  apart := h.apart
  holds := h.holds

/-- What is recorded does not concern the memory. -/
theorem record (source : Source) (account : AccountId) (events : List Event) :
    Carries place { m with rest := m.rest.record source account events }
      (s.record source account events) where
  rest := by
    rw [h.rest]
    rfl
  made := h.made
  pointers := h.pointers
  live := h.live
  apart := h.apart
  holds := h.holds

/-- What is stored in the block of one object leaves the others alone. -/
theorem holds_of_ne {k : ObjectId} {object : Object} (hobject : s.store.object? k = some object)
    {after : Memory} (hsame : Memory.SameBut (object.block (place.block k)) m.memory after)
    {j : ObjectId} (hj : j ≠ k) {found : Object} (hfound : s.store.object? j = some found) :
    after.Holds (place.block j) found :=
  (h.holds hfound).of_apart hsame
    (h.apart (place.blockAt_eq hobject) (place.blockAt_eq hfound) hj.symm)

/-- An object that changes in its block, with its size as it was. -/
theorem update {k : ObjectId} {object next : Object} (hobject : s.store.object? k = some object)
    (hsize : next.size = object.size) {after : Memory} (hholds : after.Holds (place.block k) next)
    (hsame : Memory.SameBut (object.block (place.block k)) m.memory after) :
    Carries place { m with memory := after } (s.putObject k (some next)) := by
  have hblocks : ∀ j, place.blockAt (s.putObject k (some next)) j = place.blockAt s j := by
    intro j
    rw [place.blockAt_putObject hobject]
    split
    · rename_i hj
      rw [hj, place.blockAt_eq hobject, Option.map_some, Object.block, Object.block, hsize]
    · rfl
  constructor
  · exact h.rest
  · exact h.made.trans (Store.size_put _ _ _).symm
  · exact h.pointers
  · intro block
    simp only [hblocks]
    exact h.live block
  · intro i j a b ha hb hne
    rw [hblocks] at ha hb
    exact h.apart ha hb hne
  · intro j found hfound
    replace hfound : (s.store.put k (some next)).object? j = some found := hfound
    rw [Store.object?_put (Store.lt_size_of_object? hobject)] at hfound
    split at hfound
    · rename_i hj
      obtain rfl := Option.some.inj hfound
      rw [hj]
      exact hholds
    · rename_i hj
      exact h.holds_of_ne hobject hsame hj hfound

/-- An object whose block is given back. -/
theorem destroy {k : ObjectId} {object : Object} (hobject : s.store.object? k = some object)
    {after : Memory} (hsame : Memory.SameBut (object.block (place.block k)) m.memory after) :
    Carries place
      { m with
        memory := after
        live := m.live.filter fun other => other ≠ object.block (place.block k) }
      (s.putObject k none) := by
  have hblocks := place.blockAt_putObject hobject none
  constructor
  · exact h.rest
  · exact h.made.trans (Store.size_put _ _ _).symm
  · exact h.pointers
  · intro block
    rw [List.mem_filter, h.live]
    simp only [hblocks, decide_eq_true_eq, Option.map_none]
    constructor
    · rintro ⟨⟨j, hj⟩, hne⟩
      refine ⟨j, ?_⟩
      rw [if_neg]
      · exact hj
      · rintro rfl
        rw [place.blockAt_eq hobject, Option.some.injEq] at hj
        exact hne hj.symm
    · rintro ⟨j, hj⟩
      split at hj
      · cases hj
      · rename_i hjk
        -- blocks have a header, so two that are apart are not the same block
        have hpositive : 0 < block.length := by
          obtain ⟨found, -, rfl⟩ := Option.map_eq_some_iff.1 hj
          exact Nat.lt_of_lt_of_le (by decide) (Nat.le_add_right Host.headerSize _)
        exact ⟨⟨j, hj⟩, (h.apart hj (place.blockAt_eq hobject) hjk).ne hpositive⟩
  · intro i j a b ha hb hne
    rw [hblocks] at ha hb
    split at ha
    · cases ha
    · split at hb
      · cases hb
      · exact h.apart ha hb hne
  · intro j found hfound
    replace hfound : (s.store.put k none).object? j = some found := hfound
    rw [Store.object?_put (Store.lt_size_of_object? hobject)] at hfound
    split at hfound
    · cases hfound
    · rename_i hj
      exact h.holds_of_ne hobject hsame hj hfound

/-- A new object in a block that nobody uses. -/
theorem create (size : UInt64)
    (hfree : ∀ block ∈ m.live,
      ((Object.fresh size).block (place.block m.made)).Apart block) :
    Carries place
      { m with
        memory := m.memory.allocate (place.block m.made) size
        made := m.made + 1
        live := (Object.fresh size).block (place.block m.made) :: m.live }
      (s.addObject (Object.fresh size)) := by
  have hblocks := place.blockAt_addObject s (Object.fresh size)
  rw [h.made] at hfree ⊢
  have hnew : ∀ {j : ObjectId} {block : Block}, place.blockAt s j = some block →
      ((Object.fresh size).block (place.block s.store.objects.size)).Apart block := by
    intro j block hj
    exact hfree block ((h.live block).2 ⟨j, hj⟩)
  -- the new block lies apart from all live ones, so the other objects keep their bytes
  constructor
  · exact h.rest
  · exact (Array.size_push _).symm
  · exact h.pointers
  · intro block
    rw [List.mem_cons, h.live]
    simp only [hblocks]
    constructor
    · rintro (rfl | ⟨j, hj⟩)
      · exact ⟨_, if_pos rfl⟩
      · refine ⟨j, ?_⟩
        rw [if_neg]
        · exact hj
        · rintro rfl
          obtain ⟨found, hfound, -⟩ := Option.map_eq_some_iff.1 hj
          exact Nat.lt_irrefl _ (Store.lt_size_of_object? hfound)
    · rintro ⟨j, hj⟩
      split at hj
      · rename_i hlast
        rw [hlast, Option.some.injEq] at hj
        exact .inl hj.symm
      · exact .inr ⟨j, hj⟩
  · intro i j a b ha hb hne
    rw [hblocks] at ha hb
    split at ha <;> split at hb
    · rename_i hi hj
      exact absurd (hi.trans hj.symm) hne
    · rename_i hi hj
      rw [hi, Option.some.injEq] at ha
      rw [← ha]
      exact hnew hb
    · rename_i hi hj
      rw [hj, Option.some.injEq] at hb
      rw [← hb]
      exact (hnew ha).symm
    · exact h.apart ha hb hne
  · intro j found hfound
    rw [System.object?_addObject] at hfound
    split at hfound
    · rename_i hj
      obtain rfl := Option.some.inj hfound
      rw [hj]
      exact Memory.holds_allocate _ _ _
    · exact (h.holds hfound).of_apart (Memory.sameBut_allocate _ _ _)
        (hnew (place.blockAt_eq hfound))

/-- A call that is none of objects and tokens: what the arenas keep in their buffers lies
outside the blocks. -/
theorem offHeap {call : Call} (hcall : call.IsOffHeap)
    (hfree : (m.performOffHeap place call).2.NoOverlap place) :
    (m.performOffHeap place call).1 = (s.perform call).1 ∧
      Carries place (m.performOffHeap place call).2 (s.perform call).2 := by
  have hsame := s.perform_withObjects {} #[] hcall
  rw [← h.rest] at hsame
  obtain ⟨hstore, htokens⟩ := s.perform_of_isOffHeap hcall
  have hblocks : ∀ k, place.blockAt (s.perform call).2 k = place.blockAt s k := by
    intro k
    unfold Placement.blockAt
    rw [hstore]
  refine ⟨congrArg Prod.fst hsame, ?_⟩
  constructor
  · exact congrArg Prod.snd hsame
  · rw [hstore]
    exact h.made
  · rw [htokens]
    exact h.pointers
  · intro block
    simp only [hblocks]
    exact h.live block
  · intro i j a b ha hb hne
    rw [hblocks] at ha hb
    exact h.apart ha hb hne
  · intro k object hobject
    rw [hstore] at hobject
    apply (h.holds hobject).storeAll
    intro run hrun
    have hlive := (h.live _).2 ⟨k, place.blockAt_eq hobject⟩
    have hapart := (List.pairwise_append.1 hfree).2.2 _ hlive ⟨run.1, run.2.size⟩
      (List.mem_map_of_mem hrun)
    exact hapart.symm

/-- A machine finds the address of the object that a heap finds behind a token. -/
theorem own_eq (hnone : ¬ s.Dangling) {heap : HeapId} {owner : Heap} {id : TokenId}
    {token : Token} (hheap : s.heaps[heap]? = some owner) (htoken : s.token? id = some token) :
    m.own heap id =
      ((s.store.findOwn owner.number token).map fun entry =>
        (owner, entry.map fun found => place.block found.1 + Host.headerSize)).mapError
          .violated := by
  simp only [own, h.heaps_eq, hheap, h.pointer?_eq, htoken, Option.map_some]
  cases token with
  | null => rfl
  | reference k maker =>
    by_cases hmaker : maker = owner.number
    · subst hmaker
      cases hobject : s.store.object? k with
      | none => exact absurd ⟨id, k, owner.number, htoken, hobject⟩ hnone
      | some object =>
        rw [Store.findOwn_of_object? hobject]
        simp only [Placement.pointer, if_true]
        rfl
    · rw [System.findOwn_of_foreign s.store hmaker]
      simp only [Placement.pointer, hmaker, if_false]
      rfl

/-- A heap or a token that there is not is unknown to the machine too. -/
theorem own_of_none {heap : HeapId} {id : TokenId}
    (hunknown : s.heaps[heap]? = none ∨ s.token? id = none) : m.own heap id = .error .unknown := by
  simp only [own, h.heaps_eq, h.pointer?_eq]
  rcases hunknown with hheap | htoken
  · rw [hheap]
  · rw [htoken]
    cases s.heaps[heap]? <;> rfl

end Frame

section Calls

variable (h : Carries place m s)
include h

/-- A machine creates an object as its system does, in a block that does not overlap what is in
use. -/
theorem createObject {heap : HeapId} {size : UInt64}
    (hfree : (m.create place heap size).2.NoOverlap place) :
    (m.create place heap size).1 = (s.createObject heap size).1 ∧
      Carries place (m.create place heap size).2 (s.createObject heap size).2 := by
  have hhost : m.rest.host = s.host := by
    rw [h.rest]
    rfl
  unfold Machine.create at hfree ⊢
  rw [h.heaps_eq, hhost] at hfree ⊢
  cases hheap : s.heaps[heap]? with
  | none =>
    rw [System.createObject_of_none hheap]
    exact ⟨rfl, h⟩
  | some owner =>
    rw [System.createObject_eq hheap]
    simp only [hheap] at hfree ⊢
    by_cases hserved : s.host.accepts size = true
    · rw [if_pos hserved] at hfree
      rw [if_pos hserved, if_pos hserved]
      refine ⟨congrArg Except.ok h.size_pointers, ?_⟩
      have hnew := (List.pairwise_cons.1 (List.pairwise_append.1 hfree).1).1
      have hafter := ((h.create size hnew).record (.heap heap) owner.account
        [.created size]).hold (.reference s.store.objects.size owner.number)
      rw [← h.made] at hafter ⊢
      exact hafter
    · rw [if_neg hserved, if_neg hserved]
      exact ⟨rfl, h⟩

/-- A machine loses a token as its system does. -/
theorem loseToken (id : TokenId) : Carries place (m.lose id) (s.lose id) := by
  unfold Machine.lose System.lose
  rw [h.pointer?_eq]
  cases s.token? id with
  | none => exact h
  | some token => exact h.retire id .lost

variable (hnone : ¬ s.Dangling)
include hnone

/-- A machine counts one more reference where its system does. -/
theorem retainToken (heap : HeapId) (id : TokenId) :
    (m.retain heap id).1 = (s.retain heap id).1 ∧
      Carries place (m.retain heap id).2 (s.retain heap id).2 := by
  unfold Machine.retain
  by_cases hknown : s.heaps[heap]? = none ∨ s.token? id = none
  · rw [System.retain_of_none hknown, h.own_of_none hknown]
    exact ⟨rfl, h⟩
  · obtain ⟨owner, token, hheap, htoken⟩ := System.exists_of_known hknown
    rw [System.retain_eq hheap htoken, h.own_eq hnone hheap htoken]
    rcases hfind : s.store.findOwn owner.number token with violation | _ | ⟨k, object⟩
    · exact ⟨rfl, h⟩
    · exact ⟨congrArg Except.ok h.size_pointers, h.hold .null⟩
    · obtain ⟨rfl, hobject⟩ := Store.findOwn_eq_some hfind
      have hholds := h.holds hobject
      simp only [Except.map, Except.mapError, Option.map_some, hholds.references_eq]
      split
      · exact ⟨rfl, h⟩
      · refine ⟨congrArg Except.ok h.size_pointers, ?_⟩
        have hafter : Carries place _
            (s.putObject k (some { object with references := object.references + 1 })) :=
          h.update hobject (by rfl) (hholds.setReferences _)
            (m.memory.sameBut_setReferences _ object _)
        exact hafter.hold (.reference k owner.number)

/-- A machine counts one reference less where its system does, and gives the block back where
its system destroys the object. -/
theorem releaseToken (heap : HeapId) (id : TokenId) :
    (m.release heap id).1 = (s.release heap id).1 ∧
      Carries place (m.release heap id).2 (s.release heap id).2 := by
  unfold Machine.release
  by_cases hknown : s.heaps[heap]? = none ∨ s.token? id = none
  · rw [System.release_of_none hknown, h.own_of_none hknown]
    exact ⟨rfl, h⟩
  · obtain ⟨owner, token, hheap, htoken⟩ := System.exists_of_known hknown
    rw [System.release_eq hheap htoken, h.own_eq hnone hheap htoken]
    rcases hfind : s.store.findOwn owner.number token with violation | _ | ⟨k, object⟩
    · exact ⟨rfl, h.retire id .lost⟩
    · exact ⟨rfl, h.retire id .released⟩
    · obtain ⟨rfl, hobject⟩ := Store.findOwn_eq_some hfind
      have hholds := h.holds hobject
      have hsame := m.memory.sameBut_setReferences (place.block k) object
        (object.references - 1)
      simp only [Except.map, Except.mapError, Option.map_some, hholds.references_eq,
        hholds.size_eq]
      split
      · refine ⟨rfl, ?_⟩
        have hsize : (m.memory.setReferences (place.block k + Host.headerSize)
            (object.references - 1)).size (place.block k + Host.headerSize) = object.size :=
          (hholds.setReferences _).size_eq
        have hafter := ((h.destroy hobject hsame).record (.heap heap) owner.account
          [.destroyed object.size]).retire id .released
        unfold Machine.free
        simp only [hsize, Nat.add_sub_cancel]
        exact hafter
      · refine ⟨rfl, ?_⟩
        have hafter : Carries place _
            (s.putObject k (some { object with references := object.references - 1 })) :=
          h.update hobject (by rfl) (hholds.setReferences _) hsame
        exact hafter.retire id .released

/-- A machine edits the bytes at an address as its system does those of the object. -/
theorem editPayload (heap : HeapId) (id : TokenId) (edit : Edit) :
    (m.editPayload heap id edit).1 = (s.editPayload heap id edit).1 ∧
      Carries place (m.editPayload heap id edit).2 (s.editPayload heap id edit).2 := by
  unfold Machine.editPayload
  by_cases hknown : s.heaps[heap]? = none ∨ s.token? id = none
  · rw [System.editPayload_of_none hknown, h.own_of_none hknown]
    exact ⟨rfl, h⟩
  · obtain ⟨owner, token, hheap, htoken⟩ := System.exists_of_known hknown
    rw [System.editPayload_eq hheap htoken, h.own_eq hnone hheap htoken]
    rcases hfind : s.store.findOwn owner.number token with violation | _ | ⟨k, object⟩
    · exact ⟨rfl, h⟩
    · exact ⟨rfl, h⟩
    · obtain ⟨rfl, hobject⟩ := Store.findOwn_eq_some hfind
      have hholds := h.holds hobject
      have hsize := (edit.size_apply object.payload).trans hholds.size_payload
      simp only [Except.map, Except.mapError, Option.map_some, hholds.payload_eq]
      refine ⟨trivial, ?_⟩
      exact h.update hobject (by rfl) (hholds.setPayload hsize)
        (m.memory.sameBut_setPayload _ hsize)

/-- A machine shows the bytes that its system shows. -/
theorem payload_eq (heap : HeapId) (id : TokenId) : m.payload heap id = s.payload heap id := by
  unfold Machine.payload System.payload
  by_cases hknown : s.heaps[heap]? = none ∨ s.token? id = none
  · rw [System.inspect_of_none hknown, h.own_of_none hknown]
    rfl
  · obtain ⟨owner, token, hheap, htoken⟩ := System.exists_of_known hknown
    rw [System.inspect_eq hheap htoken, h.own_eq hnone hheap htoken, Store.payload]
    rcases hfind : s.store.findOwn owner.number token with violation | _ | ⟨k, object⟩
    · rfl
    · rfl
    · obtain ⟨-, hobject⟩ := Store.findOwn_eq_some hfind
      exact congrArg Except.ok (h.holds hobject).payload_eq

/-- What any heap answers about a token is read off the header in front of its bytes. -/
theorem inspect_eq {α : Type} {question : Option ℕ → α} {answer : Option (ObjectId × Object) → α}
    (hnull : question none = answer none)
    (hread : ∀ {k : ObjectId} {object : Object}, s.store.object? k = some object →
      question (some (place.block k + Host.headerSize)) = answer (some (k, object)))
    (heap : HeapId) (id : TokenId) :
    m.inspect heap id question =
      s.inspect heap id fun _ store token => (store.find token).map answer := by
  by_cases hknown : s.heaps[heap]? = none ∨ s.token? id = none
  · rw [System.inspect_of_none hknown]
    simp only [Machine.inspect, h.heaps_eq, h.pointer?_eq]
    rcases hknown with hheap | htoken
    · rw [hheap]
    · rw [htoken]
      cases s.heaps[heap]? <;> rfl
  · obtain ⟨owner, token, hheap, htoken⟩ := System.exists_of_known hknown
    rw [System.inspect_eq hheap htoken]
    simp only [Machine.inspect, h.heaps_eq, h.pointer?_eq, hheap, htoken, Option.map_some]
    cases token with
    | null => exact congrArg Except.ok hnull
    | reference k maker =>
      cases hobject : s.store.object? k with
      | none => exact absurd ⟨id, k, maker, htoken, hobject⟩ hnone
      | some object =>
        simp only [Store.find, hobject]
        exact congrArg Except.ok (hread hobject)

/-- A machine tells the counts that its system tells. -/
theorem references_eq (heap : HeapId) (id : TokenId) :
    m.references heap id = s.references heap id := by
  refine h.inspect_eq hnone rfl ?_ heap id
  intro k object hobject
  exact (h.holds hobject).references_eq

/-- A machine tells the sizes that its system tells. -/
theorem objectSize_eq (heap : HeapId) (id : TokenId) :
    m.objectSize heap id = s.objectSize heap id := by
  refine h.inspect_eq hnone rfl ?_ heap id
  intro k object hobject
  exact (h.holds hobject).size_eq

/-- The addresses of two held tokens are the same if their objects are. -/
theorem payload_pointer_iff {i j : TokenId} {a b : Token} (hi : s.token? i = some a)
    (hj : s.token? j = some b) :
    (place.pointer a).payload = (place.pointer b).payload ↔ a.object? = b.object? := by
  have hblock : ∀ {id : TokenId} {k : ObjectId} {maker : UInt64},
      s.token? id = some (.reference k maker) →
        ∃ block, place.blockAt s k = some block ∧ block.start = place.block k ∧
          0 < block.length := by
    intro id k maker htoken
    cases hobject : s.store.object? k with
    | none => exact absurd ⟨id, k, maker, htoken, hobject⟩ hnone
    | some object =>
      refine ⟨_, place.blockAt_eq hobject, rfl, ?_⟩
      exact Nat.lt_of_lt_of_le (by decide) (Nat.le_add_right Host.headerSize _)
  rcases a with _ | ⟨k, maker⟩ <;> rcases b with _ | ⟨l, other⟩
  · simp [Placement.pointer, Token.object?]
  · simp [Placement.pointer, Pointer.null, Token.object?]
  · simp [Placement.pointer, Pointer.null, Token.object?]
  · simp only [Placement.pointer, Token.object?, Option.some.injEq, Nat.add_right_cancel_iff]
    constructor
    · intro hsame
      obtain ⟨first, hfirst, hk, hpositive⟩ := hblock hi
      obtain ⟨second, hsecond, hl, hpositive'⟩ := hblock hj
      by_contra hne
      have hapart := h.apart hfirst hsecond hne
      unfold Block.Apart at hapart
      omega
    · rintro rfl
      rfl

/-- Two held tokens have the same address if they are for the same object. -/
theorem sameObject_eq (a b : TokenId) : m.sameObject a b = s.sameObject a b := by
  unfold Machine.sameObject System.sameObject
  rw [h.pointer?_eq, h.pointer?_eq]
  cases ha : s.token? a with
  | none => rfl
  | some first =>
    cases hb : s.token? b with
    | none => rfl
    | some second =>
      have hiff := h.payload_pointer_iff hnone ha hb
      simp only [Option.map_some, Token.sameObject, hiff]

/-- A machine answers a call as the system does whose state it is in, and is in the state of
the system after the call. -/
theorem perform (call : Call) (hfree : (m.perform place call).2.NoOverlap place) :
    (m.perform place call).1 = (s.perform call).1 ∧
      Carries place (m.perform place call).2 (s.perform call).2 := by
  have hreport : ∀ {α : Type} {result : α → CallResult} {x : Outcome α × Machine}
      {y : Outcome α × System}, x.1 = y.1 ∧ Carries place x.2 y.2 →
        (report result x).1 = (System.report result y).1 ∧
          Carries place (report result x).2 (System.report result y).2 := by
    rintro α result x y ⟨hanswer, hafter⟩
    exact ⟨congrArg (Except.map result) hanswer, hafter⟩
  by_cases hoff : call.IsOffHeap
  · rw [perform_of_isOffHeap hoff] at hfree ⊢
    exact h.offHeap hoff hfree
  cases call with
  | makeNull =>
    refine ⟨?_, h.hold .null⟩
    exact congrArg (fun id => (.ok (.token id) : Outcome CallResult)) h.size_pointers
  | create heap size => exact hreport (h.createObject hfree)
  | retain heap id => exact hreport (h.retainToken hnone heap id)
  | release heap id => exact hreport (h.releaseToken hnone heap id)
  | lose id => exact ⟨rfl, h.loseToken id⟩
  | references heap id => exact hreport ⟨h.references_eq hnone heap id, h⟩
  | size heap id => exact hreport ⟨h.objectSize_eq hnone heap id, h⟩
  | payload heap id => exact hreport ⟨h.payload_eq hnone heap id, h⟩
  | edit heap id edit => exact hreport (h.editPayload hnone heap id edit)
  | sameObject a b => exact hreport ⟨h.sameObject_eq hnone a b, h⟩
  | _ => exact absurd trivial hoff

end Calls

end Carries

/-- A machine goes through a run in the states that the system goes through, wherever its
objects are put, as long as no part of memory is in use twice. -/
theorem carries_performAll (host : Host) (memory : Memory) {calls : List Call}
    (hsingle : ∀ call ∈ calls, call.IsSingle)
    (hfree : ∀ before, before <+: calls →
      ((Machine.start host memory).performAll place before).NoOverlap place) :
    Carries place ((Machine.start host memory).performAll place calls)
      (({ host } : System).performAll calls) := by
  induction calls using List.reverseRecOn with
  | nil => exact Carries.start host memory
  | append_singleton calls call ih =>
    obtain ⟨hbefore, -⟩ := List.forall_mem_append.1 hsingle
    have hc := (System.attained_performAll host calls).counted
    have hcarries := ih hbefore fun before hle => hfree before (hle.trans (List.prefix_append _ _))
    have hlast := hfree _ List.prefix_rfl
    rw [performAll_append] at hlast ⊢
    rw [System.performAll_append]
    exact (hcarries.perform hc.not_dangling call hlast).2

end Machine

end Allotment

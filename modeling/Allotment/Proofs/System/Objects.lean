import Allotment.Proofs.System.Journal

set_option autoImplicit false

/-!
Every object was announced when it was created, and every token that refers to it
knows the number of the heap that announced it. As long as no number is used twice,
a heap that accepts a token is therefore the one that created the object, and the
object is destroyed on the account that it was created on.
-/

namespace Allotment

namespace Store

/-- An object that is there has a number among those that were given. -/
theorem lt_size_of_object? {store : Store} {k : ObjectId} {object : Object}
    (h : store.object? k = some object) : k < store.objects.size := by
  unfold object? at h
  by_contra hk
  simp [Array.getElem?_eq_none (Nat.le_of_not_lt hk)] at h

/-- What is put in the place of an object is there, and the others stay. -/
theorem object?_put {store : Store} {k : ObjectId} (hk : k < store.objects.size)
    (object : Option Object) (j : ObjectId) :
    (store.put k object).object? j = if j = k then object else store.object? j := by
  unfold object? put
  by_cases h : j = k
  · subst h
    rw [Array.getElem?_setIfInBounds_self_of_lt hk, if_pos rfl]
    rfl
  · rw [Array.getElem?_setIfInBounds_ne (Ne.symm h), if_neg h]

/-- What is put in the place of an object adds no place. -/
@[simp]
theorem size_put (store : Store) (k : ObjectId) (object : Option Object) :
    (store.put k object).objects.size = store.objects.size := by
  simp [put]

end Store

namespace System

variable {s s' : System} {call : Call} {entries : List Entry}

/-- A new object gets the next number, and the others stay. -/
theorem object?_addObject (s : System) (object : Object) (j : ObjectId) :
    (s.addObject object).store.object? j =
      if j = s.store.objects.size then some object else s.store.object? j := by
  unfold addObject Store.object?
  rw [Array.getElem?_push]
  split <;> rfl

/-- A held token is the one in its place, neither released nor lost. -/
theorem token?_eq_some {id : TokenId} {token : Token} :
    s.token? id = some token ↔ s.tokens[id]? = some { token, holding := .held } := by
  unfold token?
  split
  · rename_i found hfound
    simp [hfound]
  · rename_i hnone
    constructor
    · intro h
      cases h
    · intro h
      exact absurd h (hnone token)

/-- A token that becomes released or lost stays the token it is, as do the others. -/
theorem tokens_of_retire {id i : TokenId} {fate : Holding} {slot : TokenSlot}
    (h : (s.retire id fate).tokens[i]? = some slot) :
    ∃ holding, s.tokens[i]? = some { slot with holding } := by
  replace h : (s.tokens.modify id fun slot => { slot with holding := fate })[i]? = some slot := h
  rw [Array.getElem?_modify] at h
  split at h
  · obtain ⟨found, hfound, rfl⟩ := Option.map_eq_some_iff.1 h
    exact ⟨found.holding, hfound⟩
  · exact ⟨slot.holding, h⟩

/-- A token that is there after a new one found its place was there before or is the new one. -/
theorem tokens_of_hold {token : Token} {i : TokenId} {slot : TokenSlot}
    (h : (s.hold token).2.tokens[i]? = some slot) :
    s.tokens[i]? = some slot ∨ slot = { token } := by
  replace h : (s.tokens.push { token })[i]? = some slot := h
  rw [Array.getElem?_push] at h
  split at h
  · exact .inr (Option.some.inj h).symm
  · exact .inl h

/-- The journal knows of every object its heap and its size, and every token the
number of the heap that made its object. -/
structure Recorded (s : System) : Prop where
  born : s.births.length = s.store.objects.size
  sized : ∀ {k : ObjectId} {object : Object}, s.store.object? k = some object →
    ∃ heap, s.births[k]? = some (heap, object.size)
  made : ∀ {id : TokenId} {slot : TokenSlot} {k : ObjectId} {maker : UInt64},
    s.tokens[id]? = some slot → slot.token = .reference k maker →
      ∃ birth heap, s.births[k]? = some birth ∧ s.heaps[birth.1]? = some heap ∧
        heap.number = maker

/-- A heap that is there stays as it is. -/
theorem Stepped.heaps_eq (h : Stepped s call entries s') {id : HeapId} {heap : Heap}
    (hheap : s.heaps[id]? = some heap) : s'.heaps[id]? = some heap := by
  cases h with
  | heapAdded hopen => exact getElem?_push_of_eq_some hheap _
  | contextAdded hmade => exact getElem?_push_of_eq_some hheap _
  | _ => exact hheap

/-- A creation stays in the order of creations where it is. -/
theorem Stepped.births_kept (h : Stepped s call entries s') {k : ObjectId}
    {birth : HeapId × UInt64} (hbirth : s.births[k]? = some birth) :
    s'.births[k]? = some birth := by
  have hk := (List.getElem?_eq_some_iff.1 hbirth).1
  rw [h.births_eq, List.getElem?_append_left hk, hbirth]

/-- The moves of arenas create no objects. -/
theorem filterMap_birth?_announced (arena : Arena) (id : ArenaId) (step : ArenaMove) :
    ((arena.announced step).map (Entry.mk (.arena id))).filterMap Entry.birth? = [] := by
  simp [List.filterMap_map, Entry.birth?]

/-- A step announces a birth for every object that it adds to the store. -/
theorem Stepped.size_objects (h : Stepped s call entries s') :
    s'.store.objects.size = s.store.objects.size + (entries.filterMap Entry.birth?).length := by
  cases h with
  | arenaMoved step hslot =>
    rw [filterMap_birth?_announced]
    rfl
  | objectCreated hheap => exact Array.size_push _
  | referenceTaken htoken hobject hmax => exact Store.size_put _ _ _
  | referenceGivenUp htoken hobject hmore => exact Store.size_put _ _ _
  | objectDestroyed hheap htoken hobject hlast => exact Store.size_put _ _ _
  | objectEdited payload hobject => exact Store.size_put _ _ _
  | _ => rfl

namespace Recorded

/-- In an empty system everything is recorded. -/
theorem start (host : Host) : ({ host } : System).Recorded where
  born := rfl
  sized h := by simp [Store.object?] at h
  made h := by simp at h

end Recorded

/-- An object that is there after a step was there before, with the same size, or the
step created it. -/
theorem Stepped.object_before (h : Stepped s call entries s') {j : ObjectId} {found : Object}
    (hfound : s'.store.object? j = some found) :
    (∃ object, s.store.object? j = some object ∧ object.size = found.size) ∨
      ∃ id, j = s.store.objects.size ∧ entries = [⟨.heap id, .created found.size⟩] := by
  have hput : ∀ {k : ObjectId} {object next : Object}, s.store.object? k = some object →
      next.size = object.size → (s.store.put k (some next)).object? j = some found →
        ∃ before, s.store.object? j = some before ∧ before.size = found.size := by
    intro k object next hobject hsize hj
    rw [Store.object?_put (Store.lt_size_of_object? hobject)] at hj
    split at hj
    · rename_i heq
      subst heq
      obtain rfl := Option.some.inj hj
      exact ⟨object, hobject, hsize.symm⟩
    · exact ⟨found, hj, rfl⟩
  cases h with
  | @referenceTaken _ _ k _ object htoken hobject hmax =>
    have hsize : ({ object with references := object.references + 1 } : Object).size =
        object.size := rfl
    exact .inl (hput hobject hsize hfound)
  | @referenceGivenUp _ _ k _ object htoken hobject hmore =>
    have hsize : ({ object with references := object.references - 1 } : Object).size =
        object.size := rfl
    exact .inl (hput hobject hsize hfound)
  | @objectEdited _ k object payload hobject =>
    have hsize : ({ object with payload } : Object).size = object.size := rfl
    exact .inl (hput hobject hsize hfound)
  | @objectCreated id heap size hheap =>
    replace hfound : (s.addObject (Object.fresh size)).store.object? j = some found := hfound
    rw [object?_addObject] at hfound
    split at hfound
    · rename_i hj
      obtain rfl := Option.some.inj hfound
      exact .inr ⟨id, hj, rfl⟩
    · exact .inl ⟨found, hfound, rfl⟩
  | @objectDestroyed id heap token k object hheap htoken hobject hlast =>
    replace hfound : (s.store.put k none).object? j = some found := hfound
    rw [Store.object?_put (Store.lt_size_of_object? hobject)] at hfound
    split at hfound
    · cases hfound
    · exact .inl ⟨found, hfound, rfl⟩
  | _ => exact .inl ⟨found, hfound, rfl⟩

/-- A token that is there after a step was there before, or it shares an object with
one that was, or it came with an object that the step created. -/
theorem Stepped.token_before (h : Stepped s call entries s') {id : TokenId} {slot : TokenSlot}
    {k : ObjectId} {maker : UInt64} (hslot : s'.tokens[id]? = some slot)
    (htoken : slot.token = .reference k maker) :
    (∃ (old : TokenId) (before : TokenSlot),
      s.tokens[old]? = some before ∧ before.token = .reference k maker) ∨
    ∃ id heap size, s.heaps[id]? = some heap ∧ heap.number = maker ∧
      k = s.store.objects.size ∧ entries = [⟨.heap id, .created size⟩] := by
  have hretired : ∀ {other : TokenId} {fate : Holding},
      (s.retire other fate).tokens[id]? = some slot →
        ∃ (old : TokenId) (before : TokenSlot),
          s.tokens[old]? = some before ∧ before.token = .reference k maker := by
    intro other fate hafter
    obtain ⟨holding, hbefore⟩ := tokens_of_retire hafter
    exact ⟨id, _, hbefore, htoken⟩
  cases h with
  | nullHeld =>
    rcases tokens_of_hold hslot with hold | rfl
    · exact .inl ⟨id, slot, hold, htoken⟩
    · cases htoken
  | @objectCreated heapId heap size hheap =>
    rcases tokens_of_hold hslot with hold | rfl
    · exact .inl ⟨id, slot, hold, htoken⟩
    · obtain ⟨rfl, rfl⟩ := Token.reference.inj htoken
      exact .inr ⟨heapId, heap, size, hheap, rfl, rfl, rfl⟩
  | @referenceTaken _ shared k' maker' _ hshared hobject hmax =>
    rcases tokens_of_hold hslot with hold | rfl
    · exact .inl ⟨id, slot, hold, htoken⟩
    · exact .inl ⟨shared, _, token?_eq_some.1 hshared, htoken⟩
  | referenceGivenUp _ hobject hmore => exact .inl (hretired hslot)
  | objectDestroyed hheap _ hobject hlast => exact .inl (hretired hslot)
  | nullGivenUp _ => exact .inl (hretired hslot)
  | tokenLost _ => exact .inl (hretired hslot)
  | _ => exact .inl ⟨id, slot, hslot, htoken⟩

/-- Every step leaves everything recorded. -/
theorem Recorded.step (hr : s.Recorded) (h : Stepped s call entries s') : s'.Recorded where
  born := by rw [h.births_eq, List.length_append, h.size_objects, hr.born]
  sized {j found} hfound := by
    rcases h.object_before hfound with ⟨object, hobject, hsize⟩ | ⟨id, rfl, hentries⟩
    · obtain ⟨heap, hbirth⟩ := hr.sized hobject
      exact ⟨heap, hsize ▸ h.births_kept hbirth⟩
    · refine ⟨id, ?_⟩
      rw [h.births_eq, hentries, ← hr.born]
      simp [Entry.birth?]
  made {id slot k maker} hslot htoken := by
    rcases h.token_before hslot htoken with
      ⟨old, before, hbefore, hsame⟩ | ⟨id, heap, size, hheap, hnumber, rfl, hentries⟩
    · obtain ⟨birth, heap, hbirth, hheap, hnumber⟩ := hr.made hbefore hsame
      exact ⟨birth, heap, h.births_kept hbirth, h.heaps_eq hheap, hnumber⟩
    · refine ⟨(id, size), heap, ?_, h.heaps_eq hheap, hnumber⟩
      rw [h.births_eq, hentries, ← hr.born]
      simp [Entry.birth?]

/-- Heaps of the same number are the same, as long as no number was given twice. -/
theorem Coherent.eq_of_number_eq (hs : s.Coherent) (hdistinct : s.heaps.size < 2 ^ 64)
    {i j : HeapId} {heap other : Heap} (hi : s.heaps[i]? = some heap)
    (hj : s.heaps[j]? = some other) (hnumber : heap.number = other.number) : i = j := by
  have hilt := (Array.getElem?_eq_some_iff.1 hi).1
  have hjlt := (Array.getElem?_eq_some_iff.1 hj).1
  have heq : (UInt64.ofNat (i + 1)).toNat = (UInt64.ofNat (j + 1)).toNat := by
    rw [← (hs.heaps hi).2, ← (hs.heaps hj).2, hnumber]
  have hsize : UInt64.size = 2 ^ 64 := rfl
  rw [UInt64.toNat_ofNat_of_lt' (by omega), UInt64.toNat_ofNat_of_lt' (by omega)] at heq
  exact Nat.succ.inj heq

/-- A heap that accepts a token reports to the account of its object. -/
def Attributed (s : System) : Prop :=
  ∀ ⦃id : HeapId⦄ ⦃heap : Heap⦄ ⦃token : TokenId⦄ ⦃k : ObjectId⦄, s.heaps[id]? = some heap →
    s.token? token = some (.reference k heap.number) → s.owner? k = some heap.account

/-- The heap that accepts a token created its object. -/
theorem Recorded.attributed (hr : s.Recorded) (hs : s.Coherent)
    (hdistinct : s.heaps.size < 2 ^ 64) : s.Attributed := by
  intro id heap token k hheap htoken
  obtain ⟨birth, maker, hbirth, hmaker, hnumber⟩ := hr.made (token?_eq_some.1 htoken) rfl
  obtain rfl := hs.eq_of_number_eq hdistinct hmaker hheap hnumber
  unfold owner?
  rw [hbirth, Option.bind_some, account?_of_heap hheap]

/-- Where all heaps share an account, it does not matter which of them created an object. -/
theorem Recorded.attributed_of_shared (hr : s.Recorded) {account : AccountId}
    (hshared : ∀ {id : HeapId} {heap : Heap}, s.heaps[id]? = some heap → heap.account = account) :
    s.Attributed := by
  intro id heap token k hheap htoken
  obtain ⟨birth, maker, hbirth, hmaker, -⟩ := hr.made (token?_eq_some.1 htoken) rfl
  unfold owner?
  rw [hbirth, Option.bind_some, account?_of_heap hmaker, hshared hmaker, hshared hheap]

/-- In every attained system everything is recorded. -/
theorem Attained.recorded (h : s.Attained) : s.Recorded :=
  h.kept (fun hr hstep => hr.step hstep) Recorded.start

end System

end Allotment

import Allotment.Proofs.System.Lineages

set_option autoImplicit false

/-!
Which heap accepts which token. Heaps have numbers of their own, and a token carries, through
any chain of retains, the number of the heap that created its object. So a heap accepts the null
token and the tokens of its own objects; it refuses every other one before it looks at anything,
and never gets at the objects of another heap.
-/

namespace Allotment

/-- The heap that a call is made on. -/
def Call.heap? : Call → Option HeapId
  | .create heap _ | .retain heap _ | .release heap _ | .references heap _ | .size heap _
  | .payload heap _ | .edit heap _ _ => some heap
  | _ => none

namespace System

variable {s : System} {call : Call} {host : Host} {calls : List Call}

/-- A held token that is null or for an object which a heap created. -/
def IsOwn (host : Host) (calls : List Call) (heap : HeapId) (id : TokenId) : Prop :=
  (({ host } : System).performAll calls).token? id = some .null ∨
    ∃ c : Creation host calls, id ∈ c.holders ∧ c.heap = heap

/-- A call that is to take a reference to an object which has as many as can be counted. -/
def Overflows (s : System) : Call → Prop
  | .retain _ id => ∃ k maker object, s.token? id = some (.reference k maker) ∧
      s.store.object? k = some object ∧ object.references = maxReferences
  | _ => False

/-- Heaps are numbered from one on. -/
theorem Coherent.number_ne_zero (hs : s.Coherent) (hdistinct : s.heaps.size < 2 ^ 64) {i : HeapId}
    {heap : Heap} (hi : s.heaps[i]? = some heap) : heap.number ≠ 0 := by
  have hlt := (Array.getElem?_eq_some_iff.1 hi).1
  have hsize : UInt64.size = 2 ^ 64 := rfl
  rw [(hs.heaps hi).2]
  intro hzero
  have hword := congrArg UInt64.toNat hzero
  rw [UInt64.toNat_ofNat_of_lt' (by omega), UInt64.toNat_zero] at hword
  exact Nat.succ_ne_zero _ hword

/-- A call that a heap is handed a token for is accepted if the heap finds the token to be its
own, unless it is to count one more reference than there can be. -/
theorem perform_eq_ok {heap : HeapId} {owner : Heap} {id : TokenId} {token : Token}
    {entry : Option (ObjectId × Object)} (hcall : call.handsOver? = some (heap, id))
    (hheap : s.heaps[heap]? = some owner) (htoken : s.token? id = some token)
    (hfind : s.store.findOwn owner.number token = .ok entry)
    (hroom : call = .retain heap id → ∀ found ∈ entry, found.2.references ≠ maxReferences) :
    ∃ result, (s.perform call).1 = .ok result := by
  cases call with
  | retain heap' id' =>
    obtain ⟨rfl, rfl⟩ := Prod.mk.inj (Option.some.inj hcall)
    rw [perform, report, retain_eq hheap htoken, hfind]
    rcases entry with _ | ⟨k, object⟩
    · exact ⟨_, rfl⟩
    · simp only [hroom rfl _ rfl, if_false]
      exact ⟨_, rfl⟩
  | release heap' id' =>
    obtain ⟨rfl, rfl⟩ := Prod.mk.inj (Option.some.inj hcall)
    rw [perform, report, release_eq hheap htoken, hfind]
    rcases entry with _ | ⟨k, object⟩
    · exact ⟨_, rfl⟩
    · simp only
      split <;> exact ⟨_, rfl⟩
  | payload heap' id' =>
    obtain ⟨rfl, rfl⟩ := Prod.mk.inj (Option.some.inj hcall)
    rw [perform, report, payload, inspect_eq hheap htoken, Store.payload, hfind]
    exact ⟨_, rfl⟩
  | edit heap' id' change =>
    obtain ⟨rfl, rfl⟩ := Prod.mk.inj (Option.some.inj hcall)
    rw [perform, report, editPayload_eq hheap htoken, hfind]
    rcases entry with _ | ⟨k, object⟩ <;> exact ⟨_, rfl⟩
  | _ => cases hcall

/-- A heap refuses the token of an object that another heap made, and everything stays as it is,
but for the token of a release, which is lost. -/
theorem perform_of_foreign {heap : HeapId} {owner : Heap} {id : TokenId} {k : ObjectId}
    {maker : UInt64} (hcall : call.handsOver? = some (heap, id))
    (hheap : s.heaps[heap]? = some owner) (htoken : s.token? id = some (.reference k maker))
    (hmaker : maker ≠ owner.number) :
    (s.perform call).1 = .error (.violated (.foreignToken maker owner.number)) ∧
      (s.perform call).2 = { s with tokens := (s.perform call).2.tokens } ∧
      ((s.perform call).2 = s ∨
        call = .release heap id ∧ (s.perform call).2 = s.retire id .lost) := by
  have hfails : s.Fails call (.violated (.foreignToken maker owner.number)) :=
    .foreign hcall hheap htoken hmaker
  have hanswer := hfails.fst_perform
  have hafter := (refused_perform hfails.isBatch_eq hanswer).after
  refine ⟨hanswer, ?_⟩
  cases call with
  | release heap' id' =>
    obtain ⟨rfl, rfl⟩ := Prod.mk.inj (Option.some.inj hcall)
    replace hafter : (s.perform (.release heap' id')).2 = s.retire id' .lost := hafter
    rw [hafter]
    exact ⟨rfl, .inr ⟨rfl, rfl⟩⟩
  | retain | payload | edit =>
    replace hafter : (s.perform _).2 = s := hafter
    rw [hafter]
    exact ⟨rfl, .inl rfl⟩
  | _ => cases hcall

/-- A call on a heap leaves an object alone that is behind no token which the heap accepts. -/
theorem object?_perform_of_other {heap : HeapId} (hcall : call.heap? = some heap) {k : ObjectId}
    (hk : k < s.store.objects.size)
    (hother : ∀ {owner : Heap} {id : TokenId}, s.heaps[heap]? = some owner →
      s.token? id ≠ some (.reference k owner.number)) :
    (s.perform call).2.store.object? k = s.store.object? k := by
  -- only the object behind the token that was handed over is ever put in its place
  have hput : ∀ {owner : Heap} {id : TokenId} {j : ObjectId} {object : Object}
      (next : Option Object), s.heaps[heap]? = some owner →
        s.token? id = some (.reference j owner.number) → s.store.object? j = some object →
          (s.store.put j next).object? k = s.store.object? k := by
    intro owner id j object next hheap htoken hobject
    rw [Store.object?_put (Store.lt_size_of_object? hobject), if_neg]
    rintro rfl
    exact hother hheap htoken
  cases call with
  | create heap' size =>
    obtain rfl := Option.some.inj hcall
    show (s.createObject heap' size).2.store.object? k = _
    cases hheap : s.heaps[heap']? with
    | none => rw [createObject_of_none hheap]
    | some owner =>
      rw [createObject_eq hheap]
      split
      · show (s.addObject (Object.fresh size)).store.object? k = _
        rw [object?_addObject, if_neg hk.ne]
      · rfl
  | retain heap' id =>
    obtain rfl := Option.some.inj hcall
    show (s.retain heap' id).2.store.object? k = _
    obtain hsame | ⟨owner, j, object, hheap, htoken, hobject, hafter⟩ := s.store_retain heap' id
    · rw [hsame]
    · rw [hafter, hput _ hheap htoken hobject]
  | release heap' id =>
    obtain rfl := Option.some.inj hcall
    show (s.release heap' id).2.store.object? k = _
    obtain hsame | ⟨owner, j, object, hheap, htoken, hobject, hafter | hafter⟩ :=
      s.store_release heap' id
    · rw [hsame]
    · rw [hafter, hput _ hheap htoken hobject]
    · rw [hafter, hput _ hheap htoken hobject]
  | edit heap' id change =>
    obtain rfl := Option.some.inj hcall
    show (s.editPayload heap' id change).2.store.object? k = _
    by_cases hknown : s.heaps[heap']? = none ∨ s.token? id = none
    · rw [editPayload_of_none hknown]
    · obtain ⟨owner, token, hheap, htoken⟩ := exists_of_known hknown
      rw [editPayload_eq hheap htoken]
      rcases hfind : s.store.findOwn owner.number token with violation | _ | ⟨j, object⟩
      · rfl
      · rfl
      · obtain ⟨rfl, hobject⟩ := Store.findOwn_eq_some hfind
        exact hput _ hheap htoken hobject
  | references | size | payload => rfl
  | _ => cases hcall

/-- The heap that a token is handed over to made its object, if the token carries its number. -/
theorem heap_eq_of_number (hsingle : ∀ call ∈ calls, call.IsSingle)
    (hdistinct : (({ host } : System).performAll calls).heaps.size < 2 ^ 64)
    (c : Creation host calls) {heap : HeapId} {owner : Heap} {id : TokenId} (hid : id ∈ c.holders)
    (hheap : (({ host } : System).performAll calls).heaps[heap]? = some owner)
    (htoken : (({ host } : System).performAll calls).token? id =
      some (.reference c.object owner.number)) : c.heap = heap := by
  obtain ⟨maker, object, hmaker, hsame, -⟩ := c.exists_object hsingle hid htoken
  exact (attained_performAll host calls).coherent.eq_of_number_eq hdistinct hmaker hheap
    (Token.reference.inj hsame).2.symm

section HandedOver

variable {heap : HeapId} {owner : Heap} {id : TokenId} {token : Token}
  (hsingle : ∀ call ∈ calls, call.IsSingle)
  (hheap : (({ host } : System).performAll calls).heaps[heap]? = some owner)
  (htoken : (({ host } : System).performAll calls).token? id = some token)
include hsingle hheap htoken

/-- A heap finds the object behind a token of its own. -/
theorem findOwn_of_isOwn (hown : IsOwn host calls heap id) :
    token = .null ∨ ∃ k object, token = .reference k owner.number ∧
      (({ host } : System).performAll calls).store.object? k = some object := by
  rcases hown with hnull | ⟨c, hid, rfl⟩
  · exact .inl (Option.some.inj (htoken.symm.trans hnull))
  · obtain ⟨maker, object, hmaker, rfl, hobject, -⟩ := c.exists_object hsingle hid htoken
    obtain rfl := Option.some.inj (hheap.symm.trans hmaker)
    exact .inr ⟨c.object, object, rfl, hobject⟩

/-- A token that a heap does not own is to an object which another heap created, whose number is
then a different one. -/
theorem foreign_of_not_isOwn
    (hdistinct : (({ host } : System).performAll calls).heaps.size < 2 ^ 64)
    (hown : ¬ IsOwn host calls heap id) :
    ∃ k maker, token = .reference k maker ∧ maker ≠ owner.number := by
  cases token with
  | null => exact absurd (.inl htoken) hown
  | reference k maker =>
    refine ⟨k, maker, rfl, ?_⟩
    rintro rfl
    have hobject := objectAt_of_token? htoken
    obtain ⟨c, hid, -⟩ := Creation.existsUnique_of_objectAt hsingle hobject
    rw [(c.mem_holders_iff id).1 hid] at hobject
    obtain rfl := Option.some.inj hobject
    exact hown (.inr ⟨c, hid, heap_eq_of_number hsingle hdistinct c hid hheap htoken⟩)

/-- A retain that would count one reference too many fails and changes nothing. -/
theorem perform_of_overflows (hcall : call.handsOver? = some (heap, id))
    (hown : IsOwn host calls heap id)
    (hfull : (({ host } : System).performAll calls).Overflows call) :
    ((({ host } : System).performAll calls).perform call).1 =
        .error (.violated .referenceOverflow) ∧
      ((({ host } : System).performAll calls).perform call).2 =
        ({ host } : System).performAll calls := by
  cases call with
  | retain heap' id' =>
    obtain ⟨rfl, rfl⟩ := Prod.mk.inj (Option.some.inj hcall)
    obtain ⟨k, maker, object, hfound, hobject, hmax⟩ := hfull
    obtain rfl := Option.some.inj (htoken.symm.trans hfound)
    obtain hnull | ⟨k, _, hsame, -⟩ := findOwn_of_isOwn hsingle hheap htoken hown
    · cases hnull
    · obtain ⟨rfl, rfl⟩ := Token.reference.inj hsame
      have hfails : Fails _ (.retain heap' id') (.violated .referenceOverflow) :=
        .full hheap htoken hobject hmax
      exact ⟨hfails.fst_perform, (refused_perform rfl hfails.fst_perform).after⟩
  | _ => exact hfull.elim

/-- A heap that is handed a token goes through with the call exactly if the token is its own,
unless there are too many references to the object. -/
theorem perform_eq_ok_iff
    (hdistinct : (({ host } : System).performAll calls).heaps.size < 2 ^ 64)
    (hcall : call.handsOver? = some (heap, id)) :
    (∃ result, ((({ host } : System).performAll calls).perform call).1 = .ok result) ↔
      IsOwn host calls heap id ∧ ¬ (({ host } : System).performAll calls).Overflows call := by
  constructor
  · rintro ⟨result, hresult⟩
    by_cases hown : IsOwn host calls heap id
    · refine ⟨hown, ?_⟩
      intro hfull
      rw [(perform_of_overflows hsingle hheap htoken hcall hown hfull).1] at hresult
      cases hresult
    · obtain ⟨k, maker, rfl, hmaker⟩ := foreign_of_not_isOwn hsingle hheap htoken hdistinct hown
      rw [(perform_of_foreign hcall hheap htoken hmaker).1] at hresult
      cases hresult
  · rintro ⟨hown, hroom⟩
    obtain rfl | ⟨k, object, rfl, hobject⟩ := findOwn_of_isOwn hsingle hheap htoken hown
    · have hnull : (({ host } : System).performAll calls).store.findOwn owner.number .null =
          .ok none := rfl
      refine perform_eq_ok hcall hheap htoken hnull ?_
      rintro - found ⟨⟩
    · refine perform_eq_ok hcall hheap htoken (Store.findOwn_of_object? hobject owner.number) ?_
      rintro rfl found hfound hmax
      obtain rfl := Option.some.inj hfound
      exact hroom ⟨k, owner.number, object, htoken, hobject, hmax⟩

end HandedOver

/-- The creation of an object was booked on the account of its heap. -/
theorem creation_booked (hsingle : ∀ call ∈ calls, call.IsSingle) (c : Creation host calls)
    {owner : Heap} (hheap : (({ host } : System).performAll calls).heaps[c.heap]? = some owner) :
    (c.moment.createObject c.heap c.size).2.accounts =
      Counters.bookAll c.moment.accounts owner.account [.created c.size] := by
  obtain ⟨maker, hmaker, -, -, hafter⟩ := createObject_eq_ok c.accepted
  have hkept : (({ host } : System).performAll calls).heaps[c.heap]? = some maker := by
    rw [c.performAll_eq]
    apply heaps_performAll _ (c.isSingle_later hsingle)
    rw [hafter]
    exact hmaker
  obtain rfl := Option.some.inj (hheap.symm.trans hkept)
  rw [hafter]
  rfl

/-- An object is destroyed by its own heap and on the account that it was created on. -/
theorem destruction_booked (hsingle : ∀ call ∈ calls, call.IsSingle)
    (hdistinct : (({ host } : System).performAll calls).heaps.size < 2 ^ 64)
    (c : Creation host calls) {owner : Heap}
    (hheap : (({ host } : System).performAll calls).heaps[c.heap]? = some owner) {object : Object}
    (hobject : (({ host } : System).performAll calls).store.object? c.object = some object)
    (hgone : ((({ host } : System).performAll calls).perform call).2.store.object? c.object =
      none) :
    ∃ id, call = .release c.heap id ∧ id ∈ c.holders ∧
      ((({ host } : System).performAll calls).perform call).2.accounts =
        Counters.bookAll (({ host } : System).performAll calls).accounts owner.account
          [.destroyed c.size] := by
  have hc := (attained_performAll host calls).counted
  obtain ⟨heap, other, id, rfl, hother, htoken, hone⟩ := (hc.destroys_iff call hobject).1 hgone
  have hid := (c.mem_holders_iff id).2 (objectAt_of_token? htoken)
  obtain rfl := heap_eq_of_number hsingle hdistinct c hid hother htoken
  obtain rfl := Option.some.inj (hheap.symm.trans hother)
  obtain ⟨hsize, -⟩ := c.object_eq hobject
  have hlast : object.references - 1 = 0 := by
    have hcount := (hc.bounds hobject).1
    have hless := toNat_sub_one_of_ne_zero (hc.positive hobject)
    rw [← UInt32.toNat_inj, UInt32.toNat_zero]
    omega
  refine ⟨id, rfl, hid, ?_⟩
  show ((({ host } : System).performAll calls).release c.heap id).2.accounts = _
  rw [snd_release_of_last hheap htoken hobject hlast, ← hsize]
  rfl

/-- At every moment of every run that opened less than `2 ^ 64` heaps, directly or in contexts,
and wherever the host changes: the numbers of the heaps are not zero and no two are the same;
every token that is not null descends, through any chain of retains, from exactly one creation,
and carries the number of the heap of the creation. A heap that is handed a held token goes
through with the call exactly if the token is null or its object was created by this heap,
except that it does not count more references than there can be; any other token it refuses,
with the number that the token carries and its own, and nothing changes but that the token of a
release is lost. So an object is destroyed by a release to the heap that created it, and both
are booked on the account of this heap; and no call on one heap changes an object that another
one created. -/
theorem tokens_owned (host : Host) (actions : List Action) {calls : List Call}
    (hmoment : calls <+: ({ host } : System).unrollAll actions)
    (hdistinct : (({ host } : System).performAll calls).heaps.size < 2 ^ 64) :
    let s := ({ host } : System).performAll calls
    (∀ (i j : HeapId) (first second : Heap), s.heaps[i]? = some first →
      s.heaps[j]? = some second → first.number ≠ 0 ∧ (first.number = second.number → i = j)) ∧
    (∀ (id : TokenId) (slot : TokenSlot), s.tokens[id]? = some slot → slot.token ≠ .null →
      ∃! c : Creation host calls, id ∈ c.holders) ∧
    (∀ c : Creation host calls, ∃ owner, s.heaps[c.heap]? = some owner ∧
      (∀ id ∈ c.holders, ∃ slot, s.tokens[id]? = some slot ∧
        slot.token = .reference c.object owner.number) ∧
      (c.moment.createObject c.heap c.size).2.accounts =
        Counters.bookAll c.moment.accounts owner.account [.created c.size] ∧
      ∀ call object, s.store.object? c.object = some object →
        (s.perform call).2.store.object? c.object = none →
          ∃ id, call = .release c.heap id ∧ id ∈ c.holders ∧
            (s.perform call).2.accounts =
              Counters.bookAll s.accounts owner.account [.destroyed c.size]) ∧
    (∀ call heap id owner token, call.handsOver? = some (heap, id) →
      s.heaps[heap]? = some owner → s.token? id = some token →
        ((∃ result, (s.perform call).1 = .ok result) ↔
          IsOwn host calls heap id ∧ ¬ s.Overflows call) ∧
        (IsOwn host calls heap id → s.Overflows call →
          (s.perform call).1 = .error (.violated .referenceOverflow) ∧ (s.perform call).2 = s) ∧
        (¬ IsOwn host calls heap id → ∃ k maker, token = .reference k maker ∧
          (s.perform call).1 = .error (.violated (.foreignToken maker owner.number)) ∧
          (s.perform call).2 = { s with tokens := (s.perform call).2.tokens } ∧
          ((s.perform call).2 = s ∨
            call = .release heap id ∧ (s.perform call).2 = s.retire id .lost))) ∧
    ∀ call heap, call.heap? = some heap → ∀ c : Creation host calls, c.heap ≠ heap →
      (s.perform call).2.store.object? c.object = s.store.object? c.object := by
  intro s
  have hsingle := isSingle_of_moment hmoment
  have hs : s.Coherent := (attained_performAll host calls).coherent
  refine ⟨?_, ?_, ?_, ?_, ?_⟩
  · intro i j first second hi hj
    exact ⟨hs.number_ne_zero hdistinct hi, hs.eq_of_number_eq hdistinct hi hj⟩
  · rintro id ⟨token, holding⟩ hslot hnull
    cases token with
    | null => exact absurd rfl hnull
    | reference k maker =>
      apply Creation.existsUnique_of_objectAt (k := k) hsingle
      exact Option.bind_eq_some_iff.2 ⟨_, hslot, rfl⟩
  · intro c
    obtain ⟨owner, hheap, hmade⟩ := c.exists_maker hsingle
    refine ⟨owner, hheap, ?_, creation_booked hsingle c hheap, ?_⟩
    · intro id hid
      obtain ⟨slot, hslot, -⟩ :=
        Option.bind_eq_some_iff.1 ((c.mem_holders_iff id).1 hid)
      exact ⟨slot, hslot, hmade id hid slot hslot⟩
    · intro call object hobject hgone
      exact destruction_booked hsingle hdistinct c hheap hobject hgone
  · intro call heap id owner token hcall hheap htoken
    refine ⟨perform_eq_ok_iff hsingle hheap htoken hdistinct hcall,
      perform_of_overflows hsingle hheap htoken hcall, ?_⟩
    intro hown
    obtain ⟨k, maker, rfl, hmaker⟩ := foreign_of_not_isOwn hsingle hheap htoken hdistinct hown
    exact ⟨k, maker, rfl, perform_of_foreign hcall hheap htoken hmaker⟩
  · intro call heap hcall c hne
    apply object?_perform_of_other hcall (c.object_lt c.split)
    intro owner id hheap htoken
    have hid := (c.mem_holders_iff id).2 (objectAt_of_token? htoken)
    exact hne (heap_eq_of_number hsingle hdistinct c hid hheap htoken)

/-- A heap, a context that cannot be set up, one that can, and a token that went through two
retains: the heap of the context refuses it, and a release there loses it. -/
theorem tokens_owned_in_context :
    let actions : List Action :=
      [ .call .openAccount, .call (.openHeap 0), .call (.createContext { capacity := 0 }),
        .call (.createContext { capacity := 8 }), .call (.create 0 4), .call (.retain 0 0),
        .call (.retain 0 1), .call (.create 1 2) ]
    let calls := ({} : System).unrollAll actions
    let s := ({} : System).performAll calls
    IsOwn Host.standard calls 0 2 ∧ ¬ IsOwn Host.standard calls 1 2 ∧
      (s.perform (.release 1 2)).1 = .error (.violated (.foreignToken 1 2)) ∧
      (s.perform (.release 1 2)).2 = s.retire 2 .lost := by
  intro actions calls s
  have hdistinct : s.heaps.size < 2 ^ 64 := by decide +kernel
  obtain ⟨-, -, -, haccepts, -⟩ :=
    tokens_owned Host.standard actions (List.prefix_rfl (l := calls)) hdistinct
  have hfirst : s.heaps[0]? = some { number := 1, account := 0 } := by decide +kernel
  have hsecond : s.heaps[1]? = some { number := 2, account := 1 } := by decide +kernel
  have htoken : s.token? 2 = some (.reference 0 1) := by decide +kernel
  have hshown : s.payload 0 2 = .ok #[0, 0, 0, 0] := by decide +kernel
  have hrefused : s.payload 1 2 = .error (.violated (.foreignToken 1 2)) := by decide +kernel
  obtain ⟨hown, -⟩ := haccepts (.payload 0 2) 0 2 _ _ rfl hfirst htoken
  obtain ⟨hforeign, -⟩ := haccepts (.payload 1 2) 1 2 _ _ rfl hsecond htoken
  obtain ⟨-, -, hlost⟩ := haccepts (.release 1 2) 1 2 _ _ rfl hsecond htoken
  have hnot : ¬ IsOwn Host.standard calls 1 2 := by
    intro h
    obtain ⟨result, hresult⟩ := hforeign.2 ⟨h, id⟩
    rw [perform, report, hrefused] at hresult
    cases hresult
  refine ⟨(hown.1 ⟨_, congrArg (Except.map _) hshown⟩).1, hnot, ?_⟩
  obtain ⟨k, maker, hsame, hanswer, -, hafter⟩ := hlost hnot
  obtain ⟨rfl, rfl⟩ := Token.reference.inj hsame
  refine ⟨hanswer, ?_⟩
  rcases hafter with hsame | ⟨-, hlost⟩
  · have hgone : (s.perform (.release 1 2)).2.token? 2 = none := by decide +kernel
    rw [hsame, htoken] at hgone
    cases hgone
  · exact hlost

/-- A heap that is handed a token of its own `n` times to retain it counts `n` references more,
as long as they can be counted. The heaps and the tokens that are held stay as they are. -/
theorem performAll_retain {heap : HeapId} {owner : Heap} {id : TokenId} {k : ObjectId}
    {object : Object} (hheap : s.heaps[heap]? = some owner)
    (htoken : s.token? id = some (.reference k owner.number))
    (hobject : s.store.object? k = some object) {n : ℕ}
    (hn : object.references.toNat + n ≤ maxReferences.toNat) :
    let after := s.performAll (List.replicate n (.retain heap id))
    after.heaps = s.heaps ∧
      (∀ other token, s.token? other = some token → after.token? other = some token) ∧
      ∃ kept, after.store.object? k = some kept ∧
        kept.references.toNat = object.references.toNat + n := by
  induction n generalizing s object with
  | zero => exact ⟨rfl, fun _ _ h => h, object, hobject, rfl⟩
  | succ n ih =>
    -- the count has not reached its greatest value yet, so the first retain goes through
    have hroom : object.references ≠ maxReferences := by
      intro hmax
      rw [hmax] at hn
      omega
    have hcount := toNat_add_one_of_ne_max hroom
    have hnext : (s.perform (.retain heap id)).2 =
        ((s.putObject k (some { object with references := object.references + 1 })).hold
          (.reference k owner.number)).2 := by
      rw [perform, report, retain_eq hheap htoken, Store.findOwn_of_object? hobject]
      simp only [hroom, if_false]
    have hheld : ∀ other token, s.token? other = some token →
        (s.perform (.retain heap id)).2.token? other = some token := by
      intro other token hother
      rw [token?_eq_some] at hother ⊢
      rw [hnext]
      exact getElem?_push_of_eq_some hother _
    have hfound : (s.perform (.retain heap id)).2.store.object? k =
        some { object with references := object.references + 1 } := by
      rw [hnext]
      exact (Store.object?_put (Store.lt_size_of_object? hobject) _ k).trans (if_pos rfl)
    have hheaps : (s.perform (.retain heap id)).2.heaps = s.heaps := by
      rw [hnext]
      rfl
    rw [List.replicate_succ, performAll_cons]
    obtain ⟨hsame, hlater, kept, hkept, hreferences⟩ :=
      ih (hheaps ▸ hheap) (hheld id _ htoken) hfound (by
        show (object.references + 1).toNat + n ≤ _
        omega)
    refine ⟨hsame.trans hheaps, fun other token h => hlater other token (hheld other token h),
      kept, hkept, ?_⟩
    rw [hreferences, hcount]
    omega

/-- Not every token is accepted by one heap and by no other one. The null token goes through on
two heaps. And after `2 ^ 32 - 2` retains of an object its own heap refuses to retain it once
more, as the references to it cannot be counted any further. -/
theorem own_token_refused :
    let calls : List Call :=
      [.openAccount, .openHeap 0, .openHeap 0, .makeNull, .create 0 0] ++
        List.replicate (2 ^ 32 - 2) (.retain 0 1)
    let s := ({} : System).performAll calls
    ({} : System).unrollAll (calls.map .call) = calls ∧ s.heaps.size = 2 ∧
      (∃ result, (s.perform (.retain 0 0)).1 = .ok result) ∧
      (∃ result, (s.perform (.retain 1 0)).1 = .ok result) ∧
      IsOwn Host.standard calls 0 1 ∧
      (s.perform (.retain 0 1)).1 = .error (.violated .referenceOverflow) := by
  intro calls s
  let opening : List Call := [.openAccount, .openHeap 0, .openHeap 0, .makeNull, .create 0 0]
  let opened := ({} : System).performAll opening
  have hsingle : ∀ call ∈ calls, call.IsSingle := by
    intro call h
    rcases List.mem_append.1 h with hfirst | hlater
    · simp only [List.mem_cons, List.not_mem_nil, or_false] at hfirst
      rcases hfirst with rfl | rfl | rfl | rfl | rfl <;> trivial
    · obtain rfl := List.eq_of_mem_replicate hlater
      trivial
  have hs : s = opened.performAll (List.replicate (2 ^ 32 - 2) (.retain 0 1)) :=
    performAll_append _ opening _
  have hheap : opened.heaps[0]? = some { number := 1, account := 0 } := rfl
  have htoken : opened.token? 1 = some (.reference 0 1) := rfl
  have hobject : opened.store.object? 0 = some (Object.fresh 0) := rfl
  have hroom : (Object.fresh 0).references.toNat + (2 ^ 32 - 2) ≤ maxReferences.toNat := by decide
  obtain ⟨hheaps, hheld, kept, hkept, hcount⟩ := performAll_retain hheap htoken hobject hroom
  rw [← hs] at hheaps hheld hkept
  have hnull : s.token? 0 = some .null := hheld 0 _ rfl
  have hown : s.token? 1 = some (.reference 0 1) := hheld 1 _ rfl
  have hfirst : s.heaps[0]? = some { number := 1, account := 0 } := by
    rw [hheaps]
    rfl
  have hsecond : s.heaps[1]? = some { number := 2, account := 0 } := by
    rw [hheaps]
    rfl
  have hmax : kept.references = maxReferences := UInt32.toNat_inj.1 hcount
  have hfails : Fails s (.retain 0 1) (.violated .referenceOverflow) :=
    .full hfirst hown hkept hmax
  have haccepted : ∀ {heap : HeapId} {owner : Heap}, s.heaps[heap]? = some owner →
      ∃ result, (s.perform (.retain heap 0)).1 = .ok result := by
    intro heap owner hheap
    have hfind : s.store.findOwn owner.number .null = .ok none := rfl
    refine perform_eq_ok rfl hheap hnull hfind ?_
    rintro - found ⟨⟩
  let c : Creation Host.standard calls :=
    { before := [.openAccount, .openHeap 0, .openHeap 0, .makeNull]
      heap := 0
      size := 0
      first := 1
      later := List.replicate (2 ^ 32 - 2) (.retain 0 1)
      split := rfl
      granted := rfl }
  have hholder : 1 ∈ c.holders := (c.mem_holders_iff 1).2 (objectAt_of_token? hown)
  exact ⟨unrollAll_map_call _ hsingle, congrArg Array.size hheaps, haccepted hfirst,
    haccepted hsecond, .inr ⟨c, hholder, rfl⟩, hfails.fst_perform⟩

end System

end Allotment

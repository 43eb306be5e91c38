import Allotment.Proofs.Memory.Refinement

set_option autoImplicit false

/-!
The bytes of objects. Whoever holds a token finds the bytes that the creation of its object
gave, with every edit that was made through a token to the object, whoever made it and however
many of these tokens were given up since. Nothing else gets at them, neither what is done to
other objects, which may lie where older ones lay, nor what arenas do.
-/

namespace Allotment

namespace System

variable {s : System} {host : Host} {calls : List Call}

/-- What a heap shows of an object that it made. -/
theorem payload_of_object? {heap : HeapId} {owner : Heap} {id : TokenId} {k : ObjectId}
    {object : Object} (hheap : s.heaps[heap]? = some owner)
    (htoken : s.token? id = some (.reference k owner.number))
    (hobject : s.store.object? k = some object) : s.payload heap id = .ok object.payload := by
  rw [payload, inspect_eq hheap htoken, Store.payload, Store.findOwn_of_object? hobject]
  rfl

/-- Any heap tells the size of the object behind a token. -/
theorem objectSize_of_object? {heap : HeapId} (hheap : heap < s.heaps.size) {id : TokenId}
    {k : ObjectId} {maker : UInt64} {object : Object}
    (htoken : s.token? id = some (.reference k maker))
    (hobject : s.store.object? k = some object) : s.objectSize heap id = .ok object.size := by
  rw [objectSize, inspect_eq (Array.getElem?_eq_getElem hheap) htoken, Store.size, Store.find,
    hobject]
  rfl

/-- A heap that shows the bytes of an object shows all of them. -/
theorem payload_eq_of_ok {heap : HeapId} {id : TokenId} {k : ObjectId} {maker : UInt64}
    {object : Object} {bytes : Bytes} (htoken : s.token? id = some (.reference k maker))
    (hobject : s.store.object? k = some object) (h : s.payload heap id = .ok bytes) :
    bytes = object.payload := by
  cases hheap : s.heaps[heap]? with
  | none =>
    rw [payload, inspect_of_none (.inl hheap)] at h
    cases h
  | some owner =>
    by_cases hmaker : maker = owner.number
    · subst hmaker
      rw [payload_of_object? hheap htoken hobject] at h
      exact (Except.ok.inj h).symm
    · rw [payload, inspect_eq hheap htoken, Store.payload,
        findOwn_of_foreign s.store hmaker] at h
      cases h

/-- A call that edits an object through none of its tokens leaves its bytes as they are, for
whoever holds it before and after the call. -/
theorem payload_perform (hsingle : ∀ call ∈ calls, call.IsSingle) (c : Creation host calls)
    {id : TokenId} {token : Token} (hid : id ∈ c.holders) {call : Call}
    (hforeign : ∀ heap other change, call = .edit heap other change → other ∉ c.holders)
    (hbefore : (({ host } : System).performAll calls).token? id = some token)
    (hafter : ((({ host } : System).performAll calls).perform call).2.token? id = some token) :
    ((({ host } : System).performAll calls).perform call).2.payload c.heap id =
      (({ host } : System).performAll calls).payload c.heap id := by
  obtain ⟨owner, object, hheap, rfl, hobject, -, -⟩ := c.exists_object hsingle hid hbefore
  have hunrolled := snd_perform (({ host } : System).performAll calls) call
  have hsteps : ∀ single ∈ (({ host } : System).performAll calls).unrollCall call,
      single.IsSingle := fun _ h => isSingle_of_mem_unrollCall h
  have hheap' := heaps_performAll hheap hsteps
  have hcounted : ((({ host } : System).performAll calls).perform call).2.Counted := by
    exact ((attained_performAll host calls).performed call).counted
  rw [← hunrolled] at hheap'
  obtain ⟨after, hobject'⟩ :=
    hcounted.exists_object (Nat.add_pos_left (tokensTo_pos hafter rfl) _)
  obtain ⟨before, hfound, -, hpayload⟩ :=
    object?_perform (Store.lt_size_of_object? hobject) hobject'
  obtain rfl := Option.some.inj (hobject.symm.trans hfound)
  have hnone : (({ host } : System).performAll calls).editOf? c.object call = none := by
    cases call with
    | edit heap other change =>
      have hother := hforeign heap other change rfl
      rw [c.mem_holders_iff] at hother
      simp [editOf?, hother]
    | _ => rfl
  rw [payload_of_object? hheap' hafter hobject', payload_of_object? hheap hbefore hobject,
    hpayload, hnone]
  rfl

/-- Two held tokens are for the same object if they are both null or descend from the same
creation. -/
theorem sameObject_eq_ok (hsingle : ∀ call ∈ calls, call.IsSingle) {a b : TokenId}
    {first second : Token} (ha : (({ host } : System).performAll calls).token? a = some first)
    (hb : (({ host } : System).performAll calls).token? b = some second) :
    ∃ same, (({ host } : System).performAll calls).sameObject a b = .ok same ∧
      (same = true ↔ first = .null ∧ second = .null ∨
        ∃ c : Creation host calls, a ∈ c.holders ∧ b ∈ c.holders) := by
  refine ⟨first.sameObject second, by simp only [sameObject, ha, hb], ?_⟩
  have hfirst := objectAt_of_token? ha
  have hsecond := objectAt_of_token? hb
  rw [Token.sameObject, decide_eq_true_iff]
  constructor
  · intro hsame
    cases first with
    | null =>
      cases second with
      | null => exact .inl ⟨rfl, rfl⟩
      | reference k maker => cases hsame
    | reference k maker =>
      obtain ⟨c, hc, -⟩ := Creation.existsUnique_of_objectAt hsingle hfirst
      refine .inr ⟨c, hc, ?_⟩
      rw [c.mem_holders_iff] at hc ⊢
      rw [hsecond, ← hsame, ← hfirst, hc]
  · rintro (⟨rfl, rfl⟩ | ⟨c, hac, hbc⟩)
    · rfl
    · rw [c.mem_holders_iff] at hac hbc
      rw [← hfirst, ← hsecond, hac, hbc]

/-- At every moment of every run, also midway through its scopes and batches, and wherever the
host changes: a held token that is not null descends, through retains, from exactly one
creation. Every heap tells the size that this creation was asked for, and the heap of the
creation shows that many zero bytes with exactly the edits that were made through its tokens, in
their order; a heap that shows anything shows these bytes. A call that is not an edit through
one of these tokens leaves them as they are. Two held tokens are for the same object exactly if
both are null or both descend from the same creation. And wherever the objects lie and whatever
is in memory at first, as long as no block is handed out that overlaps what is still in use: the
next call is answered by the counts, sizes and bytes that are read off memory just as by the
objects themselves. -/
theorem payloads_kept (host : Host) (actions : List Action) {calls : List Call}
    (hmoment : calls <+: ({ host } : System).unrollAll actions) :
    let s := ({ host } : System).performAll calls
    (∀ id token, s.token? id = some token → token ≠ .null →
      ∃! c : Creation host calls, id ∈ c.holders) ∧
    (∀ (c : Creation host calls) (id : TokenId) (token : Token), id ∈ c.holders →
      s.token? id = some token →
      (∀ heap, heap < s.heaps.size → s.objectSize heap id = .ok c.size) ∧
      s.payload c.heap id = .ok c.bytes ∧ c.bytes.size = c.size.toNat ∧
      ∀ heap bytes, s.payload heap id = .ok bytes → bytes = c.bytes) ∧
    (∀ (c : Creation host calls) (id : TokenId) (token : Token) (call : Call), id ∈ c.holders →
      (∀ heap other change, call = .edit heap other change → other ∉ c.holders) →
      s.token? id = some token → (s.perform call).2.token? id = some token →
        (s.perform call).2.payload c.heap id = s.payload c.heap id) ∧
    (∀ a b first second, s.token? a = some first → s.token? b = some second →
      ∃ same, s.sameObject a b = .ok same ∧
        (same = true ↔ first = .null ∧ second = .null ∨
          ∃ c : Creation host calls, a ∈ c.holders ∧ b ∈ c.holders)) ∧
    ∀ (place : Placement) (memory : Memory),
      let machine := Machine.start host memory
      (∀ before, before <+: calls → (machine.performAll place before).NoOverlap place) →
      ∀ call, ((machine.performAll place calls).perform place call).2.NoOverlap place →
        ((machine.performAll place calls).perform place call).1 = (s.perform call).1 := by
  intro s
  have hsingle := isSingle_of_moment hmoment
  refine ⟨?_, ?_, ?_, ?_, ?_⟩
  · intro id token htoken hnull
    cases token with
    | null => exact absurd rfl hnull
    | reference k maker =>
      exact Creation.existsUnique_of_objectAt hsingle (objectAt_of_token? htoken)
  · intro c id token hid htoken
    obtain ⟨owner, object, hheap, rfl, hobject, hsize, hbytes⟩ :=
      c.exists_object hsingle hid htoken
    refine ⟨?_, ?_, c.size_bytes, ?_⟩
    · intro heap hknown
      rw [objectSize_of_object? hknown htoken hobject, hsize]
    · rw [payload_of_object? hheap htoken hobject, hbytes]
    · intro heap bytes hshown
      rw [payload_eq_of_ok htoken hobject hshown, hbytes]
  · intro c id token call hid hforeign hbefore hafter
    exact payload_perform hsingle c hid hforeign hbefore hafter
  · intro a b first second ha hb
    exact sameObject_eq_ok hsingle ha hb
  · intro place memory machine hfree call hlast
    have hcarries := Machine.carries_performAll host memory hsingle hfree
    have hnone := (attained_performAll host calls).counted.not_dangling
    exact (hcarries.perform hnone call hlast).1

/-- An object is shared and edited through the second token, and the first one is released. A
second object is destroyed, and a third one takes its place in memory and is filled, as is the
arena next to it. The arena is dropped, and a fourth object lies where its buffer was. -/
theorem payloads_kept_of_reused_block :
    let actions : List Action :=
      [ .call .openAccount, .call (.openHeap 0), .call (.create 0 4), .call (.retain 0 0),
        .call (.edit 0 1 { start := 2, run := [7] }), .call (.release 0 0), .call (.create 0 2),
        .call (.release 0 2), .call (.create 0 4), .call (.edit 0 3 { fill := some 9 }),
        .call (.createArena 8 0), .call (.alloc 0 8), .call (.write 0 ⟨0, 8⟩ { fill := some 5 }),
        .call (.dropArena 0), .call (.create 0 2), .call (.edit 0 4 { fill := some 1 }) ]
    let calls := ({} : System).unrollAll actions
    let place : Placement :=
      { block := fun k => if k = 0 then 64 else if k = 3 then 20 else 0, buffer := fun _ => 20 }
    let machine := (Machine.start Host.standard fun _ => 255).performAll place calls
    (∃ c : Creation Host.standard calls, 1 ∈ c.holders ∧ 3 ∉ c.holders ∧
      c.bytes = #[0, 0, 7, 0]) ∧
      (machine.perform place (.payload 0 1)).1 = .ok (.payload #[0, 0, 7, 0]) ∧
      (machine.perform place (.payload 0 3)).1 = .ok (.payload #[9, 9, 9, 9]) ∧
      (machine.perform place (.payload 0 4)).1 = .ok (.payload #[1, 1]) ∧
      (machine.perform place (.sameObject 1 3)).1 = .ok (.verdict false) := by
  intro actions calls place machine
  obtain ⟨hdescend, hshown, -, hsame, hmachine⟩ :=
    payloads_kept Host.standard actions (List.prefix_rfl (l := calls))
  have hheld : (({} : System).performAll calls).token? 1 = some (.reference 0 1) := by
    decide +kernel
  have hother : (({} : System).performAll calls).token? 3 = some (.reference 2 1) := by
    decide +kernel
  have hfree : ∀ before, before <+: calls →
      ((Machine.start Host.standard fun _ => 255).performAll place before).NoOverlap place := by
    have hall : ∀ before ∈ calls.inits,
        ((Machine.start Host.standard fun _ => 255).performAll place before).NoOverlap place := by
      decide +kernel
    intro before hle
    exact hall before ((List.mem_inits _ _).2 hle)
  obtain ⟨c, hc, -⟩ := hdescend 1 _ hheld (by simp)
  obtain ⟨-, -, -, hbytes⟩ := hshown c 1 _ hc hheld
  obtain ⟨same, hanswer, hiff⟩ := hsame 1 3 _ _ hheld hother
  have hdiffer : (({} : System).performAll calls).sameObject 1 3 = .ok false := by
    decide +kernel
  have hfirst : (({} : System).performAll calls).payload 0 1 = .ok #[0, 0, 7, 0] := by
    decide +kernel
  have hthird : (({} : System).performAll calls).payload 0 3 = .ok #[9, 9, 9, 9] := by
    decide +kernel
  have hfourth : (({} : System).performAll calls).payload 0 4 = .ok #[1, 1] := by
    decide +kernel
  have hanswers : ∀ call, (machine.perform place call).2 = machine →
      (machine.perform place call).1 = ((({} : System).performAll calls).perform call).1 := by
    intro call hsame
    apply hmachine place (fun _ => 255) hfree call
    rw [hsame]
    exact hfree calls List.prefix_rfl
  have hasked : ∀ (m : Machine) (heap : HeapId) (id : TokenId),
      (m.perform place (.payload heap id)).2 = m := fun _ _ _ => rfl
  have hcompared : ∀ (m : Machine) (a b : TokenId),
      (m.perform place (.sameObject a b)).2 = m := fun _ _ _ => rfl
  refine ⟨⟨c, hc, ?_, ?_⟩, ?_, ?_, ?_, ?_⟩
  · intro hc'
    have htrue := hiff.2 (.inr ⟨c, hc, hc'⟩)
    rw [hdiffer, htrue] at hanswer
    cases hanswer
  · exact (hbytes 0 _ hfirst).symm
  · exact (hanswers _ (hasked machine 0 1)).trans (congrArg (Except.map _) hfirst)
  · exact (hanswers _ (hasked machine 0 3)).trans (congrArg (Except.map _) hthird)
  · exact (hanswers _ (hasked machine 0 4)).trans (congrArg (Except.map _) hfourth)
  · exact (hanswers _ (hcompared machine 1 3)).trans (congrArg (Except.map _) hdiffer)

end System

end Allotment

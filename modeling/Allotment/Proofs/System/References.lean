import Allotment.Proofs.System.Ledger

set_option autoImplicit false

/-!
The count in an object is the number of tokens that refer to it and were not given
up: those that somebody holds, and those that were lost. So a held token never dangles,
the count never leaves the word range, and the release that takes it to zero is the
one that gives up the last token there is. A lost token keeps its object for ever.
-/

namespace Allotment

namespace System

variable {s s' : System} {call : Call} {entries : List Entry}

/-- The number of tokens to an object with the same fate. -/
def tokensTo (s : System) (k : ObjectId) (fate : Holding) : ℕ :=
  s.tokens.countP fun slot => slot.token.object? = some k ∧ slot.holding = fate

/-- The count in an object, and zero when it is destroyed. -/
def countOf (s : System) (k : ObjectId) : ℕ :=
  (s.store.object? k).elim 0 fun object => object.references.toNat

/-- The count of an object that is there is the one it holds. -/
theorem countOf_eq {k : ObjectId} {object : Object} (h : s.store.object? k = some object) :
    s.countOf k = object.references.toNat := by
  rw [countOf, h, Option.elim_some]

/-- A new held token counts for the object it refers to, among the held ones. -/
theorem tokensTo_hold (s : System) (token : Token) (k : ObjectId) (fate : Holding) :
    (s.hold token).2.tokensTo k fate =
      s.tokensTo k fate + if token.object? = some k ∧ .held = fate then 1 else 0 := by
  show (s.tokens.push { token }).countP _ = _
  rw [Array.countP_push]
  simp only [decide_eq_true_eq]
  rfl

/-- A held token that is given up moves from the held tokens of its object to those of its fate.
-/
theorem tokensTo_retire {id : TokenId} {token : Token} (h : s.token? id = some token)
    (fate : Holding) (k : ObjectId) (other : Holding) :
    (s.retire id fate).tokensTo k other +
        (if token.object? = some k ∧ .held = other then 1 else 0) =
      s.tokensTo k other + if token.object? = some k ∧ fate = other then 1 else 0 := by
  obtain ⟨hid, hslot⟩ := Array.getElem?_eq_some_iff.1 (token?_eq_some.1 h)
  have hset : s.tokens.modify id (fun slot => { slot with holding := fate }) =
      s.tokens.set id { token, holding := fate } := by
    apply Array.ext_getElem?
    intro i
    rw [Array.getElem?_modify, Array.getElem?_set]
    split
    · rename_i hi
      subst hi
      rw [Array.getElem?_eq_getElem hid, hslot]
      rfl
    · rfl
  have hle := Array.boole_getElem_le_countP
    (p := fun slot : TokenSlot => decide (slot.token.object? = some k ∧ slot.holding = other)) hid
  rw [hslot] at hle
  show (s.tokens.modify id _).countP _ + _ = s.tokens.countP _ + _
  rw [hset, Array.countP_set, hslot]
  simp only [decide_eq_true_eq] at hle ⊢
  omega

/-- The references that are counted are the tokens that were not given up. -/
structure Counted (s : System) : Prop where
  counted : ∀ k, s.countOf k = s.tokensTo k .held + s.tokensTo k .lost
  positive : ∀ {k : ObjectId} {object : Object}, s.store.object? k = some object →
    object.references ≠ 0

/-- Putting an object in its place changes the count of that object and of no other one. -/
theorem countOf_putObject {k : ObjectId} {object : Object}
    (hobject : s.store.object? k = some object) (next : Option Object) (j : ObjectId) :
    (s.putObject k next).countOf j =
      if j = k then next.elim 0 fun object => object.references.toNat else s.countOf j := by
  unfold countOf
  rw [show (s.putObject k next).store.object? j = (s.store.put k next).object? j from rfl,
    Store.object?_put (Store.lt_size_of_object? hobject)]
  split <;> rfl

/-- A change of an object in its place shifts its count and no other one. -/
theorem countOf_putObject_add {k : ObjectId} {object : Object}
    (hobject : s.store.object? k = some object) (next : Option Object) {down up : ℕ}
    (hshift : next.elim 0 (fun object => object.references.toNat) + down =
      object.references.toNat + up) (j : ObjectId) :
    (s.putObject k next).countOf j + (if k = j then down else 0) =
      s.countOf j + if k = j then up else 0 := by
  rw [countOf_putObject hobject]
  by_cases hj : k = j
  · subst hj
    rw [if_pos rfl, if_pos rfl, if_pos rfl, hshift, countOf_eq hobject]
  · rw [if_neg (Ne.symm hj), if_neg hj, if_neg hj]

/-- A new object has the count it comes with, and no other count changes. -/
theorem countOf_addObject (s : System) (object : Object) (j : ObjectId) :
    (s.addObject object).countOf j =
      if j = s.store.objects.size then object.references.toNat else s.countOf j := by
  unfold countOf
  rw [object?_addObject]
  split <;> rfl

/-- Below the greatest count one more reference is one more as a number. -/
theorem toNat_add_one_of_ne_max {references : UInt32} (h : references ≠ maxReferences) :
    (references + 1).toNat = references.toNat + 1 := by
  have hlt := references.toNat_lt
  have hne : references.toNat ≠ 2 ^ 32 - 1 := by
    intro heq
    exact h (UInt32.toNat_inj.1 heq)
  rw [UInt32.toNat_add, UInt32.toNat_one]
  omega

/-- Above zero one reference fewer is one fewer as a number. -/
theorem toNat_sub_one_of_ne_zero {references : UInt32} (h : references ≠ 0) :
    (references - 1).toNat + 1 = references.toNat := by
  have hpos : references.toNat ≠ 0 := by
    intro heq
    exact h (UInt32.toNat_inj.1 heq)
  have hle : 1 ≤ references := UInt32.le_iff_toNat_le.2 (Nat.one_le_iff_ne_zero.2 hpos)
  rw [UInt32.toNat_sub_of_le _ _ hle, UInt32.toNat_one]
  omega

namespace Counted

/-- An object that takes the place of another one keeps every count positive if its
own is. -/
theorem positive_put (hc : s.Counted) {k : ObjectId} {object : Object}
    (hobject : s.store.object? k = some object) {next : Option Object}
    (hnext : ∀ found, next = some found → found.references ≠ 0) {j : ObjectId} {found : Object}
    (hfound : (s.store.put k next).object? j = some found) : found.references ≠ 0 := by
  rw [Store.object?_put (Store.lt_size_of_object? hobject)] at hfound
  split at hfound
  · exact hnext found hfound
  · exact hc.positive hfound

/-- Before the first call there is neither an object nor a token. -/
theorem start (host : Host) : ({ host } : System).Counted where
  counted _ := rfl
  positive h := by simp [Store.object?] at h

/-- A new token to an object whose count went up by one. -/
theorem of_hold (hc : s.Counted) {after : System} (htokens : after.tokens = s.tokens)
    {token : Token}
    (hcount : ∀ j, after.countOf j = s.countOf j + if token.object? = some j then 1 else 0)
    (hpositive : ∀ {j : ObjectId} {found : Object}, after.store.object? j = some found →
      found.references ≠ 0) : (after.hold token).2.Counted := by
  refine ⟨?_, hpositive⟩
  intro j
  have hsame : ∀ fate, after.tokensTo j fate = s.tokensTo j fate := by
    intro fate
    unfold tokensTo
    rw [htokens]
  have hbefore := hc.counted j
  have hafter := hcount j
  show after.countOf j = _
  rw [tokensTo_hold, tokensTo_hold, hsame, hsame, hafter, hbefore]
  simp only [reduceCtorEq, and_true, and_false, if_false]
  omega

/-- A token that is given up, with the count of its object down by one, or lost. -/
theorem of_retire (hc : s.Counted) {after : System} (htokens : after.tokens = s.tokens)
    {id : TokenId} {token : Token} (htoken : s.token? id = some token) {fate : Holding}
    (hfate : fate ≠ .held)
    (hcount : ∀ j, after.countOf j +
      (if token.object? = some j ∧ fate = .released then 1 else 0) = s.countOf j)
    (hpositive : ∀ {j : ObjectId} {found : Object}, after.store.object? j = some found →
      found.references ≠ 0) : (after.retire id fate).Counted := by
  refine ⟨?_, hpositive⟩
  intro j
  have hheld : after.token? id = some token := by
    unfold token?
    rw [htokens]
    exact htoken
  have hsame : ∀ other, after.tokensTo j other = s.tokensTo j other := by
    intro other
    unfold tokensTo
    rw [htokens]
  have hbefore := hc.counted j
  have hafter := hcount j
  have hmoved := tokensTo_retire hheld fate j .held
  have hlost := tokensTo_retire hheld fate j .lost
  show after.countOf j = _
  rw [hsame] at hmoved hlost
  cases fate with
  | held => exact absurd rfl hfate
  | released =>
    simp only [reduceCtorEq, and_true, and_false, if_false] at hafter hmoved hlost
    omega
  | lost =>
    simp only [reduceCtorEq, and_true, and_false, if_false] at hafter hmoved hlost
    omega

/-- A single call keeps every count equal to the tokens that were not given up. -/
theorem step (hc : s.Counted) (h : Stepped s call entries s') : s'.Counted := by
  cases h with
  | nullHeld => exact hc.of_hold rfl (fun _ => rfl) hc.positive
  | @objectCreated id heap size hheap =>
    apply hc.of_hold (by rfl)
    · intro j
      have hnone : s.countOf s.store.objects.size = 0 := by simp [countOf, Store.object?]
      show (s.addObject (Object.fresh size)).countOf j = _
      rw [countOf_addObject]
      by_cases hj : j = s.store.objects.size
      · rw [if_pos hj, hj, hnone]
        simp [Token.object?, Object.fresh]
      · simp [Token.object?, hj, Ne.symm hj]
    · intro j found hfound
      replace hfound : (s.addObject (Object.fresh size)).store.object? j = some found := hfound
      rw [object?_addObject] at hfound
      split at hfound
      · obtain rfl := Option.some.inj hfound
        show (1 : UInt32) ≠ 0
        decide
      · exact hc.positive hfound
  | @referenceTaken heap id k maker object htoken hobject hmax =>
    have hmore := toNat_add_one_of_ne_max hmax
    have hpositive : object.references + 1 ≠ 0 := by
      intro heq
      simp [heq] at hmore
    apply hc.of_hold (by rfl)
    · intro j
      have hup : _ + (if k = j then 0 else 0) = _ + if k = j then 1 else 0 :=
        countOf_putObject_add hobject
          (some { object with references := object.references + 1 }) hmore j
      simpa [Token.object?] using hup
    · intro j found hfound
      refine hc.positive_put hobject ?_ hfound
      rintro found ⟨⟩
      exact hpositive
  | @referenceGivenUp heap id k maker object htoken hobject hmore =>
    have hless := toNat_sub_one_of_ne_zero (hc.positive hobject)
    apply hc.of_retire (by rfl) htoken (by simp)
    · intro j
      have hdown : _ + (if k = j then 1 else 0) = _ + if k = j then 0 else 0 :=
        countOf_putObject_add hobject
          (some { object with references := object.references - 1 }) hless j
      simpa [Token.object?] using hdown
    · intro j found hfound
      refine hc.positive_put hobject ?_ hfound
      rintro found ⟨⟩
      exact hmore
  | @objectDestroyed id heap token k object hheap htoken hobject hlast =>
    have hless := toNat_sub_one_of_ne_zero (hc.positive hobject)
    -- one reference less is none, so no other token keeps the object
    rw [hlast, UInt32.toNat_zero] at hless
    apply hc.of_retire (by rfl) htoken (by simp)
    · intro j
      have hdown : _ + (if k = j then 1 else 0) = _ + if k = j then 0 else 0 :=
        countOf_putObject_add hobject none hless j
      show (s.putObject k none).countOf j + _ = _
      simpa [Token.object?] using hdown
    · intro j found hfound
      refine hc.positive_put hobject ?_ hfound
      rintro found ⟨⟩
  | nullGivenUp htoken =>
    exact hc.of_retire rfl htoken (by simp) (fun _ => by simp [Token.object?]) hc.positive
  | tokenLost htoken =>
    exact hc.of_retire rfl htoken (by simp) (fun _ => by simp) hc.positive
  | @objectEdited _ k object payload hobject =>
    constructor
    · intro j
      have hsame : _ + (if k = j then 0 else 0) = _ + if k = j then 0 else 0 :=
        countOf_putObject_add hobject (some { object with payload }) rfl j
      simp only [ite_self, Nat.add_zero] at hsame
      rw [hsame]
      exact hc.counted j
    · intro j found hfound
      refine hc.positive_put hobject ?_ hfound
      rintro found ⟨⟩
      have hsame := hc.positive hobject
      exact hsame
  | _ => exact ⟨hc.counted, hc.positive⟩

end Counted

/-- Only the release of the last reference destroys an object, and it announces the size
of the object. -/
theorem Stepped.of_destroyed (h : Stepped s call entries s') {k : ObjectId} {object : Object}
    (hobject : s.store.object? k = some object) (hgone : s'.store.object? k = none) :
    ∃ id heap token, call = .release id token ∧ s.heaps[id]? = some heap ∧
      s.token? token = some (.reference k heap.number) ∧ object.references - 1 = 0 ∧
      entries = [⟨.heap id, .destroyed object.size⟩] := by
  have hput : ∀ {other : ObjectId} {before next : Object},
      s.store.object? other = some before →
        (s.store.put other (some next)).object? k ≠ none := by
    intro other before next hbefore
    rw [Store.object?_put (Store.lt_size_of_object? hbefore)]
    split
    · simp
    · simp [hobject]
  cases h with
  | @objectDestroyed id heap token other before hheap htoken hbefore hlast =>
    replace hgone : (s.store.put other none).object? k = none := hgone
    rw [Store.object?_put (Store.lt_size_of_object? hbefore)] at hgone
    split at hgone
    · rename_i hk
      subst hk
      obtain rfl := Option.some.inj (hobject.symm.trans hbefore)
      exact ⟨id, heap, token, rfl, hheap, htoken, hlast, rfl⟩
    · rw [hobject] at hgone
      cases hgone
  | @objectCreated id heap size hheap =>
    replace hgone : (s.addObject (Object.fresh size)).store.object? k = none := hgone
    rw [object?_addObject, if_neg (Store.lt_size_of_object? hobject).ne, hobject] at hgone
    cases hgone
  | referenceTaken htoken hbefore hmax => exact absurd hgone (hput hbefore)
  | referenceGivenUp htoken hbefore hmore => exact absurd hgone (hput hbefore)
  | objectEdited payload hbefore => exact absurd hgone (hput hbefore)
  | _ =>
    have hnone : s.store.object? k = none := hgone
    rw [hobject] at hnone
    cases hnone

/-- An object that a call creates is there after the call. -/
theorem Stepped.object_of_new (h : Stepped s call entries s') {k : ObjectId}
    (hnew : s.store.objects.size ≤ k) (hk : k < s'.store.objects.size) :
    s'.store.object? k ≠ none := by
  have hsize := h.size_objects
  cases h with
  | @objectCreated id heap size hheap =>
    have hlt : k < s.store.objects.size + 1 := hsize ▸ hk
    have hlast : k = s.store.objects.size := Nat.le_antisymm (Nat.le_of_lt_succ hlt) hnew
    show (s.addObject (Object.fresh size)).store.object? k ≠ none
    rw [object?_addObject, if_pos hlast]
    simp
  | arenaMoved step hslot =>
    rw [filterMap_birth?_announced] at hsize
    exact absurd hk (by rw [hsize]; exact Nat.not_lt_of_le hnew)
  | _ => exact absurd hk (by rw [hsize]; exact Nat.not_lt_of_le hnew)

/-- A destroyed object does not come back. -/
theorem Stepped.destroyed_kept (h : Stepped s call entries s') {k : ObjectId}
    (hk : k < s.store.objects.size ∧ s.store.object? k = none) :
    k < s'.store.objects.size ∧ s'.store.object? k = none := by
  refine ⟨?_, Option.eq_none_iff_forall_ne_some.2 ?_⟩
  · rw [h.size_objects]
    exact Nat.lt_add_right _ hk.1
  · intro found hfound
    rcases h.object_before hfound with ⟨object, hobject, -⟩ | ⟨id, heq, -⟩
    · rw [hk.2] at hobject
      cases hobject
    · exact absurd heq hk.1.ne

/-- No call takes back the loss of a token. -/
theorem Stepped.lost_le (h : Stepped s call entries s') (k : ObjectId) :
    s.tokensTo k .lost ≤ s'.tokensTo k .lost := by
  have hhold : ∀ token, s.tokensTo k .lost ≤ (s.hold token).2.tokensTo k .lost := by
    intro token
    rw [tokensTo_hold]
    exact Nat.le_add_right _ _
  have hretire : ∀ {id : TokenId} {token : Token} {fate : Holding}, s.token? id = some token →
      s.tokensTo k .lost ≤ (s.retire id fate).tokensTo k .lost := by
    intro id token fate htoken
    have hmoved := tokensTo_retire htoken fate k .lost
    simp only [reduceCtorEq, and_false, if_false] at hmoved
    omega
  cases h with
  | nullHeld => exact hhold _
  | objectCreated hheap => exact hhold _
  | referenceTaken htoken hobject hmax => exact hhold _
  | referenceGivenUp htoken hobject hmore => exact hretire htoken
  | objectDestroyed hheap htoken hobject hlast => exact hretire htoken
  | nullGivenUp htoken => exact hretire htoken
  | tokenLost htoken => exact hretire htoken
  | _ => exact le_refl _

/-- In every attained system the counts are those of the tokens that were not given up. -/
theorem Attained.counted (h : s.Attained) : s.Counted :=
  h.kept (fun hc hstep => hc.step hstep) Counted.start

/-- Work on an arena leaves the objects alone. -/
theorem store_onArena {α : Type} (s : System) (id : ArenaId)
    (work : Metered Arena → Outcome α × Metered Arena) :
    (s.onArena id work).2.store = s.store := by
  unfold onArena
  split <;> rfl

/-- An object is destroyed by a call that gives up the last token to it, and by no
other call. -/
theorem Counted.destroys_iff (hc : s.Counted) (call : Call) {k : ObjectId} {object : Object}
    (hobject : s.store.object? k = some object) :
    (s.perform call).2.store.object? k = none ↔
      ∃ id heap token, call = .release id token ∧ s.heaps[id]? = some heap ∧
        s.token? token = some (.reference k heap.number) ∧
        s.tokensTo k .held + s.tokensTo k .lost = 1 := by
  have hcount := hc.counted k
  rw [countOf_eq hobject] at hcount
  have hless := toNat_sub_one_of_ne_zero (hc.positive hobject)
  constructor
  · intro hgone
    by_cases hsingle : call.IsSingle
    · obtain ⟨entries, h⟩ := s.stepped hsingle
      obtain ⟨id, heap, token, hcall, hheap, htoken, hlast, -⟩ := h.of_destroyed hobject hgone
      refine ⟨id, heap, token, hcall, hheap, htoken, ?_⟩
      rw [hlast, UInt32.toNat_zero] at hless
      omega
    -- a replay or a batch moves an arena several times and touches no object
    · have hstore : (s.perform call).2.store = s.store := by
        cases call with
        | replay id sizes => exact s.store_onArena id _
        | sumBatch id samples => exact s.store_onArena id _
        | _ => exact absurd trivial hsingle
      rw [hstore, hobject] at hgone
      cases hgone
  · rintro ⟨id, heap, token, rfl, hheap, htoken, hone⟩
    have hlast : object.references - 1 = 0 := by
      rw [← UInt32.toNat_inj, UInt32.toNat_zero]
      omega
    show (s.release id token).2.store.object? k = none
    rw [snd_release_of_last hheap htoken hobject hlast]
    show (s.store.put k none).object? k = none
    rw [Store.object?_put (Store.lt_size_of_object? hobject), if_pos rfl]

/-- A destroyed object stays destroyed through every run. -/
theorem destroyed_performAll {k : ObjectId}
    (hk : k < s.store.objects.size ∧ s.store.object? k = none) {calls : List Call}
    (hsingle : ∀ call ∈ calls, call.IsSingle) :
    k < (s.performAll calls).store.objects.size ∧ (s.performAll calls).store.object? k = none :=
  performAll_induction (fun hgone h => h.destroyed_kept hgone) hk hsingle

/-- An object that is gone after a run was destroyed by one of its calls, at a moment at which
it was still there. -/
theorem exists_destruction (host : Host) {calls : List Call}
    (hsingle : ∀ call ∈ calls, call.IsSingle) {k : ObjectId}
    (hk : k < (({ host } : System).performAll calls).store.objects.size)
    (hgone : (({ host } : System).performAll calls).store.object? k = none) :
    ∃ before call, before ++ [call] <+: calls ∧
      (({ host } : System).performAll before).store.object? k ≠ none ∧
      (({ host } : System).performAll (before ++ [call])).store.object? k = none := by
  -- from the end of the run: the object was gone before the last call, or this call destroyed it
  induction calls using List.reverseRecOn with
  | nil => exact absurd hk (Nat.not_lt_zero _)
  | append_singleton calls call ih =>
    obtain ⟨hbefore, hlast⟩ := List.forall_mem_append.1 hsingle
    have hcall : call.IsSingle := List.forall_mem_singleton.1 hlast
    obtain ⟨entries, h⟩ := ({ host } : System).stepped_last calls hcall
    by_cases hthere : (({ host } : System).performAll calls).store.object? k = none
    · have hold : k < (({ host } : System).performAll calls).store.objects.size := by
        by_contra hnew
        exact h.object_of_new (Nat.le_of_not_lt hnew) hk hgone
      obtain ⟨before, last, hinside, hrest⟩ := ih hbefore hold hthere
      exact ⟨before, last, hinside.trans (List.prefix_append _ _), hrest⟩
    · exact ⟨calls, call, List.prefix_rfl, hthere, hgone⟩

/-- No object is destroyed twice in a run. -/
theorem destruction_unique (host : Host) {calls : List Call}
    (hsingle : ∀ call ∈ calls, call.IsSingle) {k : ObjectId} {before before' : List Call}
    {call call' : Call} (hinside : before ++ [call] <+: calls)
    (hinside' : before' ++ [call'] <+: calls)
    (hthere' : (({ host } : System).performAll before').store.object? k ≠ none)
    (hthere : (({ host } : System).performAll before).store.object? k ≠ none)
    (hgone : (({ host } : System).performAll (before ++ [call])).store.object? k = none) :
    before'.length ≤ before.length := by
  by_contra hlonger
  have hle : (before ++ [call]).length ≤ before'.length := by
    rw [List.length_append, List.length_singleton]
    omega
  -- the later moment would lie behind the destruction, after which the object stays destroyed
  obtain ⟨rest, rfl⟩ := List.prefix_of_prefix_length_le hinside
    ((List.prefix_append _ _).trans hinside') hle
  have hmem : ∀ earlier ∈ before ++ [call] ++ rest, earlier.IsSingle := by
    intro earlier h
    exact hsingle earlier (hinside'.subset (List.mem_append_left _ h))
  obtain ⟨hfirst, hrest⟩ := List.forall_mem_append.1 hmem
  obtain ⟨object, hobject⟩ := Option.ne_none_iff_exists'.1 hthere
  obtain ⟨entries, h⟩ := ({ host } : System).stepped_last before (hfirst call (by simp))
  have hk : k < (({ host } : System).performAll (before ++ [call])).store.objects.size := by
    rw [h.size_objects]
    exact Nat.lt_add_right _ (Store.lt_size_of_object? hobject)
  have hlater := destroyed_performAll ⟨hk, hgone⟩ hrest
  rw [← performAll_append] at hlater
  exact hthere' hlater.2

/-- The objects that were created on an account. -/
def createdOn (s : System) (account : AccountId) : ℕ :=
  ((s.eventsOf account).map Event.births).sum

/-- The objects that were destroyed on an account. -/
def destroyedOn (s : System) (account : AccountId) : ℕ :=
  ((s.eventsOf account).map Event.deaths).sum

/-- The objects of the heaps of an account that are not destroyed. -/
def livingOn (s : System) (account : AccountId) : ℕ :=
  s.sumObjects account fun _ => 1

/-- The counters of an account tell how many objects it has. -/
structure Tallied (s : System) (account : AccountId) : Prop where
  created : (s.counters account).created.toNat = s.createdOn account
  destroyed : (s.counters account).destroyed.toNat = s.destroyedOn account
  living : s.livingOn account + s.destroyedOn account = s.createdOn account
  bounded : s.createdOn account ≤ s.store.objects.size

/-- A call creates at most as many objects on an account as come into being. -/
theorem Stepped.births_le (h : Stepped s call entries s') (account : AccountId) :
    s.store.objects.size + ((s'.eventsIn account entries).map Event.births).sum ≤
      s'.store.objects.size := by
  have hsize := h.size_objects
  have hzero : (∀ entry ∈ entries, entry.event.births = 0) →
      s.store.objects.size + ((s'.eventsIn account entries).map Event.births).sum ≤
        s'.store.objects.size := by
    intro hquiet
    rw [sum_eventsIn_eq_zero s' account hquiet, hsize]
    exact Nat.le_add_right _ _
  cases h with
  | @objectCreated id heap size hheap =>
    have hquiet : ∀ event : Event, event.charge? = none → event.births = 0 := by
      intro event h
      exact (Event.weights_of_quiet h _).2.2.1
    rw [sum_eventsIn_singleton hquiet]
    show _ ≤ (s.store.objects.push _).size
    rw [Array.size_push]
    split
    · exact le_refl _
    · exact Nat.le_succ _
  | arenaMoved step hslot =>
    apply hzero
    intro entry hentry
    obtain ⟨event, hevent, rfl⟩ := List.mem_map.1 hentry
    exact (objects_of_announced hevent _).1
  | _ => exact hzero (by simp [Event.births, Event.bornWeight])

namespace Tallied

variable {account : AccountId}

/-- Before the first call no account has created or destroyed an object. -/
theorem start (host : Host) (account : AccountId) : ({ host } : System).Tallied account where
  created := rfl
  destroyed := rfl
  living := rfl
  bounded := le_refl 0

/-- A single call keeps the tally of an account, as long as there are fewer than `2 ^ 64`
objects for its counters to count. -/
theorem step (ht : s.Tallied account) (hs : s.Coherent) (hr : s.Recorded)
    (hattributed : s.Attributed) (h : Stepped s call entries s')
    (hobjects : s'.store.objects.size < 2 ^ 64) : s'.Tallied account := by
  obtain ⟨hcreated, hdestroyed, hliving, hbounded⟩ := ht
  have hevents := h.eventsOf_eq hs account
  have hcounters := h.counters_eq hs account
  have hbalance := h.sumObjects_eq hs hr hattributed account fun _ => 1
  have hborn := h.births_le account
  have hfew := h.length_eventsIn_le account
  have hborn' : s'.createdOn account =
      s.createdOn account + ((s'.eventsIn account entries).map Event.births).sum := by
    unfold createdOn
    rw [hevents, List.map_append, List.sum_append]
  have hdied' : s'.destroyedOn account =
      s.destroyedOn account + ((s'.eventsIn account entries).map Event.deaths).sum := by
    unfold destroyedOn
    rw [hevents, List.map_append, List.sum_append]
  have hliving' : s'.livingOn account + ((s'.eventsIn account entries).map Event.deaths).sum =
      s.livingOn account + ((s'.eventsIn account entries).map Event.births).sum := hbalance
  -- no more objects are created than there are, so that the counters do not wrap around
  have hfits : (s.counters account).created.toNat +
      ((s'.eventsIn account entries).map Event.births).sum < 2 ^ 64 := by omega
  obtain ⟨hcreated', hdestroyed'⟩ :=
    (s.counters account).foldl_note_objects_of_few hfew hfits (by omega)
  rw [← hcounters] at hcreated' hdestroyed'
  exact ⟨by omega, by omega, by omega, by omega⟩

end Tallied

/-- The counters of an account tell its objects after a run that names its heaps apart. -/
theorem tallied_of_attributed (host : Host) (account : AccountId) {calls : List Call}
    (hsingle : ∀ call ∈ calls, call.IsSingle)
    (hobjects : (({ host } : System).performAll calls).store.objects.size < 2 ^ 64)
    (hattributed : ∀ before, before <+: calls →
      (({ host } : System).performAll before).Attributed) :
    (({ host } : System).performAll calls).Tallied account := by
  induction calls using List.reverseRecOn with
  | nil => exact Tallied.start host account
  | append_singleton calls call ih =>
    obtain ⟨hbefore, hlast⟩ := List.forall_mem_append.1 hsingle
    have hcall : call.IsSingle := List.forall_mem_singleton.1 hlast
    have hs := (attained_performAll host calls).coherent
    have hr := (attained_performAll host calls).recorded
    obtain ⟨entries, h⟩ := ({ host } : System).stepped_last calls hcall
    have hearlier : ∀ before, before <+: calls →
        (({ host } : System).performAll before).Attributed := by
      intro before hle
      exact hattributed before (hle.trans (List.prefix_append _ _))
    have hfewer : (({ host } : System).performAll calls).store.objects.size < 2 ^ 64 := by
      rw [h.size_objects] at hobjects
      omega
    exact (ih hbefore hfewer hearlier).step hs hr (hearlier calls List.prefix_rfl) h hobjects

/-- The counters of an account tell its objects after a run of fewer than `2 ^ 64` heaps, whose
ids are then apart. -/
theorem tallied_performAll (host : Host) (account : AccountId) {calls : List Call}
    (hsingle : ∀ call ∈ calls, call.IsSingle)
    (hobjects : (({ host } : System).performAll calls).store.objects.size < 2 ^ 64)
    (hdistinct : (({ host } : System).performAll calls).heaps.size < 2 ^ 64) :
    (({ host } : System).performAll calls).Tallied account :=
  tallied_of_attributed host account hsingle hobjects
    fun _ => attributed_of_prefix host hsingle hdistinct

/-- A held token is among the tokens to the object it refers to. -/
theorem tokensTo_pos {id : TokenId} {token : Token} {k : ObjectId}
    (h : s.token? id = some token) (hk : token.object? = some k) : 0 < s.tokensTo k .held := by
  have hmem := Array.mem_of_getElem? (token?_eq_some.1 h)
  exact Array.countP_pos_iff.2 ⟨_, hmem, by simp [hk]⟩

/-- An object with a token that was not given up is not destroyed. -/
theorem Counted.exists_object (hc : s.Counted) {k : ObjectId}
    (h : 0 < s.tokensTo k .held + s.tokensTo k .lost) :
    ∃ object, s.store.object? k = some object := by
  rw [← hc.counted] at h
  apply Option.ne_none_iff_exists'.1
  intro hnone
  unfold countOf at h
  rw [hnone] at h
  exact Nat.lt_irrefl 0 h

/-- The count in an object is the number of tokens to it that were not given up, at least one
and no more than the counter can hold. -/
theorem Counted.bounds (hc : s.Counted) {k : ObjectId} {object : Object}
    (hobject : s.store.object? k = some object) :
    object.references.toNat = s.tokensTo k .held + s.tokensTo k .lost ∧
      1 ≤ object.references.toNat ∧ object.references.toNat ≤ 2 ^ 32 - 1 := by
  have hcount := hc.counted k
  rw [countOf_eq hobject] at hcount
  have hless := toNat_sub_one_of_ne_zero (hc.positive hobject)
  have hlt := object.references.toNat_lt
  exact ⟨hcount, by omega, by omega⟩

/-- An object that has lost a token stays in every run. -/
theorem Counted.exists_of_lost (hc : s.Counted) {k : ObjectId} (hlost : 0 < s.tokensTo k .lost)
    {calls : List Call} (hsingle : ∀ call ∈ calls, call.IsSingle) :
    ∃ object, (s.performAll calls).store.object? k = some object := by
  have hkept : (s.performAll calls).Counted ∧ 0 < (s.performAll calls).tokensTo k .lost := by
    apply performAll_induction (P := fun after => after.Counted ∧ 0 < after.tokensTo k .lost)
    · rintro after later call entries ⟨hafter, hpos⟩ h
      exact ⟨hafter.step h, hpos.trans_le (h.lost_le k)⟩
    · exact ⟨hc, hlost⟩
    · exact hsingle
  exact hkept.1.exists_object (Nat.add_pos_right _ hkept.2)

/-- The call that destroys an object announces the size that it was created with. -/
theorem Counted.announced_of_destroyed (hc : s.Counted) (hr : s.Recorded) {call : Call}
    {k : ObjectId} {object : Object} (hobject : s.store.object? k = some object)
    (hgone : (s.perform call).2.store.object? k = none) :
    ∃ id creator, (s.perform call).2.journal.toList =
        s.journal.toList ++ [⟨.heap id, .destroyed object.size⟩] ∧
      s.births[k]? = some (creator, object.size) := by
  obtain ⟨id, heap, token, rfl, -⟩ := (hc.destroys_iff call hobject).1 hgone
  have hsingle : (Call.release id token).IsSingle := trivial
  obtain ⟨entries, h⟩ := s.stepped hsingle
  obtain ⟨id', heap', token', -, -, -, -, hentries⟩ := h.of_destroyed hobject hgone
  obtain ⟨creator, hbirth⟩ := hr.sized hobject
  refine ⟨id', creator, ?_, hbirth⟩
  rw [h.journal_eq, hentries]

/-- The one moment of a run at which an object that is destroyed was destroyed. -/
theorem existsUnique_destruction (host : Host) {calls : List Call}
    (hsingle : ∀ call ∈ calls, call.IsSingle) {k : ObjectId}
    (hk : k < (({ host } : System).performAll calls).store.objects.size)
    (hgone : (({ host } : System).performAll calls).store.object? k = none) :
    ∃! before, ∃ call, before ++ [call] <+: calls ∧
      (({ host } : System).performAll before).store.object? k ≠ none ∧
      (({ host } : System).performAll (before ++ [call])).store.object? k = none := by
  obtain ⟨before, call, hinside, hthere, hdestroyed⟩ := exists_destruction host hsingle hk hgone
  refine ⟨before, ⟨call, hinside, hthere, hdestroyed⟩, ?_⟩
  rintro before' ⟨call', hinside', hthere', hdestroyed'⟩
  have hle := destruction_unique host hsingle hinside hinside' hthere' hthere hdestroyed
  have hge := destruction_unique host hsingle hinside' hinside hthere hthere' hdestroyed'
  have hsub := List.prefix_of_prefix_length_le ((List.prefix_append _ _).trans hinside')
    ((List.prefix_append _ _).trans hinside) hle
  exact hsub.eq_of_length (Nat.le_antisymm hle hge)

/-- At every moment of every run, whatever the host serves and wherever it changes, the
count in an object that is not destroyed is the number of tokens to it that are held or
lost, at least one and at most `2 ^ 32 - 1`, and a held token refers to an object that is
not destroyed. The next call destroys an object exactly if it gives up the last of these
tokens to the heap that made it; it then announces the size that the object was created
with. What is destroyed stays so, and was destroyed by one call of the run only; an object
that has lost a token is there for ever. So an account never counts more objects destroyed
than created, and the difference is the number of its objects that are there. These counts
are words, so there have to be less than `2 ^ 64` objects; and heaps are numbered by
words, so there have to be less than `2 ^ 64` heaps too, as otherwise a heap might take
the token of another one for its own and destroy the object on its own account. -/
theorem references_counted (host : Host) (actions : List Action) {calls : List Call}
    (hmoment : calls <+: ({ host } : System).unrollAll actions) :
    let moment := fun calls => ({ host } : System).performAll calls
    let s := moment calls
    (∀ k object, s.store.object? k = some object →
      object.references.toNat = s.tokensTo k .held + s.tokensTo k .lost ∧
      1 ≤ object.references.toNat ∧ object.references.toNat ≤ 2 ^ 32 - 1) ∧
    (∀ id token k, s.token? id = some token → token.object? = some k →
      ∃ object, s.store.object? k = some object) ∧
    (∀ call k object, s.store.object? k = some object →
      ((s.perform call).2.store.object? k = none ↔
        ∃ id heap token, call = .release id token ∧ s.heaps[id]? = some heap ∧
          s.token? token = some (.reference k heap.number) ∧
          s.tokensTo k .held + s.tokensTo k .lost = 1)) ∧
    (∀ call k object, s.store.object? k = some object →
      (s.perform call).2.store.object? k = none →
      ∃ id creator, (s.perform call).2.journal.toList =
          s.journal.toList ++ [⟨.heap id, .destroyed object.size⟩] ∧
        s.births[k]? = some (creator, object.size)) ∧
    (∀ k, k < s.store.objects.size → s.store.object? k = none →
      (∃! before, ∃ call, before ++ [call] <+: calls ∧
        (moment before).store.object? k ≠ none ∧
        (moment (before ++ [call])).store.object? k = none) ∧
      ∀ later, (s.run later).2.store.object? k = none) ∧
    (∀ k, 0 < s.tokensTo k .lost →
      ∀ later, ∃ object, (s.run later).2.store.object? k = some object) ∧
    (s.store.objects.size < 2 ^ 64 → s.heaps.size < 2 ^ 64 → ∀ account,
      (s.counters account).destroyed.toNat ≤ (s.counters account).created.toNat ∧
      (s.counters account).live.toNat =
        (s.counters account).created.toNat - (s.counters account).destroyed.toNat ∧
      (s.counters account).live.toNat = s.livingOn account) := by
  intro moment s
  have hsingle := isSingle_of_moment hmoment
  have hc : s.Counted := (attained_performAll host calls).counted
  have hr : s.Recorded := (attained_performAll host calls).recorded
  have hlater : ∀ later, ∀ call ∈ s.unrollAll later, call.IsSingle := by
    intro later call h
    exact isSingle_of_mem_unrollAll s later h
  refine ⟨?_, ?_, ?_, ?_, ?_, ?_, ?_⟩
  · intro k object hobject
    exact hc.bounds hobject
  · intro id token k htoken hk
    exact hc.exists_object (Nat.add_pos_left (tokensTo_pos htoken hk) _)
  · intro call k object hobject
    exact hc.destroys_iff call hobject
  · intro call k object hobject hgone
    exact hc.announced_of_destroyed hr hobject hgone
  · intro k hk hgone
    refine ⟨existsUnique_destruction host hsingle hk hgone, ?_⟩
    intro later
    rw [snd_run]
    exact (destroyed_performAll ⟨hk, hgone⟩ (hlater later)).2
  · intro k hlost later
    rw [snd_run]
    exact hc.exists_of_lost hlost (hlater later)
  · intro hobjects hdistinct account
    have ht : s.Tallied account := tallied_performAll host account hsingle hobjects hdistinct
    obtain ⟨hcreated, hdestroyed, hliving, -⟩ := ht
    have hlive : (s.counters account).live.toNat =
        (s.counters account).created.toNat - (s.counters account).destroyed.toNat :=
      Word.toNat_monus _ _
    rw [hlive, hcreated, hdestroyed]
    exact ⟨by omega, rfl, by omega⟩

/-- A token is shared, the copy is lost, and a foreign heap takes the other one: the
object stays with the two references that nobody can give up any more. -/
theorem references_counted_after_loss :
    let calls := ({} : System).unrollAll
      [ .call .openAccount, .call (.openHeap 0), .call (.openHeap 0), .call (.create 0 8),
        .call (.retain 0 0), .call (.lose 1), .call (.release 1 0) ]
    let s := ({} : System).performAll calls
    s.tokensTo 0 .held = 0 ∧ s.tokensTo 0 .lost = 2 ∧
      ∃ object, s.store.object? 0 = some object ∧
        object.references.toNat = s.tokensTo 0 .held + s.tokensTo 0 .lost ∧
        (∀ later, ∃ object, (s.run later).2.store.object? 0 = some object) ∧
        (s.counters 0).live.toNat = s.livingOn 0 := by
  intro calls s
  obtain ⟨hcounted, -, -, -, -, hlost, htally⟩ :=
    references_counted Host.standard _ (List.prefix_rfl (l := calls))
  obtain ⟨-, -, hliving⟩ := htally (by decide +kernel) (by decide +kernel) 0
  have htwo : s.tokensTo 0 .lost = 2 := by decide +kernel
  have hpos : 0 < s.tokensTo 0 .lost := by
    rw [htwo]
    exact Nat.two_pos
  obtain ⟨object, hobject⟩ : ∃ object, s.store.object? 0 = some object := hlost 0 hpos []
  exact ⟨by decide +kernel, htwo, object, hobject, (hcounted 0 object hobject).1,
    hlost 0 hpos, hliving⟩

end System

end Allotment

import Allotment.Proofs.System.Refusals
import Allotment.Proofs.System.SharedAccount
import Allotment.Proofs.System.Views

set_option autoImplicit false

/-!
Where a token comes from. Every object was made by one accepted call of a run, which gave
its first token; every other token to it was given for one that was there, by an accepted
retain. So the tokens to an object are those that descend from its creation, and what was
done to its bytes is what was done through them.
-/

namespace Allotment

/-- A call that neither uses tokens nor touches objects. -/
def Call.IsOffHeap : Call → Prop
  | .makeNull | .create _ _ | .retain _ _ | .release _ _ | .lose _ | .references _ _ | .size _ _
  | .payload _ _ | .edit _ _ _ | .sameObject _ _ => False
  | _ => True

/-- Bytes after edits, one after the other. -/
def Bytes.edited (bytes : Bytes) (edits : List Edit) : Bytes :=
  edits.foldl (fun bytes edit => edit.apply bytes) bytes

/-- Edits do not change the number of bytes. -/
@[simp]
theorem Bytes.size_edited (bytes : Bytes) (edits : List Edit) :
    (bytes.edited edits).size = bytes.size := by
  induction edits generalizing bytes with
  | nil => rfl
  | cons edit rest ih => exact (ih _).trans (edit.size_apply bytes)

namespace System

variable {s : System} {call : Call}

/-- The system with other objects and tokens. -/
def withObjects (s : System) (store : Store) (tokens : Array TokenSlot) : System :=
  { s with store, tokens }

section OffHeap

variable (s : System) (store : Store) (tokens : Array TokenSlot)

/-- Work on an arena does not look at the objects and tokens. -/
theorem onArena_withObjects {α : Type} (id : ArenaId)
    (work : Metered Arena → Outcome α × Metered Arena) :
    (s.withObjects store tokens).onArena id work =
      ((s.onArena id work).1, (s.onArena id work).2.withObjects store tokens) := by
  unfold onArena withObjects
  rcases s.arenas[id]? with _ | ⟨_ | arena, account, _ | _⟩ <;> rfl

/-- Giving a buffer back does not look at the objects and tokens. -/
theorem giveBack_withObjects (id : ArenaId) :
    (s.withObjects store tokens).giveBack id =
      ((s.giveBack id).1, (s.giveBack id).2.withObjects store tokens) := by
  unfold giveBack
  rw [onArena_withObjects]
  rcases s.onArena id _ with ⟨refusal | units, after⟩ <;> rfl

/-- Dropping an arena does not look at the objects and tokens. -/
theorem dropArena_withObjects (id : ArenaId) :
    (s.withObjects store tokens).dropArena id = (s.dropArena id).withObjects store tokens := by
  unfold dropArena
  have harena : (s.withObjects store tokens).arena? id = s.arena? id := rfl
  rw [harena]
  cases s.arena? id <;> rfl

/-- Placing an arena does not look at the objects and tokens. -/
theorem placeArena_withObjects (built : Except Violation Arena) (account : AccountId) :
    (s.withObjects store tokens).placeArena built account =
      ((s.placeArena built account).1,
        (s.placeArena built account).2.withObjects store tokens) := by
  unfold placeArena withObjects
  by_cases hopen : account < s.accounts.size
  · simp only [hopen, if_true]
    cases built <;> rfl
  · simp only [hopen, if_false]

/-- Opening a heap does not look at the objects and tokens. -/
theorem openHeap_withObjects (account : AccountId) :
    (s.withObjects store tokens).openHeap account =
      ((s.openHeap account).1, (s.openHeap account).2.withObjects store tokens) := by
  unfold openHeap withObjects
  by_cases hopen : account < s.accounts.size
  · simp only [hopen, if_true]
    rfl
  · simp only [hopen, if_false]

/-- Building a context does not look at the objects and tokens. -/
theorem buildContext_withObjects (configuration : Configuration) :
    (s.withObjects store tokens).buildContext configuration =
      ((s.buildContext configuration).1,
        (s.buildContext configuration).2.withObjects store tokens) := by
  unfold buildContext
  cases Arena.create configuration.capacity <;> rfl

/-- A call off the heap does not see objects and tokens and leaves them alone. -/
theorem perform_withObjects (h : call.IsOffHeap) :
    (s.withObjects store tokens).perform call =
      ((s.perform call).1, (s.perform call).2.withObjects store tokens) := by
  cases call with
  | createArena capacity account =>
    simp only [perform, createArena, placeArena_withObjects]
    rfl
  | lendArena units capacity account =>
    simp only [perform, lendArena, placeArena_withObjects]
    rfl
  | alloc id size =>
    simp only [perform, alloc, onArena_withObjects]
    rfl
  | restore id target =>
    simp only [perform, restore, onArena_withObjects]
    rfl
  | reset id =>
    simp only [perform, reset, onArena_withObjects]
    rfl
  | write id region edit =>
    simp only [perform, write, onArena_withObjects]
    rfl
  | replay id sizes =>
    simp only [perform, replay, onArena_withObjects]
    rfl
  | sumBatch id samples =>
    simp only [perform, sumBatch, onArena_withObjects]
    rfl
  | giveBack id =>
    simp only [perform, giveBack_withObjects]
    rfl
  | dropArena id => simp only [perform, dropArena_withObjects]
  | openHeap account =>
    simp only [perform, openHeap_withObjects]
    rfl
  | createContext configuration =>
    simp only [perform, createContext]
    cases configuration.validate with
    | error error => rfl
    | ok _ =>
      simp only [buildContext_withObjects]
      rfl
  | createDefaultContext =>
    simp only [perform, buildContext_withObjects, report]
  | openAccount | checkpoint _ | read _ _ | changeHost _ => rfl
  | makeNull | create _ _ | retain _ _ | release _ _ | lose _ | references _ _ | size _ _
    | payload _ _ | edit _ _ _ | sameObject _ _ => exact h.elim

end OffHeap

/-- A call that neither uses tokens nor touches objects leaves them as they are. -/
theorem perform_of_isOffHeap (s : System) (h : call.IsOffHeap) :
    (s.perform call).2.store = s.store ∧ (s.perform call).2.tokens = s.tokens := by
  have hsame := s.perform_withObjects s.store s.tokens h
  have hafter : (s.perform call).2 = (s.perform call).2.withObjects s.store s.tokens :=
    congrArg Prod.snd hsame
  rw [hafter]
  exact ⟨rfl, rfl⟩

/-- The new token is to its own object, and the other ones are to theirs as before. -/
theorem objectAt_hold_eq (s : System) (token : Token) (i : TokenId) :
    (s.hold token).2.objectAt i = if i = s.tokens.size then token.object? else s.objectAt i := by
  show (s.tokens.push { token })[i]?.bind _ = _
  rw [Array.getElem?_push]
  split <;> rfl

/-- The object behind a held token is the one it refers to. -/
theorem objectAt_of_token? {id : TokenId} {token : Token} (h : s.token? id = some token) :
    s.objectAt id = token.object? := by
  rw [objectAt, token?_eq_some.1 h]
  rfl

/-- A token to an object is one that there is. -/
theorem lt_size_of_objectAt {id : TokenId} {k : ObjectId} (h : s.objectAt id = some k) :
    id < s.tokens.size := by
  obtain ⟨slot, hslot, -⟩ := Option.bind_eq_some_iff.1 h
  exact (Array.getElem?_eq_some_iff.1 hslot).1

/-- The tokens to an object with a new one are those before, and the new one if it is to that
object. -/
theorem objectAt_hold_iff {token : Token} {i : TokenId} {k : ObjectId} :
    (s.hold token).2.objectAt i = some k ↔
      s.objectAt i = some k ∨ i = s.tokens.size ∧ token.object? = some k := by
  rw [objectAt_hold_eq]
  split
  · rename_i hi
    subst hi
    have hnone : s.objectAt s.tokens.size ≠ some k := fun h => (lt_size_of_objectAt h).ne rfl
    simp [hnone]
  · rename_i hi
    simp [hi]

/-- A release does not change which objects the tokens are to. -/
theorem objectAt_release (s : System) (heap : HeapId) (id i : TokenId) :
    (s.release heap id).2.objectAt i = s.objectAt i := by
  by_cases hknown : s.heaps[heap]? = none ∨ s.token? id = none
  · rw [release_of_none hknown]
  · obtain ⟨owner, found, hheap, htoken⟩ := exists_of_known hknown
    rw [release_eq hheap htoken]
    split
    · exact objectAt_retire _ _
    · exact objectAt_retire _ _
    · split
      · exact objectAt_retire _ _
      · exact objectAt_retire _ _

/-- A loss does not change which objects the tokens are to. -/
theorem objectAt_lose (s : System) (id i : TokenId) : (s.lose id).objectAt i = s.objectAt i := by
  unfold lose
  cases s.token? id with
  | none => rfl
  | some token => exact objectAt_retire _ _

/-- A write of a payload does not change which objects the tokens are to. -/
theorem objectAt_editPayload (s : System) (heap : HeapId) (id : TokenId) (edit : Edit)
    (i : TokenId) : (s.editPayload heap id edit).2.objectAt i = s.objectAt i := by
  by_cases hknown : s.heaps[heap]? = none ∨ s.token? id = none
  · rw [editPayload_of_none hknown]
  · obtain ⟨owner, found, hheap, htoken⟩ := exists_of_known hknown
    rw [editPayload_eq hheap htoken]
    split <;> rfl

/-- An accepted retain gives a token to the object of the one that it was given. -/
theorem objectAt_retain_iff {heap : HeapId} {source i : TokenId} {k : ObjectId} :
    (s.retain heap source).2.objectAt i = some k ↔
      s.objectAt i = some k ∨
        (s.retain heap source).1 = .ok i ∧ s.objectAt source = some k := by
  by_cases hknown : s.heaps[heap]? = none ∨ s.token? source = none
  · rw [retain_of_none hknown]
    simp
  · obtain ⟨owner, found, hheap, htoken⟩ := exists_of_known hknown
    have hsource := objectAt_of_token? htoken
    rw [retain_eq hheap htoken, hsource]
    rcases hfind : s.store.findOwn owner.number found with violation | _ | ⟨j, object⟩
    · simp
    · obtain rfl := Store.findOwn_eq_none hfind
      simp only [objectAt_hold_iff, Token.object?, reduceCtorEq, and_false]
    · obtain ⟨rfl, hobject⟩ := Store.findOwn_eq_some hfind
      simp only
      split
      · simp
      · rw [objectAt_hold_iff, Except.ok.injEq, eq_comm (a := i)]
        rfl

/-- A creation gives no token to an object that is there. -/
theorem objectAt_createObject {k : ObjectId} (hk : k < s.store.objects.size) (heap : HeapId)
    (size : UInt64) (i : TokenId) :
    (s.createObject heap size).2.objectAt i = some k ↔ s.objectAt i = some k := by
  cases hheap : s.heaps[heap]? with
  | none => rw [createObject_of_none hheap]
  | some owner =>
    rw [createObject_eq hheap]
    split
    · rw [objectAt_hold_iff, Token.object?, Option.some.injEq, or_iff_left]
      · rfl
      · rintro ⟨-, rfl⟩
        exact Nat.lt_irrefl _ hk
    · rfl

/-- A token to an object that was there before a call was there itself, or the call took it for
one that was. -/
theorem objectAt_perform_iff {k : ObjectId} (hk : k < s.store.objects.size) (i : TokenId) :
    (s.perform call).2.objectAt i = some k ↔
      s.objectAt i = some k ∨ ∃ heap source, call = .retain heap source ∧
        (s.retain heap source).1 = .ok i ∧ s.objectAt source = some k := by
  have hoff : call.IsOffHeap → (s.perform call).2.objectAt i = s.objectAt i := by
    intro h
    rw [objectAt, (s.perform_of_isOffHeap h).2]
    rfl
  cases call with
  | retain heap source =>
    rw [perform, report, objectAt_retain_iff]
    simp
  | makeNull =>
    have hnull : (s.hold .null).2.objectAt i = some k ↔ _ := objectAt_hold_iff
    rw [perform, makeNull, hnull]
    simp [Token.object?]
  | create heap size =>
    rw [perform, report, objectAt_createObject hk]
    simp
  | release heap id =>
    rw [perform, report, objectAt_release]
    simp
  | lose id =>
    rw [perform, objectAt_lose]
    simp
  | edit heap id change =>
    rw [perform, report, objectAt_editPayload]
    simp
  | references | size | payload | sameObject => simp [perform, report]
  | _ =>
    rw [hoff trivial]
    simp

/-- The edit that a call makes to an object. -/
def editOf? (s : System) (k : ObjectId) : Call → Option Edit
  | .edit heap token change =>
    if s.objectAt token = some k ∧ (s.editPayload heap token change).1.isOk then some change
    else none
  | _ => none

/-- A retain leaves the objects alone, or takes a reference to the one behind the token, which
is the heap's own. -/
theorem store_retain (heap : HeapId) (id : TokenId) :
    (s.retain heap id).2.store = s.store ∨
      ∃ owner k object, s.heaps[heap]? = some owner ∧
        s.token? id = some (.reference k owner.number) ∧ s.store.object? k = some object ∧
        (s.retain heap id).2.store =
          s.store.put k (some { object with references := object.references + 1 }) := by
  by_cases hknown : s.heaps[heap]? = none ∨ s.token? id = none
  · exact .inl (by rw [retain_of_none hknown])
  · obtain ⟨owner, token, hheap, htoken⟩ := exists_of_known hknown
    rw [retain_eq hheap htoken]
    rcases hfind : s.store.findOwn owner.number token with violation | _ | ⟨k, object⟩
    · exact .inl rfl
    · exact .inl rfl
    · obtain ⟨rfl, hobject⟩ := Store.findOwn_eq_some hfind
      simp only
      split
      · exact .inl rfl
      · exact .inr ⟨owner, k, object, hheap, htoken, hobject, rfl⟩

/-- A release leaves the objects alone, or gives up a reference to the one behind the token,
which is the heap's own, and destroys it if this was the last one. -/
theorem store_release (heap : HeapId) (id : TokenId) :
    (s.release heap id).2.store = s.store ∨
      ∃ owner k object, s.heaps[heap]? = some owner ∧
        s.token? id = some (.reference k owner.number) ∧ s.store.object? k = some object ∧
        ((s.release heap id).2.store = s.store.put k none ∨
          (s.release heap id).2.store =
            s.store.put k (some { object with references := object.references - 1 })) := by
  by_cases hknown : s.heaps[heap]? = none ∨ s.token? id = none
  · exact .inl (by rw [release_of_none hknown])
  · obtain ⟨owner, token, hheap, htoken⟩ := exists_of_known hknown
    rw [release_eq hheap htoken]
    rcases hfind : s.store.findOwn owner.number token with violation | _ | ⟨k, object⟩
    · exact .inl rfl
    · exact .inl rfl
    · obtain ⟨rfl, hobject⟩ := Store.findOwn_eq_some hfind
      simp only
      refine .inr ⟨owner, k, object, hheap, htoken, hobject, ?_⟩
      split
      · exact .inl rfl
      · exact .inr rfl

section Contents

variable {k : ObjectId} {after : Object}

/-- An object with the size and the bytes that it had before. -/
def KeptFrom (s : System) (k : ObjectId) (after : Object) : Prop :=
  ∃ before, s.store.object? k = some before ∧ after.size = before.size ∧
    after.payload = before.payload

/-- An object that is still the same was kept. -/
theorem KeptFrom.same (h : s.store.object? k = some after) : s.KeptFrom k after :=
  ⟨after, h, rfl, rfl⟩

/-- An object that takes the place of another one with its size and its bytes. -/
theorem KeptFrom.of_put {j : ObjectId} {object next : Object}
    (hobject : s.store.object? j = some object) (hsize : next.size = object.size)
    (hpayload : next.payload = object.payload)
    (hafter : (s.store.put j (some next)).object? k = some after) : s.KeptFrom k after := by
  rw [Store.object?_put (Store.lt_size_of_object? hobject)] at hafter
  split at hafter
  · rename_i hj
    subst hj
    obtain rfl := Option.some.inj hafter
    exact ⟨object, hobject, hsize, hpayload⟩
  · exact .same hafter

/-- An object that is there after another one was destroyed was kept. -/
theorem KeptFrom.of_put_none {j : ObjectId} {object : Object}
    (hobject : s.store.object? j = some object)
    (hafter : (s.store.put j none).object? k = some after) : s.KeptFrom k after := by
  rw [Store.object?_put (Store.lt_size_of_object? hobject)] at hafter
  split at hafter
  · cases hafter
  · exact .same hafter

/-- A creation keeps every object that is there. -/
theorem keptFrom_createObject (hk : k < s.store.objects.size) {heap : HeapId} {size : UInt64}
    (hafter : (s.createObject heap size).2.store.object? k = some after) : s.KeptFrom k after := by
  cases hheap : s.heaps[heap]? with
  | none =>
    rw [createObject_of_none hheap] at hafter
    exact .same hafter
  | some owner =>
    rw [createObject_eq hheap] at hafter
    split at hafter
    · replace hafter : (s.addObject (Object.fresh size)).store.object? k = some after := hafter
      rw [object?_addObject, if_neg hk.ne] at hafter
      exact .same hafter
    · exact .same hafter

/-- A retain keeps the size and the bytes of every object. -/
theorem keptFrom_retain {heap : HeapId} {id : TokenId}
    (hafter : (s.retain heap id).2.store.object? k = some after) : s.KeptFrom k after := by
  obtain hsame | ⟨owner, j, object, -, -, hobject, hput⟩ := s.store_retain heap id
  · exact .same (hsame ▸ hafter)
  · rw [hput] at hafter
    refine .of_put hobject ?_ ?_ hafter <;> rfl

/-- A release keeps the size and the bytes of every object that it leaves. -/
theorem keptFrom_release {heap : HeapId} {id : TokenId}
    (hafter : (s.release heap id).2.store.object? k = some after) : s.KeptFrom k after := by
  obtain hsame | ⟨owner, j, object, -, -, hobject, hgone | hput⟩ := s.store_release heap id
  · exact .same (hsame ▸ hafter)
  · rw [hgone] at hafter
    exact .of_put_none hobject hafter
  · rw [hput] at hafter
    refine .of_put hobject ?_ ?_ hafter <;> rfl

/-- An edit changes the bytes of the object behind the token that it is made through, and
nothing else. -/
theorem keptFrom_editPayload {heap : HeapId} {id : TokenId} {change : Edit}
    (hafter : (s.editPayload heap id change).2.store.object? k = some after) :
    ∃ before, s.store.object? k = some before ∧ after.size = before.size ∧
      after.payload =
        before.payload.edited (s.editOf? k (.edit heap id change)).toList := by
  have hsame : ∀ {object : Object}, s.store.object? k = some object →
      s.editOf? k (.edit heap id change) = none →
        ∃ before, s.store.object? k = some before ∧ object.size = before.size ∧
          object.payload =
            before.payload.edited (s.editOf? k (.edit heap id change)).toList := by
    intro object hobject hnone
    rw [hnone]
    exact ⟨object, hobject, rfl, rfl⟩
  by_cases hknown : s.heaps[heap]? = none ∨ s.token? id = none
  · have hedit := editPayload_of_none hknown change
    rw [hedit] at hafter
    exact hsame hafter (by simp [editOf?, hedit, Except.isOk, Except.toBool])
  · obtain ⟨owner, found, hheap, htoken⟩ := exists_of_known hknown
    have hedit := editPayload_eq hheap htoken change
    have hobjectAt := objectAt_of_token? htoken
    rcases hfind : s.store.findOwn owner.number found with violation | _ | ⟨j, object⟩
    · simp only [hfind] at hedit
      rw [hedit] at hafter
      exact hsame hafter (by simp [editOf?, hedit, Except.isOk, Except.toBool])
    · obtain rfl := Store.findOwn_eq_none hfind
      simp only [hfind] at hedit
      rw [hedit] at hafter
      exact hsame hafter (by simp [editOf?, hobjectAt, Token.object?])
    · obtain ⟨rfl, hobject⟩ := Store.findOwn_eq_some hfind
      simp only [hfind] at hedit
      rw [hedit] at hafter
      replace hafter : (s.store.put j _).object? k = some after := hafter
      rw [Store.object?_put (Store.lt_size_of_object? hobject)] at hafter
      split at hafter
      · rename_i hj
        subst hj
        obtain rfl := Option.some.inj hafter
        have hmade : s.editOf? k (.edit heap id change) = some change := by
          simp [editOf?, hobjectAt, Token.object?, hedit, Except.isOk, Except.toBool]
        rw [hmade]
        exact ⟨object, hobject, rfl, rfl⟩
      · rename_i hj
        refine hsame hafter ?_
        simp [editOf?, hobjectAt, Token.object?, Ne.symm hj]

/-- An object that is there after a call, if it is not new, was there before, with the same
size, and its bytes are those of before with the edit that the call made to it. -/
theorem object?_perform (hk : k < s.store.objects.size)
    (hafter : (s.perform call).2.store.object? k = some after) :
    ∃ before, s.store.object? k = some before ∧ after.size = before.size ∧
      after.payload = before.payload.edited (s.editOf? k call).toList := by
  have hoff : call.IsOffHeap → s.KeptFrom k after := by
    intro h
    rw [(s.perform_of_isOffHeap h).1] at hafter
    exact .same hafter
  cases call with
  | create heap size => exact keptFrom_createObject hk hafter
  | retain heap id => exact keptFrom_retain hafter
  | release heap id => exact keptFrom_release hafter
  | edit heap id change => exact keptFrom_editPayload hafter
  | lose id =>
    replace hafter : (s.lose id).store.object? k = some after := hafter
    unfold lose at hafter
    split at hafter <;> exact KeptFrom.same hafter
  | makeNull | references | size | payload | sameObject => exact KeptFrom.same hafter
  | _ => exact hoff trivial

end Contents

/-- A creation is accepted by a heap that gets a block for the object, which is a new one. -/
theorem createObject_eq_ok {heap : HeapId} {size : UInt64} {first : TokenId}
    (h : (s.createObject heap size).1 = .ok first) :
    ∃ owner, s.heaps[heap]? = some owner ∧ s.host.accepts size = true ∧ first = s.tokens.size ∧
      (s.createObject heap size).2 =
        (((s.addObject (Object.fresh size)).record (.heap heap) owner.account
          [.created size]).hold (.reference s.store.objects.size owner.number)).2 := by
  cases hheap : s.heaps[heap]? with
  | none =>
    rw [createObject_of_none hheap] at h
    cases h
  | some owner =>
    rw [createObject_eq hheap] at h ⊢
    split at h
    · rename_i hserved
      rw [if_pos hserved]
      exact ⟨owner, rfl, hserved, (Except.ok.inj h).symm, rfl⟩
    · cases h

/-- No call takes back the place of an object. -/
theorem size_objects_le_perform (s : System) (call : Call) :
    s.store.objects.size ≤ (s.perform call).2.store.objects.size := by
  have hon : call.IsSingle → s.store.objects.size ≤ (s.perform call).2.store.objects.size := by
    intro hsingle
    obtain ⟨entries, h⟩ := s.stepped hsingle
    rw [h.size_objects]
    exact Nat.le_add_right _ _
  cases call with
  | replay id sizes => exact (congrArg (·.objects.size) (s.store_onArena id _)).ge
  | sumBatch id samples => exact (congrArg (·.objects.size) (s.store_onArena id _)).ge
  | _ => exact hon trivial

/-- No run takes back the place of an object. -/
theorem size_objects_le_performAll (s : System) (calls : List Call) :
    s.store.objects.size ≤ (s.performAll calls).store.objects.size := by
  induction calls generalizing s with
  | nil => exact le_refl _
  | cons call rest ih => exact (s.size_objects_le_perform call).trans (ih _)

/-- A creation that is granted adds one place for an object. -/
theorem size_objects_createObject {heap : HeapId} {size : UInt64} {first : TokenId}
    (h : (s.createObject heap size).1 = .ok first) :
    (s.createObject heap size).2.store.objects.size = s.store.objects.size + 1 := by
  obtain ⟨owner, -, -, -, hafter⟩ := createObject_eq_ok h
  rw [hafter]
  exact Array.size_push _

/-- Only a creation adds a place for an object. -/
theorem Stepped.create_of_lt {s' : System} {entries : List Entry} (h : Stepped s call entries s')
    (hlt : s.store.objects.size < s'.store.objects.size) :
    ∃ heap size, call = .create heap size := by
  have hsize := h.size_objects
  cases h with
  | objectCreated hheap => exact ⟨_, _, rfl⟩
  | arenaMoved step hslot =>
    rw [filterMap_birth?_announced] at hsize
    exact absurd hsize hlt.ne'
  | _ => exact absurd hsize hlt.ne'

/-- Only an accepted creation adds an object. -/
theorem created_of_lt (hsingle : call.IsSingle)
    (hlt : s.store.objects.size < (s.perform call).2.store.objects.size) :
    ∃ heap size first, call = .create heap size ∧ (s.createObject heap size).1 = .ok first := by
  obtain ⟨entries, h⟩ := s.stepped hsingle
  obtain ⟨heap, size, rfl⟩ := h.create_of_lt hlt
  cases hanswer : (s.createObject heap size).1 with
  | error refusal =>
    have hsame : (s.createObject heap size).2 = s := (refused_createObject hanswer).after
    replace hlt : _ < (s.createObject heap size).2.store.objects.size := hlt
    rw [hsame] at hlt
    exact absurd hlt (Nat.lt_irrefl _)
  | ok first => exact ⟨heap, size, first, rfl, hanswer⟩

/-- A token is to an object that has a place. -/
theorem Recorded.lt_size_of_objectAt (hr : s.Recorded) {id : TokenId} {k : ObjectId}
    (h : s.objectAt id = some k) : k < s.store.objects.size := by
  obtain ⟨⟨token, holding⟩, hslot, hk⟩ := Option.bind_eq_some_iff.1 h
  cases token with
  | null => cases hk
  | reference j maker =>
    obtain rfl := Option.some.inj hk
    obtain ⟨birth, -, hbirth, -⟩ := hr.made hslot rfl
    rw [← hr.born]
    exact (List.getElem?_eq_some_iff.1 hbirth).1

end System

/-- The bytes of a new object of that size. -/
def Bytes.blank (size : UInt64) : Bytes :=
  Array.replicate size.toNat 0

/-- A system with the tokens that stand for one of its objects, and the edits that were made
through them. -/
structure Lineage where
  system : System
  holders : List TokenId
  edits : List Edit := []

namespace Lineage

variable {l : Lineage} {k : ObjectId} {size : UInt64}

/-- The token that a call gives to one more holder of the object. -/
def newHolder? (l : Lineage) : Call → Option TokenId
  | .retain heap source =>
    if source ∈ l.holders then (l.system.retain heap source).1.toOption else none
  | _ => none

/-- The edit that a call makes to the object. -/
def edit? (l : Lineage) : Call → Option Edit
  | .edit heap token change =>
    if token ∈ l.holders ∧ (l.system.editPayload heap token change).1.isOk then some change
    else none
  | _ => none

/-- The tokens and the edits of the object after one more call. -/
def follow (l : Lineage) (call : Call) : Lineage where
  system := (l.system.perform call).2
  holders := l.holders ++ (l.newHolder? call).toList
  edits := l.edits ++ (l.edit? call).toList

/-- The tokens and the edits of the object after some more calls. -/
def followAll (l : Lineage) (calls : List Call) : Lineage :=
  calls.foldl follow l

/-- The tokens and the edits are those of one object. -/
structure Traces (l : Lineage) (k : ObjectId) (size : UInt64) : Prop where
  known : k < l.system.store.objects.size
  holders : ∀ id, id ∈ l.holders ↔ l.system.objectAt id = some k
  bytes : ∀ {object : Object}, l.system.store.object? k = some object →
    object.size = size ∧ object.payload = (Bytes.blank size).edited l.edits

/-- Following the calls of a run leads where the run leads. -/
theorem system_followAll (l : Lineage) (calls : List Call) :
    (l.followAll calls).system = l.system.performAll calls := by
  induction calls generalizing l with
  | nil => rfl
  | cons call rest ih => exact ih (l.follow call)

/-- A call edits the object through one of its holders exactly when it edits the object at all.
-/
theorem Traces.edit?_eq (h : l.Traces k size) (call : Call) :
    l.edit? call = l.system.editOf? k call := by
  cases call with
  | edit heap token change => simp only [edit?, System.editOf?, h.holders]
  | _ => rfl

/-- The new holder after a call is the token of a retain of a holder, if the retain goes
through. -/
theorem mem_newHolder? {id : TokenId} {call : Call} :
    id ∈ (l.newHolder? call).toList ↔ ∃ heap source, call = .retain heap source ∧
      (l.system.retain heap source).1 = .ok id ∧ source ∈ l.holders := by
  cases call with
  | retain heap source =>
    rcases hanswer : (l.system.retain heap source).1 with refusal | token
    · simp [newHolder?, hanswer, Except.toOption]
    · simp [newHolder?, hanswer, Except.toOption, eq_comm, and_comm]
  | _ => simp [newHolder?]

/-- The tokens and the edits of an object are those of the object after a call too. -/
theorem Traces.follow (h : l.Traces k size) (call : Call) : (l.follow call).Traces k size where
  known := h.known.trans_le (l.system.size_objects_le_perform call)
  holders id := by
    rw [Lineage.follow, List.mem_append, mem_newHolder?, System.objectAt_perform_iff h.known]
    simp only [h.holders]
  bytes {after} hafter := by
    obtain ⟨before, hbefore, hsize, hpayload⟩ := System.object?_perform h.known hafter
    obtain ⟨hsize', hpayload'⟩ := h.bytes hbefore
    refine ⟨hsize.trans hsize', ?_⟩
    rw [hpayload, hpayload', ← h.edit?_eq]
    exact List.foldl_append.symm

/-- The tokens and the edits stay those of the object through every run. -/
theorem Traces.followAll (h : l.Traces k size) (calls : List Call) :
    (l.followAll calls).Traces k size := by
  induction calls generalizing l with
  | nil => exact h
  | cons call rest ih => exact ih (h.follow call)

/-- The token that a creation gives is the only one to the object, whose bytes are zero. -/
theorem traces_created {s : System} (hr : s.Recorded) {heap : HeapId} {first : TokenId}
    (hgranted : (s.createObject heap size).1 = .ok first) :
    Traces { system := (s.createObject heap size).2, holders := [first] }
      s.store.objects.size size := by
  obtain ⟨owner, hheap, hserved, rfl, hafter⟩ := System.createObject_eq_ok hgranted
  rw [hafter]
  constructor
  · show s.store.objects.size < (s.store.objects.push _).size
    rw [Array.size_push]
    exact Nat.lt_succ_self _
  · intro id
    have hold : s.objectAt id ≠ some s.store.objects.size := by
      intro h
      exact (hr.lt_size_of_objectAt h).ne rfl
    rw [List.mem_singleton, System.objectAt_hold_iff, Token.object?]
    constructor
    · intro hid
      exact .inr ⟨hid, rfl⟩
    · rintro (h | ⟨hid, -⟩)
      · exact absurd h hold
      · exact hid
  · intro object hobject
    replace hobject : (s.addObject (Object.fresh size)).store.object? s.store.objects.size =
      some object := hobject
    rw [System.object?_addObject, if_pos rfl] at hobject
    obtain rfl := Option.some.inj hobject
    exact ⟨rfl, rfl⟩

end Lineage

/-- An accepted creation of an object in a run that starts with an empty system. -/
structure Creation (host : Host) (calls : List Call) where
  before : List Call
  heap : HeapId
  size : UInt64
  /-- The token that the creation gave. -/
  first : TokenId
  later : List Call
  split : calls = before ++ .create heap size :: later
  granted : ((({ host } : System).performAll before).createObject heap size).1 = .ok first

namespace Creation

variable {host : Host} {calls : List Call} (c : Creation host calls)

/-- The moment of the creation. -/
def moment : System :=
  ({ host } : System).performAll c.before

/-- The object that was created. -/
def object : ObjectId :=
  c.moment.store.objects.size

/-- The tokens to the object and the edits of it at the end of the run. -/
def lineage : Lineage :=
  Lineage.followAll { system := (c.moment.createObject c.heap c.size).2, holders := [c.first] }
    c.later

/-- The tokens that descend from the creation: the one it gave, and those that were taken for
one of them. -/
def holders : List TokenId :=
  c.lineage.holders

/-- The bytes of a new object with the edits that were made through its tokens. -/
def bytes : Bytes :=
  (Bytes.blank c.size).edited c.lineage.edits

/-- The same creation in a run that goes on. -/
def extend (call : Call) : Creation host (calls ++ [call]) :=
  { c with
    later := c.later ++ [call]
    split := by simp [c.split] }

/-- The creation was granted, and gave its first token. -/
theorem accepted : (c.moment.createObject c.heap c.size).1 = .ok c.first :=
  c.granted

/-- A run is its part up to the creation, the creation and its later part. -/
theorem performAll_eq :
    ({ host } : System).performAll calls =
      (c.moment.createObject c.heap c.size).2.performAll c.later := by
  conv_lhs => rw [c.split]
  rw [System.performAll_append]
  rfl

/-- The lineage of a creation ends where the run ends. -/
theorem system_lineage : c.lineage.system = ({ host } : System).performAll calls := by
  rw [lineage, Lineage.system_followAll, performAll_eq]

/-- The bytes are as many as the creation asked for. -/
theorem size_bytes : c.bytes.size = c.size.toNat := by
  rw [bytes, Bytes.size_edited]
  exact Array.size_replicate

/-- The tokens and the edits of the lineage are those of the object that was created. -/
theorem traces : c.lineage.Traces c.object c.size := by
  have hr : c.moment.Recorded := (System.attained_performAll host c.before).recorded
  exact (Lineage.traces_created hr c.granted).followAll c.later

/-- The tokens that descend from a creation are those to its object. -/
theorem mem_holders_iff (id : TokenId) :
    id ∈ c.holders ↔ (({ host } : System).performAll calls).objectAt id = some c.object := by
  rw [← c.system_lineage]
  exact c.traces.holders id

/-- An object that is there has the size that it was created with, and the bytes that were put
there through its tokens. -/
theorem object_eq {object : Object}
    (h : (({ host } : System).performAll calls).store.object? c.object = some object) :
    object.size = c.size ∧ object.payload = c.bytes := by
  rw [← c.system_lineage] at h
  exact c.traces.bytes h

variable (hsingle : ∀ call ∈ calls, call.IsSingle)
include hsingle

/-- The calls after the creation are single ones if all calls are. -/
theorem isSingle_later : ∀ call ∈ c.later, call.IsSingle := by
  intro call h
  apply hsingle
  rw [c.split]
  exact List.mem_append_right _ (List.mem_cons_of_mem _ h)

/-- The heap and the size of a creation are those of the line that announced it. -/
theorem births_object :
    (({ host } : System).performAll calls).births[c.object]? = some (c.heap, c.size) := by
  have hr : c.moment.Recorded := (System.attained_performAll host c.before).recorded
  obtain ⟨owner, hheap, -, -, hafter⟩ := System.createObject_eq_ok c.accepted
  have hbirth : (c.moment.createObject c.heap c.size).2.births[c.object]? =
      some (c.heap, c.size) := by
    have hstep : c.moment.Stepped (.create c.heap c.size) _ _ := .objectCreated hheap
    rw [hafter]
    show (System.births _)[c.moment.store.objects.size]? = _
    rw [hstep.births_eq, ← hr.born]
    exact List.getElem?_concat_length
  rw [c.performAll_eq]
  exact System.performAll_induction (P := fun s => s.births[c.object]? = some (c.heap, c.size))
    (fun h hstep => hstep.births_kept h) hbirth (c.isSingle_later hsingle)

/-- The heap that made an object is known to all tokens that descend from the creation. -/
theorem exists_maker :
    ∃ owner, (({ host } : System).performAll calls).heaps[c.heap]? = some owner ∧
      ∀ id ∈ c.holders, ∀ slot, (({ host } : System).performAll calls).tokens[id]? = some slot →
        slot.token = .reference c.object owner.number := by
  obtain ⟨owner, hheap, -, -, hafter⟩ := System.createObject_eq_ok c.accepted
  have hknown : (({ host } : System).performAll calls).heaps[c.heap]? = some owner := by
    rw [c.performAll_eq]
    apply System.heaps_performAll _ (c.isSingle_later hsingle)
    rw [hafter]
    exact hheap
  refine ⟨owner, hknown, ?_⟩
  rintro id hid ⟨token, holding⟩ hslot
  have hobject := (c.mem_holders_iff id).1 hid
  rw [System.objectAt, hslot] at hobject
  cases token with
  | null => cases hobject
  | reference k maker =>
    obtain rfl := Option.some.inj hobject
    obtain ⟨birth, heap, hbirth, hmaker, rfl⟩ :=
      (System.attained_performAll host calls).recorded.made hslot rfl
    rw [c.births_object hsingle] at hbirth
    obtain rfl := Option.some.inj hbirth
    rw [hknown] at hmaker
    obtain rfl := Option.some.inj hmaker
    rfl

omit hsingle in
/-- A creation that is part of a run made its object before the end of the run. -/
theorem object_lt {before later : List Call}
    (h : before = c.before ++ .create c.heap c.size :: later) :
    c.object < (({ host } : System).performAll before).store.objects.size := by
  have hgrown := (c.moment.createObject c.heap c.size).2.size_objects_le_performAll later
  rw [System.size_objects_createObject c.accepted] at hgrown
  rw [h, System.performAll_append]
  exact hgrown

omit hsingle c in
/-- There is one creation only of each object. -/
theorem eq_of_object_eq {c d : Creation host calls} (h : c.object = d.object) : c = d := by
  have hnone : ∀ {c d : Creation host calls}, c.object = d.object → ∀ {more rest : List Call},
      d.before = c.before ++ more → .create c.heap c.size :: c.later = more ++ rest →
        more = [] := by
    intro c d hobject more rest hlonger hsplit
    cases more with
    | nil => rfl
    | cons call more =>
      obtain ⟨rfl, -⟩ := List.cons.inj hsplit
      exact absurd hobject (c.object_lt hlonger).ne
  have hbefore : c.before = d.before := by
    rcases List.append_eq_append_iff.1 (c.split.symm.trans d.split) with
      ⟨more, hlonger, hrest⟩ | ⟨more, hlonger, hrest⟩
    · rw [hlonger, hnone h hlonger hrest, List.append_nil]
    · rw [hlonger, hnone h.symm hlonger hrest, List.append_nil]
  have hrest := c.split.symm.trans d.split
  rw [hbefore, List.append_cancel_left_eq, List.cons.injEq, Call.create.injEq] at hrest
  have hfirst := c.granted
  rw [hbefore, hrest.1.1, hrest.1.2, d.granted, Except.ok.injEq] at hfirst
  cases c
  cases d
  simp only at hbefore hrest hfirst
  obtain ⟨⟨rfl, rfl⟩, rfl⟩ := hrest
  subst hbefore hfirst
  rfl

omit c in
/-- Every object was created. -/
theorem exists_of_lt {k : ObjectId}
    (hk : k < (({ host } : System).performAll calls).store.objects.size) :
    ∃ c : Creation host calls, c.object = k := by
  induction calls using List.reverseRecOn with
  | nil => exact absurd hk (Nat.not_lt_zero _)
  | append_singleton calls call ih =>
    obtain ⟨hbefore, hlast⟩ := List.forall_mem_append.1 hsingle
    by_cases hold : k < (({ host } : System).performAll calls).store.objects.size
    · obtain ⟨c, hc⟩ := ih hbefore hold
      exact ⟨c.extend call, hc⟩
    · rw [System.performAll_append] at hk
      obtain ⟨heap, size, first, rfl, hgranted⟩ := System.created_of_lt
        (List.forall_mem_singleton.1 hlast) ((Nat.le_of_not_lt hold).trans_lt hk)
      have hgrown := System.size_objects_createObject hgranted
      replace hk : k < ((({ host } : System).performAll calls).createObject heap
        size).2.store.objects.size := hk
      rw [hgrown] at hk
      refine ⟨⟨calls, heap, size, first, [], rfl, hgranted⟩, ?_⟩
      exact Nat.le_antisymm (Nat.le_of_not_lt hold) (Nat.le_of_lt_succ hk)

omit c in
/-- Every token to an object descends from exactly one creation. -/
theorem existsUnique_of_objectAt {id : TokenId} {k : ObjectId}
    (h : (({ host } : System).performAll calls).objectAt id = some k) :
    ∃! c : Creation host calls, id ∈ c.holders := by
  obtain ⟨c, rfl⟩ := exists_of_lt hsingle
    ((System.attained_performAll host calls).recorded.lt_size_of_objectAt h)
  refine ⟨c, (c.mem_holders_iff id).2 h, ?_⟩
  intro d hd
  rw [d.mem_holders_iff, h, Option.some.injEq] at hd
  exact (eq_of_object_eq hd).symm

/-- A held token that descends from a creation is for an object that is there, and the heap of
the creation accepts it. -/
theorem exists_object {id : TokenId} {token : Token} (hid : id ∈ c.holders)
    (htoken : (({ host } : System).performAll calls).token? id = some token) :
    ∃ owner object, (({ host } : System).performAll calls).heaps[c.heap]? = some owner ∧
      token = .reference c.object owner.number ∧
      (({ host } : System).performAll calls).store.object? c.object = some object ∧
      object.size = c.size ∧ object.payload = c.bytes := by
  obtain ⟨owner, hheap, hmade⟩ := c.exists_maker hsingle
  obtain rfl := hmade id hid _ (System.token?_eq_some.1 htoken)
  obtain ⟨object, hobject⟩ := (System.attained_performAll host calls).counted.exists_object
    (Nat.add_pos_left (System.tokensTo_pos htoken rfl) _)
  obtain ⟨hsize, hbytes⟩ := c.object_eq hobject
  exact ⟨owner, object, hheap, rfl, hobject, hsize, hbytes⟩

end Creation

end Allotment

import Allotment.Proofs.Arena.Requests
import Allotment.Proofs.System.Bounds
import Allotment.Proofs.System.References

set_option autoImplicit false

/-!
A call that fails leaves the system as it is, except that the token of a failed release is
lost. That is said of every call at once, together with what exactly it takes for a call to
fail. So it makes no difference to the rest of a run whether failed calls are made at all:
without them the run gets the same answers and leads to the same system, in which only the
tokens of the failed releases are still held.
-/

namespace Allotment

/-- Whether a call is a batch. It makes several calls of an arena, of which one may fail
after others. -/
def Call.isBatch : Call → Bool
  | .sumBatch _ _ => true
  | _ => false

/-- The heap that a call is made on and the token that it has to own. -/
def Call.handsOver? : Call → Option (HeapId × TokenId)
  | .retain heap token => some (heap, token)
  | .release heap token => some (heap, token)
  | .payload heap token => some (heap, token)
  | .edit heap token _ => some (heap, token)
  | _ => none

/-- A heap does not find its own object behind a token for one of two reasons: the token was
made by another heap, or its object is destroyed. -/
theorem Store.findOwn_eq_error {store : Store} {heap : UInt64} {token : Token}
    {violation : Violation} (h : store.findOwn heap token = .error violation) :
    ∃ k maker, token = .reference k maker ∧
      (maker ≠ heap ∧ violation = .foreignToken maker heap ∨
        store.object? k = none ∧ violation = .danglingToken) := by
  cases token with
  | null => cases h
  | reference k maker =>
    refine ⟨k, maker, rfl, ?_⟩
    simp only [findOwn, find] at h
    split at h
    · split at h
      · rename_i hgone
        exact .inr ⟨hgone, (Except.error.inj h).symm⟩
      · cases h
    · rename_i hmaker
      exact .inl ⟨hmaker, (Except.error.inj h).symm⟩

/-- No object is found behind a token only when the object it refers to is destroyed. -/
theorem Store.find_eq_error {store : Store} {token : Token} {violation : Violation}
    (h : store.find token = .error violation) :
    ∃ k maker, token = .reference k maker ∧ store.object? k = none ∧
      violation = .danglingToken := by
  cases token with
  | null => cases h
  | reference k maker =>
    refine ⟨k, maker, rfl, ?_⟩
    simp only [find] at h
    split at h
    · rename_i hgone
      exact ⟨hgone, (Except.error.inj h).symm⟩
    · cases h

namespace System

variable {s : System}

/-- What it takes for a call to fail that names only what there is. -/
inductive Fails (s : System) : Call → Refusal → Prop
  | noRoom {id : ArenaId} {account : AccountId} {arena : Arena} {size : UInt64}
    (hslot : s.arenas[id]? = some { arena := some arena, account })
    (hfull : arena.capacity.toNat < arena.offset.toNat + roundUp size.toNat) :
    Fails s (.alloc id size) (.exhausted (arena.failureFor size))
  | noBlock {id : HeapId} {heap : Heap} {size : UInt64} (hheap : s.heaps[id]? = some heap)
    (hrefused : s.host.accepts size = false) :
    Fails s (.create id size) (.exhausted { requested := size, available := 0 })
  | foreign {call : Call} {id : HeapId} {heap : Heap} {token : TokenId} {k : ObjectId}
    {maker : UInt64} (hcall : call.handsOver? = some (id, token))
    (hheap : s.heaps[id]? = some heap) (htoken : s.token? token = some (.reference k maker))
    (hmaker : maker ≠ heap.number) :
    Fails s call (.violated (.foreignToken maker heap.number))
  | full {id : HeapId} {heap : Heap} {token : TokenId} {k : ObjectId} {object : Object}
    (hheap : s.heaps[id]? = some heap)
    (htoken : s.token? token = some (.reference k heap.number))
    (hobject : s.store.object? k = some object) (hmax : object.references = maxReferences) :
    Fails s (.retain id token) (.violated .referenceOverflow)
  | smallBuffer {units : Array UInt64} {capacity : UInt64} {account : AccountId}
    (hopen : account < s.accounts.size) (hsmall : 8 * units.size < capacity.toNat) :
    Fails s (.lendArena units capacity account)
      (.violated (.capacityBeyondBuffer capacity.toNat (8 * units.size)))
  | hugeArena {capacity : UInt64} {account : AccountId} (hopen : account < s.accounts.size)
    (hhuge : Arena.maxBufferSize < roundUp capacity.toNat) :
    Fails s (.createArena capacity account) (.violated .capacityOverflow)
  | hugeContext {configuration : Configuration}
    (hhuge : Arena.maxBufferSize < roundUp configuration.capacity.toNat) :
    Fails s (.createContext configuration) (.violated .capacityOverflow)
  | zeroContext {configuration : Configuration} (hzero : configuration.capacity = 0) :
    Fails s (.createContext configuration) (.misconfigured .zeroCapacity)

/-- The system after a call that was refused. -/
def afterRefusal (s : System) : Call → Refusal → System
  | .release _ token, .violated _ => s.retire token .lost
  | _, _ => s

/-- Some held token refers to an object that was destroyed. -/
def Dangling (s : System) : Prop :=
  ∃ token k maker, s.token? token = some (.reference k maker) ∧ s.store.object? k = none

/-- A refused call left the system as it should, and what it named was not there, or it had
to fail, or it was given a dangling token. -/
structure Refused (s : System) (call : Call) (refusal : Refusal) (after : System) : Prop where
  after : after = s.afterRefusal call refusal
  cause : refusal = .unknown ∨ s.Fails call refusal ∨
    refusal = .violated .danglingToken ∧ s.Dangling

/-- Reporting an outcome as an answer keeps its refusal. -/
theorem fst_report_eq_error {α : Type} {result : α → CallResult} {outcome : Outcome α × System}
    {refusal : Refusal} :
    (report result outcome).1 = .error refusal ↔ outcome.1 = .error refusal := by
  obtain ⟨_ | _, _⟩ := outcome <;> simp [report, Except.map]

/-- A call that names what is not there is refused and changes nothing. -/
theorem Refused.unknown {call : Call} : s.Refused call .unknown s where
  after := by cases call <;> rfl
  cause := .inl rfl

/-- Work of an arena that cannot fail is refused only where there is no such arena. -/
theorem refused_onArena {α : Type} {call : Call} {refusal : Refusal} {id : ArenaId}
    {work : Metered Arena → Outcome α × Metered Arena}
    (hwork : ∀ m, ∃ result, (work m).1 = .ok result)
    (h : (s.onArena id work).1 = .error refusal) :
    s.Refused call refusal (s.onArena id work).2 := by
  cases harena : s.arena? id with
  | none =>
    rw [unknown_onArena harena] at h ⊢
    obtain rfl := Except.error.inj h
    exact .unknown
  | some arena =>
    obtain ⟨account, hslot⟩ := arena?_eq_some.1 harena
    obtain ⟨result, hresult⟩ := hwork { subject := arena, counters := s.counters account }
    simp only [onArena, hslot, hresult, reduceCtorEq] at h

/-- A request that was refused named no arena to work with or had no room, and changed nothing.
-/
theorem refused_alloc {refusal : Refusal} {id : ArenaId} {size : UInt64}
    (h : (s.alloc id size).1 = .error refusal) :
    s.Refused (.alloc id size) refusal (s.alloc id size).2 := by
  cases harena : s.arena? id with
  | none =>
    unfold alloc at h ⊢
    rw [unknown_onArena harena] at h ⊢
    obtain rfl := Except.error.inj h
    exact .unknown
  | some arena =>
    obtain ⟨account, hslot⟩ := arena?_eq_some.1 harena
    rw [alloc_eq hslot] at h ⊢
    cases hplace : arena.place size with
    | ok region =>
      rw [hplace] at h
      cases h
    | error failure =>
      rw [hplace] at h
      obtain rfl := Except.error.inj h
      obtain ⟨hfull, rfl⟩ := (arena.place_eq_error_iff size failure).1 hplace
      refine ⟨?_, .inr (.inl (.noRoom hslot hfull))⟩
      simp only [Arena.move, Arena.announced, hplace]
      exact place_self hslot

/-- A creation that was refused named no heap or got no memory from the host, and changed
nothing. -/
theorem refused_createObject {refusal : Refusal} {id : HeapId} {size : UInt64}
    (h : (s.createObject id size).1 = .error refusal) :
    s.Refused (.create id size) refusal (s.createObject id size).2 := by
  cases hheap : s.heaps[id]? with
  | none =>
    unfold createObject at h ⊢
    rw [onHeap_of_none hheap] at h ⊢
    obtain rfl := Except.error.inj h
    exact .unknown
  | some heap =>
    rw [createObject_eq hheap] at h ⊢
    split at h
    · cases h
    · rename_i hrefused
      obtain rfl := Except.error.inj h
      rw [if_neg hrefused]
      exact ⟨rfl, .inr (.inl (.noBlock hheap (Bool.eq_false_of_not_eq_true hrefused)))⟩

/-- A heap that does not find the object behind a token has to refuse it, if the token is not
dangling. -/
theorem cause_of_findOwn {call : Call} {id : HeapId} {heap : Heap} {token : TokenId}
    {found : Token} {violation : Violation} (hcall : call.handsOver? = some (id, token))
    (hheap : s.heaps[id]? = some heap) (htoken : s.token? token = some found)
    (hfind : s.store.findOwn heap.number found = .error violation) :
    s.Fails call (.violated violation) ∨
      Refusal.violated violation = .violated .danglingToken ∧ s.Dangling := by
  obtain ⟨k, maker, rfl, ⟨hmaker, rfl⟩ | ⟨hgone, rfl⟩⟩ := Store.findOwn_eq_error hfind
  · exact .inl (.foreign hcall hheap htoken hmaker)
  · exact .inr ⟨rfl, token, k, maker, htoken, hgone⟩

/-- A retain that was refused was handed what the heap does not own or met a full count, and
changed nothing. -/
theorem refused_retain {refusal : Refusal} {id : HeapId} {token : TokenId}
    (h : (s.retain id token).1 = .error refusal) :
    s.Refused (.retain id token) refusal (s.retain id token).2 := by
  by_cases hknown : s.heaps[id]? = none ∨ s.token? token = none
  · rw [retain_of_none hknown] at h ⊢
    obtain rfl := Except.error.inj h
    exact .unknown
  · obtain ⟨heap, found, hheap, htoken⟩ := exists_of_known hknown
    rw [retain_eq hheap htoken] at h ⊢
    rcases hfind : s.store.findOwn heap.number found with violation | _ | ⟨k, object⟩
    · simp only [hfind] at h ⊢
      obtain rfl := Except.error.inj h
      exact ⟨rfl, .inr (cause_of_findOwn rfl hheap htoken hfind)⟩
    · simp only [hfind, reduceCtorEq] at h
    · obtain ⟨rfl, hobject⟩ := Store.findOwn_eq_some hfind
      simp only [hfind] at h ⊢
      split at h
      · rename_i hmax
        obtain rfl := Except.error.inj h
        rw [if_pos hmax]
        exact ⟨rfl, .inr (.inl (.full hheap htoken hobject hmax))⟩
      · cases h

/-- A release that was refused was handed what the heap does not own, and nothing changed but
that a held token is lost. -/
theorem refused_release {refusal : Refusal} {id : HeapId} {token : TokenId}
    (h : (s.release id token).1 = .error refusal) :
    s.Refused (.release id token) refusal (s.release id token).2 := by
  by_cases hknown : s.heaps[id]? = none ∨ s.token? token = none
  · rw [release_of_none hknown] at h ⊢
    obtain rfl := Except.error.inj h
    exact .unknown
  · obtain ⟨heap, found, hheap, htoken⟩ := exists_of_known hknown
    rw [release_eq hheap htoken] at h ⊢
    rcases hfind : s.store.findOwn heap.number found with violation | _ | ⟨k, object⟩
    · simp only [hfind] at h ⊢
      obtain rfl := Except.error.inj h
      exact ⟨rfl, .inr (cause_of_findOwn rfl hheap htoken hfind)⟩
    · simp only [hfind, reduceCtorEq] at h
    · simp only [hfind] at h
      split at h <;> cases h

/-- A write of a payload that was refused was handed what the heap does not own, and changed
nothing. -/
theorem refused_editPayload {refusal : Refusal} {id : HeapId} {token : TokenId} {edit : Edit}
    (h : (s.editPayload id token edit).1 = .error refusal) :
    s.Refused (.edit id token edit) refusal (s.editPayload id token edit).2 := by
  by_cases hknown : s.heaps[id]? = none ∨ s.token? token = none
  · rw [editPayload_of_none hknown] at h ⊢
    obtain rfl := Except.error.inj h
    exact .unknown
  · obtain ⟨heap, found, hheap, htoken⟩ := exists_of_known hknown
    rw [editPayload_eq hheap htoken] at h ⊢
    rcases hfind : s.store.findOwn heap.number found with violation | _ | ⟨k, object⟩
    · simp only [hfind] at h ⊢
      obtain rfl := Except.error.inj h
      exact ⟨rfl, .inr (cause_of_findOwn rfl hheap htoken hfind)⟩
    · simp only [hfind, reduceCtorEq] at h
    · simp only [hfind, reduceCtorEq] at h

/-- A read of a payload that was refused was handed what the heap does not own. -/
theorem refused_payload {refusal : Refusal} {id : HeapId} {token : TokenId}
    (h : s.payload id token = .error refusal) : s.Refused (.payload id token) refusal s := by
  unfold payload at h
  by_cases hknown : s.heaps[id]? = none ∨ s.token? token = none
  · rw [inspect_of_none hknown] at h
    obtain rfl := Except.error.inj h
    exact .unknown
  · obtain ⟨heap, found, hheap, htoken⟩ := exists_of_known hknown
    rw [inspect_eq hheap htoken, Store.payload] at h
    cases hfind : s.store.findOwn heap.number found with
    | error violation =>
      rw [hfind] at h
      obtain rfl := Except.error.inj h
      exact ⟨rfl, .inr (cause_of_findOwn rfl hheap htoken hfind)⟩
    | ok entry =>
      rw [hfind] at h
      cases h

/-- A question that any heap may be asked about a token is refused only if the token is not
there, or dangling. -/
theorem refused_inspect {α : Type} {call : Call} {refusal : Refusal} {id : HeapId}
    {token : TokenId} {answer : Option (ObjectId × Object) → α}
    (hafter : ∀ violation, s.afterRefusal call (.violated violation) = s)
    (h : s.inspect id token (fun _ store token => (store.find token).map answer) =
      .error refusal) : s.Refused call refusal s := by
  by_cases hknown : s.heaps[id]? = none ∨ s.token? token = none
  · rw [inspect_of_none hknown] at h
    obtain rfl := Except.error.inj h
    exact .unknown
  · obtain ⟨heap, found, hheap, htoken⟩ := exists_of_known hknown
    rw [inspect_eq hheap htoken] at h
    cases hfind : s.store.find found with
    | error violation =>
      rw [hfind] at h
      obtain rfl := Except.error.inj h
      obtain ⟨k, maker, rfl, hgone, rfl⟩ := Store.find_eq_error hfind
      exact ⟨(hafter _).symm, .inr (.inr ⟨rfl, token, k, maker, htoken, hgone⟩)⟩
    | ok entry =>
      rw [hfind] at h
      cases h

/-- A new arena is refused when its account is not open or when it could not be built. -/
theorem refused_placeArena {call : Call} {refusal : Refusal} {built : Except Violation Arena}
    {account : AccountId} (hafter : ∀ violation, s.afterRefusal call (.violated violation) = s)
    (hfails : ∀ violation, account < s.accounts.size → built = .error violation →
      s.Fails call (.violated violation))
    (h : (s.placeArena built account).1 = .error refusal) :
    s.Refused call refusal (s.placeArena built account).2 := by
  unfold placeArena at h ⊢
  split at h
  · rename_i hopen
    rw [if_pos hopen]
    cases built with
    | error violation =>
      obtain rfl := Except.error.inj h
      exact ⟨(hafter violation).symm, .inr (.inl (hfails violation hopen rfl))⟩
    | ok arena => cases h
  · rename_i hclosed
    obtain rfl := Except.error.inj h
    rw [if_neg hclosed]
    exact .unknown

/-- A context is refused for its capacity, which is zero or beyond any buffer. -/
theorem refused_createContext {refusal : Refusal} {configuration : Configuration}
    (h : (s.createContext configuration).1 = .error refusal) :
    s.Refused (.createContext configuration) refusal (s.createContext configuration).2 := by
  unfold createContext Configuration.validate at h ⊢
  by_cases hzero : configuration.capacity = 0
  · simp only [hzero, if_true] at h ⊢
    obtain rfl := Except.error.inj h
    exact ⟨rfl, .inr (.inl (.zeroContext hzero))⟩
  · simp only [hzero, if_false] at h ⊢
    unfold buildContext at h ⊢
    rw [Arena.create_eq] at h ⊢
    by_cases hfits : roundUp configuration.capacity.toNat ≤ Arena.maxBufferSize
    · simp only [hfits, if_true, reduceCtorEq] at h
    · simp only [hfits, if_false] at h ⊢
      obtain rfl := Except.error.inj h
      exact ⟨rfl, .inr (.inl (.hugeContext (Nat.lt_of_not_le hfits)))⟩

/-- What it takes for a call to be refused, and how it leaves the system then. -/
theorem refused_perform {call : Call} {refusal : Refusal} (hbatch : call.isBatch = false)
    (h : (s.perform call).1 = .error refusal) :
    s.Refused call refusal (s.perform call).2 := by
  cases call with
  | openAccount | makeNull | lose token | dropArena id | changeHost host => cases h
  | createArena capacity account =>
    refine refused_placeArena (fun _ => rfl) ?_ (fst_report_eq_error.1 h)
    intro violation hopen hbuilt
    rw [Arena.create_eq] at hbuilt
    split at hbuilt
    · cases hbuilt
    · rename_i hhuge
      obtain rfl := Except.error.inj hbuilt
      exact .hugeArena hopen (Nat.lt_of_not_le hhuge)
  | lendArena units capacity account =>
    refine refused_placeArena (fun _ => rfl) ?_ (fst_report_eq_error.1 h)
    intro violation hopen hbuilt
    unfold Arena.ofUnits Arena.ofBytes at hbuilt
    rw [Bytes.size_ofUnits] at hbuilt
    split at hbuilt
    · cases hbuilt
    · rename_i hsmall
      obtain rfl := Except.error.inj hbuilt
      exact .smallBuffer hopen (Nat.lt_of_not_le hsmall)
  | alloc id size => exact refused_alloc (fst_report_eq_error.1 h)
  | restore id target =>
    exact refused_onArena (fun _ => ⟨_, rfl⟩) (fst_report_eq_error.1 h)
  | reset id => exact refused_onArena (fun _ => ⟨_, rfl⟩) (fst_report_eq_error.1 h)
  | write id region edit => exact refused_onArena (fun _ => ⟨_, rfl⟩) (fst_report_eq_error.1 h)
  | replay id sizes => exact refused_onArena (fun _ => ⟨_, rfl⟩) (fst_report_eq_error.1 h)
  | sumBatch id samples => cases hbatch
  | checkpoint id =>
    replace h := fst_report_eq_error.1 h
    simp only [checkpoint] at h
    split at h
    · obtain rfl := Except.error.inj h
      exact .unknown
    · cases h
  | read id region =>
    replace h := fst_report_eq_error.1 h
    simp only [read] at h
    split at h
    · obtain rfl := Except.error.inj h
      exact .unknown
    · cases h
  | giveBack id =>
    replace h := fst_report_eq_error.1 h
    show s.Refused _ refusal (s.giveBack id).2
    cases harena : s.arena? id with
    | none =>
      rw [giveBack_of_none harena] at h ⊢
      obtain rfl := Except.error.inj h
      exact .unknown
    | some arena =>
      obtain ⟨account, hslot⟩ := arena?_eq_some.1 harena
      rw [giveBack_eq hslot] at h
      cases h
  | openHeap account =>
    replace h := fst_report_eq_error.1 h
    show s.Refused _ refusal (s.openHeap account).2
    unfold openHeap at h ⊢
    split at h
    · cases h
    · rename_i hclosed
      obtain rfl := Except.error.inj h
      rw [if_neg hclosed]
      exact .unknown
  | create heap size => exact refused_createObject (fst_report_eq_error.1 h)
  | retain heap token => exact refused_retain (fst_report_eq_error.1 h)
  | release heap token => exact refused_release (fst_report_eq_error.1 h)
  | edit heap token edit => exact refused_editPayload (fst_report_eq_error.1 h)
  | payload heap token => exact refused_payload (fst_report_eq_error.1 h)
  | references heap token => exact refused_inspect (fun _ => rfl) (fst_report_eq_error.1 h)
  | size heap token => exact refused_inspect (fun _ => rfl) (fst_report_eq_error.1 h)
  | sameObject a b =>
    replace h := fst_report_eq_error.1 h
    simp only [sameObject] at h
    split at h
    · cases h
    · obtain rfl := Except.error.inj h
      exact .unknown
  | createContext configuration => exact refused_createContext (fst_report_eq_error.1 h)
  | createDefaultContext =>
    have hfits : roundUp Configuration.default.capacity.toNat ≤ Arena.maxBufferSize := by decide
    simp only [perform, fst_report_eq_error, buildContext, Arena.create_eq, hfits, if_true,
      reduceCtorEq] at h

/-- A foreign token is named together with both heaps before its object is looked at. -/
theorem findOwn_of_foreign (store : Store) {heap maker : UInt64} (h : maker ≠ heap) (k : ObjectId) :
    store.findOwn heap (.reference k maker) = .error (.foreignToken maker heap) := by
  simp only [Store.findOwn, h, if_false]

/-- An arena that could not be built is refused on every open account. -/
theorem fst_placeArena {violation : Violation} {account : AccountId}
    (hopen : account < s.accounts.size) :
    (s.placeArena (.error violation) account).1 = .error (.violated violation) := by
  unfold placeArena
  rw [if_pos hopen]

/-- No batch is among the calls that fail as a whole. -/
theorem Fails.isBatch_eq {call : Call} {refusal : Refusal} (h : s.Fails call refusal) :
    call.isBatch = false := by
  cases h with
  | foreign hcall => cases call <;> simp_all [Call.handsOver?, Call.isBatch]
  | _ => rfl

/-- What names only what there is does not fail for naming something else. -/
theorem Fails.ne_unknown {call : Call} {refusal : Refusal} (h : s.Fails call refusal) :
    refusal ≠ .unknown := by
  cases h <;> simp

/-- What has to fail is refused. -/
theorem Fails.fst_perform {call : Call} {refusal : Refusal} (h : s.Fails call refusal) :
    (s.perform call).1 = .error refusal := by
  cases h with
  | @noRoom id account arena size hslot hfull =>
    have hplace := (arena.place_eq_error_iff size _).2 ⟨hfull, rfl⟩
    rw [perform, fst_report_eq_error, alloc_eq hslot, hplace]
    rfl
  | noBlock hheap hrefused =>
    rw [perform, fst_report_eq_error, createObject_eq hheap, hrefused]
    rfl
  | @foreign _ id heap token k maker hcall hheap htoken hmaker =>
    have hfind := findOwn_of_foreign s.store hmaker k
    cases call with
    | retain id' token' =>
      obtain ⟨rfl, rfl⟩ := Prod.mk.inj (Option.some.inj hcall)
      rw [perform, fst_report_eq_error, retain_eq hheap htoken, hfind]
    | release id' token' =>
      obtain ⟨rfl, rfl⟩ := Prod.mk.inj (Option.some.inj hcall)
      rw [perform, fst_report_eq_error, release_eq hheap htoken, hfind]
    | payload id' token' =>
      obtain ⟨rfl, rfl⟩ := Prod.mk.inj (Option.some.inj hcall)
      rw [perform, fst_report_eq_error, payload, inspect_eq hheap htoken, Store.payload, hfind]
      rfl
    | edit id' token' edit =>
      obtain ⟨rfl, rfl⟩ := Prod.mk.inj (Option.some.inj hcall)
      rw [perform, fst_report_eq_error, editPayload_eq hheap htoken, hfind]
    | _ => cases hcall
  | full hheap htoken hobject hmax =>
    rw [perform, fst_report_eq_error, retain_eq hheap htoken, Store.findOwn_of_object? hobject]
    simp only [hmax, if_true]
  | @smallBuffer units capacity account hopen hsmall =>
    have hbuilt : Arena.ofUnits units capacity =
        .error (.capacityBeyondBuffer capacity.toNat (8 * units.size)) := by
      rw [Arena.ofUnits, Arena.ofBytes, Bytes.size_ofUnits, if_neg (Nat.not_le_of_lt hsmall)]
    rw [perform, fst_report_eq_error, lendArena, hbuilt]
    exact fst_placeArena hopen
  | @hugeArena capacity account hopen hhuge =>
    rw [perform, fst_report_eq_error, createArena, Arena.create_eq,
      if_neg (Nat.not_le_of_lt hhuge)]
    exact fst_placeArena hopen
  | @hugeContext configuration hhuge =>
    have hsome : configuration.capacity ≠ 0 := by
      intro hzero
      simp [hzero, roundUp] at hhuge
    rw [perform, fst_report_eq_error, createContext, Configuration.validate, if_neg hsome]
    simp only [buildContext]
    rw [Arena.create_eq, if_neg (Nat.not_le_of_lt hhuge)]
  | zeroContext hzero =>
    rw [perform, fst_report_eq_error, createContext, Configuration.validate, if_pos hzero]

/-- A held token keeps the count of its object positive, so no held token dangles. -/
theorem Counted.not_dangling (hc : s.Counted) : ¬ s.Dangling := by
  rintro ⟨token, k, maker, htoken, hgone⟩
  obtain ⟨object, hobject⟩ :=
    hc.exists_object (Nat.add_pos_left (tokensTo_pos htoken rfl) _)
  rw [hgone] at hobject
  cases hobject

end System

end Allotment

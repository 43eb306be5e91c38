import Allotment.Proofs.System.Refusals

set_option autoImplicit false

/-!
A run without its failed calls gets the same answers as with them. The two systems go side
by side: they are the same all the time, except that a token which a failed release took
away is still held where that release was never made. No later call of the first run can
name this token and succeed, so no answer tells them apart.
-/

namespace Allotment

/-- Whether a call failed with that outcome. A batch has carried out some of its calls even if
it fails. -/
def Call.failed (call : Call) (outcome : Outcome CallResult) : Bool :=
  !call.isBatch && !outcome.isOk

namespace Action

mutual

/-- What is left of an action and its reply without the calls that failed: nothing of a call
that failed or of a scope that was not entered. -/
def spared : Action → ActionReply → List (Action × ActionReply)
  | .call single, .call outcome =>
    if single.failed outcome then [] else [(.call single, .call outcome)]
  | .scope arena body abandoned, .scope inner =>
    [(.scope arena ((allSpared body inner).map Prod.fst) abandoned,
      .scope ((allSpared body inner).map Prod.snd))]
  | _, _ => []

def allSpared : List Action → List ActionReply → List (Action × ActionReply)
  | action :: rest, reply :: replies => action.spared reply ++ allSpared rest replies
  | _, _ => []

end

mutual

/-- The calls of an action with their outcomes. -/
def answers : Action → ActionReply → List (Call × Outcome CallResult)
  | .call single, .call outcome => [(single, outcome)]
  | .scope _ body _, .scope inner => allAnswers body inner
  | _, _ => []

def allAnswers : List Action → List ActionReply → List (Call × Outcome CallResult)
  | action :: rest, reply :: replies => action.answers reply ++ allAnswers rest replies
  | _, _ => []

end

end Action

namespace System

/-- Two systems that are the same, except that some tokens which are lost in the first one
are still held in the second one. -/
structure Spares (lost : TokenId → Prop) (s t : System) : Prop where
  same : t = { s with tokens := t.tokens }
  size : t.tokens.size = s.tokens.size
  slots : ∀ {id : TokenId} {slot : TokenSlot}, s.tokens[id]? = some slot →
    t.tokens[id]? = some slot ∨
      lost id ∧ slot.holding = .lost ∧ t.tokens[id]? = some { slot with holding := .held }

variable {lost : TokenId → Prop} {s t : System}

/-- Work on an arena does not look at the tokens. -/
theorem onArena_withTokens {α : Type} (s : System) (tokens : Array TokenSlot) (id : ArenaId)
    (work : Metered Arena → Outcome α × Metered Arena) :
    ({ s with tokens } : System).onArena id work =
      ((s.onArena id work).1, { (s.onArena id work).2 with tokens }) := by
  unfold onArena
  rcases s.arenas[id]? with _ | ⟨_ | arena, account, _ | _⟩ <;> rfl

/-- Work on an arena leaves the tokens alone. -/
theorem tokens_onArena {α : Type} (s : System) (id : ArenaId)
    (work : Metered Arena → Outcome α × Metered Arena) :
    (s.onArena id work).2.tokens = s.tokens := by
  unfold onArena
  rcases s.arenas[id]? with _ | ⟨_ | arena, account, _ | _⟩ <;> rfl

/-- Placing an arena does not look at the tokens. -/
theorem placeArena_withTokens (s : System) (tokens : Array TokenSlot)
    (built : Except Violation Arena) (account : AccountId) :
    ({ s with tokens } : System).placeArena built account =
      ((s.placeArena built account).1, { (s.placeArena built account).2 with tokens }) := by
  unfold placeArena
  by_cases hopen : account < s.accounts.size
  · simp only [hopen, if_true]
    cases built <;> rfl
  · simp only [hopen, if_false]

namespace Spares

/-- A system spares itself every loss. -/
theorem refl (s : System) : Spares lost s s :=
  ⟨rfl, rfl, fun h => .inl h⟩

/-- Two systems that differ in lost tokens only are the same once their tokens are. -/
theorem withTokens (h : Spares lost s t) (tokens : Array TokenSlot) :
    { t with tokens } = { s with tokens } := by
  rw [h.same]

/-- A token that is held in the first system is held in the second one. -/
theorem token? (h : Spares lost s t) {id : TokenId} {token : Token}
    (htoken : s.token? id = some token) : t.token? id = some token := by
  rw [token?_eq_some] at htoken ⊢
  rcases h.slots htoken with hsame | ⟨-, hlost, -⟩
  · exact hsame
  · cases hlost

/-- A change on both sides that leaves the tokens alone keeps the difference as it is. -/
theorem of_eq_tokens (h : Spares lost s t) {after after' : System}
    (hafter : after' = { after with tokens := after'.tokens })
    (hs : after.tokens = s.tokens) (ht : after'.tokens = t.tokens) : Spares lost after after' where
  same := hafter
  size := by rw [hs, ht, h.size]
  slots {id slot} hslot := by
    rw [hs] at hslot
    rw [ht]
    exact h.slots hslot

/-- A new token is held on both sides under the same id. -/
theorem hold (h : Spares lost s t) (token : Token) :
    Spares lost (s.hold token).2 (t.hold token).2 where
  same := h.withTokens _
  size := by
    show (t.tokens.push _).size = (s.tokens.push _).size
    rw [Array.size_push, Array.size_push, h.size]
  slots {id slot} hslot := by
    replace hslot : (s.tokens.push { token })[id]? = some slot := hslot
    show (t.tokens.push { token })[id]? = some slot ∨ _ ∧ _ ∧ (t.tokens.push { token })[id]? = _
    rw [Array.getElem?_push, h.size]
    rw [Array.getElem?_push] at hslot
    split at hslot
    · rename_i hid
      rw [if_pos hid]
      exact .inl hslot
    · rename_i hid
      rw [if_neg hid]
      exact h.slots hslot

/-- A token that both systems hold is given up or lost in both. -/
theorem retire (h : Spares lost s t) {id : TokenId} {token : Token}
    (htoken : s.token? id = some token) (fate : Holding) :
    Spares lost (s.retire id fate) (t.retire id fate) where
  same := h.withTokens _
  size := by
    show (t.tokens.modify id _).size = (s.tokens.modify id _).size
    rw [Array.size_modify, Array.size_modify, h.size]
  slots {i slot} hslot := by
    have hs := token?_eq_some.1 htoken
    have ht := token?_eq_some.1 (h.token? htoken)
    replace hslot :
        (s.tokens.modify id fun slot => { slot with holding := fate })[i]? = some slot := hslot
    show (t.tokens.modify id fun slot => { slot with holding := fate })[i]? = some slot ∨
      _ ∧ _ ∧ (t.tokens.modify id fun slot => { slot with holding := fate })[i]? = _
    rw [Array.getElem?_modify] at hslot ⊢
    split at hslot
    · rename_i hi
      subst hi
      rw [if_pos rfl, ht]
      rw [hs] at hslot
      exact .inl hslot
    · rename_i hi
      rw [if_neg hi]
      exact h.slots hslot

/-- A token that only the first system loses is one that the second one may go on holding. -/
theorem retire_left (h : Spares lost s t) {id : TokenId} {token : Token}
    (htoken : s.token? id = some token) (hlost : lost id) :
    Spares lost (s.retire id .lost) t where
  same := h.same
  size := by
    show _ = (s.tokens.modify id _).size
    rw [Array.size_modify, h.size]
  slots {i slot} hslot := by
    have hs := token?_eq_some.1 htoken
    have ht := token?_eq_some.1 (h.token? htoken)
    replace hslot :
        (s.tokens.modify id fun slot => { slot with holding := .lost })[i]? = some slot := hslot
    rw [Array.getElem?_modify] at hslot
    split at hslot
    · rename_i hi
      subst hi
      rw [hs] at hslot
      obtain rfl := Option.some.inj hslot
      exact .inr ⟨hlost, rfl, ht⟩
    · exact h.slots hslot

/-- A token is lost in both systems, if it is not so already in the first one. -/
theorem lose (h : Spares lost s t) (id : TokenId) : Spares lost (s.lose id) (t.lose id) := by
  cases hs : s.token? id with
  | some token =>
    have ht := h.token? hs
    simp only [System.lose, hs, ht]
    exact h.retire hs .lost
  | none =>
    cases ht : t.token? id with
    | none =>
      simp only [System.lose, hs, ht]
      exact h
    | some token =>
      simp only [System.lose, hs, ht]
      refine ⟨h.withTokens _, ?_, ?_⟩
      · show (t.tokens.modify id _).size = _
        rw [Array.size_modify, h.size]
      · intro i slot hslot
        have held := token?_eq_some.1 ht
        show (t.tokens.modify id fun slot => { slot with holding := .lost })[i]? = some slot ∨
          _ ∧ _ ∧ (t.tokens.modify id fun slot => { slot with holding := .lost })[i]? = _
        rw [Array.getElem?_modify]
        split
        · rename_i hi
          subst hi
          rcases h.slots hslot with hsame | ⟨-, hholding, hother⟩
          · rw [held] at hsame
            obtain rfl := Option.some.inj hsame
            rw [token?_eq_some.2 hslot] at hs
            cases hs
          · rw [held] at hother
            obtain ⟨rfl⟩ := TokenSlot.mk.inj (Option.some.inj hother)
            obtain ⟨token, holding⟩ := slot
            obtain rfl : holding = .lost := hholding
            rw [held]
            exact .inl rfl
        · exact h.slots hslot

end Spares

/-- Two calls come to the same, on systems that differ in lost tokens only. -/
def Agree {α : Type} (lost : TokenId → Prop) (x y : Outcome α × System) : Prop :=
  y.1 = x.1 ∧ Spares lost x.2 y.2

/-- Outcomes that agree are reported as answers that agree. -/
theorem Agree.report {α : Type} {x y : Outcome α × System} (h : Agree lost x y)
    (result : α → CallResult) : Agree lost (report result x) (System.report result y) :=
  ⟨congrArg (Except.map result) h.1, h.2⟩

/-- A call that neither looks at tokens nor changes any comes to the same. -/
theorem Spares.agree (h : Spares lost s t) {α : Type} (f : System → Outcome α × System)
    (hf : ∀ tokens, f { s with tokens } = ((f s).1, { (f s).2 with tokens }))
    (htokens : (f s).2.tokens = s.tokens) : Agree lost (f s) (f t) := by
  have hsame := h.same
  unfold Agree
  rw [hsame, hf]
  exact ⟨rfl, h.of_eq_tokens rfl htokens rfl⟩

/-- Work on an arena comes to the same on both sides. -/
theorem Spares.agree_onArena (h : Spares lost s t) {α : Type} (id : ArenaId)
    (work : Metered Arena → Outcome α × Metered Arena) :
    Agree lost (s.onArena id work) (t.onArena id work) :=
  h.agree (fun s => s.onArena id work) (fun tokens => onArena_withTokens s tokens id work)
    (tokens_onArena s id work)

/-- Placing an arena comes to the same on both sides. -/
theorem Spares.agree_placeArena (h : Spares lost s t) (built : Except Violation Arena)
    (account : AccountId) :
    Agree lost (s.placeArena built account) (t.placeArena built account) := by
  apply h.agree fun s => s.placeArena built account
  · intro tokens
    exact placeArena_withTokens s tokens built account
  · unfold placeArena
    split
    · cases built <;> rfl
    · rfl

/-- Building a context comes to the same on both sides. -/
theorem Spares.agree_buildContext (h : Spares lost s t) (configuration : Configuration) :
    Agree lost (s.buildContext configuration) (t.buildContext configuration) := by
  apply h.agree fun s => s.buildContext configuration
  · intro tokens
    unfold buildContext
    cases Arena.create configuration.capacity <;> rfl
  · unfold buildContext
    cases Arena.create configuration.capacity <;> rfl

/-- Creating a context comes to the same on both sides. -/
theorem Spares.agree_createContext (h : Spares lost s t) (configuration : Configuration) :
    Agree lost (s.createContext configuration) (t.createContext configuration) := by
  unfold createContext
  cases configuration.validate with
  | error error => exact ⟨rfl, h⟩
  | ok _ => exact h.agree_buildContext configuration

/-- Opening a heap comes to the same on both sides, with the same id. -/
theorem Spares.agree_openHeap (h : Spares lost s t) (account : AccountId) :
    Agree lost (s.openHeap account) (t.openHeap account) := by
  apply h.agree fun s => s.openHeap account
  · intro tokens
    unfold openHeap
    by_cases hopen : account < s.accounts.size
    · simp only [hopen, if_true]
      rfl
    · simp only [hopen, if_false]
  · unfold openHeap
    split <;> rfl

/-- Giving a buffer back comes to the same on both sides. -/
theorem Spares.agree_giveBack (h : Spares lost s t) (id : ArenaId) :
    Agree lost (s.giveBack id) (t.giveBack id) := by
  apply h.agree fun s => s.giveBack id
  · intro tokens
    unfold giveBack
    rw [onArena_withTokens]
    rcases s.onArena id _ with ⟨_ | _, _⟩ <;> rfl
  · have htokens := tokens_onArena s id fun m => (Except.ok m.reset.subject.units, m.reset)
    unfold giveBack
    split <;> rename_i heq <;> rw [heq] at htokens <;> exact htokens

/-- Dropping an arena comes to the same on both sides. -/
theorem Spares.agree_dropArena (h : Spares lost s t) (id : ArenaId) :
    Agree lost (s.perform (.dropArena id)) (t.perform (.dropArena id)) := by
  apply h.agree fun s => s.perform (.dropArena id)
  · intro tokens
    simp only [perform, dropArena]
    cases harena : s.arena? id <;> simp only [arena?] at harena ⊢ <;> simp only [harena]
  · simp only [perform, dropArena]
    cases s.arena? id <;> rfl

/-- An object is created in both systems or in none, and its token is the next one in both. -/
theorem Spares.agree_createObject (h : Spares lost s t) (id : HeapId) (size : UInt64) :
    Agree lost (s.createObject id size) (t.createObject id size) := by
  obtain ⟨tokens, rfl⟩ : ∃ tokens, t = { s with tokens } := ⟨_, h.same⟩
  cases hheap : s.heaps[id]? with
  | none =>
    unfold createObject
    rw [onHeap_of_none hheap, onHeap_of_none (s := { s with tokens }) hheap]
    exact ⟨rfl, h⟩
  | some heap =>
    rw [createObject_eq hheap, createObject_eq (s := { s with tokens }) hheap]
    by_cases hserved : s.host.accepts size
    · have hmade : Spares lost
          ((s.addObject (Object.fresh size)).record (.heap id) heap.account [.created size])
          (((({ s with tokens } : System).addObject (Object.fresh size)).record (.heap id)
            heap.account [.created size])) := h.of_eq_tokens rfl rfl rfl
      simp only [hserved, if_true]
      exact ⟨congrArg Except.ok h.size, hmade.hold _⟩
    · rw [if_neg hserved, if_neg hserved]
      exact ⟨rfl, h⟩

/-- A retain that goes through does so in both systems. -/
theorem Spares.agree_retain (h : Spares lost s t) {id : HeapId} {token : TokenId}
    {result : TokenId} (hok : (s.retain id token).1 = .ok result) :
    Agree lost (s.retain id token) (t.retain id token) := by
  by_cases hknown : s.heaps[id]? = none ∨ s.token? token = none
  · rw [retain_of_none hknown] at hok
    cases hok
  · obtain ⟨heap, found, hheap, htoken⟩ := exists_of_known hknown
    have hother := h.token? htoken
    obtain ⟨tokens, rfl⟩ : ∃ tokens, t = { s with tokens } := ⟨_, h.same⟩
    rw [retain_eq hheap htoken] at hok ⊢
    rw [retain_eq (s := { s with tokens }) hheap hother]
    rcases hfind : s.store.findOwn heap.number found with violation | _ | ⟨k, object⟩
    · simp only [hfind, reduceCtorEq] at hok
    · simp only
      exact ⟨congrArg Except.ok h.size, h.hold .null⟩
    · have hput : ∀ next, Spares lost (s.putObject k next)
          (({ s with tokens } : System).putObject k next) := fun _ => h.of_eq_tokens rfl rfl rfl
      simp only [hfind] at hok ⊢
      split at hok
      · cases hok
      · rename_i hmax
        rw [if_neg hmax, if_neg hmax]
        exact ⟨congrArg Except.ok h.size, (hput _).hold found⟩

/-- A release that goes through does so in both systems. -/
theorem Spares.agree_release (h : Spares lost s t) {id : HeapId} {token : TokenId}
    (hok : (s.release id token).1 = .ok ()) :
    Agree lost (s.release id token) (t.release id token) := by
  by_cases hknown : s.heaps[id]? = none ∨ s.token? token = none
  · rw [release_of_none hknown] at hok
    cases hok
  · obtain ⟨heap, found, hheap, htoken⟩ := exists_of_known hknown
    have hother := h.token? htoken
    obtain ⟨tokens, rfl⟩ : ∃ tokens, t = { s with tokens } := ⟨_, h.same⟩
    rw [release_eq hheap htoken] at hok ⊢
    rw [release_eq (s := { s with tokens }) hheap hother]
    rcases hfind : s.store.findOwn heap.number found with violation | _ | ⟨k, object⟩
    · simp only [hfind, reduceCtorEq] at hok
    · exact ⟨rfl, h.retire htoken .released⟩
    · have hput : ∀ next, Spares lost (s.putObject k next)
          (({ s with tokens } : System).putObject k next) := fun _ => h.of_eq_tokens rfl rfl rfl
      have hrecord : Spares lost
          ((s.putObject k none).record (.heap id) heap.account [.destroyed object.size])
          ((({ s with tokens } : System).putObject k none).record (.heap id) heap.account
            [.destroyed object.size]) := h.of_eq_tokens rfl rfl rfl
      simp only
      by_cases hlast : object.references - 1 = 0
      · rw [if_pos hlast, if_pos hlast]
        exact ⟨rfl, hrecord.retire htoken .released⟩
      · rw [if_neg hlast, if_neg hlast]
        exact ⟨rfl, (hput _).retire htoken .released⟩

/-- A payload that is written on one side is written on the other, where the token is held too.
-/
theorem Spares.agree_editPayload (h : Spares lost s t) {id : HeapId} {token : TokenId}
    {edit : Edit} {result : Bytes} (hok : (s.editPayload id token edit).1 = .ok result) :
    Agree lost (s.editPayload id token edit) (t.editPayload id token edit) := by
  by_cases hknown : s.heaps[id]? = none ∨ s.token? token = none
  · rw [editPayload_of_none hknown] at hok
    cases hok
  · obtain ⟨heap, found, hheap, htoken⟩ := exists_of_known hknown
    have hother := h.token? htoken
    obtain ⟨tokens, rfl⟩ : ∃ tokens, t = { s with tokens } := ⟨_, h.same⟩
    rw [editPayload_eq hheap htoken, editPayload_eq (s := { s with tokens }) hheap hother]
    rcases hfind : s.store.findOwn heap.number found with violation | _ | ⟨k, object⟩
    · exact ⟨rfl, h⟩
    · exact ⟨rfl, h⟩
    · exact ⟨rfl, h.of_eq_tokens rfl rfl rfl⟩

/-- A question about a token that is answered gets the same answer in both systems. -/
theorem Spares.inspect_eq (h : Spares lost s t) {α : Type} {id : HeapId} {token : TokenId}
    {question : UInt64 → Store → Token → Except Violation α} {result : α}
    (hok : s.inspect id token question = .ok result) :
    t.inspect id token question = s.inspect id token question := by
  by_cases hknown : s.heaps[id]? = none ∨ s.token? token = none
  · rw [inspect_of_none hknown] at hok
    cases hok
  · obtain ⟨heap, found, hheap, htoken⟩ := exists_of_known hknown
    have hother := h.token? htoken
    obtain ⟨tokens, rfl⟩ : ∃ tokens, t = { s with tokens } := ⟨_, h.same⟩
    rw [System.inspect_eq hheap htoken, System.inspect_eq (s := { s with tokens }) hheap hother]

/-- Two tokens that can be compared on one side compare the same on the other. -/
theorem Spares.sameObject_eq (h : Spares lost s t) {a b : TokenId} {result : Bool}
    (hok : s.sameObject a b = .ok result) : t.sameObject a b = s.sameObject a b := by
  unfold sameObject at hok ⊢
  cases ha : s.token? a with
  | none => simp only [ha, reduceCtorEq] at hok
  | some first =>
    cases hb : s.token? b with
    | none => simp only [ha, hb, reduceCtorEq] at hok
    | some second => simp only [h.token? ha, h.token? hb]

/-- A call that is answered came to a value. -/
theorem fst_report_eq_ok {α : Type} {result : α → CallResult} {outcome : Outcome α × System}
    {reply : CallResult} (h : (report result outcome).1 = .ok reply) :
    ∃ value, outcome.1 = .ok value := by
  obtain ⟨_ | value, _⟩ := outcome
  · cases h
  · exact ⟨value, rfl⟩

/-- A call that is carried out comes to the same in both systems. -/
theorem Spares.agree_perform (h : Spares lost s t) {call : Call} {reply : CallResult}
    (hok : (s.perform call).1 = .ok reply) : Agree lost (s.perform call) (t.perform call) := by
  cases call with
  | openAccount =>
    have hsame := h.same
    exact ⟨by rw [hsame]; rfl, h.of_eq_tokens (by rw [hsame]; rfl) rfl rfl⟩
  | createArena capacity account => exact (h.agree_placeArena _ _).report _
  | lendArena units capacity account => exact (h.agree_placeArena _ _).report _
  | alloc id size => exact (h.agree_onArena _ _).report _
  | restore id target => exact (h.agree_onArena _ _).report _
  | reset id => exact (h.agree_onArena _ _).report _
  | write id region edit => exact (h.agree_onArena _ _).report _
  | replay id sizes => exact (h.agree_onArena _ _).report _
  | sumBatch id samples => exact (h.agree_onArena _ _).report _
  | giveBack id => exact (h.agree_giveBack id).report _
  | dropArena id => exact h.agree_dropArena id
  | checkpoint id =>
    have hsame : t.checkpoint id = s.checkpoint id := by
      rw [h.same]
      rfl
    exact Agree.report (x := (s.checkpoint id, s)) ⟨hsame, h⟩ _
  | read id region =>
    have hsame : t.read id region = s.read id region := by
      rw [h.same]
      rfl
    exact Agree.report (x := (s.read id region, s)) ⟨hsame, h⟩ _
  | openHeap account => exact (h.agree_openHeap account).report _
  | makeNull => exact ⟨by simp only [perform, makeNull, System.hold, h.size], h.hold .null⟩
  | create id size => exact (h.agree_createObject id size).report _
  | retain id token =>
    obtain ⟨value, hvalue⟩ := fst_report_eq_ok hok
    exact (h.agree_retain hvalue).report _
  | release id token =>
    obtain ⟨value, hvalue⟩ := fst_report_eq_ok hok
    exact (h.agree_release hvalue).report _
  | lose id => exact ⟨rfl, h.lose id⟩
  | references id token =>
    obtain ⟨value, hvalue⟩ := fst_report_eq_ok hok
    exact Agree.report (x := (s.references id token, s)) ⟨h.inspect_eq hvalue, h⟩ _
  | size id token =>
    obtain ⟨value, hvalue⟩ := fst_report_eq_ok hok
    exact Agree.report (x := (s.objectSize id token, s)) ⟨h.inspect_eq hvalue, h⟩ _
  | payload id token =>
    obtain ⟨value, hvalue⟩ := fst_report_eq_ok hok
    have hsame : t.payload id token = s.payload id token := h.inspect_eq hvalue
    exact Agree.report (x := (s.payload id token, s)) ⟨hsame, h⟩ _
  | edit id token edit =>
    obtain ⟨value, hvalue⟩ := fst_report_eq_ok hok
    exact (h.agree_editPayload hvalue).report _
  | sameObject a b =>
    obtain ⟨value, hvalue⟩ := fst_report_eq_ok hok
    exact Agree.report (x := (s.sameObject a b, s)) ⟨h.sameObject_eq hvalue, h⟩ _
  | createContext configuration => exact (h.agree_createContext configuration).report _
  | createDefaultContext => exact (h.agree_buildContext Configuration.default).report _
  | changeHost host => exact ⟨rfl, h.of_eq_tokens (by rw [h.same]; rfl) rfl rfl⟩

/-- A call that is kept comes to the same on both sides: it is carried out, or it is a batch,
which looks at no token. -/
theorem Spares.agree_of_not_failed (h : Spares lost s t) {call : Call}
    (hkept : call.failed (s.perform call).1 = false) :
    Agree lost (s.perform call) (t.perform call) := by
  cases houtcome : (s.perform call).1 with
  | ok reply => exact h.agree_perform houtcome
  | error refusal =>
    rw [houtcome] at hkept
    cases call with
    | sumBatch id samples => exact (h.agree_onArena _ _).report _
    | _ => cases hkept

/-- A call that fails leaves the systems side by side, if it is never made on the second one. -/
theorem Spares.of_failed (h : Spares lost s t) {call : Call} {outcome : Outcome CallResult}
    (houtcome : (s.perform call).1 = outcome) (hfailed : call.failed outcome = true)
    (hlost : ∀ heap id violation, call = .release heap id → outcome = .error (.violated violation) →
      lost id) : Spares lost (s.perform call).2 t := by
  obtain ⟨hbatch, herror⟩ : call.isBatch = false ∧ outcome.isOk = false := by
    simpa [Call.failed] using hfailed
  cases outcome with
  | ok reply => cases herror
  | error refusal =>
    have hrefused := refused_perform hbatch houtcome
    rw [hrefused.after]
    cases call with
    | release heap id =>
      cases refusal with
      | violated violation =>
        -- a release is refused for a violation only when its token is held
        cases htoken : s.token? id with
        | none =>
          rw [perform, fst_report_eq_error, release_of_none (.inr htoken)] at houtcome
          cases houtcome
        | some token => exact h.retire_left htoken (hlost heap id violation rfl rfl)
      | _ => exact h
    | _ => exact h

/-- Actions in two parts are run one part after the other. -/
theorem run_append (s : System) (first second : List Action) :
    s.run (first ++ second) =
      ((s.run first).1 ++ ((s.run first).2.run second).1, ((s.run first).2.run second).2) := by
  induction first generalizing s with
  | nil => rfl
  | cons action rest ih =>
    simp only [List.cons_append, run, ih]

mutual

/-- What is left of an action without its failed calls gets the same replies and keeps the
systems side by side. -/
theorem Spares.act {s t : System} (h : Spares lost s t) :
    ∀ action : Action,
      (∀ heap id violation, (.release heap id, .error (.violated violation)) ∈
        action.answers (s.act action).1 → lost id) →
      let kept := action.spared (s.act action).1
      (t.run (kept.map Prod.fst)).1 = kept.map Prod.snd ∧
        Spares lost (s.act action).2 (t.run (kept.map Prod.fst)).2
  | .call single, hlost => by
    have hreply : (s.act (.call single)).1 = .call (s.perform single).1 := rfl
    have hafter : (s.act (.call single)).2 = (s.perform single).2 := rfl
    rw [hreply, hafter]
    rw [hreply] at hlost
    simp only [Action.spared]
    split
    · rename_i hfailed
      refine ⟨rfl, h.of_failed rfl hfailed ?_⟩
      intro heap id violation hcall houtcome
      apply hlost heap id violation
      rw [hcall] at houtcome ⊢
      rw [houtcome]
      exact List.mem_singleton.2 rfl
    · rename_i hkept
      obtain ⟨hsame, hafter'⟩ := h.agree_of_not_failed (Bool.eq_false_of_not_eq_true hkept)
      exact ⟨congrArg (fun outcome => [ActionReply.call outcome]) hsame, hafter'⟩
  | .scope arena body abandoned, hlost => by
    have hmark : t.checkpoint arena = s.checkpoint arena := by
      rw [h.same]
      rfl
    cases htarget : s.checkpoint arena with
    | error refusal =>
      rw [act_scope_of_barred htarget]
      exact ⟨rfl, h⟩
    | ok target =>
      rw [act_scope_of_checkpoint htarget] at hlost ⊢
      -- the scope is entered on both sides, at the same checkpoint
      obtain ⟨hinner, hbody⟩ := h.run body hlost
      show (t.run [.scope arena _ abandoned]).1 = [.scope _] ∧ Spares lost _ (t.run [_]).2
      simp only [System.run, act_scope_of_checkpoint (hmark.trans htarget), hinner, true_and]
      cases abandoned with
      | true => exact hbody
      | false => exact (hbody.agree_onArena _ _).2

/-- A run and the same run without its failed calls get the same answers to the calls that are
left, and lead to systems that differ in the tokens of the failed releases only. -/
theorem Spares.run {s t : System} (h : Spares lost s t) :
    ∀ actions : List Action,
      (∀ heap id violation, (.release heap id, .error (.violated violation)) ∈
        Action.allAnswers actions (s.run actions).1 → lost id) →
      let kept := Action.allSpared actions (s.run actions).1
      (t.run (kept.map Prod.fst)).1 = kept.map Prod.snd ∧
        Spares lost (s.run actions).2 (t.run (kept.map Prod.fst)).2
  | [], _ => ⟨rfl, h⟩
  | action :: rest, hlost => by
    simp only [System.run, Action.allAnswers, List.mem_append] at hlost
    obtain ⟨hfirst, hnext⟩ := h.act action fun heap id violation hmem =>
      hlost heap id violation (.inl hmem)
    obtain ⟨hrest, hlast⟩ := hnext.run rest fun heap id violation hmem =>
      hlost heap id violation (.inr hmem)
    simp only [System.run, Action.allSpared, List.map_append, run_append, hfirst, hrest]
    exact ⟨trivial, hlast⟩

end

/-- In every attained system, a call that names what there is fails only for the reasons that
are listed, and for these it does fail. Whichever call fails, also for a name of nothing, all
is as it was before, but for the token of a failed release, which is lost. So a run gets the
same replies if all its failed calls are deleted from it, and leads to the same system, in
which only the tokens of failed releases are held that are lost otherwise. That is so
whatever the host refuses at whatever time, as the host may change anywhere in a run. -/
theorem failures_are_atomic (hs : s.Attained) :
    (∀ call refusal, s.Fails call refusal ↔
      call.isBatch = false ∧ refusal ≠ .unknown ∧ (s.perform call).1 = .error refusal) ∧
    (∀ call refusal, call.isBatch = false → (s.perform call).1 = .error refusal →
      (s.perform call).2 = s.afterRefusal call refusal) ∧
    ∀ actions : List Action,
      let replies := (s.run actions).1
      let kept := Action.allSpared actions replies
      let rerun := s.run (kept.map Prod.fst)
      let forfeited := fun id => ∃ heap violation,
        (.release heap id, .error (.violated violation)) ∈ Action.allAnswers actions replies
      rerun.1 = kept.map Prod.snd ∧ Spares forfeited (s.run actions).2 rerun.2 := by
  refine ⟨?_, ?_, ?_⟩
  · intro call refusal
    constructor
    · intro h
      exact ⟨h.isBatch_eq, h.ne_unknown, h.fst_perform⟩
    · rintro ⟨hbatch, hknown, h⟩
      rcases (refused_perform hbatch h).cause with hunknown | hfails | ⟨-, hdangling⟩
      · exact absurd hunknown hknown
      · exact hfails
      · exact absurd hdangling hs.counted.not_dangling
  · intro call refusal hbatch h
    exact (refused_perform hbatch h).after
  · intro actions
    apply (Spares.refl s).run actions
    intro heap id violation hmem
    exact ⟨heap, violation, hmem⟩

/-- A request without room, and, in a scope that is abandoned, an object that the host has no
memory for just then and a token that goes to the wrong heap and is lost: without these three
calls the rest of the run gets the same replies, and the token is still held at its end. -/
theorem failures_are_atomic_of_lost_token :
    let s := ({} : System).performAll
      [.openAccount, .createArena 16 0, .openHeap 0, .openHeap 0, .create 0 8]
    let full : Host := { serves := fun _ => false }
    let actions : List Action :=
      [ .call (.alloc 0 24),
        .scope 0
          [ .call (.alloc 0 8), .call (.changeHost full), .call (.create 0 8),
            .call (.release 1 0), .call (.changeHost Host.standard) ] true,
        .call (.create 0 4), .call (.references 0 1) ]
    let kept := Action.allSpared actions (s.run actions).1
    let rerun := s.run (kept.map Prod.fst)
    (s.perform (.release 1 0)).1 = .error (.violated (.foreignToken 1 2)) ∧
      (s.perform (.release 1 0)).2 = s.retire 0 .lost ∧
      (Action.allAnswers actions (s.run actions).1).length = 8 ∧
      (Action.allAnswers (kept.map Prod.fst) (kept.map Prod.snd)).length = 5 ∧
      rerun.1 = kept.map Prod.snd ∧
      (s.run actions).2.token? 0 = none ∧ rerun.2.token? 0 = some (.reference 0 1) := by
  intro s full actions kept rerun
  have hs : s.Attained := attained_performAll Host.standard _
  obtain ⟨hfails, hafter, hdeleted⟩ := failures_are_atomic hs
  have hheap : s.heaps[1]? = some ⟨2, 0⟩ := rfl
  have htoken : s.token? 0 = some (.reference 0 1) := rfl
  have hforeign : s.Fails (.release 1 0) (.violated (.foreignToken 1 2)) :=
    .foreign rfl hheap htoken (by decide)
  obtain ⟨hbatch, -, hrefused⟩ := (hfails _ _).1 hforeign
  obtain ⟨hreplies, -⟩ := hdeleted actions
  exact ⟨hrefused, hafter _ _ hbatch hrefused, by decide +kernel, by decide +kernel, hreplies,
    by decide +kernel, by decide +kernel⟩

end System

end Allotment

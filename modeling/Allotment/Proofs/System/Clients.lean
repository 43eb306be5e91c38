import Allotment.Proofs.System.Objects
import Mathlib.Data.List.Basic
import Mathlib.Logic.Function.Basic

set_option autoImplicit false

/-!
Several clients work on one system, each on arenas and heaps of its own. A client knows its
tokens by the order in which they came to it, so what it does can be written down without
looking at the others; which tokens of the system these are is kept for each client. Beside
the shared system stands, for each client, the system that the client would have alone. The
shared one has the arenas of these systems side by side, and their tokens and objects in
between one another.
-/

namespace Allotment

/-- The call with other names for the tokens in it. -/
def Call.rename (name : TokenId → TokenId) : Call → Call
  | .retain heap token => .retain heap (name token)
  | .release heap token => .release heap (name token)
  | .lose token => .lose (name token)
  | .references heap token => .references heap (name token)
  | .size heap token => .size heap (name token)
  | .payload heap token => .payload heap (name token)
  | .edit heap token change => .edit heap (name token) change
  | .sameObject a b => .sameObject (name a) (name b)
  | call => call

/-- A call on arenas and heaps with a certain owner only. The host is nobody's. -/
def Call.IsOf {κ : Type} (owner : Source → κ) (c : κ) : Call → Prop
  | .alloc id _ | .checkpoint id | .restore id _ | .reset id | .read id _ | .write id _ _
  | .replay id _ | .sumBatch id _ | .giveBack id | .dropArena id => owner (.arena id) = c
  | .create id _ | .retain id _ | .release id _ | .references id _ | .size id _ | .payload id _
  | .edit id _ _ => owner (.heap id) = c
  | .makeNull | .lose _ | .sameObject _ _ => True
  | .openAccount | .createArena _ _ | .lendArena _ _ _ | .openHeap _ | .createContext _
  | .createDefaultContext | .changeHost _ => False

mutual

/-- An action on arenas and heaps with a certain owner only. -/
def Action.IsOf {κ : Type} (owner : Source → κ) (c : κ) : Action → Prop
  | .call single => single.IsOf owner c
  | .scope arena body _ => owner (.arena arena) = c ∧ Action.AreOf owner c body

def Action.AreOf {κ : Type} (owner : Source → κ) (c : κ) : List Action → Prop
  | [] => True
  | action :: rest => action.IsOf owner c ∧ Action.AreOf owner c rest

end

namespace System

/-- The token behind a name, or one that there is not if the name stands for none. -/
def tokenNamed (s : System) (names : Array TokenId) (i : TokenId) : TokenId :=
  names[i]?.getD s.tokens.size

/-- The object behind a token, whatever became of the token. -/
def objectAt (s : System) (i : TokenId) : Option ObjectId :=
  s.tokens[i]?.bind fun slot => slot.token.object?

/-- What a client gets to see that knows its tokens by their order. A new token is the next one
to it. -/
def nameResult (names : Array TokenId) :
    Outcome CallResult × System → Outcome CallResult × System × Array TokenId
  | (.ok (.token id), s) => (.ok (.token names.size), s, names.push id)
  | (outcome, s) => (outcome, s, names)

/-- A call of a client that knows its tokens by their order. -/
def performAs (s : System) (names : Array TokenId) (call : Call) :
    Outcome CallResult × System × Array TokenId :=
  nameResult names (s.perform (call.rename (s.tokenNamed names)))

mutual

/-- An action of a client that knows its tokens by their order. -/
def actAs (s : System) (names : Array TokenId) : Action → ActionReply × System × Array TokenId
  | .call call =>
    let (outcome, s, names) := s.performAs names call
    (.call outcome, s, names)
  | .scope arena body abandoned =>
    match s.checkpoint arena with
    | .error refusal => (.barred refusal, s, names)
    | .ok target =>
      let (inner, s, names) := s.runAs names body
      (.scope inner, if abandoned then s else (s.restore arena target).2, names)

/-- Actions of a client that knows its tokens by their order. -/
def runAs (s : System) (names : Array TokenId) :
    List Action → List ActionReply × System × Array TokenId
  | [] => ([], s, names)
  | action :: rest =>
    let (reply, s, names) := s.actAs names action
    let (replies, s, names) := s.runAs names rest
    (reply :: replies, s, names)

end

end System

/-- A call that builds an arena or a heap on the first account. -/
def Call.IsBuild : Call → Prop
  | .createArena _ account | .lendArena _ _ account | .openHeap account => account = 0
  | _ => False

/-- The steps of one client, in their order. -/
def partOf {κ α : Type} [DecidableEq κ] (c : κ) (steps : List (κ × α)) : List α :=
  steps.filterMap fun step => if step.1 = c then some step.2 else none

/-- A client has a first step that is its own before its other steps. -/
theorem partOf_cons_self {κ α : Type} [DecidableEq κ] (c : κ) (x : α) (rest : List (κ × α)) :
    partOf c ((c, x) :: rest) = x :: partOf c rest := by
  simp [partOf]

/-- A client has no part in a first step of another one. -/
theorem partOf_cons_of_ne {κ α : Type} [DecidableEq κ] {c d : κ} (h : d ≠ c) (x : α)
    (rest : List (κ × α)) : partOf c ((d, x) :: rest) = partOf c rest := by
  simp [partOf, h]

/-- The first account, with what was built on it. -/
def ground (host : Host) (builds : List Call) : System :=
  ({ host } : System).performAll (.openAccount :: builds)

/-- The system that a client leaves who has the account to itself, since nobody else does
anything with what was built. -/
def alone (host : Host) (builds : List Call) (actions : List Action) : System :=
  ((ground host builds).run actions).2

/-- A shared system with the tokens that each client knows. -/
structure Floor (κ : Type) where
  system : System
  names : κ → Array TokenId := fun _ => #[]

namespace Floor

variable {κ : Type} [DecidableEq κ]

/-- What was built on the first account, before any client did anything. -/
def start (host : Host) (builds : List Call) : Floor κ :=
  { system := ground host builds }

/-- A client does something. -/
def act (f : Floor κ) (c : κ) (action : Action) : ActionReply × Floor κ :=
  let (reply, system, own) := f.system.actAs (f.names c) action
  (reply, { system, names := Function.update f.names c own })

/-- The clients do something in turn. -/
def play (f : Floor κ) : List (κ × Action) → List (κ × ActionReply) × Floor κ
  | [] => ([], f)
  | (c, action) :: rest =>
    let (reply, f) := f.act c action
    let (replies, f) := f.play rest
    ((c, reply) :: replies, f)

/-- The place of a token as its client names it. -/
def tokenOf (f : Floor κ) (c : κ) (i : TokenId) : Option TokenSlot :=
  (f.names c)[i]?.bind fun id => f.system.tokens[id]?

/-- The object behind a token as its client names it. -/
def objectOf (f : Floor κ) (c : κ) (i : TokenId) : Option ObjectId :=
  (f.names c)[i]?.bind f.system.objectAt

end Floor

/-- The number of the heap that made the object behind a token. -/
def Token.maker? : Token → Option UInt64
  | .null => none
  | .reference _ maker => some maker

/-- What a token is called where the objects are elsewhere. -/
def Token.relocate (objects : Array ObjectId) : Token → Token
  | .null => .null
  | .reference k maker => .reference (objects[k]?.getD k) maker

/-- What a token in its place is called where the objects are elsewhere. -/
def TokenSlot.relocate (objects : Array ObjectId) (slot : TokenSlot) : TokenSlot :=
  { slot with token := slot.token.relocate objects }

/-- The tokens with these names are those of a client, and no name stands for two of them. -/
structure TokensIn (tokens : Array TokenSlot) (names : Array TokenId) (objects : Array ObjectId)
    (own : Array TokenSlot) : Prop where
  size : names.size = own.size
  slots : ∀ {i : TokenId} {id : TokenId} {slot : TokenSlot}, names[i]? = some id →
    own[i]? = some slot → tokens[id]? = some (slot.relocate objects)
  injective : ∀ {i j : TokenId} {id : TokenId}, names[i]? = some id → names[j]? = some id → i = j
  known : ∀ {i : TokenId} {slot : TokenSlot} {k : ObjectId}, own[i]? = some slot →
    slot.token.object? = some k → k < objects.size

/-- The objects in these places are those of a client, and no place holds two of them. -/
structure ObjectsIn (store : Store) (objects : Array ObjectId) (own : Store) : Prop where
  size : objects.size = own.objects.size
  object : ∀ {k j : ObjectId}, objects[k]? = some j →
    j < store.objects.size ∧ store.object? j = own.object? k
  injective : ∀ {k l : ObjectId} {j : ObjectId}, objects[k]? = some j → objects[l]? = some j →
    k = l

namespace Token

variable {objects : Array ObjectId} {token : Token}

/-- A further object does not change what the tokens to the others are called. -/
theorem relocate_push (hknown : ∀ k, token.object? = some k → k < objects.size) (last : ObjectId) :
    token.relocate (objects.push last) = token.relocate objects := by
  cases token with
  | null => rfl
  | reference k maker =>
    have hk : k < objects.size := hknown k rfl
    simp only [relocate, Array.getElem?_push_lt hk, Array.getElem?_eq_getElem hk]

end Token

namespace TokensIn

variable {tokens own : Array TokenSlot} {names : Array TokenId} {objects : Array ObjectId}

/-- Every name stands for a token of the client. -/
theorem exists_slot (h : TokensIn tokens names objects own) {i id : TokenId}
    (hname : names[i]? = some id) :
    ∃ slot, own[i]? = some slot ∧ tokens[id]? = some (slot.relocate objects) := by
  have hi := (Array.getElem?_eq_some_iff.1 hname).1
  rw [h.size] at hi
  exact ⟨own[i], Array.getElem?_eq_getElem hi, h.slots hname (Array.getElem?_eq_getElem hi)⟩

/-- Every name stands for a token that there is. -/
theorem lt_size (h : TokensIn tokens names objects own) {i id : TokenId}
    (hname : names[i]? = some id) : id < tokens.size := by
  obtain ⟨slot, -, hslot⟩ := h.exists_slot hname
  exact (Array.getElem?_eq_some_iff.1 hslot).1

/-- Tokens of others may change and come. -/
theorem frame (h : TokensIn tokens names objects own) {after : Array TokenSlot}
    (hsame : ∀ {i id : TokenId}, names[i]? = some id → after[id]? = tokens[id]?) :
    TokensIn after names objects own where
  size := h.size
  slots hname hslot := (hsame hname).trans (h.slots hname hslot)
  injective := h.injective
  known := h.known

/-- A new token of the client may be added on both sides, under the next name. -/
theorem hold (h : TokensIn tokens names objects own) {token : Token}
    (hknown : ∀ k, token.object? = some k → k < objects.size) :
    TokensIn (tokens.push { token := token.relocate objects }) (names.push tokens.size) objects
      (own.push { token }) where
  size := by rw [Array.size_push, Array.size_push, h.size]
  slots {i id slot} hname hslot := by
    rw [Array.getElem?_push] at hname hslot
    rw [h.size] at hname
    split at hname
    · rename_i hi
      rw [if_pos hi] at hslot
      obtain rfl := Option.some.inj hname
      obtain rfl := Option.some.inj hslot
      exact Array.getElem?_push_size
    · rename_i hi
      rw [if_neg hi] at hslot
      have hid := h.lt_size hname
      rw [Array.getElem?_push, if_neg hid.ne]
      exact h.slots hname hslot
  injective {i j id} hi hj := by
    rw [Array.getElem?_push] at hi hj
    split at hi <;> rename_i hi' <;> split at hj <;> rename_i hj'
    · exact hi'.trans hj'.symm
    · obtain rfl := Option.some.inj hi
      exact absurd (h.lt_size hj) (Nat.lt_irrefl _)
    · obtain rfl := Option.some.inj hj
      exact absurd (h.lt_size hi) (Nat.lt_irrefl _)
    · exact h.injective hi hj
  known {i slot k} hslot hk := by
    rw [Array.getElem?_push] at hslot
    split at hslot
    · obtain rfl := Option.some.inj hslot
      exact hknown k hk
    · exact h.known hslot hk

/-- A token of the client may be given up on both sides. -/
theorem retire (h : TokensIn tokens names objects own) {i id : TokenId}
    (hname : names[i]? = some id) (fate : Holding) :
    TokensIn (tokens.modify id fun slot => { slot with holding := fate }) names objects
      (own.modify i fun slot => { slot with holding := fate }) where
  size := by rw [Array.size_modify, h.size]
  slots {j other slot} hother hslot := by
    rw [Array.getElem?_modify] at hslot ⊢
    split at hslot
    · rename_i hij
      subst hij
      obtain rfl := Option.some.inj (hname.symm.trans hother)
      obtain ⟨before, hbefore, rfl⟩ := Option.map_eq_some_iff.1 hslot
      rw [if_pos rfl, h.slots hname hbefore]
      rfl
    · rename_i hij
      have hne : id ≠ other := by
        rintro rfl
        exact hij (h.injective hname hother)
      rw [if_neg hne]
      exact h.slots hother hslot
  injective := h.injective
  known {j slot k} hslot hk := by
    rw [Array.getElem?_modify] at hslot
    split at hslot
    · obtain ⟨before, hbefore, rfl⟩ := Option.map_eq_some_iff.1 hslot
      exact h.known hbefore hk
    · exact h.known hslot hk

/-- The tokens are where they were after an object has come. -/
theorem grow (h : TokensIn tokens names objects own) (last : ObjectId) :
    TokensIn tokens names (objects.push last) own where
  size := h.size
  slots {i id slot} hname hslot := by
    have hsame := Token.relocate_push (fun k hk => h.known hslot hk) last
    rw [h.slots hname hslot, TokenSlot.relocate, TokenSlot.relocate, hsame]
  injective := h.injective
  known hslot hk := by
    rw [Array.size_push]
    exact Nat.lt_succ_of_lt (h.known hslot hk)

end TokensIn

namespace ObjectsIn

variable {store own : Store} {objects : Array ObjectId}

/-- Every place belongs to an object of the client. -/
theorem lt_size (h : ObjectsIn store objects own) {k j : ObjectId} (hplace : objects[k]? = some j) :
    k < own.objects.size := by
  rw [← h.size]
  exact (Array.getElem?_eq_some_iff.1 hplace).1

/-- Objects of others may change and come. -/
theorem frame (h : ObjectsIn store objects own) {after : Store}
    (hsize : store.objects.size ≤ after.objects.size)
    (hsame : ∀ {k j : ObjectId}, objects[k]? = some j → after.object? j = store.object? j) :
    ObjectsIn after objects own where
  size := h.size
  object hplace := ⟨(h.object hplace).1.trans_le hsize,
    (hsame hplace).trans (h.object hplace).2⟩
  injective := h.injective

/-- An object of the client may be changed or destroyed on both sides. -/
theorem put (h : ObjectsIn store objects own) {k j : ObjectId} (hplace : objects[k]? = some j)
    (next : Option Object) : ObjectsIn (store.put j next) objects (own.put k next) where
  size := by rw [Store.size_put, h.size]
  object {l i} hother := by
    have hj := (h.object hplace).1
    have hk := h.lt_size hplace
    rw [Store.size_put, Store.object?_put hj, Store.object?_put hk]
    refine ⟨(h.object hother).1, ?_⟩
    by_cases hl : l = k
    · subst hl
      obtain rfl := Option.some.inj (hplace.symm.trans hother)
      rw [if_pos rfl, if_pos rfl]
    · have hi : i ≠ j := by
        rintro rfl
        exact hl (h.injective hother hplace)
      rw [if_neg hi, if_neg hl]
      exact (h.object hother).2
  injective := h.injective

/-- A new object of the client may be added on both sides, in the next place. -/
theorem add (h : ObjectsIn store objects own) (object : Object) :
    ObjectsIn { objects := store.objects.push (some object) } (objects.push store.objects.size)
      { objects := own.objects.push (some object) } where
  size := by rw [Array.size_push, Array.size_push, h.size]
  object {k j} hplace := by
    rw [Array.getElem?_push, h.size] at hplace
    unfold Store.object?
    rw [Array.size_push, Array.getElem?_push, Array.getElem?_push]
    split at hplace
    · rename_i hk
      obtain rfl := Option.some.inj hplace
      rw [if_pos rfl, if_pos hk]
      exact ⟨Nat.lt_succ_self _, rfl⟩
    · rename_i hk
      obtain ⟨hj, hsame⟩ := h.object hplace
      rw [if_neg hj.ne, if_neg hk]
      exact ⟨Nat.lt_succ_of_lt hj, hsame⟩
  injective {k l j} hk hl := by
    rw [Array.getElem?_push] at hk hl
    split at hk <;> rename_i hk' <;> split at hl <;> rename_i hl'
    · exact hk'.trans hl'.symm
    · obtain rfl := Option.some.inj hk
      exact absurd (h.object hl).1 (Nat.lt_irrefl _)
    · obtain rfl := Option.some.inj hl
      exact absurd (h.object hk).1 (Nat.lt_irrefl _)
    · exact h.injective hk hl

end ObjectsIn

end Allotment

import Allotment.Proofs.System.Split

set_option autoImplicit false

/-!
What the clients of a shared system find: the arenas, and behind the tokens that they know the
objects. Where the objects are differs from one shared system to the next; what a client finds
depends only on what it would find alone.
-/

namespace Allotment

namespace System

variable {s s' : System} {call : Call} {entries : List Entry}

/-- A new token does not change which objects the other tokens are to. -/
theorem objectAt_hold {i : TokenId} {k : ObjectId} (h : s.objectAt i = some k) (token : Token) :
    (s.hold token).2.objectAt i = some k := by
  obtain ⟨slot, hslot, hk⟩ := Option.bind_eq_some_iff.1 h
  exact Option.bind_eq_some_iff.2 ⟨slot, getElem?_push_of_eq_some hslot _, hk⟩

/-- A token that is given up stays a token to the same object. -/
theorem objectAt_retire {i : TokenId} (id : TokenId) (fate : Holding) :
    (s.retire id fate).objectAt i = s.objectAt i := by
  show ((s.tokens.modify id fun slot => { slot with holding := fate })[i]?).bind _ = _
  rw [Array.getElem?_modify]
  split
  · unfold objectAt
    cases s.tokens[i]? <;> rfl
  · rfl

/-- Every object was created for a token. -/
def Tokened (s : System) : Prop :=
  ∀ ⦃k : ObjectId⦄, k < s.store.objects.size → ∃ i, s.objectAt i = some k

/-- A call that creates an object gives a token to it. -/
theorem Tokened.step (hs : s.Tokened) (h : Stepped s call entries s') : s'.Tokened := by
  intro k hk
  have hput : ∀ {j : ObjectId} {next : Option Object},
      k < (s.store.put j next).objects.size → ∃ i, s.objectAt i = some k := by
    intro j next hlt
    rw [Store.size_put] at hlt
    exact hs hlt
  cases h with
  | nullHeld =>
    obtain ⟨i, hi⟩ := hs hk
    exact ⟨i, objectAt_hold hi .null⟩
  | @objectCreated id heap size hheap =>
    replace hk : k < (s.store.objects.push (some (Object.fresh size))).size := hk
    rw [Array.size_push] at hk
    rcases Nat.lt_succ_iff_lt_or_eq.1 hk with hold | rfl
    · obtain ⟨i, hi⟩ := hs hold
      exact ⟨i, objectAt_hold hi _⟩
    · exact ⟨s.tokens.size, Option.bind_eq_some_iff.2 ⟨_, Array.getElem?_push_size, rfl⟩⟩
  | referenceTaken htoken hobject hmax =>
    obtain ⟨i, hi⟩ := hput hk
    exact ⟨i, objectAt_hold hi _⟩
  | referenceGivenUp htoken hobject hmore =>
    obtain ⟨i, hi⟩ := hput hk
    exact ⟨i, (objectAt_retire _ _).trans hi⟩
  | objectDestroyed hheap htoken hobject hlast =>
    obtain ⟨i, hi⟩ := hput hk
    exact ⟨i, (objectAt_retire _ _).trans hi⟩
  | nullGivenUp htoken =>
    obtain ⟨i, hi⟩ := hs hk
    exact ⟨i, (objectAt_retire _ _).trans hi⟩
  | tokenLost htoken =>
    obtain ⟨i, hi⟩ := hs hk
    exact ⟨i, (objectAt_retire _ _).trans hi⟩
  | objectEdited payload hobject => exact hput hk
  | _ => exact hs hk

/-- In every attained system every object was created for a token. -/
theorem Attained.tokened (h : s.Attained) : s.Tokened :=
  h.kept (fun hs hstep => hs.step hstep) fun _ => by simp [Tokened]

end System

section Floors

variable {κ : Type} [DecidableEq κ] {owner : Source → κ} {f g : Floor κ}
  {shares shares' : κ → Share}

/-- Two shared systems in which every client finds the same: the same arenas and heaps, behind
each of its tokens an object in the same state, and two tokens with the same object in both or
in neither. -/
structure Floor.Agrees (f g : Floor κ) : Prop where
  arenas : f.system.arenas = g.system.arenas
  heaps : f.system.heaps = g.system.heaps
  tokens : ∀ c i, (f.tokenOf c i).map (fun slot => (slot.holding, slot.token.maker?)) =
    (g.tokenOf c i).map fun slot => (slot.holding, slot.token.maker?)
  objects : ∀ c i, (f.objectOf c i).map f.system.store.object? =
    (g.objectOf c i).map g.system.store.object?
  identities : ∀ c d i j, f.objectOf c i = f.objectOf d j ↔ g.objectOf c i = g.objectOf d j

namespace Split

section View

variable (h : Split owner f.system shares) (hnames : f.names = Share.names ∘ shares)
include h hnames

/-- The token behind a name is the one that the client has alone, up to where its object is. -/
theorem tokenOf_eq (c : κ) (i : TokenId) :
    f.tokenOf c i =
      (shares c).system.tokens[i]?.map (TokenSlot.relocate (shares c).objects) := by
  have htokens := (h.embedded c).tokens
  have hmine : f.names c = (shares c).names := congrFun hnames c
  unfold Floor.tokenOf
  rw [hmine]
  cases hname : (shares c).names[i]? with
  | none =>
    have hnone : (shares c).system.tokens[i]? = none := by
      rw [Array.getElem?_eq_none_iff, ← htokens.size]
      exact Array.getElem?_eq_none_iff.1 hname
    rw [hnone]
    rfl
  | some id =>
    obtain ⟨slot, hslot, hplaced⟩ := htokens.exists_slot hname
    rw [hslot]
    exact hplaced

/-- The object behind a name is the one that the client has alone, up to where it is. -/
theorem objectOf_eq (c : κ) (i : TokenId) :
    f.objectOf c i =
      ((shares c).system.objectAt i).map fun k => (shares c).objects[k]?.getD k := by
  have htoken := h.tokenOf_eq hnames c i
  have hbehind : f.objectOf c i = (f.tokenOf c i).bind fun slot => slot.token.object? :=
    (Option.bind_assoc ..).symm
  rw [hbehind, htoken]
  unfold System.objectAt
  rcases (shares c).system.tokens[i]? with _ | ⟨_ | ⟨k, maker⟩, holding⟩ <;> rfl

omit hnames in
/-- An object that a client has alone has a place in the shared system. -/
theorem objects_of_objectAt {c : κ} {i : TokenId} {k : ObjectId}
    (hk : (shares c).system.objectAt i = some k) :
    (shares c).objects[k]? = some ((shares c).objects[k]?.getD k) := by
  obtain ⟨slot, hslot, hobject⟩ := Option.bind_eq_some_iff.1 hk
  have hlt := (h.embedded c).tokens.known hslot hobject
  rw [Array.getElem?_eq_getElem hlt, Option.getD_some]

/-- Behind a token is an object in the state that it would have if the client were alone. -/
theorem object?_objectOf (c : κ) (i : TokenId) :
    (f.objectOf c i).map f.system.store.object? =
      ((shares c).system.objectAt i).map (shares c).system.store.object? := by
  rw [h.objectOf_eq hnames]
  cases hk : (shares c).system.objectAt i with
  | none => rfl
  | some k => exact congrArg some ((h.embedded c).objects.object (h.objects_of_objectAt hk)).2

/-- Two tokens have the same object if they belong to one client that would find it so alone. -/
theorem objectOf_eq_iff (c d : κ) (i j : TokenId) :
    f.objectOf c i = f.objectOf d j ↔
      (shares c).system.objectAt i = none ∧ (shares d).system.objectAt j = none ∨
        c = d ∧ (shares c).system.objectAt i = (shares c).system.objectAt j := by
  rw [h.objectOf_eq hnames, h.objectOf_eq hnames]
  constructor
  · intro heq
    cases hi : (shares c).system.objectAt i with
    | none =>
      rw [hi, Option.map_none] at heq
      exact .inl ⟨rfl, Option.map_eq_none_iff.1 heq.symm⟩
    | some k =>
      rw [hi, Option.map_some] at heq
      obtain ⟨l, hj, hplace⟩ := Option.map_eq_some_iff.1 heq.symm
      have hk := h.objects_of_objectAt hi
      have hl := h.objects_of_objectAt hj
      rw [hplace] at hl
      obtain rfl : c = d := h.objects hk hl
      rw [hj, (h.embedded c).objects.injective hk hl]
      exact .inr ⟨rfl, rfl⟩
  · rintro (⟨hi, hj⟩ | ⟨rfl, hsame⟩)
    · rw [hi, hj]
      rfl
    · rw [hsame]

end View

/-- What the clients find depends only on what each would find alone. -/
theorem agrees (h : Split owner f.system shares) (hnames : f.names = Share.names ∘ shares)
    (h' : Split owner g.system shares') (hnames' : g.names = Share.names ∘ shares')
    (hsame : ∀ c, (shares c).system = (shares' c).system) : f.Agrees g where
  arenas := by
    apply Array.ext_getElem?
    intro id
    rw [(h.embedded _).arenas rfl, (h'.embedded _).arenas rfl, hsame]
  heaps := by
    rw [(h.embedded (owner (.heap 0))).heaps, (h'.embedded (owner (.heap 0))).heaps, hsame]
  tokens c i := by
    rw [h.tokenOf_eq hnames, h'.tokenOf_eq hnames', hsame]
    rcases (shares' c).system.tokens[i]? with _ | ⟨_ | ⟨k, maker⟩, holding⟩ <;> rfl
  objects c i := by rw [h.object?_objectOf hnames, h'.object?_objectOf hnames', hsame]
  identities c d i j := by
    rw [h.objectOf_eq_iff hnames, h'.objectOf_eq_iff hnames', hsame, hsame]

end Split

end Floors

end Allotment

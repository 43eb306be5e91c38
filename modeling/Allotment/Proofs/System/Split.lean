import Allotment.Proofs.System.Clients
import Mathlib.Logic.Function.Basic

set_option autoImplicit false

/-!
A system that several clients share, split up into what each of them has. A share is the
system that its client would have alone, with the places of its tokens and objects in the
shared system. Every change that a call can make is made to the share of the client that calls
and to the shared system alike, and leaves the other shares as they are.
-/

namespace Allotment

/-- What a client has: the system that it would have alone, and where the tokens and the
objects of that system are in the shared one. -/
structure Share where
  system : System
  names : Array TokenId := #[]
  objects : Array ObjectId := #[]

namespace System

/-- The lines of the journal that some account had to record. -/
def ledger (s : System) : List Entry :=
  s.journal.toList.filter fun entry => entry.event.charge?.isSome

/-- Recording events adds those of them to the ledger that are charges. -/
theorem ledger_record (s : System) (source : Source) (account : AccountId) (events : List Event) :
    (s.record source account events).ledger =
      s.ledger ++ (events.filter fun event => event.charge?.isSome).map (Entry.mk source) := by
  unfold ledger
  rw [journal_record, List.filter_append, List.filter_map]
  rfl

end System

open Function

variable {κ : Type} [DecidableEq κ] {owner : Source → κ} {c : κ} {s : System}

/-- No place belongs to two clients. -/
def Apart (places : κ → Array ℕ) : Prop :=
  ∀ ⦃c d : κ⦄ ⦃i j n : ℕ⦄, (places c)[i]? = some n → (places d)[j]? = some n → c = d

section Places

variable {places : κ → Array ℕ} {own : Array ℕ}

/-- A further place leaves every client the places it has. -/
theorem push_places {d : κ} {i n : ℕ} (h : (update places c own d)[i]? = some n) (last : ℕ) :
    (update places c (own.push last) d)[i]? = some n := by
  by_cases hd : d = c
  · subst hd
    rw [update_self] at h ⊢
    exact System.getElem?_push_of_eq_some h last
  · rwa [update_of_ne hd] at h ⊢

/-- A place that there is with a further one was there before, or is the further one itself. -/
theorem of_push_places {d : κ} {i n last : ℕ}
    (h : (update places c (own.push last) d)[i]? = some n) :
    (update places c own d)[i]? = some n ∨ d = c ∧ n = last := by
  by_cases hd : d = c
  · subst hd
    rw [update_self, Array.getElem?_push] at h
    rw [update_self]
    split at h
    · exact .inr ⟨rfl, (Option.some.inj h).symm⟩
    · exact .inl h
  · rw [update_of_ne hd] at h ⊢
    exact .inl h

/-- A client may get a place that belongs to nobody. -/
theorem Apart.push (h : Apart (update places c own)) {last : ℕ}
    (hfresh : ∀ (d : κ) (i : ℕ), (update places c own d)[i]? ≠ some last) :
    Apart (update places c (own.push last)) := by
  intro d e i j n hi hj
  rcases of_push_places hi with hi | ⟨rfl, rfl⟩ <;> rcases of_push_places hj with hj | ⟨rfl, hn⟩
  · exact h hi hj
  · exact absurd (hn ▸ hi) (hfresh d i)
  · exact absurd hj (hfresh e j)
  · rfl

/-- The places of one client are not those of another one. -/
theorem Apart.ne (h : Apart (update places c own)) {d : κ} (hd : d ≠ c) {i j n m : ℕ}
    (hi : own[i]? = some n) (hj : (places d)[j]? = some m) : n ≠ m := by
  rintro rfl
  have heq := @h c d i j n
  rw [update_self, update_of_ne hd] at heq
  exact hd (heq hi hj).symm

end Places

/-- The lines of a client. -/
def ownLines (owner : Source → κ) (c : κ) (entries : List Entry) : List Entry :=
  entries.filter fun entry => owner entry.source = c

/-- The shared system has what a client has. -/
structure Embedded (owner : Source → κ) (c : κ) (s : System) (share : Share) : Prop where
  host : s.host = share.system.host
  heaps : s.heaps = share.system.heaps
  arenas : ∀ {id : ArenaId}, owner (.arena id) = c → s.arenas[id]? = share.system.arenas[id]?
  shared : ∀ {source : Source} {account : AccountId},
    share.system.account? source = some account → account = 0
  tokens : TokensIn s.tokens share.names share.objects share.system.tokens
  objects : ObjectsIn s.store share.objects share.system.store
  ledger : ownLines owner c s.ledger = share.system.ledger

namespace Embedded

variable {share : Share}

/-- A change that leaves alone what a client has. -/
theorem frame (h : Embedded owner c s share) {after : System} (hhost : after.host = s.host)
    (hheaps : after.heaps = s.heaps)
    (harenas : ∀ {id : ArenaId}, owner (.arena id) = c → after.arenas[id]? = s.arenas[id]?)
    (htokens : ∀ {i id : TokenId}, share.names[i]? = some id → after.tokens[id]? = s.tokens[id]?)
    (hsize : s.store.objects.size ≤ after.store.objects.size)
    (hobjects : ∀ {k j : ObjectId}, share.objects[k]? = some j →
      after.store.object? j = s.store.object? j)
    (hledger : ownLines owner c after.ledger = ownLines owner c s.ledger) :
    Embedded owner c after share where
  host := hhost.trans h.host
  heaps := hheaps.trans h.heaps
  arenas hid := (harenas hid).trans (h.arenas hid)
  shared := h.shared
  tokens := h.tokens.frame htokens
  objects := h.objects.frame hsize hobjects
  ledger := hledger.trans h.ledger

/-- A token that a client names is held if the client holds it alone. -/
theorem token?_name (h : Embedded owner c s share) (i : TokenId) :
    s.token? (s.tokenNamed share.names i) =
      (share.system.token? i).map (Token.relocate share.objects) := by
  unfold System.tokenNamed
  cases hname : share.names[i]? with
  | none =>
    have hnone : share.system.tokens[i]? = none := by
      rw [Array.getElem?_eq_none_iff, ← h.tokens.size]
      exact Array.getElem?_eq_none_iff.1 hname
    simp [System.token?, hnone]
  | some id =>
    obtain ⟨⟨token, holding⟩, hslot, hplaced⟩ := h.tokens.exists_slot hname
    simp only [System.token?, Option.getD_some, hslot, hplaced, TokenSlot.relocate]
    cases holding <;> rfl

/-- A token that a client holds alone has a name in the shared system. -/
theorem names_of_token? (h : Embedded owner c s share) {i : TokenId} {token : Token}
    (htoken : share.system.token? i = some token) :
    share.names[i]? = some (s.tokenNamed share.names i) := by
  have hi := (Array.getElem?_eq_some_iff.1 (System.token?_eq_some.1 htoken)).1
  rw [← h.tokens.size] at hi
  rw [System.tokenNamed, Array.getElem?_eq_getElem hi, Option.getD_some]

/-- The object of a token that a client holds has a place. -/
theorem known_of_token? (h : Embedded owner c s share) {i : TokenId} {token : Token}
    (htoken : share.system.token? i = some token) {k : ObjectId} (hk : token.object? = some k) :
    k < share.objects.size :=
  h.tokens.known (System.token?_eq_some.1 htoken) hk

end Embedded

/-- The shared system has what each client has, and nothing twice. -/
structure Split (owner : Source → κ) (s : System) (shares : κ → Share) : Prop where
  embedded : ∀ c, Embedded owner c s (shares c)
  tokens : Apart (Share.names ∘ shares)
  objects : Apart (Share.objects ∘ shares)
  named : ∀ {id : TokenId}, id < s.tokens.size →
    ∃ (c : κ) (i : TokenId), ((Share.names ∘ shares) c)[i]? = some id

namespace Split

variable {shares : κ → Share} {own : Share}

section Parts

variable (h : Split owner s (update shares c own))
include h

/-- The shared system has what the client has whose share is singled out. -/
theorem own_embedded : Embedded owner c s own := by
  have hown := h.embedded c
  rwa [update_self] at hown

/-- The shared system has what the other clients have. -/
theorem other_embedded {d : κ} (hd : d ≠ c) : Embedded owner d s (shares d) := by
  have hother := h.embedded d
  rwa [update_of_ne hd] at hother

/-- No token belongs to two clients. -/
theorem own_tokens : Apart (update (Share.names ∘ shares) c own.names) :=
  comp_update Share.names shares c own ▸ h.tokens

/-- No object belongs to two clients. -/
theorem own_objects : Apart (update (Share.objects ∘ shares) c own.objects) :=
  comp_update Share.objects shares c own ▸ h.objects

/-- Every token of the shared system belongs to some client. -/
theorem own_named {id : TokenId} (hid : id < s.tokens.size) :
    ∃ (d : κ) (i : TokenId), (update (Share.names ∘ shares) c own.names d)[i]? = some id :=
  comp_update Share.names shares c own ▸ h.named hid

end Parts

/-- A shared system is split if it has the share that is singled out and the other ones, with no
token and no object twice and every token named. -/
theorem of_parts {own : Share} (hown : Embedded owner c s own)
    (hothers : ∀ d, d ≠ c → Embedded owner d s (shares d))
    (htokens : Apart (update (Share.names ∘ shares) c own.names))
    (hobjects : Apart (update (Share.objects ∘ shares) c own.objects))
    (hnamed : ∀ {id : TokenId}, id < s.tokens.size →
      ∃ (d : κ) (i : TokenId), (update (Share.names ∘ shares) c own.names d)[i]? = some id) :
    Split owner s (update shares c own) where
  embedded d := by
    by_cases hd : d = c
    · subst hd
      rwa [update_self]
    · rw [update_of_ne hd]
      exact hothers d hd
  tokens := by rwa [comp_update]
  objects := by rwa [comp_update]
  named := by rwa [comp_update]

/-- A change without new tokens and objects is one of a single share. -/
theorem change (h : Split owner s (update shares c own)) {after next : System}
    (hsize : after.tokens.size = s.tokens.size)
    (hown : Embedded owner c after { own with system := next })
    (hothers : ∀ d, d ≠ c → Embedded owner d s (shares d) → Embedded owner d after (shares d)) :
    Split owner after (update shares c { own with system := next }) := by
  apply of_parts hown
  · intro d hd
    exact hothers d hd (h.other_embedded hd)
  · exact h.own_tokens
  · exact h.own_objects
  · rw [hsize]
    exact h.own_named

variable (h : Split owner s (update shares c own))
include h

/-- A token that a client names becomes released or lost. -/
theorem retire {i id : TokenId} (hname : own.names[i]? = some id) (fate : Holding) :
    Split owner (s.retire id fate)
      (update shares c { own with system := own.system.retire i fate }) := by
  have hembedded := h.own_embedded
  refine h.change Array.size_modify ?_ ?_
  · exact
      { host := hembedded.host
        heaps := hembedded.heaps
        arenas := hembedded.arenas
        shared := hembedded.shared
        tokens := hembedded.tokens.retire hname fate
        objects := hembedded.objects
        ledger := hembedded.ledger }
  · intro d hd hother
    refine hother.frame rfl rfl (fun _ => rfl) ?_ (le_refl _) (fun _ => rfl) rfl
    intro j other hj
    have hne := h.own_tokens.ne hd hname hj
    exact (Array.getElem?_modify ..).trans (if_neg hne)

/-- An object of a client changes. -/
theorem putObject {k j : ObjectId} (hplace : own.objects[k]? = some j) (next : Option Object) :
    Split owner (s.putObject j next)
      (update shares c { own with system := own.system.putObject k next }) := by
  have hembedded := h.own_embedded
  refine h.change rfl ?_ ?_
  · exact
      { host := hembedded.host
        heaps := hembedded.heaps
        arenas := hembedded.arenas
        shared := hembedded.shared
        tokens := hembedded.tokens
        objects := hembedded.objects.put hplace next
        ledger := hembedded.ledger }
  · intro d hd hother
    refine hother.frame rfl rfl (fun _ => rfl) (fun _ => rfl) (Store.size_put _ _ _).ge ?_ rfl
    intro l other hl
    have hne := h.own_objects.ne hd hplace hl
    have hj := (hembedded.objects.object hplace).1
    exact (Store.object?_put hj next other).trans (if_neg hne.symm)

omit h in
/-- Lines from a source of a client are all its own. -/
theorem ownLines_map_self {source : Source} (hsource : owner source = c) (events : List Event) :
    ownLines owner c (events.map (Entry.mk source)) = events.map (Entry.mk source) := by
  apply List.filter_eq_self.2
  intro entry hentry
  obtain ⟨event, -, rfl⟩ := List.mem_map.1 hentry
  exact decide_eq_true hsource

omit h in
/-- Lines from a source of another client are none of its own. -/
theorem ownLines_map_other {source : Source} {d : κ} (hsource : owner source ≠ d)
    (events : List Event) : ownLines owner d (events.map (Entry.mk source)) = [] := by
  apply List.filter_eq_nil_iff.2
  intro entry hentry
  obtain ⟨event, -, rfl⟩ := List.mem_map.1 hentry
  simpa using hsource

omit h in
/-- Recording events adds to the lines of a client the charges that come from a source of its
own. -/
theorem ownLines_record (owner : Source → κ) (d : κ) (s : System) (source : Source)
    (account : AccountId) (events : List Event) :
    ownLines owner d (s.record source account events).ledger =
      ownLines owner d s.ledger ++ ownLines owner d
        ((events.filter fun event => event.charge?.isSome).map (Entry.mk source)) := by
  rw [System.ledger_record]
  exact List.filter_append ..

/-- A client announces events. -/
theorem record {source : Source} (hsource : owner source = c) (account : AccountId)
    (events : List Event) :
    Split owner (s.record source account events)
      (update shares c { own with system := own.system.record source account events }) := by
  have hembedded := h.own_embedded
  refine h.change rfl ?_ ?_
  · exact
      { host := hembedded.host
        heaps := hembedded.heaps
        arenas := hembedded.arenas
        shared := hembedded.shared
        tokens := hembedded.tokens
        objects := hembedded.objects
        ledger := by
          rw [ownLines_record, ownLines_map_self hsource, hembedded.ledger, System.ledger_record] }
  · intro d hd hother
    refine hother.frame rfl rfl (fun _ => rfl) (fun _ => rfl) (le_refl _) (fun _ => rfl) ?_
    have hne : owner source ≠ d := by
      rw [hsource]
      exact hd.symm
    rw [ownLines_record, ownLines_map_other hne, List.append_nil]

/-- The place of an arena of a client takes over what is left of it. -/
theorem place {id : ArenaId} (hid : owner (.arena id) = c) {arena : Arena}
    (hslot : own.system.arenas[id]? = some { arena := some arena, account := 0 })
    (left : Option Arena) (dropped : Bool) (events : List Event) :
    let slot : ArenaSlot := { arena := left, account := 0, dropped }
    Split owner (s.place id slot events)
      (update shares c { own with system := own.system.place id slot events }) := by
  intro slot
  have hset : Split owner { s with arenas := s.arenas.setIfInBounds id slot }
      (update shares c { own with
        system := { own.system with arenas := own.system.arenas.setIfInBounds id slot } }) := by
    have hembedded := h.own_embedded
    refine h.change rfl ?_ ?_
    · refine
        { host := hembedded.host
          heaps := hembedded.heaps
          arenas := ?_
          shared := ?_
          tokens := hembedded.tokens
          objects := hembedded.objects
          ledger := hembedded.ledger }
      · intro other hother
        have hsame := hembedded.arenas hother
        by_cases hne : id = other
        · subst hne
          have hlt := (Array.getElem?_eq_some_iff.1 hslot).1
          have hlt' := (Array.getElem?_eq_some_iff.1 (hsame.trans hslot)).1
          rw [Array.getElem?_setIfInBounds_self_of_lt hlt,
            Array.getElem?_setIfInBounds_self_of_lt hlt']
        · rw [Array.getElem?_setIfInBounds_ne hne, Array.getElem?_setIfInBounds_ne hne, hsame]
      · intro source account hsource
        have haccount := System.account?_place hslot left dropped [] source
        exact hembedded.shared (haccount.symm.trans hsource)
    · intro d hd hother
      refine hother.frame rfl rfl ?_ (fun _ => rfl) (le_refl _) (fun _ => rfl) rfl
      intro other hother
      have hne : id ≠ other := by
        rintro rfl
        exact hd (hother.symm.trans hid)
      exact Array.getElem?_setIfInBounds_ne hne
  exact hset.record hid 0 events

/-- A client gets a token. -/
theorem hold {token : Token} (hknown : ∀ k, token.object? = some k → k < own.objects.size) :
    Split owner (s.hold (token.relocate own.objects)).2
      (update shares c
        { own with
          system := (own.system.hold token).2
          names := own.names.push s.tokens.size }) := by
  have hembedded := h.own_embedded
  apply of_parts
  · exact
      { host := hembedded.host
        heaps := hembedded.heaps
        arenas := hembedded.arenas
        shared := hembedded.shared
        tokens := hembedded.tokens.hold hknown
        objects := hembedded.objects
        ledger := hembedded.ledger }
  · intro d hd
    have hother := h.other_embedded hd
    refine hother.frame rfl rfl (fun _ => rfl) ?_ (le_refl _) (fun _ => rfl) rfl
    intro j other hj
    exact (Array.getElem?_push ..).trans (if_neg (hother.tokens.lt_size hj).ne)
  · apply h.own_tokens.push
    intro d i hi
    by_cases hd : d = c
    · subst hd
      rw [update_self] at hi
      exact (hembedded.tokens.lt_size hi).false
    · rw [update_of_ne hd] at hi
      exact ((h.other_embedded hd).tokens.lt_size hi).false
  · exact h.own_objects
  · intro id hid
    replace hid : id < (s.tokens.push { token := token.relocate own.objects }).size := hid
    rw [Array.size_push] at hid
    rcases Nat.lt_succ_iff_lt_or_eq.1 hid with hold | rfl
    · obtain ⟨d, i, hi⟩ := h.own_named hold
      exact ⟨d, i, push_places hi _⟩
    · refine ⟨c, own.names.size, ?_⟩
      rw [update_self]
      exact Array.getElem?_push_size

/-- A client creates an object. -/
theorem addObject (object : Object) :
    Split owner (s.addObject object)
      (update shares c
        { own with
          system := own.system.addObject object
          objects := own.objects.push s.store.objects.size }) := by
  have hembedded := h.own_embedded
  apply of_parts
  · exact
      { host := hembedded.host
        heaps := hembedded.heaps
        arenas := hembedded.arenas
        shared := hembedded.shared
        tokens := hembedded.tokens.grow _
        objects := hembedded.objects.add object
        ledger := hembedded.ledger }
  · intro d hd
    have hother := h.other_embedded hd
    have hsize : s.store.objects.size ≤ (s.store.objects.push (some object)).size := by
      rw [Array.size_push]
      exact Nat.le_succ _
    refine hother.frame rfl rfl (fun _ => rfl) (fun _ => rfl) hsize ?_ rfl
    intro k j hk
    rw [System.object?_addObject, if_neg (hother.objects.object hk).1.ne]
  · exact h.own_tokens
  · apply h.own_objects.push
    intro d i hi
    by_cases hd : d = c
    · subst hd
      rw [update_self] at hi
      exact (hembedded.objects.object hi).1.false
    · rw [update_of_ne hd] at hi
      exact ((h.other_embedded hd).objects.object hi).1.false
  · exact h.own_named

end Split

end Allotment

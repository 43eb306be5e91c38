import Allotment.Proofs.System.SharedAccount
import Allotment.Proofs.System.SideBySide
import Allotment.Proofs.System.Views

set_option autoImplicit false

/-!
Several clients that share an account, each with arenas and heaps of its own. Whatever the
order in which they take turns, each of them sees and leaves what it would alone, and the
account counts the sum of what it would count for each. A scope is one turn here; a client that
lets others have a turn within a scope takes a checkpoint and restores it instead.
-/

namespace Allotment

open Finset Function

namespace System

namespace Attained

variable {s : System}

mutual

/-- A client that has its turn leaves an attained system. -/
theorem actAs {s : System} (h : s.Attained) (names : Array TokenId) :
    ∀ action : Action, (s.actAs names action).2.1.Attained
  | .call single => by
    have hafter := h.performed (single.rename (s.tokenNamed names))
    show (nameResult names (s.perform (single.rename (s.tokenNamed names)))).2.1.Attained
    unfold nameResult
    split <;> rename_i heq <;> rwa [heq] at hafter
  | .scope arena body abandoned => by
    have hbody := h.runAs names body
    unfold System.actAs
    cases s.checkpoint arena with
    | error refusal => exact h
    | ok target =>
      cases abandoned with
      | true => exact hbody
      | false => exact hbody.performed (.restore arena target)

/-- What a client leaves that knows its tokens by their order is an attained system. -/
theorem runAs {s : System} (h : s.Attained) (names : Array TokenId) :
    ∀ actions : List Action, (s.runAs names actions).2.1.Attained
  | [] => h
  | action :: rest => (h.actAs names action).runAs _ rest

end

end Attained

end System

section Play

variable {κ : Type} [DecidableEq κ] {owner : Source → κ} {shares : κ → Share}

/-- Clients in turn lead from one attained system to another one. -/
theorem Floor.attained_play {f : Floor κ} (h : f.system.Attained) (plan : List (κ × Action)) :
    (f.play plan).2.system.Attained := by
  induction plan generalizing f with
  | nil => exact h
  | cons step rest ih => exact ih (h.actAs (f.names step.1) step.2)

/-- Each client sees what it would see alone, and its share becomes the system that it would
leave alone. -/
theorem Split.play {f : Floor κ} (h : Split owner f.system shares)
    (hnames : f.names = Share.names ∘ shares) {plan : List (κ × Action)}
    (hplan : ∀ step ∈ plan, step.2.IsOf owner step.1) :
    ∃ later, Split owner (f.play plan).2.system later ∧
      (f.play plan).2.names = Share.names ∘ later ∧
      ∀ c, partOf c (f.play plan).1 = ((shares c).system.run (partOf c plan)).1 ∧
        (later c).system = ((shares c).system.run (partOf c plan)).2 := by
  induction plan generalizing f shares with
  | nil => exact ⟨shares, h, hnames, fun c => ⟨rfl, rfl⟩⟩
  | cons step rest ih =>
    obtain ⟨c, action⟩ := step
    obtain ⟨haction, hrest⟩ := List.forall_mem_cons.1 hplan
    -- the client that has its turn changes its own share only, so that the other turns start
    -- from a split again; the shares of all are kept general in the induction for this
    have hsplit : Split owner f.system (update shares c (shares c)) := by rwa [update_eq_self]
    obtain ⟨hreply, objects, hafter⟩ := hsplit.act action haction
    have hown : f.names c = (shares c).names := congrFun hnames c
    have hnext : (f.act c action).2.names = Share.names ∘ update shares c
        { system := ((shares c).system.act action).2
          names := (f.system.actAs (shares c).names action).2.2, objects } := by
      rw [comp_update, ← hnames, ← hown]
      rfl
    rw [← hown] at hreply hafter
    obtain ⟨later, hlater, hlast, hclients⟩ := ih hafter (hown ▸ hnext) hrest
    refine ⟨later, hlater, hlast, ?_⟩
    intro d
    obtain ⟨hreplies, hsystem⟩ := hclients d
    have hplayed : (f.play ((c, action) :: rest)).1 =
        (c, (f.act c action).1) :: ((f.act c action).2.play rest).1 := rfl
    rw [hplayed]
    by_cases hd : d = c
    · subst hd
      rw [update_self] at hreplies hsystem
      rw [partOf_cons_self, partOf_cons_self]
      exact ⟨congrArg₂ List.cons hreply hreplies, hsystem⟩
    · rw [update_of_ne hd] at hreplies hsystem
      rw [partOf_cons_of_ne (Ne.symm hd), partOf_cons_of_ne (Ne.symm hd)]
      exact ⟨hreplies, hsystem⟩

end Play

namespace System

/-- A system with arenas and heaps on the first account, and nothing else. -/
structure Bare (s : System) : Prop where
  tokens : s.tokens = #[]
  store : s.store = {}
  ledger : s.ledger = []
  shared : ∀ {source : Source} {account : AccountId},
    s.account? source = some account → account = 0

namespace Bare

variable {s : System}

/-- A system with a further arena on the first account has nothing else still. -/
theorem placeArena (hs : s.Bare) (built : Except Violation Arena) :
    (s.placeArena built 0).2.Bare := by
  unfold System.placeArena
  split
  · cases built with
    | error violation => exact hs
    | ok arena =>
      refine ⟨hs.tokens, hs.store, ?_, ?_⟩
      · show (s.journal.push _).toList.filter _ = []
        rw [Array.toList_push, List.filter_append,
          show s.journal.toList.filter _ = [] from hs.ledger]
        rfl
      · intro source account hknown
        cases source with
        | heap id =>
          have hold : s.account? (.heap id) = some account := hknown
          exact hs.shared hold
        | arena id =>
          replace hknown : (s.arenas.push { arena := some arena, account := 0 })[id]?.map
            ArenaSlot.account = some account := hknown
          rw [Array.getElem?_push] at hknown
          split at hknown
          · exact (Option.some.inj hknown).symm
          · have hold : s.account? (.arena id) = some account := hknown
            exact hs.shared hold
  · exact hs

/-- A system with a further heap on the first account has nothing else still. -/
theorem openHeap (hs : s.Bare) : (s.openHeap 0).2.Bare := by
  unfold System.openHeap
  split
  · refine ⟨hs.tokens, hs.store, hs.ledger, ?_⟩
    intro source account hknown
    cases source with
    | arena id =>
      have hold : s.account? (.arena id) = some account := hknown
      exact hs.shared hold
    | heap id =>
      replace hknown : (s.heaps.push { number := s.nextHeap, account := 0 })[id]?.map
        Heap.account = some account := hknown
      rw [Array.getElem?_push] at hknown
      split at hknown
      · exact (Option.some.inj hknown).symm
      · have hold : s.account? (.heap id) = some account := hknown
        exact hs.shared hold
  · exact hs

/-- A call that builds on the first account adds nothing else. -/
theorem perform (hs : s.Bare) {call : Call} (hcall : call.IsBuild) : (s.perform call).2.Bare := by
  cases call with
  | createArena capacity account =>
    obtain rfl : account = 0 := hcall
    exact hs.placeArena _
  | lendArena units capacity account =>
    obtain rfl : account = 0 := hcall
    exact hs.placeArena _
  | openHeap account =>
    obtain rfl : account = 0 := hcall
    exact hs.openHeap
  | _ => exact hcall.elim

/-- Calls that build on the first account add nothing else. -/
theorem performAll (hs : s.Bare) {builds : List Call} (hbuilds : ∀ call ∈ builds, call.IsBuild) :
    (s.performAll builds).Bare := by
  induction builds generalizing s with
  | nil => exact hs
  | cons call rest ih =>
    obtain ⟨hcall, hrest⟩ := List.forall_mem_cons.1 hbuilds
    exact ih (hs.perform hcall) hrest

/-- Before any client does anything there is nothing but what was built. -/
theorem ground (host : Host) {builds : List Call} (hbuilds : ∀ call ∈ builds, call.IsBuild) :
    (ground host builds).Bare := by
  have hopened : (({ host } : System).perform .openAccount).2.Bare :=
    { tokens := rfl
      store := rfl
      ledger := rfl
      shared := by
        rintro (id | id) account hknown
        · simp [account?, System.perform, openAccount] at hknown
        · simp [account?, System.perform, openAccount] at hknown }
  exact hopened.performAll hbuilds

end Bare

end System

/-- Before the clients start, each has everything that was built. -/
theorem System.Bare.split {κ : Type} [DecidableEq κ] {s : System} (hs : s.Bare)
    (owner : Source → κ) :
    Split owner s fun _ => { system := s } where
  embedded c :=
    { host := rfl
      heaps := rfl
      arenas := fun _ => rfl
      shared := hs.shared
      tokens :=
        { size := by
            rw [hs.tokens]
            rfl
          slots := by simp
          injective := by simp
          known := by simp [hs.tokens] }
      objects :=
        { size := by
            rw [hs.store]
            rfl
          object := by simp
          injective := by simp }
      ledger := by
        rw [hs.ledger]
        rfl }
  tokens := by
    intro c d i j n hi
    simp at hi
  objects := by
    intro c d i j n hi
    simp at hi
  named := by simp [hs.tokens]

section Plans

variable {κ : Type} [DecidableEq κ] {host : Host} {builds : List Call}

/-- A client that has the account to itself leaves an attained system. -/
theorem attained_alone (host : Host) (builds : List Call) (actions : List Action) :
    (alone host builds actions).Attained :=
  (System.attained_performAll host (.openAccount :: builds)).run actions

/-- Clients in turn leave an attained system. -/
theorem attained_play (host : Host) (builds : List Call) (plan : List (κ × Action)) :
    ((Floor.start host builds).play plan).2.system.Attained :=
  Floor.attained_play (System.attained_performAll host (.openAccount :: builds)) plan

/-- The clients leave a system in which each has what it would leave alone. -/
theorem exists_shares (host : Host) (hbuilds : ∀ call ∈ builds, call.IsBuild) {owner : Source → κ}
    {plan : List (κ × Action)} (hplan : ∀ step ∈ plan, step.2.IsOf owner step.1) :
    ∃ shares, Split owner ((Floor.start host builds).play plan).2.system shares ∧
      ((Floor.start host builds).play plan).2.names = Share.names ∘ shares ∧
      ∀ c, partOf c ((Floor.start host builds).play plan).1 =
          ((ground host builds).run (partOf c plan)).1 ∧
        (shares c).system = alone host builds (partOf c plan) := by
  have hground : Split owner (Floor.start host builds : Floor κ).system
      fun _ => { system := ground host builds } := (System.Bare.ground host hbuilds).split owner
  exact hground.play rfl hplan

/-- Every object is behind a token that some client knows. -/
theorem exists_objectOf (host : Host) (hbuilds : ∀ call ∈ builds, call.IsBuild)
    {owner : Source → κ} {plan : List (κ × Action)}
    (hplan : ∀ step ∈ plan, step.2.IsOf owner step.1) {k : ObjectId}
    (hk : k < ((Floor.start host builds).play plan).2.system.store.objects.size) :
    ∃ c i, ((Floor.start host builds).play plan).2.objectOf c i = some k := by
  obtain ⟨shares, hsplit, hnames, -⟩ := exists_shares host hbuilds hplan
  obtain ⟨id, hid⟩ := (attained_play host builds plan).tokened hk
  obtain ⟨slot, hslot, -⟩ := Option.bind_eq_some_iff.1 hid
  obtain ⟨c, i, hname⟩ := hsplit.named (Array.getElem?_eq_some_iff.1 hslot).1
  refine ⟨c, i, ?_⟩
  rw [← hnames] at hname
  unfold Floor.objectOf
  rw [hname]
  exact hid

/-- The turns of the clients in another order are turns of these clients. -/
theorem isOf_of_partOf_eq {owner : Source → κ} {plan other : List (κ × Action)}
    (hplan : ∀ step ∈ plan, step.2.IsOf owner step.1)
    (horder : ∀ c, partOf c other = partOf c plan) :
    ∀ step ∈ other, step.2.IsOf owner step.1 := by
  rintro ⟨c, action⟩ hstep
  have hmine : action ∈ partOf c other := List.mem_filterMap.2 ⟨_, hstep, if_pos rfl⟩
  rw [horder] at hmine
  obtain ⟨⟨d, found⟩, hfound, hsome⟩ := List.mem_filterMap.1 hmine
  split at hsome
  · rename_i hd
    obtain rfl := Option.some.inj hsome
    exact hd ▸ hplan _ hfound
  · cases hsome

variable [Fintype κ]

/-- What is handed out in all is what is handed out to the clients. -/
theorem handedOut_play (host : Host) (hbuilds : ∀ call ∈ builds, call.IsBuild)
    {owner : Source → κ} {plan : List (κ × Action)}
    (hplan : ∀ step ∈ plan, step.2.IsOf owner step.1) :
    ((Floor.start host builds).play plan).2.system.handedOut 0 =
      ∑ c, (alone host builds (partOf c plan)).handedOut 0 := by
  obtain ⟨shares, hsplit, -, hclients⟩ := exists_shares host hbuilds hplan
  have hs := (attained_play host builds plan).coherent
  have hcoherent : ∀ c, (shares c).system.Coherent := by
    intro c
    rw [(hclients c).2]
    exact (attained_alone host builds _).coherent
  have hsum := hsplit.sum_eventsOf hcoherent hs Event.bytesIn
  simp only [(hclients _).2] at hsum
  exact hsum

/-- Clients in turn leave an account that is settled with what each of them would leave alone,
in whatever order they take their turns. -/
theorem settled_play (host : Host) (hbuilds : ∀ call ∈ builds, call.IsBuild) {owner : Source → κ}
    {plan : List (κ × Action)} (hplan : ∀ step ∈ plan, step.2.IsOf owner step.1)
    (hfit : ((Floor.start host builds).play plan).2.system.handedOut 0 < 2 ^ 64) :
    Settled ((Floor.start host builds).play plan).2.system
      fun c => alone host builds (partOf c plan) := by
  obtain ⟨shares, hsplit, -, hclients⟩ := exists_shares host hbuilds hplan
  have hplayed := attained_play host builds plan
  have halone : ∀ c, (shares c).system.Attained := by
    intro c
    rw [(hclients c).2]
    exact attained_alone host builds _
  have hsame : (fun c => (shares c).system) = fun c => alone host builds (partOf c plan) :=
    funext fun c => (hclients c).2
  rw [← hsame]
  apply hsplit.settled (fun c => (halone c).coherent) hplayed.coherent hfit (hplayed.counters_eq 0)
    fun c => (halone c).counters_eq 0
  intro c
  have hless := (hsplit.handedOut_le (fun c => (halone c).coherent) hplayed.coherent c).trans_lt
    hfit
  have hshared := @Embedded.shared _ _ _ _ _ _ (hsplit.embedded c)
  obtain ⟨first, own, hown, heq⟩ := (halone c).exists_calls
  rw [heq] at hless hshared ⊢
  apply System.solvent_eventsOf first 0 hown hless
  intro before hle
  exact System.attributed_of_shared first hown hshared hle

/-- Clients with arenas and heaps of their own share an account; each does what it does in its
own order, and `other` is `plan` with the turns in another order. Then every client gets the
same replies; every arena is the same in the end, and so is the object behind every token that
a client knows, and there are no other objects; the account counts the same bytes handed out
and in use and the same objects created and destroyed. In each of the two orders the peak is
at least that of every client alone and at most the sum of these. -/
theorem interleavings_agree (host : Host) (hbuilds : ∀ call ∈ builds, call.IsBuild)
    (owner : Source → κ) {plan other : List (κ × Action)}
    (hplan : ∀ step ∈ plan, step.2.IsOf owner step.1)
    (horder : ∀ c, partOf c other = partOf c plan)
    (hfit : ((Floor.start host builds).play plan).2.system.handedOut 0 < 2 ^ 64) :
    let floor := fun turns => ((Floor.start host builds).play turns).2
    let counters := fun turns => (floor turns).system.counters 0
    let peak := fun c => ((alone host builds (partOf c plan)).counters 0).peak.toNat
    (∀ c, partOf c ((Floor.start host builds).play other).1 =
      partOf c ((Floor.start host builds).play plan).1) ∧
    (floor other).Agrees (floor plan) ∧
    (∀ turns ∈ [plan, other], ∀ k, k < (floor turns).system.store.objects.size →
      ∃ c i, (floor turns).objectOf c i = some k) ∧
    (counters other).total = (counters plan).total ∧
    (counters other).inUse = (counters plan).inUse ∧
    (counters other).created = (counters plan).created ∧
    (counters other).destroyed = (counters plan).destroyed ∧
    ∀ turns ∈ [plan, other],
      (∀ c, peak c ≤ (counters turns).peak.toNat) ∧
        (counters turns).peak.toNat ≤ ∑ c, peak c := by
  intro floor counters peak
  have hother := isOf_of_partOf_eq hplan horder
  have hfit' : (floor other).system.handedOut 0 < 2 ^ 64 := by
    rw [handedOut_play host hbuilds hplan] at hfit
    rw [handedOut_play host hbuilds hother]
    simpa only [horder] using hfit
  obtain ⟨shares, hsplit, hnames, hclients⟩ := exists_shares host hbuilds hplan
  obtain ⟨shares', hsplit', hnames', hclients'⟩ := exists_shares host hbuilds hother
  have hsettled := settled_play host hbuilds hplan hfit
  have hsettled' := settled_play host hbuilds hother hfit'
  simp only [horder] at hsettled' hclients'
  obtain ⟨htotal, hinUse, hcreated, hdestroyed⟩ := hsettled'.counters_eq hsettled
  refine ⟨?_, ?_, ?_, htotal, hinUse, hcreated, hdestroyed, ?_⟩
  · intro c
    rw [(hclients' c).1, (hclients c).1]
  · apply hsplit'.agrees hnames' hsplit hnames
    intro c
    rw [(hclients' c).2, (hclients c).2]
  · simp only [List.forall_mem_cons]
    refine ⟨?_, ?_, by simp⟩
    · intro k hk
      exact exists_objectOf host hbuilds hplan hk
    · intro k hk
      exact exists_objectOf host hbuilds hother hk
  · simp only [List.forall_mem_cons]
    exact ⟨⟨hsettled.peak_ge, hsettled.peak_le⟩, ⟨hsettled'.peak_ge, hsettled'.peak_le⟩, by simp⟩

/-- One client works with an arena and one with a heap. The arena is empty again before the
object is created, or only afterwards. -/
theorem interleavings_agree_of_two :
    let builds := [Call.lendArena #[0, 0] 16 0, .openHeap 0]
    let plan := [(true, Action.call (.alloc 0 8)), (true, .call (.reset 0)),
      (false, .call (.create 0 5)), (false, .call (.release 0 0))]
    let other := [(true, Action.call (.alloc 0 8)), (false, .call (.create 0 5)),
      (true, .call (.reset 0)), (false, .call (.release 0 0))]
    let counters := fun turns : List (Bool × Action) =>
      ((Floor.start Host.standard builds).play turns).2.system.counters 0
    (counters other).total = (counters plan).total ∧ (counters plan).total = 13 ∧
      (counters other).inUse = (counters plan).inUse ∧ (counters plan).inUse = 0 ∧
      (counters plan).peak = 8 ∧ (counters other).peak = 13 := by
  intro builds plan other counters
  let owner : Source → Bool := fun source => source = .arena 0
  have hbuilds : ∀ call ∈ builds, call.IsBuild := by simp [builds, Call.IsBuild]
  have hplan : ∀ step ∈ plan, step.2.IsOf owner step.1 := by
    simp [plan, owner, Action.IsOf, Call.IsOf]
  have horder : ∀ c, partOf c other = partOf c plan := by
    intro c
    cases c <;> rfl
  obtain ⟨-, -, -, htotal, hinUse, -⟩ :=
    interleavings_agree Host.standard hbuilds owner hplan horder (by decide +kernel)
  exact ⟨htotal, by decide +kernel, hinUse, by decide +kernel, by decide +kernel, by decide +kernel⟩

end Plans

end Allotment

import Allotment.Proofs.Solvency
import Allotment.Proofs.System.Ledger
import Allotment.Proofs.System.Split

set_option autoImplicit false

/-!
The account of a shared system. Its ledger is that of the clients, one line after the other as
they came, so it counts what the accounts of the clients would count alone. Only its peak
depends on the order: it lies between the largest of the peaks of the clients and their sum.
-/

namespace Allotment

open Finset

namespace System

variable {s : System} {host : Host} {calls : List Call}

/-- Where the first account is the only one it records the whole ledger. -/
theorem eventsOf_eq_ledger (hs : s.Coherent)
    (hshared : ∀ {source : Source} {account : AccountId},
      s.account? source = some account → account = 0) :
    s.eventsOf 0 = s.ledger.map Entry.event := by
  unfold eventsOf eventsIn ledger
  rw [← List.filterMap_eq_map, List.filterMap_filter]
  apply List.filterMap_congr
  intro entry hentry
  obtain ⟨account, hknown⟩ := hs.journal hentry
  obtain rfl := hshared hknown
  simp [hknown]

/-- A heap stays what it is through every run. -/
theorem heaps_performAll {id : HeapId} {heap : Heap} (hheap : s.heaps[id]? = some heap)
    (hsingle : ∀ call ∈ calls, call.IsSingle) : (s.performAll calls).heaps[id]? = some heap :=
  performAll_induction (P := fun s => s.heaps[id]? = some heap) (fun hheap h => h.heaps_eq hheap)
    hheap hsingle

/-- Where all heaps share an account in the end, every object was always on the account of the
heaps that accept its tokens. -/
theorem attributed_of_shared (host : Host) (hsingle : ∀ call ∈ calls, call.IsSingle)
    {account : AccountId}
    (hshared : ∀ {source : Source} {reported : AccountId},
      (({ host } : System).performAll calls).account? source = some reported → reported = account)
    {before : List Call} (hle : before <+: calls) :
    (({ host } : System).performAll before).Attributed := by
  obtain ⟨later, rfl⟩ := hle
  obtain ⟨hbefore, hlater⟩ := List.forall_mem_append.1 hsingle
  apply (attained_performAll host before).recorded.attributed_of_shared
  intro id heap hheap
  have hkept := heaps_performAll hheap hlater
  rw [← performAll_append] at hkept
  exact hshared (account?_of_heap hkept)

/-- No account takes back more than it handed out. -/
theorem solvent_eventsOf (host : Host) (account : AccountId)
    (hsingle : ∀ call ∈ calls, call.IsSingle)
    (hfit : (({ host } : System).performAll calls).handedOut account < 2 ^ 64)
    (hattributed : ∀ before, before <+: calls →
      (({ host } : System).performAll before).Attributed) :
    Solvent ((({ host } : System).performAll calls).eventsOf account) := by
  induction calls using List.reverseRecOn with
  | nil =>
    intro before hbefore
    rw [List.prefix_nil.1 hbefore]
    exact le_refl 0
  | append_singleton calls call ih =>
    obtain ⟨hbefore, hlast⟩ := List.forall_mem_append.1 hsingle
    have hs := (attained_performAll host calls).coherent
    obtain ⟨entries, h⟩ :=
      ({ host } : System).stepped_last calls (List.forall_mem_singleton.1 hlast)
    have hearlier := ih hbefore ((h.handedOut_le hs account).trans_lt hfit) fun before hle =>
      hattributed before (hle.trans (List.prefix_append _ _))
    have hconserved := (balanced_of_attributed host account hsingle hfit hattributed).conserved
    have hfew := h.length_eventsIn_le account
    -- the last call announces one event at most, so it adds one moment at most
    intro before hle
    rw [h.eventsOf_eq hs] at hle
    rcases hevents : (({ host } : System).performAll (calls ++ [call])).eventsIn account entries
      with _ | ⟨event, _ | ⟨next, rest⟩⟩
    · rw [hevents, List.append_nil] at hle
      exact hearlier before hle
    · rw [hevents] at hle
      rcases List.prefix_concat_iff.1 hle with rfl | hle
      · rw [← hevents, ← h.eventsOf_eq hs]
        have hback : (({ host } : System).performAll (calls ++ [call])).takenBack account ≤
            (({ host } : System).performAll (calls ++ [call])).handedOut account := by
          rw [hconserved]
          exact Nat.le_add_left _ _
        exact hback
      · exact hearlier before hle
    · rw [hevents] at hfew
      simp at hfew

end System

section Accounts

variable {κ : Type} [DecidableEq κ] {owner : Source → κ} {s : System} {shares : κ → Share}

/-- Every arena and every heap of a split system reports to the first account. -/
theorem Split.shared (h : Split owner s shares) {source : Source} {account : AccountId}
    (hknown : s.account? source = some account) : account = 0 := by
  cases source with
  | arena id =>
    have hembedded := h.embedded (owner (.arena id))
    have hown : (shares (owner (.arena id))).system.account? (.arena id) = some account := by
      rw [← hknown, System.account?, System.account?, hembedded.arenas rfl]
    exact hembedded.shared hown
  | heap id =>
    have hembedded := h.embedded (owner (.heap id))
    have hown : (shares (owner (.heap id))).system.account? (.heap id) = some account := by
      rw [← hknown, System.account?, System.account?, hembedded.heaps]
    exact hembedded.shared hown

variable [Fintype κ]

/-- The account that clients share counts what the accounts of all of them would count, and its
peak lies between the largest of their peaks and the sum of these. -/
structure Settled (s : System) (alone : κ → System) : Prop where
  total : (s.counters 0).total.toNat = ∑ c, ((alone c).counters 0).total.toNat
  inUse : (s.counters 0).inUse.toNat = ∑ c, ((alone c).counters 0).inUse.toNat
  created : (s.counters 0).created.toNat =
    (∑ c, ((alone c).counters 0).created.toNat) % 2 ^ 64
  destroyed : (s.counters 0).destroyed.toNat =
    (∑ c, ((alone c).counters 0).destroyed.toNat) % 2 ^ 64
  peak_ge : ∀ c, ((alone c).counters 0).peak.toNat ≤ (s.counters 0).peak.toNat
  peak_le : (s.counters 0).peak.toNat ≤ ∑ c, ((alone c).counters 0).peak.toNat

omit [DecidableEq κ] in
/-- Two systems that are settled with the same clients have the same counters, peaks apart. -/
theorem Settled.counters_eq {s t : System} {alone : κ → System} (hs : Settled s alone)
    (ht : Settled t alone) :
    (s.counters 0).total = (t.counters 0).total ∧ (s.counters 0).inUse = (t.counters 0).inUse ∧
      (s.counters 0).created = (t.counters 0).created ∧
      (s.counters 0).destroyed = (t.counters 0).destroyed :=
  ⟨UInt64.toNat_inj.1 (hs.total.trans ht.total.symm),
    UInt64.toNat_inj.1 (hs.inUse.trans ht.inUse.symm),
    UInt64.toNat_inj.1 (hs.created.trans ht.created.symm),
    UInt64.toNat_inj.1 (hs.destroyed.trans ht.destroyed.symm)⟩

namespace Split

variable (h : Split owner s shares) (halone : ∀ c, (shares c).system.Coherent)
include h halone

omit [Fintype κ] in
/-- The part of a client in the shared ledger is what its account records alone. -/
theorem eventsBy_eq (c : κ) :
    eventsBy (fun entry : Entry => owner entry.source) Entry.event c s.ledger =
      (shares c).system.eventsOf 0 := by
  rw [System.eventsOf_eq_ledger (halone c) (h.embedded c).shared, ← (h.embedded c).ledger]
  rfl

variable (hs : s.Coherent)
include hs

/-- What is announced on the shared account weighs what the clients announce. -/
theorem sum_eventsOf (weight : Event → ℕ) :
    ((s.eventsOf 0).map weight).sum = ∑ c, (((shares c).system.eventsOf 0).map weight).sum := by
  rw [System.eventsOf_eq_ledger hs h.shared,
    sum_map_eq_sum_eventsBy fun entry : Entry => owner entry.source]
  simp only [h.eventsBy_eq halone]

/-- What a client hands out alone is part of what the shared account hands out. -/
theorem handedOut_le (c : κ) : (shares c).system.handedOut 0 ≤ s.handedOut 0 := by
  have hsum : s.handedOut 0 = ∑ c, (shares c).system.handedOut 0 :=
    h.sum_eventsOf halone hs Event.bytesIn
  rw [hsum]
  exact single_le_sum (f := fun c => (shares c).system.handedOut 0) (fun _ _ => Nat.zero_le _)
    (mem_univ c)

/-- The account of a shared system counts right if those of the clients alone do. -/
theorem settled (hfit : s.handedOut 0 < 2 ^ 64)
    (hcounters : s.counters 0 = (s.eventsOf 0).foldl Counters.note {})
    (hcounters' : ∀ c, (shares c).system.counters 0 =
      ((shares c).system.eventsOf 0).foldl Counters.note {})
    (hsolvent : ∀ c, Solvent ((shares c).system.eventsOf 0)) :
    Settled s fun c => (shares c).system := by
  have hsum := h.sum_eventsOf halone hs
  have hledger := System.eventsOf_eq_ledger hs h.shared
  have hsolvents : ∀ c,
      Solvent (eventsBy (fun entry : Entry => owner entry.source) Entry.event c s.ledger) := by
    intro c
    rw [h.eventsBy_eq halone]
    exact hsolvent c
  -- no client takes back more than it was handed out, so the levels of all of them add up
  have hlevel : level (s.eventsOf 0) = ∑ c, level ((shares c).system.eventsOf 0) := by
    rw [hledger, level_eq_sum hsolvents List.prefix_rfl]
    simp only [h.eventsBy_eq halone]
  have hall : Solvent (s.eventsOf 0) := hledger ▸ solvent_of_owners hsolvents
  obtain ⟨htotal, hinUse, hpeak⟩ := Counters.foldl_note_of_solvent hall hfit
  obtain ⟨hcreated, hdestroyed⟩ := Counters.toNat_foldl_note_objects (s.eventsOf 0)
  rw [← hcounters] at htotal hinUse hpeak hcreated hdestroyed
  have hown := fun c => Counters.foldl_note_of_solvent (hsolvent c)
    ((h.handedOut_le halone hs c).trans_lt hfit)
  have hobjects := fun c => Counters.toNat_foldl_note_objects ((shares c).system.eventsOf 0)
  simp only [← hcounters'] at hown hobjects
  have hbounds : (∀ c, ((shares c).system.counters 0).peak.toNat ≤ (s.counters 0).peak.toNat) ∧
      (s.counters 0).peak.toNat ≤ ∑ c, ((shares c).system.counters 0).peak.toNat := by
    apply peak_bounds hsolvents
    · rwa [← hledger]
    · intro c
      rw [h.eventsBy_eq halone]
      exact (hown c).2.2
  exact
    { total := by
        rw [htotal, hsum]
        exact sum_congr rfl fun c _ => (hown c).1.symm
      inUse := by
        rw [hinUse, hlevel]
        exact sum_congr rfl fun c _ => (hown c).2.1.symm
      created := by
        rw [hcreated, hsum, sum_nat_mod]
        exact congrArg (· % 2 ^ 64) (sum_congr rfl fun c _ => (hobjects c).1.symm)
      destroyed := by
        rw [hdestroyed, hsum, sum_nat_mod]
        exact congrArg (· % 2 ^ 64) (sum_congr rfl fun c _ => (hobjects c).2.symm)
      peak_ge := hbounds.1
      peak_le := hbounds.2 }

end Split

end Accounts

end Allotment

import Allotment.Proofs.Bookkeeping
import Mathlib.Algebra.BigOperators.Group.Finset.Piecewise
import Mathlib.Algebra.Order.BigOperators.Group.Finset
import Mathlib.Order.Bounds.Basic

set_option autoImplicit false

/-!
Lists of events that never take back more than was handed out. Over such a list an account
counts exactly, and its peak is the highest level that the list reaches. Where events of
several owners come in one list, in whatever order, the level of the list is at every moment
the sum of the levels of the owners.
-/

namespace Allotment

open Finset

/-- The bytes that are in use after some events. -/
def level (events : List Event) : ℕ :=
  (events.map Event.bytesIn).sum - (events.map Event.bytesOut).sum

/-- At no moment more was taken back than was handed out. -/
def Solvent (events : List Event) : Prop :=
  ∀ before, before <+: events →
    (before.map Event.bytesOut).sum ≤ (before.map Event.bytesIn).sum

/-- Events that never take back more than was handed out are so from the start on. -/
theorem Solvent.of_prefix {before events : List Event} (h : Solvent events)
    (hle : before <+: events) : Solvent before :=
  fun _ hearlier => h _ (hearlier.trans hle)

namespace Counters

/-- An account counts exactly over events that hand out less than `2 ^ 64` bytes and never take
back more than was handed out. -/
theorem foldl_note_of_solvent {events : List Event} (h : Solvent events)
    (hfit : (events.map Event.bytesIn).sum < 2 ^ 64) :
    (events.foldl note {}).total.toNat = (events.map Event.bytesIn).sum ∧
    (events.foldl note {}).inUse.toNat = level events ∧
    IsGreatest {n | ∃ before, before <+: events ∧ level before = n}
      (events.foldl note {}).peak.toNat := by
  induction events using List.reverseRecOn with
  | nil =>
    refine ⟨rfl, rfl, ⟨[], List.prefix_rfl, rfl⟩, ?_⟩
    rintro n ⟨before, hbefore, rfl⟩
    rw [List.prefix_nil.1 hbefore]
    exact le_refl 0
  | append_singleton events event ih =>
    have hin : ((events ++ [event]).map Event.bytesIn).sum =
        (events.map Event.bytesIn).sum + event.bytesIn := by simp
    have hout : ((events ++ [event]).map Event.bytesOut).sum =
        (events.map Event.bytesOut).sum + event.bytesOut := by simp
    have hnow := h _ List.prefix_rfl
    have hearlier := h events (List.prefix_append _ _)
    obtain ⟨htotal, hinUse, hgreatest⟩ :=
      ih (h.of_prefix (List.prefix_append _ _)) (by omega)
    have hpeak : level events ≤ (events.foldl note {}).peak.toNat :=
      hgreatest.2 ⟨events, List.prefix_rfl, rfl⟩
    have hlevel : level events ≤ (events.map Event.bytesIn).sum := Nat.sub_le _ _
    rw [hin, hout] at hnow
    rw [List.foldl_concat, hin, moments_concat]
    have hinUse' : ((events.foldl note {}).note event).inUse.toNat = level (events ++ [event]) := by
      rw [inUse_note _ event (by omega), hinUse, level, level, hin, hout]
      omega
    refine ⟨?_, hinUse', ?_⟩
    · rw [total_note _ event (by omega), htotal]
    · rw [peak_note _ event (by omega), hinUse', max_comm]
      exact hgreatest.insert _

/-- The count of created objects grows by those of the event, as a word. -/
theorem created_note_eq (c : Counters) (event : Event) :
    (c.note event).created = c.created + UInt64.ofNat event.births := by
  cases event <;> simp [note, Event.charge?, record, grow, shrink, Event.births, Event.bornWeight]

/-- The count of destroyed objects grows by those of the event, as a word. -/
theorem destroyed_note_eq (c : Counters) (event : Event) :
    (c.note event).destroyed = c.destroyed + UInt64.ofNat event.deaths := by
  cases event <;> simp [note, Event.charge?, record, grow, shrink, Event.deaths, Event.diedWeight]

/-- How often objects came and went does not depend on when they did. -/
theorem foldl_note_objects (c : Counters) (events : List Event) :
    (events.foldl note c).created = c.created + UInt64.ofNat (events.map Event.births).sum ∧
    (events.foldl note c).destroyed =
      c.destroyed + UInt64.ofNat (events.map Event.deaths).sum := by
  induction events generalizing c with
  | nil => simp
  | cons event rest ih =>
    obtain ⟨hcreated, hdestroyed⟩ := ih (c.note event)
    rw [List.foldl_cons, hcreated, hdestroyed, created_note_eq, destroyed_note_eq]
    simp [UInt64.ofNat_add, UInt64.add_assoc]

/-- The counts of objects on a new account are the exact ones up to multiples of `2 ^ 64`. -/
theorem toNat_foldl_note_objects (events : List Event) :
    (events.foldl note {}).created.toNat = (events.map Event.births).sum % 2 ^ 64 ∧
    (events.foldl note {}).destroyed.toNat = (events.map Event.deaths).sum % 2 ^ 64 := by
  obtain ⟨hcreated, hdestroyed⟩ := foldl_note_objects {} events
  rw [hcreated, hdestroyed]
  simp

end Counters

section Merged

variable {κ ι : Type} [Fintype κ] [DecidableEq κ] (owner : ι → κ) (event : ι → Event)

/-- The events of one owner among the lines of all. -/
def eventsBy (c : κ) (lines : List ι) : List Event :=
  (lines.filter fun line => owner line = c).map event

/-- What all events weigh is what the events of all owners weigh. -/
theorem sum_map_eq_sum_eventsBy (weight : Event → ℕ) (lines : List ι) :
    ((lines.map event).map weight).sum =
      ∑ c, ((eventsBy owner event c lines).map weight).sum := by
  induction lines with
  | nil => simp [eventsBy]
  | cons line rest ih =>
    have hcons : ∀ c, ((eventsBy owner event c (line :: rest)).map weight).sum =
        (if owner line = c then weight (event line) else 0) +
          ((eventsBy owner event c rest).map weight).sum := by
      intro c
      unfold eventsBy
      rw [List.filter_cons]
      by_cases hc : owner line = c <;> simp [hc]
    simp only [hcons, sum_add_distrib, sum_ite_eq, mem_univ, if_true]
    rw [List.map_cons, List.map_cons, List.sum_cons, ih]

variable {owner event} {lines : List ι}
  (h : ∀ c, Solvent (eventsBy owner event c lines))
include h

/-- Events of owners who never take back more than they were handed out do not do so together. -/
theorem solvent_of_owners : Solvent (lines.map event) := by
  intro before hbefore
  obtain ⟨earlier, hearlier, rfl⟩ := List.prefix_map_iff.1 hbefore
  rw [sum_map_eq_sum_eventsBy owner, sum_map_eq_sum_eventsBy owner]
  apply sum_le_sum
  intro c _
  exact h c _ ((hearlier.filter _).map _)

/-- The level of all is at every moment the sum of the levels of the owners. -/
theorem level_eq_sum {before : List ι} (hbefore : before <+: lines) :
    level (before.map event) = ∑ c, level (eventsBy owner event c before) := by
  unfold level
  rw [sum_tsub_distrib, sum_map_eq_sum_eventsBy owner, sum_map_eq_sum_eventsBy owner]
  intro c _
  exact h c _ ((hbefore.filter _).map _)

/-- The highest level of all is at least that of each owner and at most their sum. -/
theorem peak_bounds {peak : ℕ} {peaks : κ → ℕ}
    (hpeak : IsGreatest {n | ∃ before, before <+: lines.map event ∧ level before = n} peak)
    (hpeaks : ∀ c, IsGreatest
      {n | ∃ before, before <+: eventsBy owner event c lines ∧ level before = n} (peaks c)) :
    (∀ c, peaks c ≤ peak) ∧ peak ≤ ∑ c, peaks c := by
  constructor
  · intro c
    obtain ⟨⟨own, hown, hlevel⟩, -⟩ := hpeaks c
    -- the moment at which this owner is at its highest is one of all owners together
    obtain ⟨mine, hmine, rfl⟩ := List.prefix_map_iff.1 hown
    obtain ⟨rest, hrest⟩ := hmine
    obtain ⟨before, after, rfl, hbefore, -⟩ := List.filter_eq_append_iff.1 hrest.symm
    have hle := List.prefix_append before after
    calc peaks c = level (eventsBy owner event c before) := by
          rw [← hlevel, eventsBy, hbefore]
      _ ≤ ∑ d, level (eventsBy owner event d before) :=
          single_le_sum (f := fun d => level (eventsBy owner event d before))
            (fun _ _ => Nat.zero_le _) (mem_univ c)
      _ = level (before.map event) := (level_eq_sum h hle).symm
      _ ≤ peak := hpeak.2 ⟨_, hle.map _, rfl⟩
  · obtain ⟨⟨before, hbefore, rfl⟩, -⟩ := hpeak
    obtain ⟨earlier, hearlier, rfl⟩ := List.prefix_map_iff.1 hbefore
    rw [level_eq_sum h hearlier]
    apply sum_le_sum
    intro c _
    exact (hpeaks c).2 ⟨_, (hearlier.filter _).map _, rfl⟩

end Merged

end Allotment

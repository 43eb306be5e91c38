import Allotment.Event
import Mathlib.Algebra.BigOperators.Group.List.Basic
import Mathlib.Algebra.GroupWithZero.Nat
import Mathlib.Data.Set.Insert
import Mathlib.Data.Nat.Notation

set_option autoImplicit false

/-!
What the counters of an account record of one event, as exact numbers. An event
brings bytes into use or takes them out of use; as long as the sums stay below
`2 ^ 64` and nothing is taken out that is not in use, the counters move by
exactly these amounts, and the peak is the larger one of what it was and of what
is in use now.
-/

namespace Allotment

/-- The values at the moments of a run that went on by one step are those from before and the
one at its end. -/
theorem moments_concat {α : Type} (f : List α → ℕ) (run : List α) (step : α) :
    {n | ∃ before, before <+: run ++ [step] ∧ f before = n} =
      insert (f (run ++ [step])) {n | ∃ before, before <+: run ∧ f before = n} := by
  ext n
  simp only [List.prefix_concat_iff, Set.mem_insert_iff, Set.mem_ofPred_eq, or_and_right,
    exists_or, exists_eq_left, eq_comm]

namespace Word

/-- A sum of words that is less than `2 ^ 64` is exact. -/
theorem toNat_add_of_lt {a b : UInt64} (h : a.toNat + b.toNat < 2 ^ 64) :
    (a + b).toNat = a.toNat + b.toNat := by
  rw [UInt64.toNat_add, Nat.mod_eq_of_lt h]

/-- The greater one of two words is the greater one of the numbers. -/
theorem toNat_max (a b : UInt64) : (max a b).toNat = max a.toNat b.toNat := by
  show (if a ≤ b then b else a).toNat = _
  split <;> rename_i h <;> rw [UInt64.le_iff_toNat_le] at h <;> omega

end Word

namespace Event

/-- The bytes that an event brings into use. -/
def bytesIn : Event → ℕ
  | granted bytes => bytes.toNat
  | created size => size.toNat
  | _ => 0

/-- The bytes that an event takes out of use. -/
def bytesOut : Event → ℕ
  | restored reclaimed _ => reclaimed.toNat
  | destroyed size => size.toNat
  | _ => 0

/-- The bytes that an event grants from an arena. -/
def grantedBytes : Event → ℕ
  | granted bytes => bytes.toNat
  | _ => 0

/-- The bytes that an event gives back to an arena. -/
def reclaimedBytes : Event → ℕ
  | restored reclaimed _ => reclaimed.toNat
  | _ => 0

/-- The weight, by its size, of the object that an event creates. -/
def bornWeight (weight : UInt64 → ℕ) : Event → ℕ
  | created size => weight size
  | _ => 0

/-- The weight, by its size, of the object that an event destroys. -/
def diedWeight (weight : UInt64 → ℕ) : Event → ℕ
  | destroyed size => weight size
  | _ => 0

/-- The objects that an event creates: one or none. -/
def births : Event → ℕ :=
  bornWeight fun _ => 1

/-- The objects that an event destroys: one or none. -/
def deaths : Event → ℕ :=
  diedWeight fun _ => 1

/-- An event without a charge moves no bytes and concerns no object. -/
theorem weights_of_quiet {event : Event} (h : event.charge? = none) (weight : UInt64 → ℕ) :
    event.grantedBytes = 0 ∧ event.reclaimedBytes = 0 ∧
      event.bornWeight weight = 0 ∧ event.diedWeight weight = 0 := by
  cases event with
  | arenaReady | contextReady => exact ⟨rfl, rfl, rfl, rfl⟩
  | _ => cases h

/-- The bytes that an event hands out are granted by an arena or taken up by a new object. -/
theorem bytesIn_eq (event : Event) :
    event.bytesIn = event.grantedBytes + event.bornWeight UInt64.toNat := by
  cases event <;> simp [bytesIn, grantedBytes, bornWeight]

/-- The bytes that an event takes back are reclaimed by an arena or left by a destroyed object.
-/
theorem bytesOut_eq (event : Event) :
    event.bytesOut = event.reclaimedBytes + event.diedWeight UInt64.toNat := by
  cases event <;> simp [bytesOut, reclaimedBytes, diedWeight]

end Event

namespace Counters

/-- The total grows by the bytes that are handed out, as long as it is a word. -/
theorem total_note (c : Counters) (event : Event)
    (hfit : c.total.toNat + event.bytesIn < 2 ^ 64) :
    (c.note event).total.toNat = c.total.toNat + event.bytesIn := by
  cases event with
  | granted bytes => exact Word.toNat_add_of_lt hfit
  | created size => exact Word.toNat_add_of_lt hfit
  | _ => rfl

/-- What is in use grows by what is handed out and shrinks by what is taken back, down to zero
at most. -/
theorem inUse_note (c : Counters) (event : Event)
    (hfit : c.inUse.toNat + event.bytesIn < 2 ^ 64) :
    (c.note event).inUse.toNat = c.inUse.toNat + event.bytesIn - event.bytesOut := by
  cases event with
  | granted bytes => exact Word.toNat_add_of_lt hfit
  | created size => exact Word.toNat_add_of_lt hfit
  | restored reclaimed offset => exact Word.toNat_monus _ _
  | destroyed size => exact Word.toNat_monus _ _
  | _ => rfl

/-- The peak is raised to what is in use, if that is more. -/
theorem peak_note (c : Counters) (event : Event) (hpeak : c.inUse.toNat ≤ c.peak.toNat) :
    (c.note event).peak.toNat = max c.peak.toNat (c.note event).inUse.toNat := by
  cases event with
  | granted bytes => exact Word.toNat_max _ _
  | created size => exact Word.toNat_max _ _
  | restored reclaimed offset =>
    have hless := Word.toNat_monus c.inUse reclaimed
    show c.peak.toNat = max c.peak.toNat (Word.monus c.inUse reclaimed).toNat
    omega
  | destroyed size =>
    have hless := Word.toNat_monus c.inUse size
    show c.peak.toNat = max c.peak.toNat (Word.monus c.inUse size).toNat
    omega
  | _ => exact (Nat.max_eq_left hpeak).symm

/-- The count of created objects grows by those of the event, as long as it is a word. -/
theorem created_note (c : Counters) (event : Event)
    (hfit : c.created.toNat + event.births < 2 ^ 64) :
    (c.note event).created.toNat = c.created.toNat + event.births := by
  cases event with
  | created size => exact Word.toNat_add_of_lt hfit
  | _ => rfl

/-- The count of destroyed objects grows by those of the event, as long as it is a word. -/
theorem destroyed_note (c : Counters) (event : Event)
    (hfit : c.destroyed.toNat + event.deaths < 2 ^ 64) :
    (c.note event).destroyed.toNat = c.destroyed.toNat + event.deaths := by
  cases event with
  | destroyed size => exact Word.toNat_add_of_lt hfit
  | _ => rfl

/-- Counters that hold what they should move as they should over one event or none. -/
theorem foldl_note_of_few (c : Counters) {events : List Event} (hfew : events.length ≤ 1)
    (hfit : c.total.toNat + (events.map Event.bytesIn).sum < 2 ^ 64)
    (htotal : c.inUse.toNat ≤ c.total.toNat) (hpeak : c.inUse.toNat ≤ c.peak.toNat) :
    (events.foldl note c).total.toNat = c.total.toNat + (events.map Event.bytesIn).sum ∧
    (events.foldl note c).inUse.toNat =
      c.inUse.toNat + (events.map Event.bytesIn).sum - (events.map Event.bytesOut).sum ∧
    (events.foldl note c).peak.toNat = max c.peak.toNat (events.foldl note c).inUse.toNat := by
  match events, hfew with
  | [], _ => exact ⟨rfl, rfl, (Nat.max_eq_left hpeak).symm⟩
  | [event], _ =>
    rw [List.map_singleton, List.sum_singleton] at hfit ⊢
    rw [List.map_singleton, List.sum_singleton]
    have hinUse := c.inUse_note event (by omega)
    exact ⟨c.total_note event hfit, hinUse, c.peak_note event hpeak⟩

/-- At most one event adds its objects to the counts, as long as these are words. -/
theorem foldl_note_objects_of_few (c : Counters) {events : List Event}
    (hfew : events.length ≤ 1)
    (hborn : c.created.toNat + (events.map Event.births).sum < 2 ^ 64)
    (hdied : c.destroyed.toNat + (events.map Event.deaths).sum < 2 ^ 64) :
    (events.foldl note c).created.toNat = c.created.toNat + (events.map Event.births).sum ∧
    (events.foldl note c).destroyed.toNat =
      c.destroyed.toNat + (events.map Event.deaths).sum := by
  match events, hfew with
  | [], _ => exact ⟨rfl, rfl⟩
  | [event], _ =>
    rw [List.map_singleton, List.sum_singleton] at hborn hdied ⊢
    rw [List.map_singleton, List.sum_singleton]
    exact ⟨c.created_note event hborn, c.destroyed_note event hdied⟩

end Counters

end Allotment

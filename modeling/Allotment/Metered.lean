import Allotment.Event
set_option autoImplicit false

/-!
# Metered allocators

An allocator together with the account it reports to. Whatever it announces
is recorded by the counters of the account and kept for the log, in order.
-/

namespace Allotment

/-- An allocator at work, with the counters of its account and the events
announced so far. -/
structure Metered (α : Type) where
  subject : α
  counters : Counters
  /-- What was announced, the first event first. -/
  events : Array Event := #[]

namespace Metered

variable {α : Type}

/-- The counters record an event and the log keeps it. -/
def announce (m : Metered α) (event : Event) : Metered α :=
  { m with counters := m.counters.note event, events := m.events.push event }

/-- Announcing an event leaves the allocator itself as it is. -/
@[simp]
theorem subject_announce (m : Metered α) (event : Event) :
    (m.announce event).subject = m.subject :=
  rfl

/-- The account takes note of an event that is announced. -/
@[simp]
theorem counters_announce (m : Metered α) (event : Event) :
    (m.announce event).counters = m.counters.note event :=
  rfl

/-- An event that is announced is the last one. -/
@[simp]
theorem events_announce (m : Metered α) (event : Event) :
    (m.announce event).events = m.events.push event :=
  rfl

end Metered

end Allotment

import Allotment.Proofs.Arena.Lockstep

set_option autoImplicit false

/-!
Two arenas are alike if they have the same capacity and the same granted bytes.
What lies beyond the granted part, how long the buffers are and how the arenas
came to be as they are is not compared, and no program finds it out: it gets the
same replies from both, announces the same events, and leaves them alike. A grant
clears what it exposes, so nothing that was rolled back comes back.
-/

namespace Allotment

namespace Arena

/-- Two arenas with the same capacity and the same granted bytes. -/
structure Alike (a b : Arena) : Prop where
  capacity : a.capacity = b.capacity
  used : a.used = b.used
  bytes : ∀ i, i < a.used.toNat → a.bytes[i]? = b.bytes[i]?

namespace Alike

variable {a b : Arena}

/-- Every arena is like itself. -/
theorem refl (a : Arena) : a.Alike a :=
  ⟨rfl, rfl, fun _ _ => rfl⟩

/-- An arena like one that is like a third is like the third. -/
theorem trans {c : Arena} (h : a.Alike b) (h' : b.Alike c) : a.Alike c := by
  refine ⟨h.capacity.trans h'.capacity, h.used.trans h'.used, ?_⟩
  intro i hi
  have hi' : i < b.used.toNat := h.used ▸ hi
  rw [h.bytes i hi, h'.bytes i hi']

/-- Alike arenas find the same place for a request, or refuse it with the same numbers. -/
theorem place_eq (h : a.Alike b) (size : UInt64) : a.place size = b.place size :=
  place_congr h.used h.capacity size

/-- Alike arenas have granted the same bytes. -/
theorem sameGrants (h : a.Alike b) : a.SameGrants b :=
  ⟨h.used, h.bytes⟩

/-- Alike arenas answer every request alike. -/
theorem answered (h : a.Alike b) (size : UInt64) : Answered Eq (a.place size) (b.place size) := by
  rw [h.place_eq]
  cases b.place size with
  | ok region => exact .served region
  | error failure => exact .refused rfl

/-- A move leaves two alike arenas alike and announces the same of both. -/
theorem move (h : a.Alike b) (ha : a.Bounded) (hb : b.Bounded) (step : ArenaMove) :
    (a.move step).Alike (b.move step) ∧ a.announced step = b.announced step := by
  obtain ⟨⟨hused, hbytes⟩, hevents⟩ := h.sameGrants.move ha hb fun size _ => h.answered size
  refine ⟨⟨?_, hused, hbytes⟩, hevents⟩
  rw [capacity_move, capacity_move, h.capacity]

/-- Alike arenas stay in step over all moves, with refusals that are the same. -/
theorem inStep (h : a.Alike b) (ha : a.Bounded) (hb : b.Bounded) (moves : List ArenaMove) :
    InStep Eq a b moves := by
  induction moves generalizing a b with
  | nil => trivial
  | cons step rest ih =>
    exact ⟨fun size _ => h.answered size, ih (h.move ha hb step).1 (ha.move step) (hb.move step)⟩

/-- The same moves take alike arenas to alike ones and announce the same events. -/
theorem moveAll (h : a.Alike b) (ha : a.Bounded) (hb : b.Bounded) (moves : List ArenaMove) :
    (a.moveAll moves).Alike (b.moveAll moves) ∧ a.announcedAll moves = b.announcedAll moves := by
  obtain ⟨⟨hused, hbytes⟩, hevents⟩ := h.sameGrants.moveAll ha hb (h.inStep ha hb moves)
  refine ⟨⟨?_, hused, hbytes⟩, hevents⟩
  rw [capacity_moveAll, capacity_moveAll, h.capacity]

end Alike

end Arena

namespace Metered

variable {m n : Metered Arena}

/-- Two metered arenas that are alike within their bounds. -/
structure Twins (m n : Metered Arena) : Prop where
  alike : m.subject.Alike n.subject
  left : m.subject.Bounded
  right : n.subject.Bounded

/-- Twins stay twins over all moves, whatever their accounts say. -/
theorem Twins.moveAll (h : m.Twins n) (moves : List ArenaMove) :
    (m.moveAll moves).Twins (n.moveAll moves) := by
  rw [moveAll_eq, moveAll_eq]
  exact ⟨(h.alike.moveAll h.left h.right moves).1, h.left.moveAll moves, h.right.moveAll moves⟩

/-- Twins have the same bytes granted, within their bounds. -/
theorem Twins.abreast (h : m.Twins n) : m.Abreast n :=
  ⟨h.alike.sameGrants, h.left, h.right⟩

/-- A program gets the same replies from twins, by the same moves. -/
theorem Twins.performAll (h : m.Twins n) (calls : List ArenaCall) :
    (m.performAll calls).1 = (n.performAll calls).1 ∧
      m.programMoves calls = n.programMoves calls := by
  obtain ⟨hreplies, hmoves⟩ :=
    h.abreast.performAll calls (h.alike.inStep h.left h.right (m.programMoves calls))
  exact ⟨hreplies.eq id, hmoves⟩

end Metered

end Allotment

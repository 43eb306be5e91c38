import Allotment.Proofs.System.Replays

set_option autoImplicit false

/-!
How often a replay resets its arena lies between two bounds. The resets cut a trace into
segments. No segment fills the arena beyond its capacity, so they cannot be few; and the size
that opens a segment had no room beside what the segment before it left, so two neighbours
together are beyond the capacity, and they cannot be many. What the arena holds carries both
bounds from one size of the trace to the next.
-/

namespace Allotment

namespace Arena

variable {arena : Arena} {size : UInt64} {sizes : List UInt64}

/-- What one size that fits does to the two bounds. A reset takes away at most a capacity, and
comes only if what is held and the size are beyond the capacity. -/
theorem Bounded.bounds_request (hbounded : arena.Bounded)
    (hfits : roundUp size.toNat ≤ arena.capacity.toNat) :
    arena.used.toNat + roundUp size.toNat ≤
        (arena.refuses size).toNat * arena.capacity.toNat + (arena.request size).used.toNat ∧
      (arena.refuses size).toNat * (arena.capacity.toNat + 1) + (arena.request size).used.toNat ≤
        arena.used.toNat + 2 * roundUp size.toNat := by
  have hheld : arena.used.toNat ≤ arena.capacity.toNat := hbounded.fits
  have hrefuses := arena.refuses_iff size
  have hrequested := arena.requested size
  generalize arena.servedAll (arena.requestMoves size) = served,
    arena.announcedAll (arena.requestMoves size) = events,
    arena.request size = after at hrequested ⊢
  cases hrequested with
  | placed hroom hlength hused =>
    have hserved : arena.refuses size = false := by
      rw [← Bool.not_eq_true, hrefuses]
      omega
    rw [hserved, Bool.toNat_false]
    omega
  | moved hfull _ hlength hused =>
    rw [hrefuses.2 hfull, Bool.toNat_true]
    omega
  | passed hnever hused => exact absurd hfits (Nat.not_le.2 hnever)

/-- The bounds over a whole trace, whatever the arena held at its start. -/
theorem Bounded.bounds_traced (hbounded : arena.Bounded)
    (hfits : ∀ size ∈ sizes, roundUp size.toNat ≤ arena.capacity.toNat) :
    arena.used.toNat + roundedSum sizes ≤
        arena.refusals sizes * arena.capacity.toNat + (arena.traced sizes).used.toNat ∧
      arena.refusals sizes * (arena.capacity.toNat + 1) + (arena.traced sizes).used.toNat ≤
        arena.used.toNat + 2 * roundedSum sizes := by
  induction sizes generalizing arena with
  | nil =>
    show _ ≤ 0 * _ + arena.used.toNat ∧ 0 * _ + arena.used.toNat ≤ _
    rw [Nat.zero_mul, Nat.zero_mul]
    exact ⟨(Nat.zero_add _).ge, (Nat.zero_add _).le⟩
  | cons size rest ih =>
    obtain ⟨hfirst, hrest⟩ := List.forall_mem_cons.1 hfits
    have hnext : (arena.request size).Bounded := hbounded.moveAll _
    obtain ⟨hlower, hupper⟩ := hbounded.bounds_request hfirst
    obtain ⟨hlowers, huppers⟩ := ih hnext (by rwa [capacity_request])
    rw [capacity_request] at hlowers huppers
    have hsum : roundedSum (size :: rest) = roundUp size.toNat + roundedSum rest := rfl
    have hlast : arena.traced (size :: rest) = (arena.request size).traced rest := rfl
    rw [refusals_cons, hsum, hlast, Nat.add_mul, Nat.add_mul]
    constructor <;> omega

end Arena

namespace System

variable {s : System} {id : ArenaId} {arena : Arena} {account : AccountId}

/-- In every attained system, wherever an arena stands, the replay of a trace all of whose
sizes fit an empty arena returns the number of its resets. With `S` for what the arena held and
the rounded sizes together, and `c` for its capacity, that is enough segments to hold `S`, and
no more than twice as many as `S` fills: `S` is at most `c` times one more than the number, and
`c` times the number is at most `2 * S`, and less than that if there is any reset. -/
theorem resets_bounded (hs : s.Attained)
    (hslot : s.arenas[id]? = some { arena := some arena, account }) {sizes : List UInt64}
    (hfits : ∀ size ∈ sizes, roundUp size.toNat ≤ arena.capacity.toNat) :
    let S := arena.used.toNat + roundedSum sizes
    let c := arena.capacity.toNat
    ∃ resets : ℕ, (s.replay id sizes).1 = .ok resets ∧
      S ≤ (resets + 1) * c ∧ resets * c ≤ 2 * S ∧ (0 < resets → resets * c < 2 * S) := by
  intro S c
  have hbounded := hs.bounded hslot
  obtain ⟨hlower, hupper⟩ := hbounded.bounds_traced hfits
  have hlast : (arena.traced sizes).used.toNat ≤ c := by
    have hfit := (hbounded.moveAll (arena.traceMoves sizes)).fits
    rwa [Arena.moveAll_traceMoves, Arena.capacity_traced] at hfit
  have hreplay : (s.replay id sizes).1 = .ok (arena.refusals sizes) :=
    congrArg Prod.fst (replay_eq hslot sizes)
  generalize arena.refusals sizes = resets at hlower hupper hreplay
  have htwice : resets * c + resets ≤ 2 * S := by
    calc resets * c + resets = resets * (c + 1) := (Nat.mul_succ resets c).symm
      _ ≤ arena.used.toNat + 2 * roundedSum sizes := (Nat.le_add_right _ _).trans hupper
      _ ≤ 2 * S := by omega
  refine ⟨resets, hreplay, ?_, by omega, by omega⟩
  calc S ≤ resets * c + (arena.traced sizes).used.toNat := hlower
    _ ≤ resets * c + c := Nat.add_le_add_left hlast _
    _ = (resets + 1) * c := (Nat.succ_mul resets c).symm

/-- A trace that is reset for each of its sizes, as none of them fits beside the one before it,
on an arena whose capacity is not aligned. -/
theorem resets_bounded_of_alternating :
    let s := ({} : System).performAll [.openAccount, .createArena 20 0, .alloc 0 5]
    (s.replay 0 [13, 1, 16]).1 = .ok 3 ∧ 8 + 40 ≤ (3 + 1) * 20 ∧ 3 * 20 < 2 * (8 + 40) := by
  intro s
  have hs : s.Attained := attained_performAll Host.standard _
  let arena : Arena := { bytes := Array.replicate 24 0, capacity := 20, offset := 8 }
  have hslot : s.arenas[0]? = some { arena := some arena, account := 0 } := rfl
  have hfits : ∀ size ∈ ([13, 1, 16] : List UInt64), roundUp size.toNat ≤ 20 := by
    rw [List.forall_mem_cons, List.forall_mem_cons, List.forall_mem_singleton]
    decide
  obtain ⟨resets, hreply, hlower, -, hstrict⟩ := resets_bounded hs hslot hfits
  have hcount : (s.replay 0 [13, 1, 16]).1 = .ok 3 := by decide +kernel
  obtain rfl : 3 = resets := Except.ok.inj (hcount.symm.trans hreply)
  exact ⟨hcount, hlower, hstrict (by decide)⟩

end System

end Allotment

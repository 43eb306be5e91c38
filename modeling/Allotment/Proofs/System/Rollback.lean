import Allotment.Proofs.Arena.Alike
import Allotment.Proofs.System.Ledger
import Mathlib.Algebra.Order.BigOperators.Group.Finset

set_option autoImplicit false

/-!
Nothing survives a rollback. Two arenas that were reached in any two runs and are alike
answer every program alike, whatever lies beyond their granted bytes. They also charge
their accounts alike: the bytes of a reached arena are in use on its account, so its
rollbacks are recorded to the byte.
-/

namespace Allotment

namespace Metered

variable {m n : Metered Arena}

/-- The account has in use what the arena has granted, and has handed out and reached
before what it has in use. -/
structure Covered (m : Metered Arena) : Prop where
  used : m.subject.used.toNat ≤ m.counters.inUse.toNat
  total : m.counters.inUse.toNat ≤ m.counters.total.toNat
  peak : m.counters.inUse.toNat ≤ m.counters.peak.toNat

/-- A move that fits changes the total by what it grants, and what is in use as it
changes the offset. -/
theorem Covered.move (hc : m.Covered) (step : ArenaMove)
    (hfit : m.counters.total.toNat + ((m.subject.announced step).map Event.bytesIn).sum < 2 ^ 64) :
    (m.move step).Covered ∧
      (m.move step).counters.total.toNat =
        m.counters.total.toNat + ((m.subject.announced step).map Event.bytesIn).sum ∧
      (m.move step).counters.inUse.toNat + m.subject.used.toNat =
        m.counters.inUse.toNat + (m.move step).subject.used.toNat := by
  obtain ⟨hused, htotal, hpeak⟩ := hc
  have hsubject : (m.move step).subject = m.subject.move step := by rw [move_eq]
  have hcounters : (m.move step).counters =
      (m.subject.announced step).foldl Counters.note m.counters := by rw [move_eq]
  have hoffset : (m.move step).subject.used.toNat + _ = m.subject.used.toNat + _ :=
    hsubject ▸ m.subject.offset_move step
  obtain ⟨htotal', hinUse', hpeak'⟩ :=
    m.counters.foldl_note_of_few (m.subject.length_announced_le step) hfit htotal hpeak
  rw [← hcounters] at htotal' hinUse' hpeak'
  exact ⟨⟨by omega, by omega, by omega⟩, htotal', by omega⟩

/-- Moves that fit change the total by what they grant, and what is in use as they change the
offset. -/
theorem Covered.moveAll (hc : m.Covered) (moves : List ArenaMove)
    (hfit : m.counters.total.toNat +
      ((m.subject.announcedAll moves).map Event.bytesIn).sum < 2 ^ 64) :
    (m.moveAll moves).counters.total.toNat =
        m.counters.total.toNat + ((m.subject.announcedAll moves).map Event.bytesIn).sum ∧
      (m.moveAll moves).counters.inUse.toNat + m.subject.used.toNat =
        m.counters.inUse.toNat + (m.moveAll moves).subject.used.toNat := by
  induction moves generalizing m with
  | nil => exact ⟨rfl, rfl⟩
  | cons step rest ih =>
    rw [Arena.announcedAll, List.map_append, List.sum_append] at hfit ⊢
    have hsubject : (m.move step).subject = m.subject.move step := by rw [move_eq]
    obtain ⟨hcovered, htotal, hinUse⟩ := hc.move step (by omega)
    rw [← hsubject] at hfit ⊢
    obtain ⟨htotal', hinUse'⟩ := ih hcovered (by omega)
    show ((m.move step).moveAll rest).counters.total.toNat = _ ∧
      ((m.move step).moveAll rest).counters.inUse.toNat + _ =
        _ + ((m.move step).moveAll rest).subject.used.toNat
    exact ⟨by omega, by omega⟩

/-- Twins are charged the same for the same moves. -/
theorem Twins.charged (h : m.Twins n) (hm : m.Covered) (hn : n.Covered) (moves : List ArenaMove)
    (hfit : m.counters.total.toNat +
      ((m.subject.announcedAll moves).map Event.bytesIn).sum < 2 ^ 64)
    (hfit' : n.counters.total.toNat +
      ((m.subject.announcedAll moves).map Event.bytesIn).sum < 2 ^ 64) :
    (m.moveAll moves).counters.total.toNat + n.counters.total.toNat =
        (n.moveAll moves).counters.total.toNat + m.counters.total.toNat ∧
      (m.moveAll moves).counters.inUse.toNat + n.counters.inUse.toNat =
        (n.moveAll moves).counters.inUse.toNat + m.counters.inUse.toNat := by
  have hevents := (h.alike.moveAll h.left h.right moves).2
  have hused : m.subject.used.toNat = n.subject.used.toNat :=
    congrArg UInt64.toNat h.alike.used
  have hused' : (m.moveAll moves).subject.used.toNat = (n.moveAll moves).subject.used.toNat :=
    congrArg UInt64.toNat (h.moveAll moves).alike.used
  obtain ⟨htotal, hinUse⟩ := hm.moveAll moves hfit
  rw [hevents] at htotal hfit'
  obtain ⟨htotal', hinUse'⟩ := hn.moveAll moves hfit'
  exact ⟨by omega, by omega⟩

/-- After a reset an arena is the twin of every fresh one of its capacity. -/
theorem Twins.reset_fresh (hbounded : m.subject.Bounded) {bytes : Bytes} {fresh : Arena}
    (hfresh : Arena.ofBytes bytes m.subject.capacity = .ok fresh) (counters : Counters) :
    m.reset.Twins { subject := fresh, counters } := by
  refine ⟨?_, ?_, (Arena.sound_of_ofBytes hfresh).toBounded⟩
  · rw [reset_eq, (Arena.ofBytes_eq_ok hfresh).2]
    refine ⟨rfl, rfl, ?_⟩
    intro i hi
    exact absurd hi (Nat.not_lt_zero i)
  · rw [show m.reset = m.move (.restore { offset := 0 }) from rfl, move_eq]
    exact hbounded.move (.restore { offset := 0 })

end Metered

namespace System

variable {s s' : System} {call : Call} {entries : List Entry}

/-- Every arena of a system lies within its bounds. -/
def ArenasBounded (s : System) : Prop :=
  ∀ (id : ArenaId) (arena : Arena) (account : AccountId),
    s.arenas[id]? = some { arena := some arena, account } → arena.Bounded

/-- A new arena within its bounds leaves every arena within its bounds. -/
theorem ArenasBounded.push (hb : s.ArenasBounded) {arena : Arena} (hbounded : arena.Bounded)
    {id : ArenaId} {owner account : AccountId} {found : Arena}
    (h : (s.arenas.push { arena := some arena, account := owner })[id]? =
      some { arena := some found, account }) : found.Bounded := by
  rw [Array.getElem?_push] at h
  split at h
  · cases h
    exact hbounded
  · exact hb id found account h

/-- An arena put in its place within its bounds leaves every arena within its bounds. -/
theorem ArenasBounded.set (hb : s.ArenasBounded) {next : ArenaSlot}
    (hnext : ∀ arena, next.working? = some arena → arena.Bounded) {id other : ArenaId}
    {account : AccountId} {found : Arena}
    (h : (s.arenas.setIfInBounds other next)[id]? = some { arena := some found, account }) :
    found.Bounded := by
  rw [Array.getElem?_setIfInBounds] at h
  split at h
  · split at h
    · cases h
      exact hnext found rfl
    · cases h
  · exact hb id found account h

/-- A single call leaves every arena within its bounds. -/
theorem ArenasBounded.step (hb : s.ArenasBounded) (h : Stepped s call entries s') :
    s'.ArenasBounded := by
  intro id found account hslot
  cases h with
  | arenaAdded hopen hmade => exact hb.push (Arena.sound_of_ofBytes hmade).toBounded hslot
  | contextAdded hmade => exact hb.push (Arena.sound_of_ofBytes hmade).toBounded hslot
  | @arenaMoved _ other owner arena step hbefore =>
    apply hb.set ?_ hslot
    rintro after ⟨⟩
    exact (hb other arena owner hbefore).move step
  | bufferReturned hbefore | arenaDropped hbefore =>
    apply hb.set ?_ hslot
    rintro after ⟨⟩
  | _ => exact hb id found account hslot

/-- What an arena has granted is part of what the arenas of its account have granted. -/
theorem used_le_inArenas {id : ArenaId} {arena : Arena} {account : AccountId}
    (hslot : s.arenas[id]? = some { arena := some arena, account }) :
    arena.used.toNat ≤ s.inArenas account := by
  have hid := (Array.getElem?_eq_some_iff.1 hslot).1
  have hshare : s.arenaShare account id = arena.used.toNat := by
    unfold arenaShare
    rw [hslot, Option.elim_some, if_pos rfl]
    rfl
  rw [← hshare]
  exact Finset.single_le_sum (fun _ _ => Nat.zero_le _) (Finset.mem_range.2 hid)

section Attained

variable {id : ArenaId} {arena : Arena} {account : AccountId} (h : s.Attained)
  (hslot : s.arenas[id]? = some { arena := some arena, account })
include h hslot

/-- Every arena of an attained system lies within its bounds. -/
theorem Attained.bounded : arena.Bounded := by
  have hall : s.ArenasBounded :=
    h.kept (fun hb hstep => hb.step hstep) fun _ _ _ _ hnone => by simp at hnone
  exact hall id arena account hslot

/-- What an arena has granted is in use on its account. -/
theorem Attained.covered (hfit : s.handedOut account < 2 ^ 64)
    (hdistinct : s.heaps.size < 2 ^ 64) :
    Metered.Covered { subject := arena, counters := s.counters account } := by
  obtain ⟨host, calls, rfl, htotal, hinUse, hconserved, hpeak⟩ :=
    h.exists_balanced account hfit hdistinct
  have hused := used_le_inArenas hslot
  have hnow := hpeak.2 ⟨calls, List.prefix_rfl, rfl⟩
  unfold outstanding at hinUse hconserved hnow
  have hcovers : arena.used.toNat ≤
      ((({ host } : System).performAll calls).counters account).inUse.toNat := by omega
  have hbelow : ((({ host } : System).performAll calls).counters account).inUse.toNat ≤
      ((({ host } : System).performAll calls).counters account).total.toNat := by omega
  exact ⟨hcovers, hbelow, hinUse ▸ hnow⟩

end Attained

/-- Two arenas reached in any two runs, with the same capacity and the same granted bytes,
whatever lies beyond these and however they came about, also under hosts that changed.
Every program gets the same replies from both, and after each of its moves, also inside
its scopes and replays, they are alike again, have announced the same, and have changed
the totals and what is in use on their accounts by the same, if the totals fit. That what
is in use never stops at zero rests on the ledger of the account, and so on its objects
being destroyed by their own heaps: heaps are numbered by words, so no two heaps are taken
for one another as long as there are less than `2 ^ 64` of them. After a reset an arena
answers like any fresh one of its capacity, whatever the fresh buffer holds. -/
theorem rollback_leaves_no_trace {host₁ host₂ : Host} {s₁ s₂ : System} {id₁ id₂ : ArenaId}
    {a b : Arena} {o₁ o₂ : AccountId} (h₁ : Reached host₁ s₁) (h₂ : Reached host₂ s₂)
    (ha : s₁.arenas[id₁]? = some { arena := some a, account := o₁ })
    (hb : s₂.arenas[id₂]? = some { arena := some b, account := o₂ })
    (halike : a.Alike b) (calls : List ArenaCall) :
    let m : Metered Arena := { subject := a, counters := s₁.counters o₁ }
    let n : Metered Arena := { subject := b, counters := s₂.counters o₂ }
    (m.performAll calls).1 = (n.performAll calls).1 ∧
    m.programMoves calls = n.programMoves calls ∧
    (∀ moves, moves <+: m.programMoves calls →
      (m.moveAll moves).subject.Alike (n.moveAll moves).subject ∧
      (m.moveAll moves).events = (n.moveAll moves).events ∧
      ∀ granted, granted = ((a.announcedAll moves).map Event.bytesIn).sum →
        s₁.heaps.size < 2 ^ 64 → s₁.handedOut o₁ + granted < 2 ^ 64 →
        s₂.heaps.size < 2 ^ 64 → s₂.handedOut o₂ + granted < 2 ^ 64 →
        (m.moveAll moves).counters.total.toNat + n.counters.total.toNat =
          (n.moveAll moves).counters.total.toNat + m.counters.total.toNat ∧
        (m.moveAll moves).counters.inUse.toNat + n.counters.inUse.toNat =
          (n.moveAll moves).counters.inUse.toNat + m.counters.inUse.toNat) ∧
    ∀ bytes fresh counters, Arena.ofBytes bytes a.capacity = .ok fresh →
      (m.reset.performAll calls).1 =
        (Metered.performAll { subject := fresh, counters } calls).1 := by
  intro m n
  have htwins : m.Twins n := ⟨halike, h₁.attained.bounded ha, h₂.attained.bounded hb⟩
  obtain ⟨hreplies, hmoves⟩ := htwins.performAll calls
  refine ⟨hreplies, hmoves, ?_, ?_⟩
  · intro moves _
    have hevents := (halike.moveAll htwins.left htwins.right moves).2
    refine ⟨(htwins.moveAll moves).alike, ?_, ?_⟩
    · rw [Metered.moveAll_eq, Metered.moveAll_eq]
      show #[] ++ (a.announcedAll moves).toArray = #[] ++ (b.announcedAll moves).toArray
      rw [hevents]
    · rintro granted rfl hheaps₁ hfit₁ hheaps₂ hfit₂
      have hcovered₁ := h₁.attained.covered ha (by omega) hheaps₁
      have hcovered₂ := h₂.attained.covered hb (by omega) hheaps₂
      -- the totals are what was handed out, so the moves fit in words on both sides
      rw [← (h₁.attained.booked o₁ (by omega)).total] at hfit₁
      rw [← (h₂.attained.booked o₂ (by omega)).total] at hfit₂
      exact htwins.charged hcovered₁ hcovered₂ moves hfit₁ hfit₂
  · intro bytes fresh counters hfresh
    have hreset : m.reset.Twins { subject := fresh, counters } :=
      Metered.Twins.reset_fresh htwins.left hfresh counters
    exact (hreset.performAll calls).1

/-- A lent buffer with old bytes in it, and a buffer of its own where something was
written and rolled back: the next grant reads the same in both, is charged the same,
and after a reset reads as in another buffer with old bytes. -/
theorem rollback_leaves_no_trace_of_write :
    let lending : List Action :=
      [ .call .openAccount, .call (.lendArena #[5, 18446744073709551615] 16 0),
        .call (.alloc 0 8) ]
    let owning : List Action :=
      [ .call .openAccount, .call (.createArena 16 0), .call (.alloc 0 8), .call (.alloc 0 8),
        .call (.write 0 ⟨8, 8⟩ { fill := some 9 }), .call (.restore 0 ⟨8⟩) ]
    let lent := (run { host := Host.standard } lending).2
    let owned := (run { host := Host.standard } owning).2
    let a : Arena :=
      { bytes := Array.replicate 8 0 ++ Array.replicate 8 255, capacity := 16, offset := 8 }
    let b : Arena :=
      { bytes := Array.replicate 8 0 ++ Array.replicate 8 9, capacity := 16, offset := 8 }
    let fresh : Arena := { bytes := Array.replicate 24 7, capacity := 16 }
    let m : Metered Arena := { subject := a, counters := lent.counters 0 }
    let n : Metered Arena := { subject := b, counters := owned.counters 0 }
    let calls : List ArenaCall := [.alloc 5, .read ⟨8, 8⟩]
    (m.performAll calls).1 = (n.performAll calls).1 ∧
      (m.moveAll [.alloc 5]).counters.inUse.toNat + n.counters.inUse.toNat =
        (n.moveAll [.alloc 5]).counters.inUse.toNat + m.counters.inUse.toNat ∧
      (m.reset.performAll calls).1 =
        (Metered.performAll { subject := fresh, counters := {} } calls).1 := by
  intro lending owning lent owned a b fresh m n calls
  have hlent : Reached Host.standard lent := ⟨lending, rfl⟩
  have howned : Reached Host.standard owned := ⟨owning, rfl⟩
  have ha : lent.arenas[0]? = some { arena := some a, account := 0 } := rfl
  have hb : owned.arenas[0]? = some { arena := some b, account := 0 } := rfl
  have halike : a.Alike b := ⟨by decide, by decide, by decide +kernel⟩
  have hfresh : Arena.ofBytes (Array.replicate 24 7) a.capacity = .ok fresh := rfl
  obtain ⟨hreplies, -, hmoments, hreset⟩ :=
    rollback_leaves_no_trace hlent howned ha hb halike calls
  obtain ⟨-, -, hcharged⟩ := hmoments [.alloc 5] List.prefix_rfl
  have hcounters := hcharged 8 (by decide +kernel) (by decide +kernel) (by decide +kernel)
    (by decide +kernel) (by decide +kernel)
  exact ⟨hreplies, hcounters.2, hreset _ fresh {} hfresh⟩

end System

end Allotment

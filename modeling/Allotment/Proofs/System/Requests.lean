import Allotment.Proofs.Arena.Requests
import Allotment.Proofs.System.Courses
import Allotment.Proofs.System.Rollback

set_option autoImplicit false

/-!
A request is decided by one inequality between exact numbers: it is served if what is granted
and the rounded size make up no more than the capacity. The words take three ways to refuse
it, as the rounding, the sum or the comparison may fail, but all of them say the same. What a
refusal tells is enough to know from then on when the request would be served.
-/

namespace Allotment

namespace System

variable {s : System} {id : ArenaId}

section Arenas

variable {arena : Arena} {account : AccountId}
  (hslot : s.arenas[id]? = some { arena := some arena, account })
include hslot

/-- However the system goes on, an arena that can still be worked with has its old capacity. -/
theorem capacity_run (actions : List Action) {later : Arena} {owner : AccountId}
    (hlater : (s.run actions).2.arenas[id]? = some { arena := some later, account := owner }) :
    later.capacity = arena.capacity := by
  rw [snd_run] at hlater
  obtain ⟨rfl, -⟩ := course hslot (fun _ => s.isSingle_of_mem_unrollAll actions) hlater
  exact arena.capacity_moveAll _

/-- A request of an arena that is there gets the region that the arena places, and no other one.
-/
theorem fst_alloc_eq_ok_iff (size : UInt64) (region : Region) :
    (s.alloc id size).1 = .ok region ↔ arena.place size = .ok region := by
  rw [alloc_eq hslot]
  cases arena.place size <;> simp [Except.mapError]

/-- A request that is granted moves the offset of its arena, is charged to the account of the
arena and changes nothing else. -/
theorem snd_alloc_of_ok {size : UInt64} {region : Region} (hplace : arena.place size = .ok region) :
    (s.alloc id size).2 =
      s.place id { arena := some (arena.grant region), account } [.granted region.length] := by
  simp only [alloc_eq hslot, Arena.move, Arena.announced, hplace]

/-- The account counts the rounded size of a request that is served. -/
theorem charged_of_alloc (hs : s.Attained) {size : UInt64} {region : Region}
    (hplace : arena.place size = .ok region) :
    let after := (s.alloc id size).2
    after.handedOut account < 2 ^ 64 →
      (after.counters account).total.toNat =
        (s.counters account).total.toNat + roundUp size.toNat ∧
      (after.counters account).inUse.toNat =
        (s.counters account).inUse.toNat + roundUp size.toNat ∧
      (after.counters account).peak =
        max (s.counters account).peak (after.counters account).inUse := by
  intro after hfit
  have hafter : after = s.place id { arena := some (arena.grant region), account }
      [.granted region.length] := snd_alloc_of_ok hslot hplace
  have hcounters : after.counters account = (s.counters account).note (.granted region.length) := by
    rw [hafter]
    exact counters_place hslot hs.coherent _ _
  have hhanded : after.handedOut account = s.handedOut account + region.length.toNat := by
    rw [hafter]
    exact handedOut_place hslot _ _
  obtain ⟨htotal, hinUse, -⟩ := hs.booked account (by omega)
  rw [hcounters, ← (Arena.place_eq_ok hplace).2.1]
  exact ⟨Counters.total_note _ _ (by simp only [Event.bytesIn]; omega),
    Counters.inUse_note _ _ (by simp only [Event.bytesIn]; omega), rfl⟩

/-- A request that the arena cannot place is refused with the two numbers of the arena, and
changes nothing. -/
theorem alloc_of_error {size : UInt64} {failure : AllocationFailure}
    (hplace : arena.place size = .error failure) :
    s.alloc id size = (.error (.exhausted failure), s) := by
  simp only [alloc_eq hslot, Arena.move, Arena.announced, hplace, Except.mapError, place_self hslot]

end Arenas

/-- In every attained system, whatever is asked of an arena on a buffer that can be: the
request is served exactly if what is granted and the rounded size make up no more than the
capacity, all as exact numbers. The region begins where the granted bytes end and spans the
rounded size; its bytes are zero and all others are what they were; and the account counts
the rounded size, as long as its total is a word. A request that is not served changes
nothing, and tells how many bytes are left and how many were asked for: the rounded size if
that is a word, and always more than are left. From then on, however the system goes on, the
same request is served exactly when so many bytes are left. -/
theorem requests_decided (hs : s.Attained) {arena : Arena} {account : AccountId}
    (hslot : s.arenas[id]? = some { arena := some arena, account })
    (hbuffer : arena.bufferSize ≤ Arena.maxBufferSize) (size : UInt64) :
    let reply := (s.alloc id size).1
    let after := (s.alloc id size).2
    let rounded := roundUp size.toNat
    ((∃ region, reply = .ok region) ↔ arena.used.toNat + rounded ≤ arena.capacity.toNat) ∧
    (∀ region, reply = .ok region →
      region.offset = arena.used ∧ region.length.toNat = rounded ∧
      (∃ next : Arena, after.arenas[id]? = some { arena := some next, account } ∧
        next.capacity = arena.capacity ∧ next.bufferSize = arena.bufferSize ∧
        next.used.toNat = arena.used.toNat + rounded ∧
        ∀ i, next.bytes[i]? =
          if arena.used.toNat ≤ i ∧ i < arena.used.toNat + rounded then some 0
          else arena.bytes[i]?) ∧
      (after.handedOut account < 2 ^ 64 →
        (after.counters account).total.toNat = (s.counters account).total.toNat + rounded ∧
        (after.counters account).inUse.toNat = (s.counters account).inUse.toNat + rounded ∧
        (after.counters account).peak =
          max (s.counters account).peak (after.counters account).inUse)) ∧
    ∀ refusal, reply = .error refusal →
      after = s ∧
      ∃ failure, refusal = .exhausted failure ∧
        failure.available.toNat = arena.capacity.toNat - arena.used.toNat ∧
        failure.requested.toNat = (if rounded < 2 ^ 64 then rounded else size.toNat) ∧
        failure.available < failure.requested ∧
        ∀ (actions : List Action) (later : Arena) (owner : AccountId),
          (s.run actions).2.arenas[id]? = some { arena := some later, account := owner } →
          ((∃ region, ((s.run actions).2.alloc id size).1 = .ok region) ↔
            failure.requested ≤ later.remaining) := by
  intro reply after rounded
  have hbounded := hs.bounded hslot
  -- a buffer is less than `2 ^ 63` bytes, so rounding up what may fit stays in the word range
  have hlimit : arena.capacity.toNat < 2 ^ 63 := by
    have hmax : Arena.maxBufferSize = 2 ^ 63 - 1 := by decide
    have hbacked : arena.capacity.toNat ≤ arena.bufferSize := hbounded.backed
    omega
  have hserved : (∃ region, reply = .ok region) ↔ ∃ region, arena.place size = .ok region :=
    exists_congr (fst_alloc_eq_ok_iff hslot size)
  refine ⟨hserved.trans (arena.exists_place_iff size), ?_, ?_⟩
  · intro region hreply
    have hplace := (fst_alloc_eq_ok_iff hslot size region).1 hreply
    obtain ⟨hoffset, hlength, hstop, -⟩ := Arena.place_eq_ok hplace
    have hafter : after.arenas[id]? = some { arena := some (arena.grant region), account } := by
      show (s.alloc id size).2.arenas[id]? = _
      rw [snd_alloc_of_ok hslot hplace]
      exact arenas_place hslot _ _
    refine ⟨hoffset, hlength, ⟨arena.grant region, hafter, rfl, arena.size_bytes_grant region, ?_,
      hbounded.getElem?_grant hplace⟩, charged_of_alloc hslot hs hplace⟩
    show region.stop.toNat = arena.offset.toNat + _
    rw [hstop, hlength]
  · intro refusal hreply
    cases hplace : arena.place size with
    | ok region =>
      have hok := (fst_alloc_eq_ok_iff hslot size region).2 hplace
      exact absurd (hok.symm.trans hreply) (by simp)
    | error failure =>
      have halloc := alloc_of_error hslot hplace
      obtain ⟨hfull, rfl⟩ := (arena.place_eq_error_iff size failure).1 hplace
      have hrefusal : refusal = .exhausted (arena.failureFor size) := by
        have heq : reply = .error (.exhausted (arena.failureFor size)) := congrArg Prod.fst halloc
        exact Except.error.inj (hreply.symm.trans heq)
      refine ⟨congrArg Prod.snd halloc, _, hrefusal, hbounded.toNat_remaining,
        arena.toNat_requested size, ?_, ?_⟩
      · have hnot : ¬ ∃ region, arena.place size = .ok region := by simp [hplace]
        rw [hbounded.exists_place_iff_requested rfl hlimit] at hnot
        exact UInt64.not_le.1 hnot
      · intro actions later owner hlater
        -- the capacity stays as it is, so what is left later on decides about the same request
        have hcapacity := capacity_run hslot actions hlater
        have hboundedLater := (hs.run actions).bounded hlater
        rw [← hboundedLater.exists_place_iff_requested hcapacity hlimit]
        exact exists_congr (fst_alloc_eq_ok_iff hlater size)

/-- An arena whose capacity lies between whole units. A request for the bytes that are left is
refused, as the rounded size is beyond the capacity, and is served after a reset; one without
a rounded size is refused as it stands. -/
theorem requests_decided_of_unaligned :
    let s := ({} : System).performAll [.openAccount, .lendArena #[5, 6, 7] 20 0, .alloc 0 3]
    let reset : List Action := [.call (.reset 0)]
    (∀ region, (s.alloc 0 5).1 = .ok region → region.offset = 8 ∧ region.length.toNat = 8 ∧
      ((s.alloc 0 5).2.counters 0).total.toNat = 16) ∧
      ((s.alloc 0 12).2 = s ∧
        ∃ failure, (s.alloc 0 12).1 = .error (.exhausted failure) ∧
          failure.available.toNat = 12 ∧ failure.requested.toNat = 16 ∧
          ∃ region, ((s.run reset).2.alloc 0 12).1 = .ok region) ∧
      ∃ failure, (s.alloc 0 18446744073709551615).1 = .error (.exhausted failure) ∧
        failure.requested.toNat = 18446744073709551615 := by
  intro s reset
  have hs : s.Attained := attained_performAll Host.standard _
  let arena : Arena :=
    { bytes := Array.replicate 8 0 ++ #[6, 0, 0, 0, 0, 0, 0, 0, 7, 0, 0, 0, 0, 0, 0, 0]
      capacity := 20
      offset := 8 }
  have hslot : s.arenas[0]? = some { arena := some arena, account := 0 } := rfl
  have hafter : (s.run reset).2.arenas[0]? =
      some { arena := some { arena with offset := 0 }, account := 0 } := rfl
  have hbuffer : arena.bufferSize ≤ Arena.maxBufferSize := by decide
  have hfull : arena.place 12 = .error ⟨16, 12⟩ :=
    (arena.place_eq_error_iff 12 _).2 ⟨by decide, by decide⟩
  have hnever : arena.place 18446744073709551615 = .error ⟨18446744073709551615, 12⟩ :=
    (arena.place_eq_error_iff _ _).2 ⟨by decide, by decide⟩
  obtain ⟨-, hserved, -⟩ := requests_decided hs hslot hbuffer 5
  obtain ⟨-, -, hrefused⟩ := requests_decided hs hslot hbuffer 12
  obtain ⟨-, -, hhuge⟩ := requests_decided hs hslot hbuffer 18446744073709551615
  refine ⟨?_, ?_, ?_⟩
  · intro region hreply
    obtain ⟨hoffset, hlength, -, hcounters⟩ := hserved region hreply
    exact ⟨hoffset, hlength, (hcounters (by decide +kernel)).1⟩
  · obtain ⟨hsame, failure, hfailure, havailable, hrequested, -, hlater⟩ :=
      hrefused _ (congrArg Prod.fst (alloc_of_error hslot hfull))
    have hreply :=
      (congrArg Prod.fst (alloc_of_error hslot hfull)).trans (congrArg Except.error hfailure)
    refine ⟨hsame, failure, hreply, havailable, hrequested, ?_⟩
    apply (hlater reset _ _ hafter).2
    rw [UInt64.le_iff_toNat_le, hrequested]
    decide
  · obtain ⟨-, failure, hfailure, -, hrequested, -⟩ :=
      hhuge _ (congrArg Prod.fst (alloc_of_error hslot hnever))
    have hreply := (congrArg Prod.fst (alloc_of_error hslot hnever)).trans
      (congrArg Except.error hfailure)
    exact ⟨failure, hreply, hrequested⟩

end System

end Allotment

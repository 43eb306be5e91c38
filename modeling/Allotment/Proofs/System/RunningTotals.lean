import Allotment.Proofs.System.Journal
import Allotment.Session.Accounts
import Mathlib.Algebra.BigOperators.Ring.Finset
import Mathlib.Algebra.Order.BigOperators.Group.List
import Mathlib.Algebra.Order.Ring.Int
import Mathlib.Data.Nat.Cast.Order.Ring

set_option autoImplicit false

/-!
The counters of an account in closed form. What is in use stops at zero however much is
reclaimed, so it is a walk that is reflected there: after any charges it is the greatest sum
of the changes since some moment, and the peak is the greatest sum of the changes between two
moments. One more charge prolongs every sum that reaches to the end by its own change and adds
the empty one, and that is what the counters do.
-/

namespace Allotment

namespace Charge

/-- What a charge would change of what is in use, if that could go below zero. -/
def change : Charge → ℤ
  | grant bytes => bytes.toNat
  | reclaim bytes => -bytes.toNat
  | create size => size.toNat
  | destroy size => -size.toNat

/-- Whether a charge is that of a creation. -/
def isCreation : Charge → Bool
  | create _ => true
  | _ => false

/-- Whether a charge is that of a destruction. -/
def isDestruction : Charge → Bool
  | destroy _ => true
  | _ => false

/-- The sum of what some charges hand out, without what they take back. -/
def handedOut (charges : List Charge) : ℕ :=
  (charges.map fun charge => charge.change.toNat).sum

/-- The greatest sum of the changes since some moment of some charges. -/
def IsGreatestSince (charges : List Charge) (n : ℕ) : Prop :=
  IsGreatest {sum : ℤ | ∃ later, later <:+ charges ∧ (later.map change).sum = sum} n

/-- The greatest sum of the changes between two moments of some charges. -/
def IsGreatestBetween (charges : List Charge) (n : ℕ) : Prop :=
  IsGreatest {sum : ℤ | ∃ part, part <:+: charges ∧ (part.map change).sum = sum} n

/-- Two stretches of charges hand out what the first does and what the second does. -/
theorem handedOut_append (first second : List Charge) :
    handedOut (first ++ second) = handedOut first + handedOut second := by
  simp [handedOut]

/-- The changes of some charges add up to no more than what the charges hand out. -/
theorem sum_change_le (charges : List Charge) :
    (charges.map change).sum ≤ handedOut charges := by
  rw [handedOut, Nat.cast_list_sum, List.map_map]
  exact List.sum_le_sum fun charge _ => Int.self_le_toNat _

/-- The event whose charge it is. -/
def event : Charge → Event
  | grant bytes => .granted bytes
  | reclaim bytes => .restored bytes 0
  | create size => .created size
  | destroy size => .destroyed size

/-- Recording a charge is noting the event it belongs to. -/
theorem record_eq_note (c : Counters) (charge : Charge) :
    c.record charge = c.note charge.event := by
  cases charge <;> rfl

/-- A charge changes what is in use by what its event hands out less what it takes back, one of
which is zero. -/
theorem change_eq (charge : Charge) :
    charge.change = charge.event.bytesIn - charge.event.bytesOut ∧
      charge.change.toNat = charge.event.bytesIn := by
  cases charge <;> simp [change, event, Event.bytesIn, Event.bytesOut]

/-- A charge is that of a creation or a destruction exactly when its event is one. -/
theorem objects_event (charge : Charge) :
    charge.event.births = charge.isCreation.toNat ∧
      charge.event.deaths = charge.isDestruction.toNat := by
  cases charge <;> exact ⟨rfl, rfl⟩

/-- The sums that reach to the end of one more charge are the old ones with its change, and
the empty one. -/
theorem IsGreatestSince.concat {charges : List Charge} {n : ℕ} (h : IsGreatestSince charges n)
    {charge : Charge} {next : ℕ} (hnext : (next : ℤ) = max 0 (n + charge.change)) :
    IsGreatestSince (charges ++ [charge]) next := by
  obtain ⟨⟨later, hlater, hsum⟩, hgreatest⟩ := h
  rw [IsGreatestSince, hnext]
  constructor
  · rcases max_choice 0 ((n : ℤ) + charge.change) with hzero | hmore
    · exact ⟨[], List.nil_suffix, hzero.symm⟩
    · refine ⟨later ++ [charge], List.suffix_concat_iff.2 (.inr ⟨later, rfl, hlater⟩), ?_⟩
      rw [hmore, ← hsum]
      simp
  · rintro sum ⟨part, hpart, rfl⟩
    rcases List.suffix_concat_iff.1 hpart with rfl | ⟨earlier, rfl, hearlier⟩
    · exact le_max_left _ _
    · have hle := hgreatest ⟨earlier, hearlier, rfl⟩
      rw [List.map_append, List.sum_append, List.map_singleton, List.sum_singleton]
      exact (add_le_add_left hle _).trans (le_max_right _ _)

/-- The sums between two moments of one more charge are the old ones and those that reach to
its end. -/
theorem IsGreatestBetween.concat {charges : List Charge} {n : ℕ}
    (h : IsGreatestBetween charges n) {charge : Charge} {since : ℕ}
    (hsince : IsGreatestSince (charges ++ [charge]) since) :
    IsGreatestBetween (charges ++ [charge]) (max n since) := by
  have hunion := IsGreatest.union hsince h
  have hsets : {sum : ℤ | ∃ part, part <:+: charges ++ [charge] ∧ (part.map change).sum = sum} =
      {sum | ∃ part, part <:+ charges ++ [charge] ∧ (part.map change).sum = sum} ∪
        {sum | ∃ part, part <:+: charges ∧ (part.map change).sum = sum} := by
    ext sum
    simp only [List.infix_concat_iff, or_and_right, exists_or, Set.mem_union, Set.mem_ofPred_eq]
  rw [IsGreatestBetween, hsets, Nat.cast_max, max_comm]
  exact hunion

end Charge

namespace Counters

/-- Counters that hold the sums and the numbers of some charges. -/
structure Holds (c : Counters) (charges : List Charge) : Prop where
  total : c.total.toNat = Charge.handedOut charges
  inUse : Charge.IsGreatestSince charges c.inUse.toNat
  peak : Charge.IsGreatestBetween charges c.peak.toNat
  created : c.created.toNat = charges.countP Charge.isCreation
  destroyed : c.destroyed.toNat = charges.countP Charge.isDestruction

/-- New counters hold the sums of no charges. -/
theorem Holds.start : ({} : Counters).Holds [] where
  total := rfl
  inUse := by
    refine ⟨⟨[], List.nil_suffix, rfl⟩, ?_⟩
    rintro sum ⟨later, hlater, rfl⟩
    rw [List.suffix_nil.1 hlater]
    exact le_refl 0
  peak := by
    refine ⟨⟨[], List.nil_infix, rfl⟩, ?_⟩
    rintro sum ⟨part, hpart, rfl⟩
    rw [List.infix_nil.1 hpart]
    exact le_refl 0
  created := rfl
  destroyed := rfl

/-- The objects that are created and not destroyed, as far as more were created. -/
theorem Holds.live {c : Counters} {charges : List Charge} (h : c.Holds charges) :
    (c.live.toNat : ℤ) =
      max 0 ((charges.countP Charge.isCreation : ℤ) - charges.countP Charge.isDestruction) := by
  have hlive : c.live.toNat = c.created.toNat - c.destroyed.toNat := Word.toNat_monus _ _
  rw [hlive, h.created, h.destroyed]
  omega

/-- No more is in use than was handed out, and the peak was at least as high. -/
theorem Holds.inUse_le {c : Counters} {charges : List Charge} (h : c.Holds charges) :
    c.inUse.toNat ≤ c.total.toNat ∧ c.inUse.toNat ≤ c.peak.toNat := by
  obtain ⟨later, hlater, hsum⟩ := h.inUse.1
  constructor
  · have hle := Charge.sum_change_le later
    obtain ⟨earlier, rfl⟩ := hlater
    rw [h.total, Charge.handedOut_append]
    omega
  · have hle := h.peak.2 ⟨later, hlater.isInfix, hsum⟩
    omega

/-- A charge fits if the total and the numbers of objects stay below `2 ^ 64` with it. -/
theorem fits_of_lt {c : Counters} {charge : Charge}
    (hbytes : c.total.toNat + charge.event.bytesIn < 2 ^ 64)
    (hinUse : c.inUse.toNat ≤ c.total.toNat)
    (hcreated : c.created.toNat + charge.event.births < 2 ^ 64)
    (hdestroyed : c.destroyed.toNat + charge.event.deaths < 2 ^ 64) : c.fits charge = true := by
  have hsum : ∀ {a b : UInt64}, a.toNat + b.toNat < 2 ^ 64 → (Word.sum? a b).isSome = true := by
    intro a b hlt
    have hwords : UInt64.size = 2 ^ 64 := rfl
    rw [Option.isSome_iff_ne_none, ne_eq, Word.sum?_eq_none_iff]
    omega
  cases charge with
  | grant bytes =>
    replace hbytes : c.total.toNat + bytes.toNat < 2 ^ 64 := hbytes
    simp only [fits, hsum hbytes, hsum (show c.inUse.toNat + bytes.toNat < 2 ^ 64 by omega),
      Bool.and_self]
  | reclaim bytes => rfl
  | create size =>
    replace hbytes : c.total.toNat + size.toNat < 2 ^ 64 := hbytes
    simp only [fits, hsum hbytes, hsum (show c.inUse.toNat + size.toNat < 2 ^ 64 by omega),
      hsum (show c.created.toNat + (1 : UInt64).toNat < 2 ^ 64 from hcreated), Bool.and_self]
  | destroy size => exact hsum hdestroyed

/-- Counters go on holding the sums and the numbers over one more charge, which they fit. -/
theorem Holds.record {c : Counters} {charges : List Charge} (h : c.Holds charges)
    (charge : Charge) (hbytes : Charge.handedOut (charges ++ [charge]) < 2 ^ 64)
    (hlength : (charges ++ [charge]).length < 2 ^ 64) :
    c.fits charge = true ∧ (c.record charge).Holds (charges ++ [charge]) := by
  obtain ⟨htotal, hpeak⟩ := h.inUse_le
  obtain ⟨hchange, hin⟩ := charge.change_eq
  obtain ⟨hborn, hdied⟩ := charge.objects_event
  have hone : Charge.handedOut [charge] = charge.event.bytesIn := by
    rw [← hin]
    simp [Charge.handedOut]
  have hcreated : charges.countP Charge.isCreation ≤ charges.length := List.countP_le_length
  have hdestroyed : charges.countP Charge.isDestruction ≤ charges.length := List.countP_le_length
  have hmore := charge.isCreation.toNat_le
  have hless := charge.isDestruction.toNat_le
  rw [List.length_append, List.length_singleton] at hlength
  rw [Charge.handedOut_append, hone, ← h.total] at hbytes
  rw [← h.created] at hcreated
  rw [← h.destroyed] at hdestroyed
  have hfits := fits_of_lt hbytes htotal (by omega) (by omega)
  have hinUse := c.inUse_note charge.event (by omega)
  have hsince : Charge.IsGreatestSince (charges ++ [charge]) (c.record charge).inUse.toNat := by
    apply h.inUse.concat
    rw [Charge.record_eq_note, hinUse, hchange]
    omega
  refine ⟨hfits, ?_, hsince, ?_, ?_, ?_⟩
  · rw [Charge.record_eq_note, c.total_note _ hbytes, Charge.handedOut_append, hone, h.total]
  · have hbetween := h.peak.concat hsince
    rwa [Charge.record_eq_note, ← c.peak_note _ hpeak, ← Charge.record_eq_note] at hbetween
  · rw [Charge.record_eq_note, c.created_note _ (by omega), hborn, h.created, List.countP_append,
      List.countP_singleton]
    cases charge.isCreation <;> rfl
  · rw [Charge.record_eq_note, c.destroyed_note _ (by omega), hdied, h.destroyed,
      List.countP_append, List.countP_singleton]
    cases charge.isDestruction <;> rfl

/-- Counters that hold some charges hold them with all that follow, and fit each of them, as
long as the bytes that are handed out and the charges themselves can be counted in words. -/
theorem Holds.recordAll {c : Counters} {charges : List Charge} (h : c.Holds charges)
    (more : List Charge) (hbytes : Charge.handedOut (charges ++ more) < 2 ^ 64)
    (hlength : (charges ++ more).length < 2 ^ 64) :
    (c.recordAll more).Holds (charges ++ more) ∧
      ∃ states, c.history? more = .ok states ∧ states.length = more.length ∧
        ∀ (i : ℕ) (state : Counters), states[i]? = some state →
          state.Holds (charges ++ more.take (i + 1)) := by
  induction more generalizing c charges with
  | nil =>
    rw [List.append_nil]
    exact ⟨h, [], rfl, rfl, fun i state hstate => by simp at hstate⟩
  | cons charge rest ih =>
    have hsplit : charges ++ charge :: rest = charges ++ [charge] ++ rest := by simp
    rw [hsplit] at hbytes hlength ⊢
    have hnow : Charge.handedOut (charges ++ [charge]) < 2 ^ 64 := by
      rw [Charge.handedOut_append] at hbytes
      omega
    have hshort : (charges ++ [charge]).length < 2 ^ 64 := by
      rw [List.length_append] at hlength
      omega
    obtain ⟨hfits, hnext⟩ := h.record charge hnow hshort
    obtain ⟨hall, states, hstates, hsize, hlater⟩ := ih hnext hbytes hlength
    refine ⟨hall, c.record charge :: states, ?_, congrArg Nat.succ hsize, ?_⟩
    · simp only [history?, record?, hfits, if_true, hstates, Except.map]
    · intro i state hstate
      cases i with
      | zero =>
        obtain rfl := Option.some.inj hstate
        exact hnext
      | succ i =>
        have hlast := hlater i state hstate
        rwa [List.append_assoc, List.singleton_append] at hlast

/-- Noting events is recording the charges that they carry. -/
theorem foldl_note_eq_recordAll (c : Counters) (events : List Event) :
    events.foldl note c = c.recordAll (events.filterMap Event.charge?) := by
  induction events generalizing c with
  | nil => rfl
  | cons event rest ih =>
    rw [List.foldl_cons, ih]
    cases hcharge : event.charge? with
    | none =>
      rw [List.filterMap_cons_none hcharge]
      simp only [note, hcharge]
    | some charge =>
      rw [List.filterMap_cons_some hcharge]
      simp only [note, hcharge, Counters.recordAll, List.foldl_cons]

end Counters

namespace System

/-- What all the allocators that report to an account had it record so far, in order. -/
def charges (s : System) (account : AccountId) : List Charge :=
  (s.eventsOf account).filterMap Event.charge?

/-- An account is what all its allocators together had it record. -/
theorem Attained.counters_eq_recordAll {s : System} (h : s.Attained) (account : AccountId) :
    s.counters account = ({} : Counters).recordAll (s.charges account) := by
  rw [h.counters_eq, Counters.foldl_note_eq_recordAll, charges]

end System

/-- The counters after any charges on a new account, also if more is reclaimed than is in use,
as long as the bytes that are handed out and the charges themselves can be counted in words:
the total is the sum of what was handed out; what is in use is the greatest sum of the changes
since some moment, and the peak the greatest one between two moments; the objects that were
created and destroyed are counted, and those that live are their difference, or none. That is
so after each of the charges, and no sum overflows. An account whose allocators had it record
these charges, in whatever way, holds these counters. In every session in which an account
holds them, everything that stands for the account reads them, and another name for it stands
for the same account. -/
theorem running_totals (charges : List Charge) (hbytes : Charge.handedOut charges < 2 ^ 64)
    (hlength : charges.length < 2 ^ 64) :
    let c := ({} : Counters).recordAll charges
    c.Holds charges ∧
    (c.live.toNat : ℤ) =
      max 0 ((charges.countP Charge.isCreation : ℤ) - charges.countP Charge.isDestruction) ∧
    (∃ states, ({} : Counters).history? charges = .ok states ∧ states.length = charges.length ∧
      ∀ (i : ℕ) (state : Counters), states[i]? = some state →
        state.Holds (charges.take (i + 1))) ∧
    (∀ (s : System) (id : AccountId), s.Attained → s.charges id = charges →
      s.counters id = c) ∧
    ∀ (s : Session) (id : AccountId) (ref : Session.AccountRef),
      s.system.counters id = c → s.account ref = .ok id →
      (∃ after, (Session.AccountStep.snapshot ref none).run s = .ok (.snapshot c, after)) ∧
      ∀ name, ∃ after, (Session.AccountStep.share ref name).run s = .ok (.done, after) ∧
        after.system = s.system ∧ after.account (.named name) = .ok id := by
  intro c
  obtain ⟨hholds, hstates⟩ := Counters.Holds.start.recordAll charges hbytes hlength
  have hc : c.Holds charges := hholds
  refine ⟨hc, hc.live, hstates, ?_, ?_⟩
  · intro s id hs hcharges
    rw [hs.counters_eq_recordAll id, hcharges]
  · intro s id ref hcounters href
    constructor
    · refine ⟨s, ?_⟩
      simp [Session.AccountStep.run, href, hcounters, bind, Except.bind, pure, Except.pure]
    · intro name
      refine ⟨{ s with accounts := s.accounts.insert name id }, ?_, rfl, ?_⟩
      · simp [Session.AccountStep.run, href, bind, Except.bind, pure, Except.pure]
      · simp [Session.account]

/-- More is reclaimed than is in use, and more objects are destroyed than were created: that
is what two names for an account which holds these charges read. And in a session in which an
arena and a heap report to one account, its name and its heap read the same counters. -/
theorem running_totals_of_excess :
    let excess : List Charge :=
      [.grant 32, .create 16, .reclaim 40, .grant 8, .destroy 20, .destroy 1, .grant 5]
    let c := ({} : Counters).recordAll excess
    (c.total.toNat = 61 ∧ Charge.IsGreatestSince excess 5 ∧ Charge.IsGreatestBetween excess 48 ∧
      c.inUse.toNat = 5 ∧ c.peak.toNat = 48 ∧ c.live.toNat = 0) ∧
    let read (s : Session) (ref : Session.AccountRef) (c : Counters) : Prop :=
      ∃ after, (Session.AccountStep.snapshot ref none).run s = .ok (.snapshot c, after)
    let names := (({} : Session.Bindings AccountId).insert "a" 0).insert "b" 0
    let overdrawn : Session := { system := { accounts := #[c] }, accounts := names }
    (read overdrawn (.named "a") c ∧ read overdrawn (.named "b") c) ∧
    let s : Session :=
      { system := ({} : System).performAll
          [.openAccount, .lendArena #[1, 2] 16 0, .openHeap 0, .alloc 0 3, .create 0 10, .reset 0]
        accounts := names
        heaps := ({} : Session.Bindings HeapId).insert "h" 0 }
    let sum := ({} : Counters).recordAll [.grant 8, .create 10, .reclaim 8]
    read s (.named "a") sum ∧ read s (.ofHeap "h") sum := by
  intro excess c
  obtain ⟨hholds, hlive, -, -, hread⟩ := running_totals excess (by decide) (by decide)
  have hinUse : c.inUse.toNat = 5 := by decide
  have hpeak : c.peak.toNat = 48 := by decide
  refine ⟨⟨hholds.total, hinUse ▸ hholds.inUse, hpeak ▸ hholds.peak, hinUse, hpeak, ?_⟩, ?_⟩
  · exact Int.ofNat.inj hlive
  · intro read names overdrawn
    have hnames : ∀ name, overdrawn.account (.named name) = .ok 0 →
        read overdrawn (.named name) c := fun name hname => (hread overdrawn 0 _ rfl hname).1
    refine ⟨⟨hnames "a" rfl, hnames "b" rfl⟩, ?_⟩
    intro s sum
    have hs : s.system.Attained := System.attained_performAll Host.standard _
    obtain ⟨-, -, -, hcounters, hread⟩ :=
      running_totals [.grant 8, .create 10, .reclaim 8] (by decide) (by decide)
    have hsum := hcounters s.system 0 hs (by decide +kernel)
    exact ⟨(hread s 0 (.named "a") hsum rfl).1, (hread s 0 (.ofHeap "h") hsum rfl).1⟩

end Allotment

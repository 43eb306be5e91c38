import Allotment.Proofs.Arena.Batches
import Allotment.Proofs.System.Rollback

set_option autoImplicit false

/-!
Two systems that are the same but for what work in scratch space leaves behind: bytes that
arenas have not granted, lines of the journal, and the totals and peaks of accounts. No call
finds that out, unless it takes a buffer out of such an arena: it gets the same answer in both
systems and leaves them so.
-/

namespace Allotment

namespace Counters

/-- Two counters of which only the totals and the peaks may differ. -/
structure SameUse (c d : Counters) : Prop where
  inUse : c.inUse = d.inUse
  created : c.created = d.created
  destroyed : c.destroyed = d.destroyed

/-- Counters agree with themselves. -/
theorem SameUse.refl (c : Counters) : c.SameUse c :=
  ⟨rfl, rfl, rfl⟩

/-- Counters that agree on all but totals and peaks still do after one more event. -/
theorem SameUse.note {c d : Counters} (h : c.SameUse d) (event : Event) :
    (c.note event).SameUse (d.note event) := by
  obtain ⟨hinUse, hcreated, hdestroyed⟩ := h
  cases event <;>
    simp only [Counters.note, Event.charge?, record, grow, shrink, hinUse, hcreated, hdestroyed] <;>
    constructor <;> simp only [hinUse, hcreated, hdestroyed]

/-- Counters that agree on all but totals and peaks still do after more events. -/
theorem SameUse.foldl_note {c d : Counters} (h : c.SameUse d) (events : List Event) :
    (events.foldl Counters.note c).SameUse (events.foldl Counters.note d) := by
  induction events generalizing c d with
  | nil => exact h
  | cons event rest ih => exact ih (h.note event)

end Counters

/-- Two places of arenas that are the same, or hold arenas that are alike if it is one where
work in scratch space is done. -/
inductive ArenaSlot.SameBut (scratch : Prop) : ArenaSlot → ArenaSlot → Prop
  | same (slot : ArenaSlot) : SameBut scratch slot slot
  | alike (hscratch : scratch) {a b : Arena} (halike : a.Alike b) (account : AccountId)
    (dropped : Bool) :
    SameBut scratch { arena := some a, account, dropped } { arena := some b, account, dropped }

/-- Arenas that are alike, and the same where no scratch work is done, have places that are the
same but for scratch work. -/
theorem ArenaSlot.SameBut.of_alike {scratch : Prop} {a b : Arena} (halike : a.Alike b)
    (h : ¬ scratch → a = b) (account : AccountId) (dropped : Bool) :
    SameBut scratch { arena := some a, account, dropped }
      { arena := some b, account, dropped } := by
  by_cases hscratch : scratch
  · exact .alike hscratch halike account dropped
  · rw [h hscratch]
    exact .same _

namespace System

/-- Two systems of which the first one may have done work in scratch space that the second one
has not: in the arenas where that is allowed, bytes beyond the granted ones may differ, and the
journal of the first one may have further lines. The accounts agree on all but totals and peaks,
those at least that are said to be settled. -/
structure Unmarked (scratch : ArenaId → Prop) (settled : AccountId → Prop) (s t : System) :
    Prop where
  same : t = { s with arenas := t.arenas, accounts := t.accounts, journal := t.journal }
  arenas : t.arenas.size = s.arenas.size
  slots : ∀ {id : ArenaId} {slot : ArenaSlot}, s.arenas[id]? = some slot →
    ∃ slot', t.arenas[id]? = some slot' ∧ slot.SameBut (scratch id) slot'
  accounts : t.accounts.size = s.accounts.size
  counters : ∀ account, settled account → (s.counters account).SameUse (t.counters account)
  journal : t.journal.toList.Sublist s.journal.toList

variable {scratch : ArenaId → Prop} {settled : AccountId → Prop} {s t : System}

namespace Unmarked

/-- A system is the same as itself but for scratch work. -/
theorem refl (s : System) : Unmarked scratch settled s s where
  same := rfl
  arenas := rfl
  slots h := ⟨_, h, .same _⟩
  accounts := rfl
  counters _ _ := .refl _
  journal := List.Sublist.refl _

/-- Only the arenas, the accounts and the journals of the two systems may differ. -/
theorem exists_eq (h : Unmarked scratch settled s t) :
    ∃ arenas accounts journal, t = { s with arenas, accounts, journal } :=
  ⟨_, _, _, h.same⟩

/-- What concerns neither arenas nor accounts may change alike in both systems. -/
theorem of_eq (h : Unmarked scratch settled s t) {after after' : System}
    (hsame : after' =
      { after with
        arenas := after'.arenas, accounts := after'.accounts, journal := after'.journal })
    (hs : after.arenas = s.arenas ∧ after.accounts = s.accounts ∧ after.journal = s.journal)
    (ht : after'.arenas = t.arenas ∧ after'.accounts = t.accounts ∧ after'.journal = t.journal) :
    Unmarked scratch settled after after' := by
  obtain ⟨harenas, haccounts, hjournal⟩ := hs
  obtain ⟨harenas', haccounts', hjournal'⟩ := ht
  refine ⟨hsame, ?_, ?_, ?_, ?_, ?_⟩
  · rw [harenas, harenas', h.arenas]
  · intro id slot hslot
    rw [harenas] at hslot
    rw [harenas']
    exact h.slots hslot
  · rw [haccounts, haccounts', h.accounts]
  · unfold System.counters
    rw [haccounts, haccounts']
    exact h.counters
  · rw [hjournal, hjournal']
    exact h.journal

/-- The same events may be recorded on both sides. -/
theorem record (h : Unmarked scratch settled s t) (source : Source) (account : AccountId)
    (events : List Event) :
    Unmarked scratch settled (s.record source account events) (t.record source account events) := by
  obtain ⟨arenas, accounts, journal, rfl⟩ := h.exists_eq
  refine ⟨rfl, h.arenas, h.slots, ?_, ?_, ?_⟩
  · show (Counters.bookAll _ _ _).size = (Counters.bookAll _ _ _).size
    rw [size_bookAll, size_bookAll]
    exact h.accounts
  · intro other hother
    have hsize : accounts.size = s.accounts.size := h.accounts
    have huse := h.counters other hother
    by_cases hopen : account < s.accounts.size
    · rw [counters_record _ _ hopen, counters_record _ _ (hsize.symm ▸ hopen)]
      split
      · exact huse.foldl_note events
      · exact huse
    · -- an account that is not open records nothing
      have hclosed : ¬ account < accounts.size := hsize.symm ▸ hopen
      simpa only [System.record, System.counters, Counters.bookAll, Array.setIfInBounds, hopen,
        hclosed, dif_neg, not_false_eq_true] using huse
  · rw [journal_record, journal_record]
    exact h.journal.append (List.Sublist.refl _)

/-- The place of an arena is taken by what is the same in both systems, or the same but for what
is not granted. -/
theorem place (h : Unmarked scratch settled s t) {id : ArenaId} {slot slot' : ArenaSlot}
    (hslot : slot.SameBut (scratch id) slot') (events : List Event) :
    Unmarked scratch settled (s.place id slot events) (t.place id slot' events) := by
  have haccount : slot'.account = slot.account := by cases hslot <;> rfl
  unfold System.place
  rw [haccount]
  apply record
  obtain ⟨arenas, accounts, journal, rfl⟩ := h.exists_eq
  refine ⟨rfl, ?_, ?_, h.accounts, h.counters, h.journal⟩
  · rw [Array.size_setIfInBounds, Array.size_setIfInBounds]
    exact h.arenas
  · intro other old hold
    have hsize : arenas.size = s.arenas.size := h.arenas
    rw [Array.getElem?_setIfInBounds] at hold ⊢
    by_cases hother : id = other
    · subst hother
      rw [if_pos rfl] at hold ⊢
      split at hold
      · rename_i hid
        obtain rfl := Option.some.inj hold
        exact ⟨slot', if_pos (hsize.symm ▸ hid), hslot⟩
      · cases hold
    · rw [if_neg hother] at hold ⊢
      exact h.slots hold

/-- The same token may be held on both sides. -/
theorem hold (h : Unmarked scratch settled s t) (token : Token) :
    Unmarked scratch settled (s.hold token).2 (t.hold token).2 := by
  obtain ⟨arenas, accounts, journal, rfl⟩ := h.exists_eq
  exact h.of_eq rfl ⟨rfl, rfl, rfl⟩ ⟨rfl, rfl, rfl⟩

/-- The same token may be given up on both sides. -/
theorem retire (h : Unmarked scratch settled s t) (id : TokenId) (fate : Holding) :
    Unmarked scratch settled (s.retire id fate) (t.retire id fate) := by
  obtain ⟨arenas, accounts, journal, rfl⟩ := h.exists_eq
  exact h.of_eq rfl ⟨rfl, rfl, rfl⟩ ⟨rfl, rfl, rfl⟩

/-- The same object may take the place of another one on both sides. -/
theorem putObject (h : Unmarked scratch settled s t) (k : ObjectId) (object : Option Object) :
    Unmarked scratch settled (s.putObject k object) (t.putObject k object) := by
  obtain ⟨arenas, accounts, journal, rfl⟩ := h.exists_eq
  exact h.of_eq rfl ⟨rfl, rfl, rfl⟩ ⟨rfl, rfl, rfl⟩

/-- The same object may be added on both sides. -/
theorem addObject (h : Unmarked scratch settled s t) (object : Object) :
    Unmarked scratch settled (s.addObject object) (t.addObject object) := by
  obtain ⟨arenas, accounts, journal, rfl⟩ := h.exists_eq
  exact h.of_eq rfl ⟨rfl, rfl, rfl⟩ ⟨rfl, rfl, rfl⟩

/-- A heap may be added on both sides, with the same number. -/
theorem addHeap (h : Unmarked scratch settled s t) (account : AccountId) :
    Unmarked scratch settled (s.addHeap account).2 (t.addHeap account).2 := by
  obtain ⟨arenas, accounts, journal, rfl⟩ := h.exists_eq
  exact h.of_eq rfl ⟨rfl, rfl, rfl⟩ ⟨rfl, rfl, rfl⟩

/-- The same event of a heap or an arena may be announced on both sides. -/
theorem announce (h : Unmarked scratch settled s t) (source : Source) (event : Event) :
    Unmarked scratch settled (s.announce source event) (t.announce source event) := by
  obtain ⟨arenas, accounts, journal, rfl⟩ := h.exists_eq
  refine ⟨rfl, h.arenas, h.slots, h.accounts, h.counters, ?_⟩
  show (journal.push _).toList.Sublist (s.journal.push _).toList
  rw [Array.toList_push, Array.toList_push]
  exact h.journal.append (List.Sublist.refl _)

/-- The same arena may be added on both sides, under the same id. -/
theorem addArena (h : Unmarked scratch settled s t) (arena : Arena) (account : AccountId) :
    (s.addArena arena account).1 = (t.addArena arena account).1 ∧
      Unmarked scratch settled (s.addArena arena account).2 (t.addArena arena account).2 := by
  refine ⟨h.arenas.symm, ?_⟩
  unfold System.addArena
  rw [h.arenas]
  apply announce
  obtain ⟨arenas, accounts, journal, rfl⟩ := h.exists_eq
  refine ⟨rfl, ?_, ?_, h.accounts, h.counters, h.journal⟩
  · rw [Array.size_push, Array.size_push]
    exact congrArg (· + 1) h.arenas
  · intro id slot hslot
    have hsize : arenas.size = s.arenas.size := h.arenas
    rw [Array.getElem?_push] at hslot ⊢
    rw [hsize]
    split at hslot
    · rename_i hlast
      rw [if_pos hlast]
      exact ⟨slot, hslot, .same _⟩
    · rename_i hbefore
      rw [if_neg hbefore]
      exact h.slots hslot

/-- An account may be opened on both sides, under the same id. -/
theorem openAccount (h : Unmarked scratch settled s t) :
    s.openAccount.1 = t.openAccount.1 ∧
      Unmarked scratch settled s.openAccount.2 t.openAccount.2 := by
  refine ⟨h.accounts.symm, ?_⟩
  obtain ⟨arenas, accounts, journal, rfl⟩ := h.exists_eq
  refine ⟨rfl, h.arenas, h.slots, ?_, ?_, h.journal⟩
  · show (accounts.push _).size = (s.accounts.push _).size
    rw [Array.size_push, Array.size_push]
    exact congrArg (· + 1) h.accounts
  · intro account hsettled
    show (((s.accounts.push {})[account]?).getD {}).SameUse (((accounts.push {})[account]?).getD {})
    rw [counters_push s account, counters_push { s with arenas, accounts, journal } account]
    exact h.counters account hsettled

end Unmarked

/-- Two calls get the same answer and keep two systems the same but for scratch work. -/
def SameAnswer {α : Type} (scratch : ArenaId → Prop) (settled : AccountId → Prop)
    (x y : Outcome α × System) : Prop :=
  x.1 = y.1 ∧ Unmarked scratch settled x.2 y.2

/-- The same outcomes are reported as the same answers. -/
theorem SameAnswer.report {α : Type} {x y : Outcome α × System}
    (h : SameAnswer scratch settled x y) (result : α → CallResult) :
    SameAnswer scratch settled (System.report result x) (System.report result y) :=
  ⟨congrArg (Except.map result) h.1, h.2⟩

namespace Unmarked

variable {id : ArenaId}

/-- An arena is missing in both systems, or it is there in both and alike. -/
theorem arena?_cases (h : Unmarked scratch settled s t) (id : ArenaId) :
    s.arena? id = none ∧ t.arena? id = none ∨
      ∃ a b account, s.arenas[id]? = some { arena := some a, account } ∧
        t.arenas[id]? = some { arena := some b, account } ∧ a.Alike b ∧ (¬ scratch id → a = b) := by
  cases hslot : s.arenas[id]? with
  | none =>
    have hmissing : t.arenas[id]? = none := by
      rw [Array.getElem?_eq_none_iff] at hslot ⊢
      rwa [h.arenas]
    left
    simp [arena?, hslot, hmissing]
  | some slot =>
    obtain ⟨slot', hslot', hsame⟩ := h.slots hslot
    cases hsame with
    | same =>
      cases hworking : slot.working? with
      | none =>
        left
        simp [arena?, hslot, hslot', hworking]
      | some arena =>
        rw [working?_eq_some.1 hworking] at hslot' ⊢
        exact .inr ⟨arena, arena, _, rfl, hslot', .refl arena, fun _ => rfl⟩
    | alike hscratch halike account dropped =>
      cases dropped with
      | true =>
        left
        simp [arena?, hslot, hslot', ArenaSlot.working?]
      | false =>
        exact .inr ⟨_, _, account, rfl, hslot', halike, fun hnot => absurd hscratch hnot⟩

section Arenas

variable (h : Unmarked scratch settled s t) (hs : s.Attained) (ht : t.Attained)
include h hs ht

/-- Work that twins answer alike by the same moves gets the same answer in both systems. -/
theorem sameAnswer_onArena {α : Type} (id : ArenaId)
    {work : Metered Arena → Outcome α × Metered Arena} (moves : Metered Arena → List ArenaMove)
    (hmoves : ∀ m, (work m).2 = m.moveAll (moves m))
    (htwins : ∀ {m n : Metered Arena}, m.Twins n → (work m).1 = (work n).1 ∧ moves m = moves n) :
    SameAnswer scratch settled (s.onArena id work) (t.onArena id work) := by
  rcases h.arena?_cases id with ⟨hnone, hnone'⟩ | ⟨a, b, account, hslot, hslot', halike, hequal⟩
  · rw [unknown_onArena hnone, unknown_onArena hnone']
    exact ⟨rfl, h⟩
  · let m : Metered Arena := { subject := a, counters := s.counters account }
    let n : Metered Arena := { subject := b, counters := t.counters account }
    have htwin : m.Twins n := ⟨halike, hs.bounded hslot, ht.bounded hslot'⟩
    obtain ⟨hanswer, hsame⟩ := htwins htwin
    obtain ⟨hafter, hevents⟩ := halike.moveAll htwin.left htwin.right (moves m)
    rw [onArena_eq hslot (moves m) (hmoves m), onArena_eq hslot' (moves n) (hmoves n), ← hsame,
      ← hevents]
    refine ⟨hanswer, h.place (.of_alike hafter ?_ account false) _⟩
    intro hnot
    rw [hequal hnot]

/-- A request is decided by offset and capacity, which scratch work leaves alone. -/
theorem sameAnswer_alloc (id : ArenaId) (size : UInt64) :
    SameAnswer scratch settled (s.alloc id size) (t.alloc id size) := by
  apply h.sameAnswer_onArena hs ht id fun _ => [.alloc size]
  · intro m
    rfl
  · intro m n htwin
    have hplace : (m.alloc size).1 = (n.alloc size).1 := by
      rw [Metered.fst_alloc, Metered.fst_alloc, htwin.alike.place_eq]
    exact ⟨congrArg (Except.mapError Refusal.exhausted) hplace, rfl⟩

/-- A rollback reclaims the same bytes on both sides. -/
theorem sameAnswer_restore (id : ArenaId) (target : Checkpoint) :
    SameAnswer scratch settled (s.restore id target) (t.restore id target) :=
  h.sameAnswer_onArena hs ht id (fun _ => [.restore target]) (fun _ => rfl) fun _ => ⟨rfl, rfl⟩

/-- A write reaches granted bytes only, so it gives the same bytes on both sides. -/
theorem sameAnswer_write (id : ArenaId) (region : Region) (edit : Edit) :
    SameAnswer scratch settled (s.write id region edit) (t.write id region edit) := by
  apply h.sameAnswer_onArena hs ht id fun _ => [.write region edit]
  · intro m
    rfl
  · intro m n htwin
    have hread : (m.write region edit).1 = (n.write region edit).1 := by
      rw [Metered.fst_write, Metered.fst_write, htwin.alike.sameGrants.read?_eq]
    exact ⟨congrArg Except.ok hread, rfl⟩

/-- A replay meets the same offsets and refusals on both sides. -/
theorem sameAnswer_replay (id : ArenaId) (sizes : List UInt64) :
    SameAnswer scratch settled (s.replay id sizes) (t.replay id sizes) := by
  apply h.sameAnswer_onArena hs ht id fun m => m.replayMoves sizes
  · intro m
    exact m.replay_eq_moveAll sizes
  · intro m n htwin
    obtain ⟨hcount, hmoves⟩ := htwin.abreast.replay sizes
      (htwin.alike.inStep htwin.left htwin.right (m.replayMoves sizes))
    exact ⟨congrArg Except.ok hcount, hmoves⟩

/-- A batch that is made on both sides writes its own bytes before it reads them. -/
theorem sameAnswer_sumBatch (id : ArenaId) (samples : List Int32) :
    SameAnswer scratch settled (s.sumBatch id samples) (t.sumBatch id samples) := by
  apply h.sameAnswer_onArena hs ht id fun m => Batch.moves m samples
  · intro m
    exact Batch.snd_sum m samples
  · intro m n htwin
    exact Batch.sum_eq_of_twins htwin samples

end Arenas

variable (h : Unmarked scratch settled s t)
include h

/-- A checkpoint is the same on both sides. -/
theorem checkpoint_eq (id : ArenaId) : s.checkpoint id = t.checkpoint id := by
  unfold System.checkpoint
  rcases h.arena?_cases id with ⟨hnone, hnone'⟩ | ⟨a, b, account, hslot, hslot', halike, -⟩
  · rw [hnone, hnone']
  · rw [arena?_eq_some.2 ⟨account, hslot⟩, arena?_eq_some.2 ⟨account, hslot'⟩]
    exact congrArg Except.ok halike.sameGrants.checkpoint_eq

/-- A read shows granted bytes only, which are the same on both sides. -/
theorem read_eq (id : ArenaId) (region : Region) : s.read id region = t.read id region := by
  unfold System.read
  rcases h.arena?_cases id with ⟨hnone, hnone'⟩ | ⟨a, b, account, hslot, hslot', halike, -⟩
  · rw [hnone, hnone']
  · rw [arena?_eq_some.2 ⟨account, hslot⟩, arena?_eq_some.2 ⟨account, hslot'⟩]
    show Except.ok (a.read? region) = .ok (b.read? region)
    rw [halike.sameGrants.read?_eq]

/-- A buffer that is given back shows all its bytes, so the arena must not be one that scratch
work is done in. -/
theorem sameAnswer_giveBack (hid : ¬ scratch id) :
    SameAnswer scratch settled (s.giveBack id) (t.giveBack id) := by
  rcases h.arena?_cases id with ⟨hnone, hnone'⟩ | ⟨a, b, account, hslot, hslot', -, hequal⟩
  · rw [giveBack_of_none hnone, giveBack_of_none hnone']
    exact ⟨rfl, h⟩
  · obtain rfl := hequal hid
    rw [giveBack_eq hslot, giveBack_eq hslot']
    exact ⟨rfl, h.place (.same _) _⟩

/-- Dropping an arena shows nothing of its buffer. -/
theorem dropArena (id : ArenaId) :
    Unmarked scratch settled (s.dropArena id) (t.dropArena id) := by
  rcases h.arena?_cases id with ⟨hnone, hnone'⟩ | ⟨a, b, account, hslot, hslot', halike, hequal⟩
  · rwa [dropArena_of_none hnone, dropArena_of_none hnone']
  · rw [dropArena_eq hslot, dropArena_eq hslot']
    exact h.place (.of_alike halike hequal account true) []

/-- A new arena is placed on both sides or on none. -/
theorem sameAnswer_placeArena (built : Except Violation Arena) (account : AccountId) :
    SameAnswer scratch settled (s.placeArena built account) (t.placeArena built account) := by
  unfold placeArena
  rw [h.accounts]
  split
  · cases built with
    | error violation => exact ⟨rfl, h⟩
    | ok arena =>
      obtain ⟨hname, hafter⟩ := h.addArena arena account
      exact ⟨congrArg Except.ok hname, hafter⟩
  · exact ⟨rfl, h⟩

/-- A heap is opened on both sides or on none. -/
theorem sameAnswer_openHeap (account : AccountId) :
    SameAnswer scratch settled (s.openHeap account) (t.openHeap account) := by
  have hname : s.heaps.size = t.heaps.size := by rw [h.same]
  unfold openHeap
  rw [h.accounts]
  split
  · exact ⟨congrArg Except.ok hname, h.addHeap account⟩
  · exact ⟨rfl, h⟩

/-- A context is built on both sides or on none. -/
theorem sameAnswer_buildContext (configuration : Configuration) :
    SameAnswer scratch settled (s.buildContext configuration) (t.buildContext configuration) := by
  unfold buildContext
  cases Arena.create configuration.capacity with
  | error violation => exact ⟨rfl, h⟩
  | ok arena =>
    obtain ⟨haccount, hopened⟩ := h.openAccount
    rcases hopen : s.openAccount with ⟨account, opened⟩
    rcases hopen' : t.openAccount with ⟨account', opened'⟩
    rw [hopen, hopen'] at haccount hopened
    obtain rfl : account = account' := haccount
    obtain ⟨hname, hadded⟩ := hopened.addArena arena account
    rcases hadd : opened.addArena arena account with ⟨name, added⟩
    rcases hadd' : opened'.addArena arena account with ⟨name', added'⟩
    rw [hadd, hadd'] at hname hadded
    obtain rfl : name = name' := hname
    replace hadded : Unmarked scratch settled added added' := hadded
    have hready := hadded.announce (.arena name) (.contextReady configuration.capacity)
    have hheaps : added.heaps.size = added'.heaps.size := by rw [hadded.same]
    simp only [hadd, hadd']
    refine ⟨?_, hready.addHeap account⟩
    show Except.ok (Context.mk configuration account name added.heaps.size) =
      .ok (Context.mk configuration account name added'.heaps.size)
    rw [hheaps]

/-- A context is created on both sides or on none. -/
theorem sameAnswer_createContext (configuration : Configuration) :
    SameAnswer scratch settled (s.createContext configuration) (t.createContext configuration) := by
  unfold createContext
  cases configuration.validate with
  | error error => exact ⟨rfl, h⟩
  | ok _ => exact h.sameAnswer_buildContext configuration

/-- An object is created on both sides or on none: the host and the heaps are the same. -/
theorem sameAnswer_createObject (id : HeapId) (size : UInt64) :
    SameAnswer scratch settled (s.createObject id size) (t.createObject id size) := by
  obtain ⟨arenas, accounts, journal, rfl⟩ := h.exists_eq
  cases hheap : s.heaps[id]? with
  | none =>
    rw [createObject_of_none hheap,
      createObject_of_none (s := { s with arenas, accounts, journal }) hheap]
    exact ⟨rfl, h⟩
  | some heap =>
    rw [createObject_eq hheap, createObject_eq (s := { s with arenas, accounts, journal }) hheap]
    split
    · exact ⟨rfl, ((h.addObject _).record _ _ _).hold _⟩
    · exact ⟨rfl, h⟩

/-- A token is retained on both sides or on none. -/
theorem sameAnswer_retain (id : HeapId) (token : TokenId) :
    SameAnswer scratch settled (s.retain id token) (t.retain id token) := by
  obtain ⟨arenas, accounts, journal, rfl⟩ := h.exists_eq
  by_cases hknown : s.heaps[id]? = none ∨ s.token? token = none
  · rw [retain_of_none hknown, retain_of_none (s := { s with arenas, accounts, journal }) hknown]
    exact ⟨rfl, h⟩
  · obtain ⟨heap, found, hheap, htoken⟩ := exists_of_known hknown
    rw [retain_eq hheap htoken,
      retain_eq (s := { s with arenas, accounts, journal }) hheap htoken]
    rcases s.store.findOwn heap.number found with violation | _ | ⟨k, object⟩
    · exact ⟨rfl, h⟩
    · exact ⟨rfl, h.hold .null⟩
    · simp only
      split
      · exact ⟨rfl, h⟩
      · exact ⟨rfl, (h.putObject k _).hold found⟩

/-- A token is released on both sides or on none. -/
theorem sameAnswer_release (id : HeapId) (token : TokenId) :
    SameAnswer scratch settled (s.release id token) (t.release id token) := by
  obtain ⟨arenas, accounts, journal, rfl⟩ := h.exists_eq
  by_cases hknown : s.heaps[id]? = none ∨ s.token? token = none
  · rw [release_of_none hknown, release_of_none (s := { s with arenas, accounts, journal }) hknown]
    exact ⟨rfl, h⟩
  · obtain ⟨heap, found, hheap, htoken⟩ := exists_of_known hknown
    rw [release_eq hheap htoken,
      release_eq (s := { s with arenas, accounts, journal }) hheap htoken]
    rcases s.store.findOwn heap.number found with violation | _ | ⟨k, object⟩
    · exact ⟨rfl, h.retire token .lost⟩
    · exact ⟨rfl, h.retire token .released⟩
    · simp only
      split
      · exact ⟨rfl, ((h.putObject k none).record _ _ _).retire token .released⟩
      · exact ⟨rfl, (h.putObject k _).retire token .released⟩

/-- A payload is written on both sides or on none, with the same bytes. -/
theorem sameAnswer_editPayload (id : HeapId) (token : TokenId) (edit : Edit) :
    SameAnswer scratch settled (s.editPayload id token edit) (t.editPayload id token edit) := by
  obtain ⟨arenas, accounts, journal, rfl⟩ := h.exists_eq
  by_cases hknown : s.heaps[id]? = none ∨ s.token? token = none
  · rw [editPayload_of_none hknown,
      editPayload_of_none (s := { s with arenas, accounts, journal }) hknown]
    exact ⟨rfl, h⟩
  · obtain ⟨heap, found, hheap, htoken⟩ := exists_of_known hknown
    rw [editPayload_eq hheap htoken,
      editPayload_eq (s := { s with arenas, accounts, journal }) hheap htoken]
    rcases s.store.findOwn heap.number found with violation | _ | ⟨k, object⟩
    · exact ⟨rfl, h⟩
    · exact ⟨rfl, h⟩
    · exact ⟨rfl, h.putObject k _⟩

/-- The same token may be lost on both sides. -/
theorem lose (token : TokenId) : Unmarked scratch settled (s.lose token) (t.lose token) := by
  have htoken : t.token? token = s.token? token := by
    rw [h.same]
    rfl
  unfold System.lose
  rw [htoken]
  split
  · exact h
  · exact h.retire token .lost

omit h

/-- Any call gets the same answer, if it gives back no buffer of an arena where scratch work is
done. -/
theorem sameAnswer_perform (h : Unmarked scratch settled s t) (hs : s.Attained) (ht : t.Attained)
    (call : Call) (hkept : ∀ id, call = .giveBack id → ¬ scratch id) :
    SameAnswer scratch settled (s.perform call) (t.perform call) := by
  have hunchanged : ∀ {α : Type} (result : α → CallResult) {x y : Outcome α}, x = y →
      SameAnswer scratch settled (report result (x, s)) (report result (y, t)) :=
    fun result _ _ hsame => SameAnswer.report ⟨hsame, h⟩ result
  have hinspect : ∀ {α : Type} (id : HeapId) (token : TokenId)
      (question : UInt64 → Store → Token → Except Violation α),
      s.inspect id token question = t.inspect id token question := by
    intro α id token question
    rw [h.same]
    rfl
  cases call with
  | openAccount =>
    obtain ⟨hname, hafter⟩ := h.openAccount
    exact ⟨congrArg (fun id => Except.ok (CallResult.account id)) hname, hafter⟩
  | createArena capacity account => exact (h.sameAnswer_placeArena _ _).report _
  | lendArena units capacity account => exact (h.sameAnswer_placeArena _ _).report _
  | alloc id size => exact (h.sameAnswer_alloc hs ht id size).report _
  | checkpoint id => exact hunchanged _ (h.checkpoint_eq id)
  | restore id target => exact (h.sameAnswer_restore hs ht id target).report _
  | reset id => exact (h.sameAnswer_restore hs ht id { offset := 0 }).report _
  | read id region => exact hunchanged _ (h.read_eq id region)
  | write id region edit => exact (h.sameAnswer_write hs ht id region edit).report _
  | replay id sizes => exact (h.sameAnswer_replay hs ht id sizes).report _
  | sumBatch id samples => exact (h.sameAnswer_sumBatch hs ht id samples).report _
  | giveBack id => exact (h.sameAnswer_giveBack (hkept id rfl)).report _
  | dropArena id => exact ⟨rfl, h.dropArena id⟩
  | openHeap account => exact (h.sameAnswer_openHeap account).report _
  | makeNull =>
    have hname : s.tokens.size = t.tokens.size := by rw [h.same]
    exact ⟨congrArg (fun id => Except.ok (CallResult.token id)) hname, h.hold .null⟩
  | create id size => exact (h.sameAnswer_createObject id size).report _
  | retain id token => exact (h.sameAnswer_retain id token).report _
  | release id token => exact (h.sameAnswer_release id token).report _
  | lose token => exact ⟨rfl, h.lose token⟩
  | references id token => exact hunchanged _ (hinspect id token _)
  | size id token => exact hunchanged _ (hinspect id token _)
  | payload id token => exact hunchanged _ (hinspect id token _)
  | edit id token edit => exact (h.sameAnswer_editPayload id token edit).report _
  | sameObject a b =>
    have hsame : s.sameObject a b = t.sameObject a b := by
      rw [h.same]
      rfl
    exact hunchanged _ hsame
  | createContext configuration => exact (h.sameAnswer_createContext configuration).report _
  | createDefaultContext => exact (h.sameAnswer_buildContext Configuration.default).report _
  | changeHost host =>
    obtain ⟨arenas, accounts, journal, rfl⟩ := h.exists_eq
    exact ⟨rfl, h.of_eq rfl ⟨rfl, rfl, rfl⟩ ⟨rfl, rfl, rfl⟩⟩

end Unmarked

end System

end Allotment

import Allotment.Proofs.System.Rollback
import Allotment.Proofs.System.Lineages

set_option autoImplicit false

/-!
References that are taken and given up leave no trace of the order in which that happened.
Counts tell how many tokens are still out, so it does not matter which call it was that gave
one up: two systems with the same tokens out have the same objects. Only the lines that tell
of destroyed objects come in different orders, and an account counts these alike.
-/

namespace Allotment

namespace Store

/-- Two stores with the same objects in the same places are the same. -/
theorem eq_of_object? {a b : Store} (hsize : a.objects.size = b.objects.size)
    (h : ∀ k, a.object? k = b.object? k) : a = b := by
  suffices hobjects : a.objects = b.objects by
    obtain ⟨_⟩ := a
    obtain ⟨_⟩ := b
    exact congrArg Store.mk hobjects
  apply Array.ext_getElem?
  intro k
  have hk := h k
  unfold object? at hk
  by_cases hin : k < a.objects.size
  · rw [Array.getElem?_eq_getElem hin, Array.getElem?_eq_getElem (hsize ▸ hin)] at hk ⊢
    exact congrArg some hk
  · rw [Array.getElem?_eq_none (by omega), Array.getElem?_eq_none (by omega)]

end Store

namespace Counters

/-- Two objects that are destroyed are counted alike in either order. -/
theorem note_destroyed_comm (c : Counters) (first second : UInt64) :
    (c.note (.destroyed first)).note (.destroyed second) =
      (c.note (.destroyed second)).note (.destroyed first) := by
  have hinUse : Word.monus (Word.monus c.inUse first) second =
      Word.monus (Word.monus c.inUse second) first := by
    apply UInt64.toNat_inj.1
    simp only [Word.toNat_monus]
    omega
  simp only [note, Event.charge?, record, shrink, hinUse]

end Counters

namespace System

variable {s a b : System} {heap : HeapId} {id : TokenId} {k : ObjectId}

/-- A token is held that a heap takes as its own: a null one, or one to an object which the
heap created. -/
def Owns (s : System) (heap : HeapId) (id : TokenId) : Prop :=
  (∃ owner, s.heaps[heap]? = some owner) ∧ ∃ token, s.token? id = some token ∧
    ∀ k, token.object? = some k → ∃ size, s.births[k]? = some (heap, size)

/-- The line that tells of the destruction of an object: its heap and its size. -/
def farewell? (s : System) (k : ObjectId) : Option Entry :=
  s.births[k]?.map fun birth => ⟨.heap birth.1, .destroyed birth.2⟩

/-- A system in which nothing happened but that references were taken and given up: the objects
that are left are what they were, up to their counts. -/
structure Recounted (s after : System) : Prop where
  rest : after =
    { s with
      accounts := after.accounts
      store := after.store
      tokens := after.tokens
      journal := after.journal }
  accounts : after.accounts.size = s.accounts.size
  objects : after.store.objects.size = s.store.objects.size
  kept : ∀ {k : ObjectId} {object : Object}, after.store.object? k = some object →
    ∃ before, s.store.object? k = some before ∧
      object = { before with references := object.references }

namespace Recounted

/-- Nothing but references changed where nothing changed. -/
theorem refl (s : System) : s.Recounted s :=
  ⟨rfl, rfl, rfl, fun h => ⟨_, h, rfl⟩⟩

/-- Nothing but references changed in two steps if nothing else did in each of them. -/
theorem trans (h : s.Recounted a) (hnext : a.Recounted b) : s.Recounted b where
  rest := by
    rw [hnext.rest, h.rest]
  accounts := hnext.accounts.trans h.accounts
  objects := hnext.objects.trans h.objects
  kept {k object} hobject := by
    obtain ⟨middle, hmiddle, hsame⟩ := hnext.kept hobject
    obtain ⟨before, hbefore, hearlier⟩ := h.kept hmiddle
    refine ⟨before, hbefore, ?_⟩
    rw [hsame, hearlier]

/-- The heaps are what they were. -/
theorem heaps (h : s.Recounted a) : a.heaps = s.heaps := by
  rw [h.rest]

/-- Every source reports to the account that it reported to. -/
theorem account?_eq (h : s.Recounted a) (source : Source) :
    a.account? source = s.account? source := by
  rw [h.rest]
  rfl

/-- Objects with the same counts are the same, and so are the systems but for the tokens and
the order of the journal, if the accounts have counted the same. -/
theorem eq_of_countOf (ha : s.Recounted a) (hb : s.Recounted b) (hca : a.Counted)
    (hcb : b.Counted) (hcount : ∀ k, b.countOf k = a.countOf k)
    (hcounters : ∀ account, b.counters account = a.counters account) :
    b = { a with tokens := b.tokens, journal := b.journal } := by
  -- an object that is there has a positive count, so equal counts leave the same objects
  have hstore : b.store = a.store := by
    apply Store.eq_of_object? (hb.objects.trans ha.objects.symm)
    intro k
    have hk := hcount k
    cases hbk : b.store.object? k with
    | none =>
      cases hak : a.store.object? k with
      | none => rfl
      | some object =>
        have hzero : b.countOf k = 0 := by
          rw [countOf, hbk]
          rfl
        rw [hzero, countOf_eq hak] at hk
        exact absurd (UInt32.toNat_inj.1 hk.symm) (hca.positive hak)
    | some object =>
      cases hak : a.store.object? k with
      | none =>
        have hzero : a.countOf k = 0 := by
          rw [countOf, hak]
          rfl
        rw [hzero, countOf_eq hbk] at hk
        exact absurd (UInt32.toNat_inj.1 hk) (hcb.positive hbk)
      | some found =>
        rw [countOf_eq hak, countOf_eq hbk, UInt32.toNat_inj] at hk
        obtain ⟨before, hbefore, hobject⟩ := hb.kept hbk
        obtain ⟨before', hbefore', hfound⟩ := ha.kept hak
        obtain rfl := Option.some.inj (hbefore.symm.trans hbefore')
        rw [hobject, hfound, hk]
  have haccounts : b.accounts = a.accounts := by
    apply Array.ext (hb.accounts.trans ha.accounts.symm)
    intro account hlt hlt'
    have hsame := hcounters account
    unfold counters at hsame
    rwa [Array.getElem?_eq_getElem hlt, Array.getElem?_eq_getElem hlt'] at hsame
  rw [hb.rest, hstore, haccounts, ha.rest]

/-- The object in a place was counted anew. -/
theorem of_put {object : Object} (hobject : s.store.object? k = some object)
    {next : Option Object}
    (hnext : ∀ found ∈ next, found = { object with references := found.references }) :
    s.Recounted (s.putObject k next) where
  rest := rfl
  accounts := rfl
  objects := Store.size_put _ _ _
  kept {j found} hfound := by
    replace hfound : (s.store.put k next).object? j = some found := hfound
    rw [Store.object?_put (Store.lt_size_of_object? hobject)] at hfound
    split at hfound
    · rename_i hj
      subst hj
      exact ⟨object, hobject, hnext found hfound⟩
    · exact ⟨found, hfound, rfl⟩

/-- The tokens may be other ones. -/
theorem withTokens (h : s.Recounted a) (tokens : Array TokenSlot) :
    s.Recounted { a with tokens } := by
  refine ⟨?_, h.accounts, h.objects, h.kept⟩
  rw [h.rest]

/-- Further events may be recorded. -/
theorem record (h : s.Recounted a) (source : Source) (account : AccountId) (events : List Event) :
    s.Recounted (a.record source account events) := by
  refine ⟨?_, ?_, h.objects, h.kept⟩
  · rw [h.rest]
    rfl
  · exact (size_bookAll _ _ _).trans h.accounts

end Recounted

/-- An object is gone exactly when all tokens to it were given up. -/
theorem Counted.object?_eq_none_iff (hc : s.Counted) :
    s.store.object? k = none ↔ ∀ (i : TokenId) (slot : TokenSlot), s.tokens[i]? = some slot →
      slot.token.object? = some k → slot.holding = .released := by
  have hzero : ∀ fate, s.tokensTo k fate = 0 ↔ ∀ (i : TokenId) (slot : TokenSlot),
      s.tokens[i]? = some slot → slot.token.object? = some k → slot.holding ≠ fate := by
    intro fate
    unfold tokensTo
    rw [Array.countP_eq_zero]
    constructor
    · intro h i slot hslot hk hfate
      exact h slot (Array.mem_of_getElem? hslot) (by simp [hk, hfate])
    · intro h slot hslot hboth
      obtain ⟨i, hi, rfl⟩ := Array.getElem_of_mem hslot
      obtain ⟨hk, hfate⟩ := of_decide_eq_true hboth
      exact h i _ (Array.getElem?_eq_getElem hi) hk hfate
  have hcount := hc.counted k
  constructor
  · intro hgone i slot hslot hk
    rw [countOf, hgone, Option.elim_none] at hcount
    have hheld := (hzero .held).1 (by omega) i slot hslot hk
    have hlost := (hzero .lost).1 (by omega) i slot hslot hk
    cases hholding : slot.holding with
    | held => exact absurd hholding hheld
    | released => rfl
    | lost => exact absurd hholding hlost
  · intro h
    have hheld := (hzero .held).2 fun i slot hslot hk => by simp [h i slot hslot hk]
    have hlost := (hzero .lost).2 fun i slot hslot hk => by simp [h i slot hslot hk]
    rw [hheld, hlost] at hcount
    by_contra hthere
    obtain ⟨object, hobject⟩ := Option.ne_none_iff_exists'.1 hthere
    rw [countOf_eq hobject] at hcount
    exact hc.positive hobject (UInt32.toNat_inj.1 hcount)

/-- A heap that is given its own token finds the object behind it, which it created. -/
theorem Attained.owned (hs : s.Attained) (h : s.Owns heap id) :
    ∃ owner, s.heaps[heap]? = some owner ∧
      (s.token? id = some .null ∨ ∃ k object, s.token? id = some (.reference k owner.number) ∧
        s.store.object? k = some object ∧ s.births[k]? = some (heap, object.size)) := by
  obtain ⟨⟨owner, howner⟩, token, htoken, hborn⟩ := h
  refine ⟨owner, howner, ?_⟩
  cases token with
  | null => exact .inl htoken
  | reference k maker =>
    obtain ⟨size, hbirth⟩ := hborn k rfl
    obtain ⟨birth, found, hfound, hheap, hnumber⟩ :=
      hs.recorded.made (token?_eq_some.1 htoken) rfl
    obtain rfl := Option.some.inj (hbirth.symm.trans hfound)
    obtain rfl := Option.some.inj (howner.symm.trans hheap)
    obtain ⟨object, hobject⟩ :=
      hs.counted.exists_object (Nat.add_pos_left (tokensTo_pos htoken rfl) _)
    obtain ⟨creator, hcreated⟩ := hs.recorded.sized hobject
    obtain ⟨-, rfl⟩ := Prod.mk.inj (Option.some.inj (hbirth.symm.trans hcreated))
    exact .inr ⟨k, object, hnumber ▸ htoken, hobject, hbirth⟩

/-- What the release of some held tokens leaves of a system, and which objects are gone. -/
structure Released (s : System) (ids : List TokenId) (gone : List ObjectId) (after : System) :
    Prop where
  recounted : s.Recounted after
  tokens : ∀ i, after.tokens[i]? =
    s.tokens[i]?.map fun slot => if i ∈ ids then { slot with holding := .released } else slot
  held : ∀ k, after.tokensTo k .held + ids.countP (fun id => s.objectAt id = some k) =
    s.tokensTo k .held
  lost : ∀ k, after.tokensTo k .lost = s.tokensTo k .lost
  nodup : gone.Nodup
  gone_iff : ∀ k, k ∈ gone ↔ s.store.object? k ≠ none ∧ after.store.object? k = none
  journal : ∃ lines, lines.map some = gone.map s.farewell? ∧
    after.journal.toList = s.journal.toList ++ lines

namespace Released

variable {ids more : List TokenId} {gone went : List ObjectId}

/-- The release of no tokens leaves everything as it is. -/
theorem nil (s : System) : s.Released [] [] s where
  recounted := .refl s
  tokens i := by simp
  held k := rfl
  lost k := rfl
  nodup := List.nodup_nil
  gone_iff k := by simp
  journal := ⟨[], rfl, (List.append_nil _).symm⟩

/-- The line that tells of the destruction of an object names a heap and a size. -/
theorem event_of_farewell? {line : Entry} (h : s.farewell? k = some line) :
    ∃ heap size, line = ⟨.heap heap, .destroyed size⟩ := by
  obtain ⟨birth, -, rfl⟩ := Option.map_eq_some_iff.1 h
  exact ⟨_, _, rfl⟩

/-- The lines of the destroyed objects are all of that form. -/
theorem destroyed_of_mem {lines : List Entry} (hlines : lines.map some = gone.map s.farewell?)
    {line : Entry} (hline : line ∈ lines) : ∃ heap size, line = ⟨.heap heap, .destroyed size⟩ := by
  have hmem : some line ∈ gone.map s.farewell? := hlines ▸ List.mem_map_of_mem hline
  obtain ⟨k, -, hk⟩ := List.mem_map.1 hmem
  exact event_of_farewell? hk

/-- The same destroyed objects are told in the same lines, up to their order. -/
theorem perm_lines {lines lines' : List Entry} (h : lines.map some = gone.map s.farewell?)
    (h' : lines'.map some = went.map s.farewell?) (hperm : gone.Perm went) :
    lines.Perm lines' := by
  rw [← List.map_perm_map_iff (Option.some_injective _), h, h']
  exact hperm.map _

/-- A release creates nothing. -/
theorem births_eq (h : s.Released ids gone a) : a.births = s.births := by
  obtain ⟨lines, hlines, hjournal⟩ := h.journal
  have hnone : lines.filterMap Entry.birth? = [] := by
    rw [List.filterMap_eq_nil_iff]
    intro line hline
    obtain ⟨heap, size, rfl⟩ := destroyed_of_mem hlines hline
    rfl
  unfold births
  rw [hjournal, List.filterMap_append, hnone, List.append_nil]

/-- A release does not change which objects the tokens are to. -/
theorem objectAt_eq (h : s.Released ids gone a) (i : TokenId) : a.objectAt i = s.objectAt i := by
  unfold objectAt
  rw [h.tokens]
  cases s.tokens[i]? with
  | none => rfl
  | some slot =>
    simp only [Option.map_some, Option.bind_some]
    split <;> rfl

/-- A token that was not released is still its heap's own. -/
theorem owns (h : s.Released ids gone a) (howns : s.Owns heap id) (hnew : id ∉ ids) :
    a.Owns heap id := by
  obtain ⟨hheap, token, htoken, hborn⟩ := howns
  refine ⟨h.recounted.heaps ▸ hheap, token, ?_, h.births_eq ▸ hborn⟩
  rw [token?_eq_some, h.tokens, token?_eq_some.1 htoken, Option.map_some, if_neg hnew]

/-- What two rounds of releases leave is what all of the releases leave, in that order. -/
theorem trans (h : s.Released ids gone a) (hnext : a.Released more went b) :
    s.Released (ids ++ more) (gone ++ went) b where
  recounted := h.recounted.trans hnext.recounted
  tokens i := by
    rw [hnext.tokens, h.tokens]
    cases s.tokens[i]? with
    | none => rfl
    | some slot =>
      simp only [Option.map_some, List.mem_append]
      by_cases hfirst : i ∈ ids <;> by_cases hlater : i ∈ more <;> simp [hfirst, hlater]
  held k := by
    have hfirst := h.held k
    have hlater := hnext.held k
    simp only [h.objectAt_eq] at hlater
    rw [List.countP_append]
    omega
  lost k := (hnext.lost k).trans (h.lost k)
  nodup := by
    rw [List.nodup_append]
    refine ⟨h.nodup, hnext.nodup, ?_⟩
    rintro k hk _ hlater rfl
    exact ((hnext.gone_iff k).1 hlater).1 ((h.gone_iff k).1 hk).2
  gone_iff k := by
    have hkept : a.store.object? k = none → b.store.object? k = none := by
      intro hnone
      by_contra hthere
      obtain ⟨object, hobject⟩ := Option.ne_none_iff_exists'.1 hthere
      obtain ⟨before, hbefore, -⟩ := hnext.recounted.kept hobject
      rw [hnone] at hbefore
      cases hbefore
    have hthere : a.store.object? k ≠ none → s.store.object? k ≠ none := by
      intro hsome
      obtain ⟨object, hobject⟩ := Option.ne_none_iff_exists'.1 hsome
      obtain ⟨before, hbefore, -⟩ := h.recounted.kept hobject
      simp [hbefore]
    rw [List.mem_append, h.gone_iff, hnext.gone_iff]
    by_cases hmiddle : a.store.object? k = none
    · simp [hmiddle, hkept hmiddle]
    · simp [hmiddle, hthere hmiddle]
  journal := by
    obtain ⟨first, hfirst, hjournal⟩ := h.journal
    obtain ⟨later, hlater, hjournal'⟩ := hnext.journal
    have hsame : a.farewell? = s.farewell? := by
      funext k
      unfold farewell?
      rw [h.births_eq]
    refine ⟨first ++ later, ?_, ?_⟩
    · rw [List.map_append, List.map_append, hfirst, hlater, hsame]
    · rw [hjournal', hjournal, List.append_assoc]

/-- The objects that are gone are those to which no token is out that was not released. -/
theorem mem_gone_iff (h : s.Released ids gone a) (hc : a.Counted) (k : ObjectId) :
    k ∈ gone ↔ s.store.object? k ≠ none ∧
      ∀ (i : TokenId) (slot : TokenSlot), s.tokens[i]? = some slot →
        slot.token.object? = some k → slot.holding ≠ .released → i ∈ ids := by
  rw [h.gone_iff, hc.object?_eq_none_iff]
  refine and_congr_right fun _ => ⟨?_, ?_⟩
  · intro hall i slot hslot hk hout
    by_contra hother
    have hafter : a.tokens[i]? = some slot := by
      rw [h.tokens, hslot, Option.map_some, if_neg hother]
    exact hout (hall i slot hafter hk)
  · intro hall i slot hslot hk
    rw [h.tokens] at hslot
    obtain ⟨before, hbefore, rfl⟩ := Option.map_eq_some_iff.1 hslot
    by_cases hin : i ∈ ids
    · rw [if_pos hin]
    · rw [if_neg hin] at hk ⊢
      by_contra hout
      exact hin (hall i before hbefore hk hout)

/-- Lines that tell of the same destroyed objects are counted alike in any order. -/
theorem counters_eq (h : s.Released ids gone a) (h' : s.Released more went b) (ha : a.Attained)
    (hb : b.Attained) (hperm : gone.Perm went) (account : AccountId) :
    b.counters account = a.counters account := by
  obtain ⟨lines, hlines, hjournal⟩ := h.journal
  obtain ⟨lines', hlines', hjournal'⟩ := h'.journal
  have hsame : lines.Perm lines' := perm_lines hlines hlines' hperm
  have hevents : ∀ {after : System}, s.Recounted after → ∀ entries,
      after.eventsIn account entries = s.eventsIn account entries := by
    intro after hafter entries
    unfold eventsIn
    simp only [hafter.account?_eq]
  have hdestroyed : ∀ event ∈ s.eventsIn account lines, ∃ size, event = .destroyed size := by
    intro event hevent
    obtain ⟨line, hline, hsome⟩ := List.mem_filterMap.1 hevent
    obtain ⟨heap, size, rfl⟩ := destroyed_of_mem hlines hline
    split at hsome
    · exact ⟨size, (Option.some.inj hsome).symm⟩
    · cases hsome
  rw [ha.counters_eq, hb.counters_eq, eventsOf, eventsOf, hjournal, hjournal',
    hevents h.recounted, hevents h'.recounted, eventsIn_append, eventsIn_append, List.foldl_append,
    List.foldl_append]
  refine ((hsame.filterMap _).foldl_eq' ?_ _).symm
  intro first hfirst second hsecond c
  obtain ⟨size, rfl⟩ := hdestroyed first hfirst
  obtain ⟨size', rfl⟩ := hdestroyed second hsecond
  exact c.note_destroyed_comm size size'

end Released

/-- A token that is given up is the only one whose holding changes. -/
theorem getElem?_tokens_retire (s : System) (id i : TokenId) :
    (s.retire id .released).tokens[i]? =
      s.tokens[i]?.map fun slot =>
        if i ∈ [id] then { slot with holding := .released } else slot := by
  show (s.tokens.modify id fun slot => { slot with holding := .released })[i]? = _
  rw [Array.getElem?_modify]
  by_cases hi : id = i
  · simp [hi]
  · simp [hi, Ne.symm hi]

/-- The parts of a release that are the same whether or not the object goes with it. -/
theorem Released.of_retire (h : s.Recounted a) (htokens : a.tokens = s.tokens) {token : Token}
    (htoken : s.token? id = some token) {gone : List ObjectId} (hnodup : gone.Nodup)
    (hgone : ∀ k, k ∈ gone ↔ s.store.object? k ≠ none ∧ a.store.object? k = none)
    (hjournal : ∃ lines, lines.map some = gone.map s.farewell? ∧
      a.journal.toList = s.journal.toList ++ lines) :
    s.Released [id] gone (a.retire id .released) := by
  have hretired : (a.retire id .released).tokens = (s.retire id .released).tokens := by
    show (a.tokens.modify id fun slot => { slot with holding := .released }) = _
    rw [htokens]
    rfl
  have hcount : ∀ k fate, (a.retire id .released).tokensTo k fate =
      (s.retire id .released).tokensTo k fate := by
    intro k fate
    unfold tokensTo
    rw [hretired]
  have hobject := objectAt_of_token? htoken
  refine ⟨h.withTokens _, ?_, ?_, ?_, hnodup, hgone, hjournal⟩
  · intro i
    rw [hretired]
    exact s.getElem?_tokens_retire id i
  · intro k
    have hmoved := tokensTo_retire htoken .released k .held
    rw [hcount, List.countP_singleton, hobject]
    simpa using hmoved
  · intro k
    have hmoved := tokensTo_retire htoken .released k .lost
    rw [hcount]
    simpa using hmoved

/-- A token that its own heap is given back is released; its object goes with it if that was the
last reference. -/
theorem Attained.release_owned (hs : s.Attained) (h : s.Owns heap id) :
    (s.release heap id).1 = .ok () ∧ ∃ gone, s.Released [id] gone (s.release heap id).2 := by
  obtain ⟨owner, hheap, htoken | ⟨k, object, htoken, hobject, hbirth⟩⟩ := hs.owned h
  · rw [release_eq hheap htoken]
    exact ⟨rfl, [], .of_retire (.refl s) rfl htoken List.nodup_nil (by simp)
      ⟨[], rfl, (List.append_nil _).symm⟩⟩
  · rw [release_eq hheap htoken, Store.findOwn_of_object? hobject]
    have hput : ∀ next j, (s.store.put k next).object? j =
        if j = k then next else s.store.object? j :=
      fun next j => Store.object?_put (Store.lt_size_of_object? hobject) next j
    -- the last reference destroys the object, and any other one only counts down
    by_cases hlast : object.references - 1 = 0
    · simp only [hlast, if_true, true_and]
      refine ⟨[k], .of_retire ((Recounted.of_put hobject (by simp)).record _ _ _) rfl htoken
        (List.nodup_singleton k) ?_ ⟨[⟨.heap heap, .destroyed object.size⟩], ?_, ?_⟩⟩
      · intro j
        show j ∈ [k] ↔ _ ∧ (s.store.put k none).object? j = none
        rw [hput, List.mem_singleton]
        by_cases hj : j = k
        · simp [hj, hobject]
        · simp [hj]
      · simp [farewell?, hbirth]
      · exact journal_record _ _ _ _
    · simp only [hlast, if_false, true_and]
      refine ⟨[], .of_retire (Recounted.of_put hobject (by simp)) rfl htoken List.nodup_nil ?_
        ⟨[], rfl, (List.append_nil _).symm⟩⟩
      intro j
      show j ∈ [] ↔ _ ∧ (s.store.put k _).object? j = none
      rw [hput]
      by_cases hj : j = k
      · simp [hj]
      · simp [hj]

/-- The action that gives a token back to a heap. -/
def giveUp (release : HeapId × TokenId) : Action :=
  .call (.release release.1 release.2)

/-- A round of releases makes the first one and then the others. -/
theorem run_giveUp (s : System) (release : HeapId × TokenId) (rest : List (HeapId × TokenId)) :
    s.run ((release :: rest).map giveUp) =
      (.call ((s.release release.1 release.2).1.map fun () => .done) ::
          ((s.release release.1 release.2).2.run (rest.map giveUp)).1,
        ((s.release release.1 release.2).2.run (rest.map giveUp)).2) :=
  rfl

/-- Tokens that are given back to their own heaps are all taken, in whatever order they come. -/
theorem Attained.released (hs : s.Attained) {releases : List (HeapId × TokenId)}
    (hdistinct : (releases.map Prod.snd).Nodup) (howns : ∀ r ∈ releases, s.Owns r.1 r.2) :
    (∀ reply ∈ (s.run (releases.map giveUp)).1, reply = .call (.ok .done)) ∧
      ∃ gone, s.Released (releases.map Prod.snd) gone (s.run (releases.map giveUp)).2 := by
  induction releases generalizing s with
  | nil => exact ⟨List.forall_mem_nil _, [], .nil s⟩
  | cons release rest ih =>
    obtain ⟨hown, hrest⟩ := List.forall_mem_cons.1 howns
    rw [List.map_cons, List.nodup_cons] at hdistinct
    obtain ⟨hok, gone, hreleased⟩ := hs.release_owned hown
    have hlater : ∀ r ∈ rest, (s.release release.1 release.2).2.Owns r.1 r.2 := by
      intro r hr
      apply hreleased.owns (hrest r hr)
      rw [List.mem_singleton]
      rintro hsame
      exact hdistinct.1 (hsame ▸ List.mem_map_of_mem hr)
    have hafter : (s.release release.1 release.2).2.Attained :=
      hs.performed (.release release.1 release.2)
    obtain ⟨hreplies, went, hall⟩ := ih hafter hdistinct.2 hlater
    rw [run_giveUp]
    refine ⟨?_, _, hreleased.trans hall⟩
    rw [List.forall_mem_cons, hok]
    exact ⟨rfl, hreplies⟩

section Sharing

variable {o : Option ObjectId} {retains : List (HeapId × TokenId)}

/-- The action that has a heap take another reference to the object behind a token. -/
def share (retain : HeapId × TokenId) : Action :=
  .call (.retain retain.1 retain.2)

/-- Each of some retains is given a token that is held by then, which its heap takes as its own,
for the same object each time, or null each time. -/
def Shares (s : System) (o : Option ObjectId) : List (HeapId × TokenId) → Prop
  | [] => True
  | (heap, id) :: rest =>
    s.Owns heap id ∧ s.objectAt id = o ∧ (s.retain heap id).2.Shares o rest

/-- A system in which references to an object were taken, and nothing else happened. -/
structure Shared (s : System) (o : Option ObjectId) (n : ℕ) (after : System) : Prop where
  recounted : s.Recounted after
  accounts : after.accounts = s.accounts
  journal : after.journal = s.journal
  size : after.tokens.size = s.tokens.size + n
  held : ∀ k, after.tokensTo k .held = s.tokensTo k .held + if o = some k then n else 0
  lost : ∀ k, after.tokensTo k .lost = s.tokensTo k .lost

/-- References that were taken in two steps add up. -/
theorem Shared.trans {m n : ℕ} (h : s.Shared o m a) (hnext : a.Shared o n b) :
    s.Shared o (m + n) b where
  recounted := h.recounted.trans hnext.recounted
  accounts := hnext.accounts.trans h.accounts
  journal := hnext.journal.trans h.journal
  size := by rw [hnext.size, h.size, Nat.add_assoc]
  held k := by
    rw [hnext.held, h.held]
    split <;> omega
  lost k := (hnext.lost k).trans (h.lost k)

/-- The count of the shared object went up by the references that were taken, and no other count
changed. -/
theorem Shared.countOf_eq {n : ℕ} (h : s.Shared o n a) (hc : s.Counted) (ha : a.Counted)
    (k : ObjectId) : a.countOf k = s.countOf k + if o = some k then n else 0 := by
  rw [ha.counted, hc.counted, h.held, h.lost]
  omega

/-- A heap that is given its own token takes another reference, if that can be counted. -/
theorem Attained.retain_owned (hs : s.Attained) (h : s.Owns heap id) (ho : s.objectAt id = o)
    (hroom : ∀ k, o = some k → s.countOf k + 1 < 2 ^ 32) :
    (s.retain heap id).1 = .ok s.tokens.size ∧ s.Shared o 1 (s.retain heap id).2 := by
  have hheld : ∀ {after : System} {token : Token}, s.Recounted after →
      after.accounts = s.accounts → after.journal = s.journal → after.tokens = s.tokens →
      token.object? = o → s.Shared o 1 (after.hold token).2 := by
    intro after token hafter haccounts hjournal htokens htoken
    have hcount : ∀ k fate, after.tokensTo k fate = s.tokensTo k fate := by
      intro k fate
      unfold tokensTo
      rw [htokens]
    refine ⟨hafter.withTokens _, haccounts, hjournal, ?_, ?_, ?_⟩
    · show (after.tokens.push _).size = _
      rw [Array.size_push, htokens]
    · intro k
      rw [tokensTo_hold, hcount, htoken]
      simp
    · intro k
      rw [tokensTo_hold, hcount]
      simp
  obtain ⟨owner, hheap, htoken | ⟨k, object, htoken, hobject, -⟩⟩ := hs.owned h
  · rw [objectAt_of_token? htoken] at ho
    rw [retain_eq hheap htoken]
    exact ⟨rfl, hheld (.refl s) rfl rfl rfl ho⟩
  · rw [objectAt_of_token? htoken] at ho
    have hmax : object.references ≠ maxReferences := by
      intro hfull
      have hfew := hroom k ho.symm
      rw [System.countOf_eq hobject, hfull] at hfew
      exact absurd hfew (by decide)
    rw [retain_eq hheap htoken, Store.findOwn_of_object? hobject]
    simp only [hmax, if_false, true_and]
    exact hheld (Recounted.of_put hobject (by simp)) rfl rfl rfl ho

/-- Retains of held tokens to one object all go through as long as its count has room, and do
nothing but take references. -/
theorem Attained.shared (hs : s.Attained) (h : s.Shares o retains)
    (hroom : ∀ k, o = some k → s.countOf k + retains.length < 2 ^ 32) :
    (s.run (retains.map share)).1 =
        (List.range' s.tokens.size retains.length).map (fun id => .call (.ok (.token id))) ∧
      s.Shared o retains.length (s.run (retains.map share)).2 := by
  induction retains generalizing s with
  | nil => exact ⟨rfl, .refl s, rfl, rfl, rfl, fun k => (ite_self 0).symm ▸ rfl, fun k => rfl⟩
  | cons retain rest ih =>
    obtain ⟨heap, id⟩ := retain
    obtain ⟨hown, ho, hrest⟩ := h
    rw [List.length_cons] at hroom ⊢
    have hone : ∀ k, o = some k → s.countOf k + 1 < 2 ^ 32 := by
      intro k hk
      have hk := hroom k hk
      omega
    obtain ⟨hok, hshared⟩ := hs.retain_owned hown ho hone
    have hafter : (s.retain heap id).2.Attained := hs.performed (.retain heap id)
    have hleft : ∀ k, o = some k → (s.retain heap id).2.countOf k + rest.length < 2 ^ 32 := by
      intro k hk
      rw [hshared.countOf_eq hs.counted hafter.counted, if_pos hk]
      have hk := hroom k hk
      omega
    obtain ⟨hreplies, hall⟩ := ih hafter hrest hleft
    have hrun : s.run (((heap, id) :: rest).map share) =
        (.call ((s.retain heap id).1.map .token) :: ((s.retain heap id).2.run (rest.map share)).1,
          ((s.retain heap id).2.run (rest.map share)).2) := rfl
    rw [hrun, hreplies, hok, hshared.size]
    exact ⟨by rw [List.range'_succ]; rfl, Nat.add_comm 1 _ ▸ hshared.trans hall⟩

end Sharing

/-- Releases of one object undo as many retains of it: only the tokens tell that they were made. -/
theorem Released.eq_of_shared {o : Option ObjectId} {n : ℕ} {ids : List TokenId}
    {gone : List ObjectId} (h : a.Released ids gone b) (hshared : s.Shared o n a)
    (hs : s.Attained) (hb : b.Attained) (hlength : ids.length = n)
    (ho : ∀ id ∈ ids, a.objectAt id = o) : b = { s with tokens := b.tokens } := by
  have hcount : ∀ k, b.countOf k = s.countOf k := by
    intro k
    have hall : ids.countP (fun id => a.objectAt id = some k) = if o = some k then n else 0 := by
      by_cases hk : o = some k
      · rw [if_pos hk, ← hlength, List.countP_eq_length]
        intro id hid
        simp [ho id hid, hk]
      · rw [if_neg hk, List.countP_eq_zero]
        intro id hid
        simp [ho id hid, hk]
    have hheld := h.held k
    rw [hshared.held, hall] at hheld
    rw [hb.counted.counted, hs.counted.counted, h.lost, hshared.lost]
    omega
  -- every count is what it was before, so no object is gone and no line was added
  have hnone : gone = [] := by
    rw [List.eq_nil_iff_forall_not_mem]
    intro k hk
    obtain ⟨hthere, hgone⟩ := (h.gone_iff k).1 hk
    obtain ⟨object, hobject⟩ := Option.ne_none_iff_exists'.1 hthere
    obtain ⟨before, hbefore, -⟩ := hshared.recounted.kept hobject
    have hk := hcount k
    rw [countOf_eq hbefore, countOf, hgone] at hk
    exact hs.counted.positive hbefore (UInt32.toNat_inj.1 hk.symm)
  have hjournal : b.journal = s.journal := by
    obtain ⟨lines, hlines, hgrown⟩ := h.journal
    rw [hnone, List.map_nil, List.map_eq_nil_iff] at hlines
    rw [hlines, List.append_nil, hshared.journal] at hgrown
    exact Array.toList_inj.1 hgrown
  have hrecounted : s.Recounted b := hshared.recounted.trans h.recounted
  have hcounters : ∀ account, b.counters account = s.counters account := by
    intro account
    rw [hb.counters_eq, hs.counters_eq, eventsOf, eventsOf, hjournal, eventsIn, eventsIn]
    simp only [hrecounted.account?_eq]
  have hsame :=
    (Recounted.refl s).eq_of_countOf hrecounted hs.counted hb.counted hcount hcounters
  rw [hjournal] at hsame
  exact hsame

/-- In every attained system, tokens that are held are given back to their own heaps in some
order, null ones among them, several to one object, and such of different heaps, which may
share accounts. All are taken, and every other order of the same releases leads to the same
system: the same objects are left with the same counts, and the accounts have counted the same.
Only the lines that tell of destroyed objects may come in another order, and there is exactly
one for each object to which no token is out that was not given back. And if references to an
object are taken, by way of any of its tokens, as long as they can be counted, and as many of
its tokens are then given back, whichever and in whatever order, then nothing has changed but
which tokens are held. -/
theorem releases_commute (hs : s.Attained) :
    (∀ releases other : List (HeapId × TokenId), releases.Perm other →
      (releases.map Prod.snd).Nodup → (∀ r ∈ releases, s.Owns r.1 r.2) →
      let first := s.run (releases.map giveUp)
      let second := s.run (other.map giveUp)
      (∀ reply ∈ first.1 ++ second.1, reply = .call (.ok .done)) ∧
      second.2 = { first.2 with journal := second.2.journal } ∧
      ∃ (lines lines' : List Entry) (gone : List ObjectId),
        first.2.journal.toList = s.journal.toList ++ lines ∧
        second.2.journal.toList = s.journal.toList ++ lines' ∧ lines.Perm lines' ∧
        lines.map some = gone.map s.farewell? ∧ gone.Nodup ∧
        ∀ k, k ∈ gone ↔ s.store.object? k ≠ none ∧
          ∀ (i : TokenId) (slot : TokenSlot), s.tokens[i]? = some slot →
            slot.token.object? = some k → slot.holding ≠ .released →
              i ∈ releases.map Prod.snd) ∧
    ∀ (o : Option ObjectId) (retains : List (HeapId × TokenId)), s.Shares o retains →
      (∀ k, o = some k → s.countOf k + retains.length < 2 ^ 32) →
      let shared := s.run (retains.map share)
      shared.1 = (List.range' s.tokens.size retains.length).map
        (fun id => .call (.ok (.token id))) ∧
      ∀ releases : List (HeapId × TokenId), releases.length = retains.length →
        (releases.map Prod.snd).Nodup →
        (∀ r ∈ releases, shared.2.Owns r.1 r.2 ∧ shared.2.objectAt r.2 = o) →
        let last := shared.2.run (releases.map giveUp)
        (∀ reply ∈ last.1, reply = .call (.ok .done)) ∧
          last.2 = { s with tokens := last.2.tokens } := by
  constructor
  · intro releases other hperm hdistinct howns first second
    have hids : (releases.map Prod.snd).Perm (other.map Prod.snd) := hperm.map _
    have howns' : ∀ r ∈ other, s.Owns r.1 r.2 := fun r hr => howns r (hperm.mem_iff.2 hr)
    obtain ⟨hok, gone, hfirst⟩ := hs.released hdistinct howns
    obtain ⟨hok', went, hsecond⟩ := hs.released (hids.nodup_iff.1 hdistinct) howns'
    have ha : first.2.Attained := hs.run _
    have hb : second.2.Attained := hs.run _
    -- which objects are gone is decided by which tokens were released, in whatever order
    have hsame : gone.Perm went := by
      rw [List.perm_ext_iff_of_nodup hfirst.nodup hsecond.nodup]
      intro k
      rw [hfirst.mem_gone_iff ha.counted, hsecond.mem_gone_iff hb.counted]
      simp only [hids.mem_iff]
    have htokens : second.2.tokens = first.2.tokens := by
      apply Array.ext_getElem?
      intro i
      rw [hfirst.tokens, hsecond.tokens]
      simp only [hids.mem_iff]
    have hcount : ∀ k, second.2.countOf k = first.2.countOf k := by
      intro k
      rw [ha.counted.counted, hb.counted.counted, tokensTo, tokensTo, tokensTo, tokensTo, htokens]
    have hstate := hfirst.recounted.eq_of_countOf hsecond.recounted ha.counted hb.counted hcount
      (hfirst.counters_eq hsecond ha hb hsame)
    rw [htokens] at hstate
    obtain ⟨lines, hlines, hjournal⟩ := hfirst.journal
    obtain ⟨lines', hlines', hjournal'⟩ := hsecond.journal
    exact ⟨List.forall_mem_append.2 ⟨hok, hok'⟩, hstate, lines, lines', gone, hjournal, hjournal',
      Released.perm_lines hlines hlines' hsame, hlines, hfirst.nodup,
      hfirst.mem_gone_iff ha.counted⟩
  · intro o retains hshares hroom shared
    obtain ⟨hreplies, hshared⟩ := hs.shared hshares hroom
    refine ⟨hreplies, ?_⟩
    intro releases hlength hdistinct howns last
    have hattained : shared.2.Attained := hs.run _
    obtain ⟨hok, gone, hreleased⟩ := hattained.released hdistinct fun r hr => (howns r hr).1
    refine ⟨hok, hreleased.eq_of_shared hshared hs (hattained.run _) ?_ ?_⟩
    · rw [List.length_map, hlength]
    · intro id hid
      obtain ⟨r, hr, rfl⟩ := List.mem_map.1 hid
      exact (howns r hr).2

/-- Two tokens to one object, one to an object of another heap on the same account, and a null
one: the two objects are destroyed in either order. And a reference is taken by way of a token
that was itself taken just then; the first token and the last one are given back. -/
theorem releases_commute_of_two_heaps :
    let s := ({} : System).performAll
      [.openAccount, .openHeap 0, .openHeap 0, .create 0 8, .retain 0 0, .create 1 4, .makeNull]
    let first := s.run ([(0, 0), (1, 3), (1, 2), (0, 1)].map giveUp)
    let second := s.run ([(0, 0), (0, 1), (1, 3), (1, 2)].map giveUp)
    (second.2 = { first.2 with journal := second.2.journal } ∧
      first.2.journal.toList = s.journal.toList ++
        [⟨.heap 1, .destroyed 4⟩, ⟨.heap 0, .destroyed 8⟩] ∧
      second.2.journal.toList = s.journal.toList ++
        [⟨.heap 0, .destroyed 8⟩, ⟨.heap 1, .destroyed 4⟩] ∧
      (second.2.counters 0).inUse = 0) ∧
    let last := (s.run ([(0, 1), (0, 4)].map share)).2.run ([(0, 5), (0, 0)].map giveUp)
    last.2 = { s with tokens := last.2.tokens } := by
  intro s first second
  have hs : s.Attained := attained_performAll Host.standard _
  have hown : ∀ {t : System} {id : TokenId}, t.heaps[0]? = some ⟨1, 0⟩ →
      t.token? id = some (.reference 0 1) → t.births[0]? = some (0, 8) → t.Owns 0 id := by
    intro t id hheap htoken hbirth
    refine ⟨⟨_, hheap⟩, _, htoken, ?_⟩
    rintro k ⟨⟩
    exact ⟨8, hbirth⟩
  have hother : s.Owns 1 2 := by
    refine ⟨⟨⟨2, 0⟩, by decide +kernel⟩, .reference 1 2, by decide +kernel, ?_⟩
    rintro k ⟨⟩
    exact ⟨4, by decide +kernel⟩
  have hnull : s.Owns 1 3 := by
    refine ⟨⟨⟨2, 0⟩, by decide +kernel⟩, .null, by decide +kernel, ?_⟩
    rintro k ⟨⟩
  have howns : ∀ r ∈ [(0, 0), (1, 3), (1, 2), (0, 1)], s.Owns r.1 r.2 := by
    simp only [List.forall_mem_cons, List.not_mem_nil, false_implies, implies_true, and_true]
    exact ⟨hown (by decide +kernel) (by decide +kernel) (by decide +kernel), hnull, hother,
      hown (by decide +kernel) (by decide +kernel) (by decide +kernel)⟩
  obtain ⟨horders, hsharing⟩ := releases_commute hs
  obtain ⟨-, hstate, -⟩ := horders [(0, 0), (1, 3), (1, 2), (0, 1)] [(0, 0), (0, 1), (1, 3), (1, 2)]
    (by decide) (by decide) howns
  refine ⟨⟨hstate, by decide +kernel, by decide +kernel, by decide +kernel⟩, ?_⟩
  have hshares : s.Shares (some 0) [(0, 1), (0, 4)] :=
    ⟨hown (by decide +kernel) (by decide +kernel) (by decide +kernel), by decide +kernel,
      hown (by decide +kernel) (by decide +kernel) (by decide +kernel), by decide +kernel, trivial⟩
  have hroom : ∀ k, some 0 = some k → s.countOf k + 2 < 2 ^ 32 := by
    rintro k ⟨⟩
    decide +kernel
  obtain ⟨-, hundone⟩ := hsharing (some 0) [(0, 1), (0, 4)] hshares hroom
  refine (hundone [(0, 5), (0, 0)] rfl (by decide) ?_).2
  simp only [List.forall_mem_cons, List.not_mem_nil, false_implies, implies_true, and_true]
  exact ⟨⟨hown (by decide +kernel) (by decide +kernel) (by decide +kernel), by decide +kernel⟩,
    hown (by decide +kernel) (by decide +kernel) (by decide +kernel), by decide +kernel⟩

end System

end Allotment

import Allotment.Batch
import Allotment.Proofs.Arena.Alike
import Allotment.Proofs.Arena.Requests
import Allotment.Proofs.System.Unrolled
import Mathlib.Algebra.Ring.Int.Defs
import Mathlib.Data.List.TakeWhile

set_option autoImplicit false

/-!
A batch computes twice the sum of its samples. The doubled samples go through bytes and back,
each in four of its own, and the bytes that are left over are zero as a grant clears them. All
of that happens behind what the arena has granted before, and the arena is rolled back at the
end, so what is left of the batch in the arena lies beyond its granted part.
-/

namespace Allotment

namespace Bytes

/-- A run that is laid over a buffer from its start comes first, and the rest of the buffer
after it. -/
theorem toList_overlay_zero (bytes : Bytes) {run : List UInt8} (h : run.length ≤ bytes.size) :
    (overlay bytes 0 run).toList = run ++ bytes.toList.drop run.length := by
  apply List.ext_getElem?
  intro i
  rw [Array.getElem?_toList, getElem?_overlay, List.getElem?_append]
  by_cases hi : i < run.length
  · rw [if_pos (by omega), if_pos hi, Nat.sub_zero]
  · rw [if_neg (by omega), if_neg hi, List.getElem?_drop, Array.getElem?_toList,
      Nat.add_sub_cancel' (Nat.le_of_not_lt hi)]

end Bytes

namespace Batch

/-- A batch whose size in bytes is a word, and of which each sample can be doubled. -/
def Tidy (samples : List Int32) : Prop :=
  samples.length < 2 ^ 32 ∧ ∀ sample ∈ samples, -2 ^ 30 ≤ sample.toInt ∧ sample.toInt < 2 ^ 30

instance (samples : List Int32) : Decidable (Tidy samples) :=
  -- the samples are gone through one by one, where a search could try every word there is
  @instDecidableAnd _ _ (Nat.decLt _ _) (List.decidableBAll _ samples)

/-- How many bytes a batch asks for. -/
def size (samples : List Int32) : UInt64 :=
  UInt64.ofNat (4 * samples.length)

/-- A sample is read back from the four bytes that it is stored in. -/
theorem decode_encode (sample : Int32) : decode (encode sample) = sample := by
  have hlt : sample.toUInt32.toNat < 1 <<< (8 * 4) := sample.toUInt32.toNat_lt
  unfold decode encode
  rw [Bytes.toNat_ofNat, Nat.mod_eq_of_lt hlt, UInt32.ofNat_toNat, Int32.toInt32_toUInt32]

/-- The total of bytes that start with a sample counts this sample and the rest. -/
theorem total_encode_append (sample : Int32) (rest : List UInt8) :
    total (encode sample ++ rest) = sample.toInt64 + total rest := by
  show (decode (encode sample)).toInt64 + total rest = _
  rw [decode_encode]

section Sample

variable {sample : Int32} (h : -2 ^ 30 ≤ sample.toInt ∧ sample.toInt < 2 ^ 30)
include h

/-- Doubling a sample that can be doubled doubles its exact value. -/
theorem toInt_double : (sample * 2).toInt = 2 * sample.toInt := by
  have htwo : (2 : Int32).toInt = 2 := rfl
  rw [Int32.toInt_mul, htwo, Int.bmod_eq_of_le_mul_two (by omega) (by omega), Int.mul_comm]

/-- A sample within the bounds passes the check of the multiplication. -/
theorem isDoublable_eq : isDoublable sample = true := by
  have hmin : Int32.minValue.toInt = -2 ^ 31 := rfl
  have hmax : Int32.maxValue.toInt = 2 ^ 31 - 1 := rfl
  unfold isDoublable
  rw [Bool.and_eq_true, decide_eq_true_eq, decide_eq_true_eq, hmin, hmax]
  omega

end Sample

/-- The total of doubled samples is exact, as fewer than `2 ^ 32` of them stay below `2 ^ 63`. -/
theorem toInt_total {samples : List Int32} (htidy : Tidy samples) {rest : List UInt8}
    (hrest : total rest = 0) :
    (total ((samples.flatMap fun sample => encode (sample * 2)) ++ rest)).toInt =
        2 * (samples.map Int32.toInt).sum ∧
      -2 ^ 30 * samples.length ≤ (samples.map Int32.toInt).sum ∧
      (samples.map Int32.toInt).sum ≤ 2 ^ 30 * samples.length := by
  induction samples with
  | nil =>
    rw [List.flatMap_nil, List.nil_append, hrest]
    exact ⟨rfl, Int.le_refl 0, Int.le_refl 0⟩
  | cons sample samples ih =>
    obtain ⟨hfew, hsmall⟩ := htidy
    obtain ⟨hfirst, hlater⟩ := List.forall_mem_cons.1 hsmall
    rw [List.length_cons] at hfew
    obtain ⟨htotal, hlower, hupper⟩ := ih ⟨by omega, hlater⟩
    rw [List.flatMap_cons, List.append_assoc, total_encode_append, Int64.toInt_add,
      Int32.toInt_toInt64, toInt_double hfirst, htotal, List.map_cons, List.sum_cons,
      List.length_cons, ← Int.mul_add]
    refine ⟨Int.bmod_eq_of_le_mul_two ?_ ?_, ?_, ?_⟩ <;> omega

/-- A whole number of zero samples adds nothing to the total. -/
theorem total_zeros {k : ℕ} (h : k < 8) (hfour : 4 ∣ k) : total (Bytes.zeros k) = 0 := by
  obtain rfl | rfl : k = 0 ∨ k = 4 := by omega
  · rfl
  · rfl

variable {samples : List Int32}

/-- The size in bytes of a tidy batch is a word. -/
theorem toNat_size (htidy : Tidy samples) : (size samples).toNat = 4 * samples.length := by
  have hfew := htidy.1
  have hwords : UInt64.size = 2 ^ 64 := rfl
  exact UInt64.toNat_ofNat_of_lt' (by omega)

/-- All samples of a tidy batch pass the check. -/
theorem all_isDoublable (htidy : Tidy samples) : samples.all isDoublable = true := by
  rw [List.all_eq_true]
  intro sample hmem
  exact isDoublable_eq (htidy.2 sample hmem)

/-- The scratch space of a tidy batch holds all its samples, doubled. -/
theorem scratch_eq (htidy : Tidy samples) :
    scratch samples = samples.flatMap fun sample => encode (sample * 2) := by
  have hall : samples.takeWhile isDoublable = samples :=
    List.takeWhile_eq_self_iff.2 fun sample hmem => isDoublable_eq (htidy.2 sample hmem)
  rw [scratch, hall]

/-- A tidy batch needs four bytes of scratch space for each sample. -/
theorem length_scratch (htidy : Tidy samples) : (scratch samples).length = 4 * samples.length := by
  rw [scratch_eq htidy]
  clear htidy
  induction samples with
  | nil => rfl
  | cons sample rest ih =>
    have hfour : (encode (sample * 2)).length = 4 := rfl
    rw [List.flatMap_cons, List.length_append, hfour, ih, List.length_cons]
    omega

/-- What a batch reads back from cleared scratch space of its rounded size. -/
theorem toInt_total_scratch (htidy : Tidy samples) :
    (total (Edit.apply { run := scratch samples }
      (Array.replicate (roundUp (4 * samples.length)) 0)).toList).toInt =
        2 * (samples.map Int32.toInt).sum := by
  obtain ⟨-, hle⟩ := (isLeast_roundUp (4 * samples.length)).1
  obtain ⟨pad, hpad⟩ : ∃ pad, roundUp (4 * samples.length) = 4 * samples.length + pad :=
    Nat.exists_eq_add_of_le hle
  have hfour : 4 ∣ pad ∧ pad < 8 := by
    unfold roundUp at hpad
    omega
  have hzeros : (Array.replicate (4 * samples.length + pad) (0 : UInt8)).toList.drop
      (4 * samples.length) = Bytes.zeros pad := by
    rw [Array.toList_replicate, List.drop_replicate, Nat.add_sub_cancel_left]
    rfl
  rw [hpad]
  show (total (Bytes.overlay (Array.replicate _ 0) 0 (scratch samples)).toList).toInt = _
  rw [Bytes.toList_overlay_zero, length_scratch htidy, hzeros, scratch_eq htidy]
  · exact (toInt_total htidy (total_zeros hfour.2 hfour.1)).1
  · rw [length_scratch htidy, Array.size_replicate]
    exact Nat.le_add_right _ _

end Batch

namespace Arena

variable {arena : Arena} {request : UInt64} {region : Region}

/-- A region that was just granted can be read. -/
theorem read?_grant_self (arena : Arena) (region : Region) :
    (arena.grant region).read? region = some ((arena.grant region).slice region) :=
  ((arena.grant region).read?_eq_some_iff region _).2 ⟨Nat.le_refl _, rfl⟩

/-- The moves of work in scratch space: it is granted, written once, and given back. -/
def scratchMoves (arena : Arena) (request : UInt64) (region : Region) (run : List UInt8) :
    List ArenaMove :=
  [.alloc request, .write region { run }, .restore arena.checkpoint]

/-- What work in scratch space leaves of an arena: all is as before but for the bytes where the
scratch space was. -/
def scratched (arena : Arena) (region : Region) (run : List UInt8) : Arena :=
  let granted := arena.grant region
  { arena with bytes := (granted.store region (Edit.apply { run } (granted.slice region))).bytes }

section Scratch

variable (hplace : arena.place request = .ok region) (run : List UInt8)
include hplace

/-- What work in scratch space does to an arena, and the grant and the rollback that it
announces. -/
theorem moveAll_scratchMoves :
    arena.moveAll (arena.scratchMoves request region run) = arena.scratched region run ∧
      arena.announcedAll (arena.scratchMoves request region run) =
        [.granted region.length, .restored region.length arena.used] := by
  obtain ⟨hoffset, -, hstop, -⟩ := place_eq_ok hplace
  have hback : arena.offset ≤ region.stop := by
    rw [UInt64.le_iff_toNat_le]
    omega
  have hreclaimed : region.stop - arena.offset = region.length := by
    rw [Region.stop, hoffset, UInt64.add_comm, UInt64.add_sub_cancel]
  simp only [scratchMoves, moveAll, announcedAll, List.foldl_cons, List.foldl_nil, Arena.move,
    announced, hplace, read?_grant_self, Option.elim_some, restore?, checkpoint, offset_store,
    offset_grant, hback, if_true, hreclaimed, List.nil_append, List.append_nil, List.cons_append]
  exact ⟨rfl, rfl⟩

/-- Work in scratch space leaves an arena alike: its granted bytes are what they were. -/
theorem scratched_alike : (arena.scratched region run).Alike arena := by
  obtain ⟨hoffset, -, -, -⟩ := place_eq_ok hplace
  refine ⟨rfl, rfl, ?_⟩
  intro i hi
  replace hi : i < region.offset.toNat := hoffset ▸ hi
  simp only [scratched, store, Arena.grant]
  rw [Bytes.getElem?_overlay_of_outside _ _ _ (.inl hi),
    Bytes.getElem?_overlay_of_outside _ _ _ (.inl hi)]

end Scratch

/-- Work in scratch space does not change the size of the buffer. -/
@[simp]
theorem size_bytes_scratched (arena : Arena) (region : Region) (run : List UInt8) :
    (arena.scratched region run).bytes.size = arena.bytes.size := by
  simp [scratched]

/-- A request that is refused and a rollback to where the arena stands change nothing, but the
rollback is announced. -/
theorem moveAll_of_failure {failure : AllocationFailure}
    (hplace : arena.place request = .error failure) :
    arena.moveAll [.alloc request, .restore arena.checkpoint] = arena ∧
      arena.announcedAll [.alloc request, .restore arena.checkpoint] =
        [.restored 0 arena.used] := by
  simp only [moveAll, announcedAll, List.foldl_cons, List.foldl_nil, Arena.move, announced, hplace,
    restore?, checkpoint, UInt64.le_refl, if_true, UInt64.sub_self, Option.elim_some,
    List.nil_append, List.append_nil]
  exact ⟨trivial, rfl⟩

end Arena

namespace Batch

variable {samples : List Int32} {m n : Metered Arena}

/-- The answer to a batch and the moves it makes, when its request is refused. -/
theorem sum_of_failure {failure : AllocationFailure}
    (hplace : m.subject.place (size samples) = .error failure) :
    (sum m samples).1 = .error (.exhausted failure) ∧
      moves m samples = [.alloc (size samples), .restore m.subject.checkpoint] := by
  have halloc : (m.alloc (UInt64.ofNat (4 * samples.length))).1 = .error failure :=
    (m.fst_alloc _).trans hplace
  unfold sum moves Metered.scope size
  rcases hm : m.alloc (UInt64.ofNat (4 * samples.length)) with ⟨result, after⟩
  rw [hm] at halloc
  obtain rfl : result = .error failure := halloc
  simp only [hm, and_self]

/-- The answer to a batch and the moves it makes, when its request is served. -/
theorem sum_of_place (htidy : Tidy samples) {region : Region}
    (hplace : m.subject.place (size samples) = .ok region) :
    (sum m samples).1 =
        .ok (total ((((m.subject.grant region).read? region).map
          (Edit.apply { run := scratch samples })).getD #[]).toList) ∧
      moves m samples = m.subject.scratchMoves (size samples) region (scratch samples) := by
  have hmove : m.alloc (UInt64.ofNat (4 * samples.length)) =
      (.ok region, { m with subject := m.subject.grant region }.announce
        (.granted region.length)) := by
    unfold Metered.alloc
    rw [show m.subject.place (UInt64.ofNat (4 * samples.length)) = .ok region from hplace]
  have hall := all_isDoublable htidy
  unfold sum moves Metered.scope
  simp only [hmove, hall, if_true]
  rw [Metered.fst_write, Metered.subject_announce]
  exact ⟨rfl, rfl⟩

/-- A tidy batch that is served returns twice the sum of its samples. -/
theorem fst_sum_of_place (htidy : Tidy samples) (hbounded : m.subject.Bounded) {region : Region}
    (hplace : m.subject.place (size samples) = .ok region) :
    ∃ result, (sum m samples).1 = .ok result ∧
      result.toInt = 2 * (samples.map Int32.toInt).sum := by
  obtain ⟨hoffset, hlength, hstop, hcap⟩ := Arena.place_eq_ok hplace
  have hclear : (m.subject.grant region).slice region =
      Array.replicate (roundUp (4 * samples.length)) 0 := by
    rw [m.subject.slice_grant_self (hoffset ▸ hstop) (hcap.trans hbounded.backed), hlength,
      toNat_size htidy]
  refine ⟨_, (sum_of_place htidy hplace).1, ?_⟩
  rw [Arena.read?_grant_self, hclear]
  exact toInt_total_scratch htidy

/-- A batch gets the same answer from twins, by the same moves. -/
theorem sum_eq_of_twins (h : m.Twins n) (samples : List Int32) :
    (sum m samples).1 = (sum n samples).1 ∧ moves m samples = moves n samples := by
  have hmark := h.alike.sameGrants.checkpoint_eq
  have hresult : (m.alloc (size samples)).1 = (n.alloc (size samples)).1 := by
    rw [Metered.fst_alloc, Metered.fst_alloc, h.alike.place_eq]
  have hafter : (m.alloc (size samples)).2.Twins (n.alloc (size samples)).2 :=
    h.moveAll [.alloc (size samples)]
  unfold size at hresult hafter
  unfold sum moves Metered.scope
  rcases hm : m.alloc (UInt64.ofNat (4 * samples.length)) with ⟨result, after⟩
  rcases hn : n.alloc (UInt64.ofNat (4 * samples.length)) with ⟨result', after'⟩
  rw [hm, hn] at hresult hafter
  obtain rfl : result = result' := hresult
  cases result with
  | error failure => simp only [hm, hn, hmark, and_self]
  | ok region =>
    have hread : (after.write region { run := scratch samples }).1 =
        (after'.write region { run := scratch samples }).1 := by
      rw [Metered.fst_write, Metered.fst_write, hafter.alike.sameGrants.read?_eq]
    simp only [hm, hn, hread, hmark, and_true]
    split <;> rfl

end Batch

end Allotment

import Allotment.Heap.Store
import Mathlib.Data.Nat.Notation
import Mathlib.Data.List.Basic

set_option autoImplicit false

/-!
Objects in memory. A block starts with a header, in which the count of references takes the
first four bytes and the size the second eight; the bytes of the object follow. A holder knows
only where these bytes begin, and finds the header in front of them. What is stored outside a
block leaves the object in it as it is.
-/

namespace Allotment

/-- What every address holds. -/
abbrev Memory := ℕ → UInt8

/-- A part of memory. -/
structure Block where
  start : ℕ
  length : ℕ
  deriving DecidableEq

namespace Block

/-- Two blocks have no address in common. -/
def Apart (a b : Block) : Prop :=
  a.start + a.length ≤ b.start ∨ b.start + b.length ≤ a.start

instance (a b : Block) : Decidable (a.Apart b) :=
  inferInstanceAs (Decidable (_ ∨ _))

/-- That two blocks do not overlap does not depend on their order. -/
theorem Apart.symm {a b : Block} (h : a.Apart b) : b.Apart a :=
  Or.symm h

/-- A block that is not empty overlaps itself. -/
theorem Apart.ne {a b : Block} (h : a.Apart b) (hlength : 0 < a.length) : a ≠ b := by
  rintro rfl
  unfold Apart at h
  omega

end Block

namespace Memory

variable {m after : Memory} {start base : ℕ}

/-- The bytes from an address on. -/
def load (m : Memory) (start : ℕ) (count : ℕ) : List UInt8 :=
  (List.range' start count).map m

/-- The memory with a run of bytes from an address on. -/
def store (m : Memory) (start : ℕ) (run : List UInt8) : Memory :=
  fun a => if start ≤ a then run[a - start]?.getD (m a) else m a

/-- Two memories that differ in a block at most. -/
def SameBut (block : Block) (m after : Memory) : Prop :=
  ∀ a, a < block.start ∨ block.start + block.length ≤ a → after a = m a

/-- As many bytes are loaded as are asked for. -/
@[simp]
theorem length_load (m : Memory) (start : ℕ) (count : ℕ) :
    (m.load start count).length = count := by
  simp [load]

/-- The bytes that are loaded are those of the addresses from the start on. -/
theorem getElem?_load (m : Memory) (start : ℕ) {count i : ℕ} (h : i < count) :
    (m.load start count)[i]? = some (m (start + i)) := by
  simp [load, h]

/-- Memories that agree on some addresses load the same from there. -/
theorem load_congr {count : ℕ} (h : ∀ a, start ≤ a → a < start + count → after a = m a) :
    after.load start count = m.load start count := by
  apply List.map_congr_left
  intro a ha
  obtain ⟨hlow, hhigh⟩ := List.mem_range'_1.1 ha
  exact h a hlow hhigh

/-- A run of bytes that is stored changes the memory at its own addresses only. -/
theorem sameBut_store (m : Memory) (start : ℕ) (run : List UInt8) :
    SameBut ⟨start, run.length⟩ m (m.store start run) := by
  intro a ha
  unfold store
  split
  · rename_i hle
    have hpast : run.length ≤ a - start := by
      simp only at ha
      omega
    rw [List.getElem?_eq_none hpast, Option.getD_none]
  · rfl

/-- What stays the same outside a block stays the same outside a larger one. -/
theorem SameBut.mono {block larger : Block} (h : SameBut block m after)
    (hlow : larger.start ≤ block.start)
    (hhigh : block.start + block.length ≤ larger.start + larger.length) :
    SameBut larger m after := by
  intro a ha
  apply h
  omega

/-- Two changes within a block are one within this block. -/
theorem SameBut.trans {block : Block} {last : Memory} (h : SameBut block m after)
    (h' : SameBut block after last) : SameBut block m last :=
  fun a ha => (h' a ha).trans (h a ha)

/-- A change within a block does not show in what is loaded from elsewhere. -/
theorem SameBut.load_eq {block : Block} (h : SameBut block m after) {count : ℕ}
    (hapart : block.Apart ⟨start, count⟩) : after.load start count = m.load start count := by
  apply load_congr
  intro a hlow hhigh
  apply h
  unfold Block.Apart at hapart
  simp only at hapart
  omega

/-- A run of bytes that was stored is loaded again. -/
theorem load_store_self (m : Memory) (start : ℕ) (run : List UInt8) :
    (m.store start run).load start run.length = run := by
  apply List.ext_getElem?
  intro i
  by_cases hi : i < run.length
  · rw [getElem?_load _ _ hi, store, if_pos (Nat.le_add_right _ _), Nat.add_sub_cancel_left,
      List.getElem?_eq_getElem hi, Option.getD_some]
  · rw [List.getElem?_eq_none (by simp; omega), List.getElem?_eq_none (by omega)]

/-- A part of a block that was filled with zero bytes. -/
theorem load_store_zeros (m : Memory) {length count : ℕ} (hlow : base ≤ start)
    (hhigh : start + count ≤ base + length) :
    (m.store base (Bytes.zeros length)).load start count = Bytes.zeros count := by
  apply List.ext_getElem?
  intro i
  by_cases hi : i < count
  · have hin : start + i - base < length := by omega
    rw [getElem?_load _ _ hi, store, if_pos (by omega)]
    simp [Bytes.zeros, hi, hin]
  · rw [List.getElem?_eq_none (by simp; omega),
      List.getElem?_eq_none (by simp [Bytes.zeros]; omega)]

/-- The count in the header in front of some bytes. -/
def references (m : Memory) (payload : ℕ) : UInt32 :=
  UInt32.ofNat (Bytes.toNat (m.load (payload - Host.headerSize) 4))

/-- The size in the header in front of some bytes. -/
def size (m : Memory) (payload : ℕ) : UInt64 :=
  UInt64.ofNat (Bytes.toNat (m.load (payload - Host.headerSize + 8) 8))

/-- The bytes from an address on, as many as the header in front of it tells. -/
def payload (m : Memory) (payload : ℕ) : Bytes :=
  (m.load payload (m.size payload).toNat).toArray

/-- The memory with another count in the header in front of some bytes. -/
def setReferences (m : Memory) (payload : ℕ) (references : UInt32) : Memory :=
  m.store (payload - Host.headerSize) (Bytes.ofNat 4 references.toNat)

/-- The memory with other bytes from an address on. -/
def setPayload (m : Memory) (payload : ℕ) (bytes : Bytes) : Memory :=
  m.store payload bytes.toList

/-- The memory with a new object in a block that comes zeroed. -/
def allocate (m : Memory) (base : ℕ) (size : UInt64) : Memory :=
  ((m.store base (Bytes.zeros (Host.headerSize + size.toNat))).store base (Bytes.ofNat 4 1)).store
    (base + 8) (Bytes.ofNat 8 size.toNat)

/-- An object lies in a block: its header says how it is counted and how large it is, and its
bytes follow. -/
structure Holds (m : Memory) (base : ℕ) (object : Object) : Prop where
  references : m.load base 4 = Bytes.ofNat 4 object.references.toNat
  size : m.load (base + 8) 8 = Bytes.ofNat 8 object.size.toNat
  payload : m.load (base + Host.headerSize) object.size.toNat = object.payload.toList

end Memory

/-- The block of an object. -/
def Object.block (object : Object) (base : ℕ) : Block where
  start := base
  length := Host.headerSize + object.size.toNat

namespace Memory

variable {m after : Memory} {base : ℕ} {object : Object}

/-- What happens outside its block leaves an object alone. -/
theorem Holds.of_apart (h : m.Holds base object) {block : Block} (hsame : SameBut block m after)
    (hapart : block.Apart (object.block base)) : after.Holds base object := by
  have hpart : ∀ start count, base ≤ start →
      start + count ≤ base + (Host.headerSize + object.size.toNat) →
        block.Apart ⟨start, count⟩ := by
    intro start count hlow hhigh
    unfold Block.Apart Object.block at hapart
    unfold Block.Apart
    simp only at hapart ⊢
    omega
  have hheader : Host.headerSize = 16 := rfl
  constructor
  · rw [hsame.load_eq (hpart _ _ (by omega) (by omega)), h.references]
  · rw [hsame.load_eq (hpart _ _ (by omega) (by omega)), h.size]
  · rw [hsame.load_eq (hpart _ _ (by omega) (by omega)), h.payload]

/-- The count of an object is read off the header in front of its bytes. -/
theorem Holds.references_eq (h : m.Holds base object) :
    m.references (base + Host.headerSize) = object.references := by
  have hlt : object.references.toNat < 1 <<< (8 * 4) := object.references.toNat_lt
  rw [Memory.references, Nat.add_sub_cancel, h.references, Bytes.toNat_ofNat, Nat.mod_eq_of_lt hlt,
    UInt32.ofNat_toNat]

/-- The size of an object is read off the header in front of its bytes. -/
theorem Holds.size_eq (h : m.Holds base object) :
    m.size (base + Host.headerSize) = object.size := by
  have hlt : object.size.toNat < 1 <<< (8 * 8) := object.size.toNat_lt
  rw [Memory.size, Nat.add_sub_cancel, h.size, Bytes.toNat_ofNat, Nat.mod_eq_of_lt hlt,
    UInt64.ofNat_toNat]

/-- The bytes of an object are read off the addresses behind its header. -/
theorem Holds.payload_eq (h : m.Holds base object) :
    m.payload (base + Host.headerSize) = object.payload := by
  rw [Memory.payload, h.size_eq, h.payload]

/-- A count that is stored in the header is the count of the object. -/
theorem Holds.setReferences (h : m.Holds base object) (references : UInt32) :
    (m.setReferences (base + Host.headerSize) references).Holds base
      { object with references } := by
  have hsame := m.sameBut_store base (Bytes.ofNat 4 references.toNat)
  have hheader : Host.headerSize = 16 := rfl
  rw [Memory.setReferences, Nat.add_sub_cancel]
  rw [Bytes.length_ofNat] at hsame
  have hself := m.load_store_self base (Bytes.ofNat 4 references.toNat)
  rw [Bytes.length_ofNat] at hself
  constructor
  · exact hself
  · rw [hsame.load_eq (.inl (by simp)), h.size]
  · rw [hsame.load_eq (.inl (by simp [hheader])), h.payload]

/-- An object that lies in memory has as many bytes as its size says. -/
theorem Holds.size_payload (h : m.Holds base object) :
    object.payload.size = object.size.toNat := by
  have hloaded := congrArg List.length h.payload
  rw [length_load, Array.length_toList] at hloaded
  exact hloaded.symm

/-- As many bytes that are stored behind the header are the bytes of the object. -/
theorem Holds.setPayload (h : m.Holds base object) {bytes : Bytes}
    (hsize : bytes.size = object.size.toNat) :
    (m.setPayload (base + Host.headerSize) bytes).Holds base { object with payload := bytes } := by
  have hsame := m.sameBut_store (base + Host.headerSize) bytes.toList
  have hlength : bytes.toList.length = object.size.toNat := by
    rw [Array.length_toList, hsize]
  have hheader : Host.headerSize = 16 := rfl
  constructor
  · rw [Memory.setPayload, hsame.load_eq (.inr (by simp [hheader])), h.references]
  · rw [Memory.setPayload, hsame.load_eq (.inr (by simp [hheader])), h.size]
  · have hself := m.load_store_self (base + Host.headerSize) bytes.toList
    rw [hlength] at hself
    exact hself

/-- A count that is stored changes nothing outside the block of its object. -/
theorem sameBut_setReferences (m : Memory) (base : ℕ) (object : Object) (references : UInt32) :
    SameBut (object.block base) m (m.setReferences (base + Host.headerSize) references) := by
  have hsame := m.sameBut_store base (Bytes.ofNat 4 references.toNat)
  have hheader : Host.headerSize = 16 := rfl
  rw [Memory.setReferences, Nat.add_sub_cancel]
  refine hsame.mono (Nat.le_refl base) ?_
  rw [Bytes.length_ofNat, Object.block]
  simp only
  omega

/-- Bytes that are stored change nothing outside the block of their object. -/
theorem sameBut_setPayload (m : Memory) (base : ℕ) {object : Object} {bytes : Bytes}
    (hsize : bytes.size = object.size.toNat) :
    SameBut (object.block base) m (m.setPayload (base + Host.headerSize) bytes) := by
  apply (m.sameBut_store (base + Host.headerSize) bytes.toList).mono (Nat.le_add_right _ _)
  rw [Array.length_toList, hsize, Object.block]
  simp only
  omega

/-- A block that was set up holds a fresh object, whatever was there before. -/
theorem holds_allocate (m : Memory) (base : ℕ) (size : UInt64) :
    (m.allocate base size).Holds base (Object.fresh size) := by
  have hheader : Host.headerSize = 16 := rfl
  let zeroed := m.store base (Bytes.zeros (Host.headerSize + size.toNat))
  let counted := zeroed.store base (Bytes.ofNat 4 1)
  have hcounted := zeroed.sameBut_store base (Bytes.ofNat 4 1)
  have hsized := counted.sameBut_store (base + 8) (Bytes.ofNat 8 size.toNat)
  have hone := zeroed.load_store_self base (Bytes.ofNat 4 1)
  have hsize := counted.load_store_self (base + 8) (Bytes.ofNat 8 size.toNat)
  rw [Bytes.length_ofNat] at hcounted hsized hone hsize
  constructor
  · rw [allocate, hsized.load_eq (.inr (by simp))]
    exact hone
  · exact hsize
  · rw [allocate, hsized.load_eq (.inl (by simp [hheader])),
      hcounted.load_eq (.inl (by simp [hheader]))]
    exact (m.load_store_zeros (Nat.le_add_right _ _) (by simp [Object.fresh]; omega)).trans
      (by simp [Object.fresh, Bytes.zeros])

/-- A new object changes nothing outside its block. -/
theorem sameBut_allocate (m : Memory) (base : ℕ) (size : UInt64) :
    SameBut ((Object.fresh size).block base) m (m.allocate base size) := by
  have hheader : Host.headerSize = 16 := rfl
  have hpart : ∀ (before : Memory) (start : ℕ) (run : List UInt8), base ≤ start →
      start + run.length ≤ base + (Host.headerSize + size.toNat) →
        SameBut ((Object.fresh size).block base) before (before.store start run) := by
    intro before start run hlow hhigh
    exact (before.sameBut_store start run).mono hlow hhigh
  unfold allocate
  refine ((hpart _ base _ (Nat.le_refl _) ?_).trans (hpart _ base _ (Nat.le_refl _) ?_)).trans
    (hpart _ (base + 8) _ (Nat.le_add_right _ _) ?_)
  · exact Nat.le_of_eq (congrArg (base + ·) List.length_replicate)
  · rw [Bytes.length_ofNat]
    omega
  · rw [Bytes.length_ofNat]
    omega

end Memory

end Allotment

import Allotment.Proofs.Bookkeeping
import Allotment.Trace

set_option autoImplicit false

/-!
Traces read the words of their seed from the first one on, each word once, whichever generator
these words come from. A size trace takes one word for each size. A frame trace takes one word
for the length of a frame and one for each of its sizes, so where a frame begins is the number
of words that the frames before it took. With the same bound for lengths and sizes the words are
brought into the same range wherever they are used, so the frames laid out one after the other,
each behind its length, are a size trace.
-/

namespace Allotment.Trace

variable {words : ℕ → UInt32} {bound perFrame : UInt64}

/-- The words of a stream that some frames take: one for each length and one for each size. -/
def wordsIn (frames : List (List UInt64)) : ℕ :=
  (frames.map fun frame => frame.length + 1).sum

/-- The numbers that some frames are made of, each frame behind its length. -/
def layout (frames : List (List UInt64)) : List ℕ :=
  frames.flatMap fun frame => frame.length :: frame.map UInt64.toNat

/-- A draw is exact: the sum stays in the word range, as the word has only 32 bits. -/
theorem toNat_draw (words : ℕ → UInt32) (bound : UInt64) (position : ℕ) :
    (draw words bound position).toNat = 1 + (words position).toNat % max bound.toNat 1 := by
  have hword := (words position).toNat_lt
  have hless := Nat.mod_le (words position).toNat (max bound.toNat 1)
  have hrest : ((words position).toUInt64 % max bound 1).toNat =
      (words position).toNat % max bound.toNat 1 := by
    rw [UInt64.toNat_mod, UInt32.toNat_toUInt64, Word.toNat_max]
    rfl
  unfold draw
  rw [Word.toNat_add_of_lt, hrest]
  · rfl
  · rw [hrest]
    show 1 + _ < _
    omega

/-- A number that is drawn lies between one and the bound, or is one if the bound is zero. -/
theorem draw_bounds (words : ℕ → UInt32) (bound : UInt64) (position : ℕ) :
    1 ≤ (draw words bound position).toNat ∧
      (draw words bound position).toNat ≤ max 1 bound.toNat := by
  have hless := Nat.mod_lt (words position).toNat (show 0 < max bound.toNat 1 by omega)
  rw [toNat_draw]
  omega

/-- All sizes of a trace lie between one and the bound. -/
theorem bounds_of_mem_sizes {position count : ℕ} {size : UInt64}
    (h : size ∈ sizes words bound position count) :
    1 ≤ size.toNat ∧ size.toNat ≤ max 1 bound.toNat := by
  obtain ⟨other, -, rfl⟩ := List.mem_map.1 h
  exact draw_bounds words bound other

/-- A longer trace goes on where the shorter one ends, with the next word. -/
theorem sizes_add (words : ℕ → UInt32) (bound : UInt64) (position first second : ℕ) :
    sizes words bound position (first + second) =
      sizes words bound position first ++ sizes words bound (position + first) second := by
  unfold sizes
  rw [← List.map_append, List.range'_append_1]

/-- A trace starts with the number of its first word. -/
theorem sizes_succ (words : ℕ → UInt32) (bound : UInt64) (position count : ℕ) :
    sizes words bound position (count + 1) =
      draw words bound position :: sizes words bound (position + 1) count := by
  unfold sizes
  rw [List.range'_succ, List.map_cons]

/-- Each size of a trace is drawn from the word at its own position. -/
theorem getElem?_sizes (words : ℕ → UInt32) (bound : UInt64) (position : ℕ) {count i : ℕ}
    (hi : i < count) :
    (sizes words bound position count)[i]? = some (draw words bound (position + i)) := by
  unfold sizes
  rw [List.getElem?_map, List.getElem?_range' hi, Nat.one_mul, Option.map_some]

/-- The frames after some others begin where the words of these end. -/
theorem frames_add (words : ℕ → UInt32) (perFrame bound : UInt64) (position first second : ℕ) :
    frames words perFrame bound position (first + second) =
      frames words perFrame bound position first ++
        frames words perFrame bound
          (position + wordsIn (frames words perFrame bound position first)) second := by
  induction first generalizing position with
  | zero => rw [Nat.zero_add]; rfl
  | succ first ih =>
    rw [Nat.succ_add_eq_add_succ, Nat.add_succ, frames, frames, ih, List.cons_append]
    congr 3
    simp only [wordsIn, List.map_cons, List.sum_cons, length_sizes]
    omega

/-- A frame is drawn from the words behind those of the frames before it: its length from the
first one, and its sizes from as many after that. -/
theorem getElem?_frames (words : ℕ → UInt32) (perFrame bound : UInt64) (position : ℕ)
    {count k : ℕ} (hk : k < count) :
    let start := position + wordsIn ((frames words perFrame bound position count).take k)
    (frames words perFrame bound position count)[k]? =
      some (sizes words bound (start + 1) (draw words perFrame start).toNat) := by
  obtain ⟨later, rfl⟩ : ∃ later, count = k + (later + 1) := ⟨count - k - 1, by omega⟩
  have hlength : (frames words perFrame bound position k).length = k := length_frames ..
  rw [frames_add, List.take_left' hlength, List.getElem?_append_right hlength.le, hlength,
    Nat.sub_self]
  rfl

/-- All frames of a trace have between one and `perFrame` sizes, and these lie within their
bound. -/
theorem bounds_of_mem_frames {position count : ℕ} {frame : List UInt64}
    (h : frame ∈ frames words perFrame bound position count) :
    (1 ≤ frame.length ∧ frame.length ≤ max 1 perFrame.toNat) ∧
      ∀ size ∈ frame, 1 ≤ size.toNat ∧ size.toNat ≤ max 1 bound.toNat := by
  obtain ⟨k, hk, rfl⟩ := List.mem_iff_getElem.1 h
  have hframe := getElem?_frames words perFrame bound position (length_frames .. ▸ hk)
  rw [List.getElem?_eq_getElem hk, Option.some.injEq] at hframe
  rw [hframe, length_sizes]
  exact ⟨draw_bounds words perFrame _, fun _ => bounds_of_mem_sizes⟩

/-- Frames that are drawn with one bound, laid out behind their lengths, are the sizes that are
drawn from the same words. -/
theorem layout_frames (words : ℕ → UInt32) (bound : UInt64) (position count : ℕ) :
    layout (frames words bound bound position count) =
      (sizes words bound position (wordsIn (frames words bound bound position count))).map
        UInt64.toNat := by
  induction count generalizing position with
  | zero => rfl
  | succ count ih =>
    have hwords : ∀ (frame : List UInt64) (rest : List (List UInt64)),
        wordsIn (frame :: rest) = frame.length + wordsIn rest + 1 := by
      intro frame rest
      simp only [wordsIn, List.map_cons, List.sum_cons]
      omega
    rw [frames, hwords, length_sizes, sizes_succ, sizes_add, List.map_cons, List.map_append, ← ih]
    simp only [layout, List.flatMap_cons, length_sizes, List.cons_append]

/-- Both kinds of traces, for every generator of words, every seed, all numbers of sizes and frames
and all bounds. What is asked for beyond a number of sizes or of frames comes behind these. A size
trace has as many sizes as asked for, and a frame trace as many frames, none of them empty; sizes
and lengths are between one and their bounds, where a bound of zero counts as one. A size is drawn
from the word in its own place; a frame from the first words that the frames before it did not
take. So the frames of a trace whose lengths have the bound of its sizes, each behind its length,
are the size trace with that bound and as many sizes as these frames take words. Nothing is asked
of the words, so all of this holds of the keystream that the traces are run with too. -/
theorem traces_share_keystream (generator : Generator) (count frameCount more : ℕ)
    (perFrame bound seed : UInt64) :
    generator.sizeTrace count bound seed <+: generator.sizeTrace (count + more) bound seed ∧
    generator.frameTrace frameCount perFrame bound seed <+:
      generator.frameTrace (frameCount + more) perFrame bound seed ∧
    let words := generator seed
    let sized := generator.sizeTrace count bound seed
    let framed := generator.frameTrace frameCount perFrame bound seed
    let even := generator.frameTrace frameCount bound bound seed
    (sized.length = count ∧ ∀ size ∈ sized, 1 ≤ size.toNat ∧ size.toNat ≤ max 1 bound.toNat) ∧
    (framed.length = frameCount ∧ ∀ frame ∈ framed,
      (1 ≤ frame.length ∧ frame.length ≤ max 1 perFrame.toNat) ∧
        ∀ size ∈ frame, 1 ≤ size.toNat ∧ size.toNat ≤ max 1 bound.toNat) ∧
    (∀ i, i < count → sized[i]? = some (draw words bound i)) ∧
    (∀ k, k < frameCount →
      let start := wordsIn (framed.take k)
      framed[k]? = some (sizes words bound (start + 1) (draw words perFrame start).toNat)) ∧
    layout even = (generator.sizeTrace (wordsIn even) bound seed).map UInt64.toNat := by
  refine ⟨⟨_, (sizes_add _ bound 0 count more).symm⟩,
    ⟨_, (frames_add _ perFrame bound 0 frameCount more).symm⟩, ?_⟩
  intro words sized framed even
  refine ⟨⟨length_sizes .., fun _ => bounds_of_mem_sizes⟩,
    ⟨length_frames .., fun _ => bounds_of_mem_frames⟩, ?_, ?_,
    layout_frames words bound 0 frameCount⟩
  · intro i hi
    have hsize := getElem?_sizes words bound 0 hi
    rwa [Nat.zero_add] at hsize
  · intro k hk
    have hframe := getElem?_frames words perFrame bound 0 hk
    simp only [Nat.zero_add] at hframe
    exact hframe

/-- Five frames of the keystream that take twenty words, so that the last of them begins in the
second block of the keystream. -/
theorem traces_share_keystream_of_five :
    let generator : Generator := Keystream.ofSeed
    let even := generator.frameTrace 5 5 5 1
    (∀ size ∈ generator.sizeTrace 20 5 1, 1 ≤ size.toNat ∧ size.toNat ≤ 5) ∧
      even[4]? = some [4, 1, 1] ∧
      layout even = [5, 3, 1, 1, 4, 3, 2, 1, 3, 2, 5, 1, 3, 5, 3, 4, 3, 4, 1, 1] ∧
      (generator.sizeTrace 20 5 1).map UInt64.toNat = layout even := by
  intro generator even
  obtain ⟨-, -, ⟨-, hbounds⟩, -, -, hframe, hlayout⟩ :=
    traces_share_keystream generator 20 5 0 5 5 1
  have hwords : wordsIn even = 20 := by decide +kernel
  have hlast : sizes (generator 1) 5 (16 + 1) (draw (generator 1) 5 16).toNat = [4, 1, 1] := by
    decide +kernel
  have hstart : wordsIn (even.take 4) = 16 := by decide +kernel
  have hfourth := hframe 4 (by decide)
  rw [hwords] at hlayout
  refine ⟨hbounds, ?_, by decide +kernel, hlayout.symm⟩
  rw [← hlast, ← hstart]
  exact hfourth

end Allotment.Trace

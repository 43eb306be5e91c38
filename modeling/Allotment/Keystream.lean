set_option autoImplicit false

/-!
# Keystream

An endless sequence of 32-bit words that is fixed by a 64-bit seed: the ChaCha
block function with eight rounds, run on consecutive block numbers from zero,
each block giving its sixteen words in order. The words of a block stand in
four rows of four. A round mixes the four columns at once, row against row; the
diagonals become columns when the rows are turned. The key comes from the seed
through a linear congruential sequence whose members are folded and rotated.
-/

namespace Allotment.Keystream

/-- The word with its bits moved up by `n`, the top ones coming in below. -/
def rotateLeft (x n : UInt32) : UInt32 :=
  (x <<< n) ||| (x >>> (32 - n))

/-- The word with its bits moved down by `n`, the low ones coming in above. -/
def rotateRight (x n : UInt32) : UInt32 :=
  (x >>> n) ||| (x <<< (32 - n))

/-- Four words side by side. -/
structure Row where
  w0 : UInt32
  w1 : UInt32
  w2 : UInt32
  w3 : UInt32
  deriving DecidableEq

namespace Row

/-- The sums of the words that stand in the same place. -/
def add (x y : Row) : Row :=
  ⟨x.w0 + y.w0, x.w1 + y.w1, x.w2 + y.w2, x.w3 + y.w3⟩

/-- The exclusive or of the words that stand in the same place, with the bits
of each moved up by `n` and around. -/
def xorRotate (x y : Row) (n : UInt32) : Row :=
  ⟨rotateLeft (x.w0 ^^^ y.w0) n, rotateLeft (x.w1 ^^^ y.w1) n, rotateLeft (x.w2 ^^^ y.w2) n,
    rotateLeft (x.w3 ^^^ y.w3) n⟩

/-- The row turned by one place: its second word comes first. -/
def turn (x : Row) : Row :=
  ⟨x.w1, x.w2, x.w3, x.w0⟩

/-- The word in a place, counted from zero. -/
def get (x : Row) : Fin 4 → UInt32
  | 0 => x.w0
  | 1 => x.w1
  | 2 => x.w2
  | 3 => x.w3

end Row

/-- Four rows, one above the other. -/
structure Grid where
  r0 : Row
  r1 : Row
  r2 : Row
  r3 : Row
  deriving DecidableEq

namespace Grid

/-- Mixes each column of the grid. -/
def round (g : Grid) : Grid :=
  let r0 := g.r0.add g.r1
  let r3 := g.r3.xorRotate r0 16
  let r2 := g.r2.add r3
  let r1 := g.r1.xorRotate r2 12
  let r0 := r0.add r1
  let r3 := r3.xorRotate r0 8
  let r2 := r2.add r3
  let r1 := r1.xorRotate r2 7
  ⟨r0, r1, r2, r3⟩

/-- Turns the rows by zero to three places, so that the diagonals stand in
columns. -/
def slant (g : Grid) : Grid :=
  ⟨g.r0, g.r1.turn, g.r2.turn.turn, g.r3.turn.turn.turn⟩

/-- Turns the rows on until they are as they were before they were slanted. -/
def straighten (g : Grid) : Grid :=
  ⟨g.r0, g.r1.turn.turn.turn, g.r2.turn.turn, g.r3.turn⟩

/-- Mixes the columns of the grid, then its diagonals. -/
def doubleRound (g : Grid) : Grid :=
  g.round.slant.round.straighten

/-- The sums of the words that stand in the same place. -/
def add (x y : Grid) : Grid :=
  ⟨x.r0.add y.r0, x.r1.add y.r1, x.r2.add y.r2, x.r3.add y.r3⟩

/-- The row in a place, counted from zero. -/
def get (g : Grid) : Fin 4 → Row
  | 0 => g.r0
  | 1 => g.r1
  | 2 => g.r2
  | 3 => g.r3

end Grid

/-- The two rows that tell one keystream from another. -/
structure Key where
  upper : Row
  lower : Row
  deriving DecidableEq

/-- The grid of a block before it is mixed: four constants, the key, the block
number in two words and two words of zero. -/
def firstGrid (key : Key) (block : UInt64) : Grid :=
  ⟨⟨0x61707865, 0x3320646e, 0x79622d32, 0x6b206574⟩, key.upper, key.lower,
    ⟨block.toUInt32, (block >>> 32).toUInt32, 0, 0⟩⟩

/-- The words of one block: the grid after eight rounds, added to the grid
before them. -/
def blockWords (key : Key) (block : UInt64) : Grid :=
  let first := firstGrid key block
  first.doubleRound.doubleRound.doubleRound.doubleRound.add first

/-- The word of the keystream at a position. -/
def wordAt (key : Key) (position : Nat) : UInt32 :=
  ((blockWords key (UInt64.ofNat (position / 16))).get (Fin.ofNat 4 (position / 4))).get
    (Fin.ofNat 4 position)

/-- The next member of the sequence that stretches a seed. -/
def advance (state : UInt64) : UInt64 :=
  state * 6364136223846793005 + 11634580027462260723

/-- The key word that a member of the sequence stands for. -/
def fold (state : UInt64) : UInt32 :=
  rotateRight (((state >>> 18) ^^^ state) >>> 27).toUInt32 (state >>> 59).toUInt32

/-- The row that the next four members of the sequence stand for, and the last
of these members. -/
def stretch (state : UInt64) : Row × UInt64 :=
  let s0 := advance state
  let s1 := advance s0
  let s2 := advance s1
  let s3 := advance s2
  (⟨fold s0, fold s1, fold s2, fold s3⟩, s3)

/-- The key that a seed is stretched to: two rows in a row. -/
def keyOfSeed (seed : UInt64) : Key :=
  let (upper, state) := stretch seed
  { upper, lower := (stretch state).1 }

/-- The keystream of a seed, word by word. -/
def ofSeed (seed : UInt64) : Nat → UInt32 :=
  wordAt (keyOfSeed seed)

end Allotment.Keystream

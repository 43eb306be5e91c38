set_option autoImplicit false

/-!
# Hexadecimal text

Bytes are written as two lower-case digits each, and 8-byte units as sixteen.
When a unit is read it may have fewer digits. Both cases of a digit are read.
-/

namespace Allotment.Text.Hex

/-- The digit of a number below sixteen. -/
def digit (n : Nat) : Char :=
  if n < 10 then Char.ofNat (48 + n) else Char.ofNat (87 + n)

/-- The number that a digit stands for. -/
def value? (c : Char) : Option Nat :=
  if '0' ≤ c ∧ c ≤ '9' then some (c.toNat - 48)
  else if 'a' ≤ c ∧ c ≤ 'f' then some (c.toNat - 87)
  else if 'A' ≤ c ∧ c ≤ 'F' then some (c.toNat - 55)
  else none

/-- The digits of the `count` low sixteenths of a number, the highest one first. -/
def digits : (count : Nat) → Nat → List Char
  | 0, _ => []
  | count + 1, n => digits count (n / 16) ++ [digit (n % 16)]

/-- The number that a run of digits stands for, after `high`. -/
def number? (high : Nat) : List Char → Option Nat
  | [] => some high
  | c :: rest => (value? c).bind fun low => number? (16 * high + low) rest

/-- The text of a run of bytes. -/
def encode (bytes : List UInt8) : String :=
  String.ofList (bytes.flatMap fun b => digits 2 b.toNat)

/-- The bytes of a run of digits, two for each byte. -/
def bytes? : List Char → Option (List UInt8)
  | [] => some []
  | high :: low :: rest => do
    let n ← number? 0 [high, low]
    let after ← bytes? rest
    some (UInt8.ofNat n :: after)
  | [_] => none

/-- The bytes that a text stands for. -/
def decode? (text : String) : Option (List UInt8) :=
  bytes? text.toList

/-- The text of an 8-byte unit. -/
def encodeUnit (unit : UInt64) : String :=
  String.ofList (digits 16 unit.toNat)

/-- The 8-byte unit that a text of one to sixteen digits stands for. -/
def decodeUnit? (text : String) : Option UInt64 :=
  if 1 ≤ text.length ∧ text.length ≤ 16 then (number? 0 text.toList).map UInt64.ofNat
  else none

end Allotment.Text.Hex

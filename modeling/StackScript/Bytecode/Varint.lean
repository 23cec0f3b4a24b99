/-!
# Variable-Length Numbers

A number as bytes of seven bits each, lowest first, every byte but the last marked by its high
bit. Signed numbers are folded into natural ones first, `0, -1, 1, -2, …` in this order, so
that small numbers of either sign stay short.

A reader for a word size accepts as many bytes as that size needs, and in the last of them only
the bits that are left for it; padding with zero bits is accepted.

## Main definitions

* `Varint.encode`: the bytes of a number.
* `Varint.Width`: a word size, as what a reader accepts.
* `Varint.fold`, `Varint.unfold`: signed numbers as natural ones and back.

## Main results

* `Varint.unfold_fold`: folding loses nothing.
-/

namespace StackScript.Varint

/-- The bytes of a number, in at most `more + 1` bytes. -/
def encodeWithin (more n : Nat) : List UInt8 :=
  match more with
  | 0 => [UInt8.ofNat n]
  | more + 1 =>
    if n < 128 then [UInt8.ofNat n]
    else UInt8.ofNat (n % 128 + 128) :: encodeWithin more (n / 128)

/-- The word sizes that occur. -/
structure Width where
  /-- How many bytes may follow the first. -/
  more : Nat
  /-- The greatest value of the last of these. -/
  lastByte : Nat

/-- Sixteen bits. -/
def word16 : Width := ⟨2, 3⟩

/-- Thirty-two bits. -/
def word32 : Width := ⟨4, 15⟩

/-- Sixty-four bits. -/
def word64 : Width := ⟨9, 1⟩

/-- The bytes of a number below `2 ^ 64`. -/
def encode (n : Nat) : List UInt8 :=
  encodeWithin word64.more n

/-- A signed number as a natural one. -/
def fold (n : Int) : Nat :=
  if 0 ≤ n then 2 * n.toNat else 2 * (-n).toNat - 1

/-- The signed number of a natural one. -/
def unfold (n : Nat) : Int :=
  if n % 2 = 0 then (n / 2 : Nat) else -((n / 2 : Nat) : Int) - 1

/-- Folding loses nothing. -/
theorem unfold_fold (n : Int) : unfold (fold n) = n := by
  unfold unfold fold
  split <;> split <;> omega

/-- A number of 64 bits folds into one. -/
theorem fold_lt (n : Int64) : fold n.toInt < UInt64.size := by
  have low := n.le_toInt
  have high := n.toInt_lt
  unfold fold UInt64.size
  split <;> omega

end StackScript.Varint

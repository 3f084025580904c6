/-
BenthosDc/Unpack.lean

Integers in a data buffer (`unpack.c`), and 32-bit wrap-around.

The sum of the shifted bytes is an `int`, with the bits of a `BitVec 32`; the reader returns
the unsigned or the signed value of what its return type keeps of it.

What a reader does behind the end of its buffer is not asked here: a byte that is not there is
0, and the callers check the length.
-/
import BenthosDc.Lib.Bits

namespace BenthosDc

/-- Reduction to `uint32_t`. -/
def u32 (n : Nat) : Nat := n % 2 ^ 32

/-- A small number does not wrap around. -/
theorem u32_of_lt {n : Nat} (h : n < 2 ^ 32) : u32 n = n := Nat.mod_eq_of_lt h

/-- The result has 32 bits. -/
theorem u32_lt (n : Nat) : u32 n < 2 ^ 32 := Nat.mod_lt _ (by decide)

/-- The byte `buffer[i]`; the callers stay inside the buffer. -/
def octet (buffer : List UInt8) (i : Nat) : Nat := (buffer.getD i 0).toNat

/-- A byte is less than 256. -/
theorem octet_lt (buffer : List UInt8) (i : Nat) : octet buffer i < 256 := UInt8.toNat_lt _

/-- The byte `buffer[index]` promoted to `int`, which has 32 bits; the index is a `uint32_t`. -/
def promoted (buffer : List UInt8) (index : Nat) : BitVec 32 :=
  BitVec.ofNat 32 (octet buffer (u32 index))

/-! ### The readers

Twelve functions of one shape: the bytes, their shifts, and the type that is returned.
-/

/-- The least significant byte first. -/
def uint32Le (buffer : List UInt8) (offset : Nat) : Nat :=
  (promoted buffer (offset + 0) + promoted buffer (offset + 1) <<< 8 +
    promoted buffer (offset + 2) <<< 16 + promoted buffer (offset + 3) <<< 24).toNat

/-- The most significant byte first. -/
def uint32Be (buffer : List UInt8) (offset : Nat) : Nat :=
  (promoted buffer (offset + 0) <<< 24 + promoted buffer (offset + 1) <<< 16 +
    promoted buffer (offset + 2) <<< 8 + promoted buffer (offset + 3)).toNat

/-- The same bytes with a sign. -/
def int32Le (buffer : List UInt8) (offset : Nat) : Int :=
  (promoted buffer (offset + 0) + promoted buffer (offset + 1) <<< 8 +
    promoted buffer (offset + 2) <<< 16 + promoted buffer (offset + 3) <<< 24).toInt

def int32Be (buffer : List UInt8) (offset : Nat) : Int :=
  (promoted buffer (offset + 0) <<< 24 + promoted buffer (offset + 1) <<< 16 +
    promoted buffer (offset + 2) <<< 8 + promoted buffer (offset + 3)).toInt

def uint24Le (buffer : List UInt8) (offset : Nat) : Nat :=
  (promoted buffer (offset + 0) + promoted buffer (offset + 1) <<< 8 +
    promoted buffer (offset + 2) <<< 16).toNat

def uint24Be (buffer : List UInt8) (offset : Nat) : Nat :=
  (promoted buffer (offset + 0) <<< 16 + promoted buffer (offset + 1) <<< 8 +
    promoted buffer (offset + 2)).toNat

-- the cast to `int32_t` changes nothing here
/-- The cast to `int32_t` does not see the sign of 24 bits. -/
def int24Le (buffer : List UInt8) (offset : Nat) : Int :=
  (promoted buffer (offset + 0) + promoted buffer (offset + 1) <<< 8 +
    promoted buffer (offset + 2) <<< 16).toInt

def int24Be (buffer : List UInt8) (offset : Nat) : Int :=
  (promoted buffer (offset + 0) <<< 16 + promoted buffer (offset + 1) <<< 8 +
    promoted buffer (offset + 2)).toInt

/-- The sum is cut to 16 bits. -/
def uint16Le (buffer : List UInt8) (offset : Nat) : Nat :=
  ((promoted buffer (offset + 0) + promoted buffer (offset + 1) <<< 8).setWidth 16).toNat

def uint16Be (buffer : List UInt8) (offset : Nat) : Nat :=
  ((promoted buffer (offset + 0) <<< 8 + promoted buffer (offset + 1)).setWidth 16).toNat

def int16Le (buffer : List UInt8) (offset : Nat) : Int :=
  ((promoted buffer (offset + 0) + promoted buffer (offset + 1) <<< 8).setWidth 16).toInt

def int16Be (buffer : List UInt8) (offset : Nat) : Int :=
  ((promoted buffer (offset + 0) <<< 8 + promoted buffer (offset + 1)).setWidth 16).toInt

/-! ### Words

A word of four bytes as a number.
-/

/-- Four bytes have 32 bits. -/
theorem leWord_lt {b₀ b₁ b₂ b₃ : Nat} (h₀ : b₀ < 256) (h₁ : b₁ < 256) (h₂ : b₂ < 256)
    (h₃ : b₃ < 256) : b₀ + b₁ <<< 8 + b₂ <<< 16 + b₃ <<< 24 < 2 ^ 32 := by
  simp only [Nat.shiftLeft_eq]
  omega

/-- What has been read has 32 bits. -/
theorem uint32Le_lt (buffer : List UInt8) (offset : Nat) : uint32Le buffer offset < 2 ^ 32 :=
  BitVec.isLt _

/-- A word of four bytes is their sum, each in its place. -/
theorem uint32Le_eq (buffer : List UInt8) (offset : Nat) : uint32Le buffer offset =
    octet buffer (u32 (offset + 0)) + octet buffer (u32 (offset + 1)) <<< 8 +
      octet buffer (u32 (offset + 2)) <<< 16 + octet buffer (u32 (offset + 3)) <<< 24 := by
  have h₀ := octet_lt buffer (u32 (offset + 0))
  have h₁ := octet_lt buffer (u32 (offset + 1))
  have h₂ := octet_lt buffer (u32 (offset + 2))
  have h₃ := octet_lt buffer (u32 (offset + 3))
  simp only [uint32Le, promoted, BitVec.toNat_add, BitVec.toNat_shiftLeft, BitVec.toNat_ofNat,
    Nat.shiftLeft_eq]
  omega

end BenthosDc

/-
BenthosDc/UnpackValues.lean

The values of the integers in a data buffer (`unpack.c`).

A byte string has an unsigned and a two's-complement value (`ofBits`, `signedOf`), with the
most significant byte first.  The readers of both orders and of all widths return those of the
bytes they read, but for the signed ones of 24 bits: these return the unsigned value, since
the cast to `int32_t` extends no sign (`signed_eq`).  So a reader is a standard one exactly
where that makes no difference (`unpack_standard_iff`).
-/
import BenthosDc.Unpack

namespace BenthosDc

open Bits

/-! ### The readers by width and order

The twelve functions as one function of the width and the order, so that a fact about them is
one fact.
-/

/-- How many bits a reader returns. -/
inductive Width
  | w16
  | w24
  | w32
  deriving DecidableEq

/-- How many bytes it reads. -/
def Width.bytes : Width → Nat
  | w16 => 2
  | w24 => 3
  | w32 => 4

/-- Which byte comes first. -/
inductive ByteOrder
  | le
  | be
  deriving DecidableEq

namespace ByteOrder

/-- The other order. -/
def other : ByteOrder → ByteOrder
  | le => be
  | be => le

/-- The bytes, the most significant one first. -/
def mostFirst : ByteOrder → List UInt8 → List UInt8
  | le, bytes => bytes.reverse
  | be, bytes => bytes

/-- No byte is lost. -/
@[simp] theorem length_mostFirst (o : ByteOrder) (bytes : List UInt8) :
    (o.mostFirst bytes).length = bytes.length := by
  cases o with
  | le => exact List.length_reverse
  | be => rfl

/-- Different bytes stay different. -/
theorem mostFirst_injective (o : ByteOrder) : Function.Injective o.mostFirst := by
  cases o with
  | le => exact fun _ _ h => List.reverse_inj.mp h
  | be => exact Function.injective_id

/-- The other order is the order from the other end. -/
theorem mostFirst_other_reverse (o : ByteOrder) (bytes : List UInt8) :
    o.other.mostFirst bytes.reverse = o.mostFirst bytes := by
  cases o with
  | le => rfl
  | be => exact List.reverse_reverse bytes

end ByteOrder

/-- The unsigned reader of a width and an order. -/
def Width.unsigned : Width → ByteOrder → List UInt8 → Nat → Nat
  | w16, .le => uint16Le
  | w16, .be => uint16Be
  | w24, .le => uint24Le
  | w24, .be => uint24Be
  | w32, .le => uint32Le
  | w32, .be => uint32Be

/-- The signed reader of a width and an order. -/
def Width.signed : Width → ByteOrder → List UInt8 → Nat → Int
  | w16, .le => int16Le
  | w16, .be => int16Be
  | w24, .le => int24Le
  | w24, .be => int24Be
  | w32, .le => int32Le
  | w32, .be => int32Be

/-! ### What they return

The sum of the shifted bytes is the number of their bits, as no two of them overlap.
-/

variable {w : Width} {o : ByteOrder} {buffer : List UInt8} {offset : Nat}

/-- The bytes that a reader looks at: the index is a `uint32_t`. -/
def Width.readBytes (w : Width) (buffer : List UInt8) (offset : Nat) : List UInt8 :=
  (List.range w.bytes).map fun i => buffer.getD (u32 (offset + i)) 0

/-- As many bytes as the width says. -/
@[simp] theorem length_readBytes : (w.readBytes buffer offset).length = w.bytes := by
  simp [Width.readBytes]

/-- The sum of four bytes in their places. -/
theorem toNat_add_four (b₃ b₂ b₁ b₀ : UInt8) :
    (BitVec.ofNat 32 b₃.toNat <<< 24 + BitVec.ofNat 32 b₂.toNat <<< 16 +
      BitVec.ofNat 32 b₁.toNat <<< 8 + BitVec.ofNat 32 b₀.toNat).toNat =
      ofBits (bitStream [b₃, b₂, b₁, b₀]) := by
  have h₀ := b₀.toNat_lt
  have h₁ := b₁.toNat_lt
  have h₂ := b₂.toNat_lt
  have h₃ := b₃.toNat_lt
  simp only [ofBits_bitStream_cons, BitVec.toNat_add, BitVec.toNat_shiftLeft,
    BitVec.toNat_ofNat, Nat.shiftLeft_eq, bitStream_nil, ofBits, List.length_cons,
    List.length_nil]
  omega

theorem toNat_add_three (b₂ b₁ b₀ : UInt8) :
    (BitVec.ofNat 32 b₂.toNat <<< 16 + BitVec.ofNat 32 b₁.toNat <<< 8 +
      BitVec.ofNat 32 b₀.toNat).toNat = ofBits (bitStream [b₂, b₁, b₀]) := by
  have h₀ := b₀.toNat_lt
  have h₁ := b₁.toNat_lt
  have h₂ := b₂.toNat_lt
  simp only [ofBits_bitStream_cons, BitVec.toNat_add, BitVec.toNat_shiftLeft,
    BitVec.toNat_ofNat, Nat.shiftLeft_eq, bitStream_nil, ofBits, List.length_cons,
    List.length_nil]
  omega

theorem toNat_add_two (b₁ b₀ : UInt8) :
    ((BitVec.ofNat 32 b₁.toNat <<< 8 + BitVec.ofNat 32 b₀.toNat).setWidth 16).toNat =
      ofBits (bitStream [b₁, b₀]) := by
  have h₀ := b₀.toNat_lt
  have h₁ := b₁.toNat_lt
  simp only [ofBits_bitStream_cons, BitVec.toNat_setWidth, BitVec.toNat_add,
    BitVec.toNat_shiftLeft, BitVec.toNat_ofNat, Nat.shiftLeft_eq, bitStream_nil, ofBits,
    List.length_cons, List.length_nil]
  omega

/-- **The unsigned readers return the value of the bytes.** -/
theorem unsigned_eq (w : Width) (o : ByteOrder) (buffer : List UInt8) (offset : Nat) :
    w.unsigned o buffer offset = ofBits (bitStream (o.mostFirst (w.readBytes buffer offset))) := by
  cases w with
  | w16 =>
    cases o with
    | le =>
      show uint16Le buffer offset = _
      rw [uint16Le, BitVec.add_comm]
      exact toNat_add_two _ _
    | be => exact toNat_add_two _ _
  | w24 =>
    cases o with
    | le =>
      show uint24Le buffer offset = _
      rw [uint24Le, BitVec.add_comm, BitVec.add_comm (promoted _ _), ← BitVec.add_assoc]
      exact toNat_add_three _ _ _
    | be => exact toNat_add_three _ _ _
  | w32 =>
    cases o with
    | le =>
      show uint32Le buffer offset = _
      rw [uint32Le, BitVec.add_comm, BitVec.add_comm (_ + _) (promoted _ _ <<< 16),
        BitVec.add_comm (promoted _ _), ← BitVec.add_assoc, ← BitVec.add_assoc]
      exact toNat_add_four _ _ _ _
    | be => exact toNat_add_four _ _ _ _

/-- The sign of a word is its first bit. -/
theorem toInt_eq_signedOf {n : Nat} {x : BitVec n} {bs : List Bool} (hlen : bs.length = n)
    (h : x.toNat = ofBits bs) : x.toInt = signedOf bs := by
  rw [BitVec.toInt_eq_toNat_bmod, signedOf_eq_bmod, h, hlen]

/-- Three bytes are never negative as an `int`. -/
theorem toInt_eq_ofBits {x : BitVec 32} {bs : List Bool} (hlen : bs.length = 24)
    (h : x.toNat = ofBits bs) : x.toInt = ofBits bs := by
  have hlt := ofBits_lt bs
  rw [hlen] at hlt
  rw [BitVec.toInt_eq_toNat_of_lt (by omega), h]

/-- **The signed readers return the two's-complement value of the bytes**, but for those of 24
bits. -/
theorem signed_eq (w : Width) (o : ByteOrder) (buffer : List UInt8) (offset : Nat) :
    w.signed o buffer offset =
      if w = .w24 then (ofBits (bitStream (o.mostFirst (w.readBytes buffer offset))) : Int)
      else signedOf (bitStream (o.mostFirst (w.readBytes buffer offset))) := by
  have hvalue := unsigned_eq w o buffer offset
  have hlen : (bitStream (o.mostFirst (w.readBytes buffer offset))).length = 8 * w.bytes := by
    rw [length_bitStream, ByteOrder.length_mostFirst, length_readBytes]
  cases w with
  | w16 =>
    rw [if_neg (by decide)]
    cases o with
    | le =>
      show int16Le buffer offset = _
      exact toInt_eq_signedOf hlen hvalue
    | be =>
      show int16Be buffer offset = _
      exact toInt_eq_signedOf hlen hvalue
  | w24 =>
    rw [if_pos rfl]
    cases o with
    | le =>
      show int24Le buffer offset = _
      exact toInt_eq_ofBits hlen hvalue
    | be =>
      show int24Be buffer offset = _
      exact toInt_eq_ofBits hlen hvalue
  | w32 =>
    rw [if_neg (by decide)]
    cases o with
    | le =>
      show int32Le buffer offset = _
      exact toInt_eq_signedOf hlen hvalue
    | be =>
      show int32Be buffer offset = _
      exact toInt_eq_signedOf hlen hvalue

/-! ### The standard interpretation

What a reader should return: the value of the bytes at the index, in its order.
-/

/-- The bytes of the integer. -/
def Width.bytesAt (w : Width) (buffer : List UInt8) (offset : Nat) : List UInt8 :=
  (buffer.drop offset).take w.bytes

/-- The top bit of the most significant byte. -/
def ByteOrder.topBit (o : ByteOrder) (bytes : List UInt8) : Bool :=
  (o.mostFirst bytes).head?.any fun b => b.toNat.testBit 7

/-- The readers of a width and an order return the values of the bytes, and those of the other
order return the same for the reversed bytes. -/
structure Standard (w : Width) (o : ByteOrder) (buffer : List UInt8) (offset : Nat) : Prop where
  unsigned : w.unsigned o buffer offset =
    ofBits (bitStream (o.mostFirst (w.bytesAt buffer offset)))
  signed : w.signed o buffer offset =
    signedOf (bitStream (o.mostFirst (w.bytesAt buffer offset)))
  negative : w.signed o buffer offset < 0 ↔ o.topBit (w.bytesAt buffer offset) = true
  reversed : w.unsigned o buffer offset =
    w.unsigned o.other (w.bytesAt buffer offset).reverse 0
  signedReversed : w.signed o buffer offset =
    w.signed o.other (w.bytesAt buffer offset).reverse 0

/-- The bytes at the indices are those of the integer, as they are if it ends within 4 GiB. -/
def IndexesBytes (w : Width) (buffer : List UInt8) (offset : Nat) : Prop :=
  ∀ i < w.bytes, octet buffer (u32 (offset + i)) = octet buffer (offset + i)

/-- The indices do not wrap around. -/
theorem indexesBytes_of_le (h : offset + w.bytes ≤ 2 ^ 32) : IndexesBytes w buffer offset := by
  intro i hi
  rw [u32_of_lt (by omega)]

/-- The bytes of the buffer, one by one. -/
theorem bytesAt_eq_map (h : offset + w.bytes ≤ buffer.length) :
    w.bytesAt buffer offset = (List.range w.bytes).map fun i => buffer.getD (offset + i) 0 := by
  unfold Width.bytesAt
  apply List.ext_getElem
  · rw [List.length_take, List.length_drop, List.length_map, List.length_range]
    omega
  · intro i hi hi'
    rw [List.length_map, List.length_range] at hi'
    rw [List.getElem_take, List.getElem_drop, List.getElem_map, List.getElem_range,
      List.getD_eq_getElem _ _ (by omega)]

/-- The bytes that are read are those at the index. -/
theorem readBytes_eq_iff (h : offset + w.bytes ≤ buffer.length) :
    w.readBytes buffer offset = w.bytesAt buffer offset ↔ IndexesBytes w buffer offset := by
  rw [bytesAt_eq_map h, Width.readBytes, List.map_inj_left]
  simp only [List.mem_range, ← UInt8.toNat_inj]
  rfl

/-- A value is negative if its first bit is set. -/
theorem signedOf_bitStream_neg_iff (bytes : List UInt8) :
    signedOf (bitStream bytes) < 0 ↔ (bytes.head?.any fun b => b.toNat.testBit 7) = true := by
  cases bytes with
  | nil => exact iff_of_false (lt_irrefl _) Bool.false_ne_true
  | cons b bytes => exact signedOf_cons_neg_iff _ _

/-- Without the first bit the two values are the same. -/
theorem signedOf_bitStream_eq_iff (bytes : List UInt8) :
    signedOf (bitStream bytes) = ofBits (bitStream bytes) ↔
      (bytes.head?.any fun b => b.toNat.testBit 7) = false := by
  cases bytes with
  | nil => exact iff_of_true rfl rfl
  | cons b bytes => exact signedOf_cons_eq_ofBits_iff _ _

/-- At the front of a buffer all indices are right. -/
theorem readBytes_self {bytes : List UInt8} (h : bytes.length = w.bytes) :
    w.readBytes bytes 0 = bytes := by
  have hwidth : w.bytes ≤ 4 := by cases w <;> decide
  have hindex : IndexesBytes w bytes 0 := indexesBytes_of_le (by omega)
  rw [(readBytes_eq_iff (by omega)).mpr hindex, Width.bytesAt, List.drop_zero, ← h,
    List.take_length]

/-- The reader of the other order, on the reversed bytes. -/
theorem readers_reversed (o : ByteOrder) {bytes : List UInt8} (h : bytes.length = w.bytes)
    (hbytes : w.readBytes buffer offset = bytes) :
    w.unsigned o buffer offset = w.unsigned o.other bytes.reverse 0 ∧
      w.signed o buffer offset = w.signed o.other bytes.reverse 0 := by
  have hread : o.other.mostFirst (w.readBytes bytes.reverse 0) = o.mostFirst bytes := by
    rw [readBytes_self (List.length_reverse.trans h), ByteOrder.mostFirst_other_reverse]
  rw [unsigned_eq, unsigned_eq, signed_eq, signed_eq, hread, hbytes]
  exact ⟨rfl, rfl⟩

/-- **The readers are standard** where their indices do not wrap around to other bytes, and the
integer of 24 bits is not negative. -/
theorem unpack_standard_iff (w : Width) (o : ByteOrder) (buffer : List UInt8) (offset : UInt32)
    (h : offset.toNat + w.bytes ≤ buffer.length) :
    Standard w o buffer offset.toNat ↔ IndexesBytes w buffer offset.toNat ∧
      (w = .w24 → o.topBit (w.bytesAt buffer offset.toNat) = false) := by
  have hlen : (w.bytesAt buffer offset.toNat).length = w.bytes := by
    rw [bytesAt_eq_map h, List.length_map, List.length_range]
  have hunsigned := unsigned_eq w o buffer offset.toNat
  have hsigned := signed_eq w o buffer offset.toNat
  constructor
  · intro hstandard
    have hbytes : w.readBytes buffer offset.toNat = w.bytesAt buffer offset.toNat := by
      apply o.mostFirst_injective
      apply bitStream_injective
      apply ofBits_inj
      · simp [hlen]
      · exact hunsigned.symm.trans hstandard.unsigned
    refine ⟨(readBytes_eq_iff h).mp hbytes, fun hw => ?_⟩
    rw [if_pos hw, hbytes] at hsigned
    exact (signedOf_bitStream_eq_iff _).mp (hstandard.signed.symm.trans hsigned)
  · rintro ⟨hindex, htop⟩
    have hbytes := (readBytes_eq_iff h).mpr hindex
    obtain ⟨hreversed, hsreversed⟩ := readers_reversed o hlen hbytes
    have hvalue : w.signed o buffer offset.toNat =
        signedOf (bitStream (o.mostFirst (w.bytesAt buffer offset.toNat))) := by
      rw [hbytes] at hsigned
      split at hsigned
      · next hw => rw [hsigned, (signedOf_bitStream_eq_iff _).mpr (htop hw)]
      · exact hsigned
    refine ⟨?_, hvalue, ?_, hreversed, hsreversed⟩
    · rw [hunsigned, hbytes]
    · rw [hvalue]
      exact signedOf_bitStream_neg_iff _

/-- The bytes of 0x030201 -/
theorem unpack_standard_iff_three : Standard .w24 .le [1, 2, 3] (0 : UInt32).toNat ↔
    IndexesBytes .w24 [1, 2, 3] (0 : UInt32).toNat ∧
      (Width.w24 = .w24 → ByteOrder.le.topBit (Width.w24.bytesAt [1, 2, 3] (0 : UInt32).toNat) =
        false) :=
  unpack_standard_iff .w24 .le [1, 2, 3] 0 (by decide)

/-- Three bytes of -1, in both orders: the readers return 2 ^ 24 - 1. -/
theorem not_standard_minusOne : int24Le [0xff, 0xff, 0xff] 0 = 16777215 ∧
    ¬Standard .w24 .le [0xff, 0xff, 0xff] 0 ∧ ¬Standard .w24 .be [0xff, 0xff, 0xff] 0 := by
  refine ⟨by decide, ?_, ?_⟩
  · intro h
    exact absurd h.signed (by decide)
  · intro h
    exact absurd h.signed (by decide)

end BenthosDc

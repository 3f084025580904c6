/-
BenthosDc/Lib/Bits.lean

Bit strings, most significant bit first: their unsigned and two's-complement
values, and the passage between bytes and bits.

    bitStream : List UInt8 → List Bool        packBytes : List Bool → List UInt8

are mutually inverse on bit strings of whole bytes.

A string of bits is read in two ways: as an unsigned number (`ofBits`), and in two's complement
(`signedOf`).  Both are told of a string that is put together from two strings, so that a field
that is spread over the bits of several bytes can be read off part by part.
-/
import Mathlib.Data.Nat.Bitwise
import Mathlib.Tactic.Ring

namespace Bits

/-! ### Numbers and bit strings -/

/-- The `w` low bits of `n`, most significant first. -/
def bitsBE : Nat → Nat → List Bool
  | 0, _ => []
  | w + 1, n => n.testBit w :: bitsBE w n

/-- The unsigned value of a bit string. -/
def ofBits : List Bool → Nat
  | [] => 0
  | b :: bs => b.toNat * 2 ^ bs.length + ofBits bs

/-- The two's-complement value of a bit string. -/
def signedOf : List Bool → Int
  | true :: bs => (ofBits (true :: bs) : Int) - 2 ^ (bs.length + 1)
  | bs => ofBits bs

/-- A field of `w` bits has `w` bits. -/
@[simp] theorem length_bitsBE (w n : Nat) : (bitsBE w n).length = w := by
  induction w with
  | zero => rfl
  | succ w ih => simp [bitsBE, ih]

/-- The bits in front count `2 ^ b.length` times as much. -/
theorem ofBits_append (a b : List Bool) :
    ofBits (a ++ b) = ofBits a * 2 ^ b.length + ofBits b := by
  induction a with
  | nil => simp [ofBits]
  | cons x a ih =>
    simp only [List.cons_append, ofBits, ih, List.length_append, pow_add]
    ring

/-- A string of `n` bits is a number below `2 ^ n`. -/
theorem ofBits_lt (bs : List Bool) : ofBits bs < 2 ^ bs.length := by
  induction bs with
  | nil => simp [ofBits]
  | cons b bs ih =>
    have hb : b.toNat * 2 ^ bs.length ≤ 1 * 2 ^ bs.length :=
      Nat.mul_le_mul_right _ (Bool.toNat_le b)
    rw [ofBits, List.length_cons, pow_succ]
    omega

/-- The leading bit counts with the opposite sign. -/
theorem signedOf_cons (b : Bool) (bs : List Bool) :
    signedOf (b :: bs) = (ofBits bs : Int) - b.toNat * (2 ^ bs.length : Nat) := by
  cases b with
  | true =>
    simp only [signedOf, ofBits, Bool.toNat_true, pow_succ]
    push_cast
    ring
  | false => simp [signedOf, ofBits]

/-- The first bit is the sign. -/
theorem signedOf_cons_neg_iff (b : Bool) (bs : List Bool) : signedOf (b :: bs) < 0 ↔ b = true := by
  have hlow := ofBits_lt bs
  rw [signedOf_cons]
  cases b with
  | true =>
    rw [Bool.toNat_true]
    exact iff_of_true (by omega) rfl
  | false =>
    rw [Bool.toNat_false]
    exact iff_of_false (by omega) Bool.false_ne_true

/-- Signed and unsigned values agree exactly where the leading bit is not set. -/
theorem signedOf_cons_eq_ofBits_iff (b : Bool) (bs : List Bool) :
    signedOf (b :: bs) = ofBits (b :: bs) ↔ b = false := by
  have hpos : 0 < 2 ^ bs.length := Nat.two_pow_pos _
  rw [signedOf_cons, ofBits]
  cases b with
  | true =>
    rw [Bool.toNat_true, one_mul]
    exact iff_of_false (by omega) Bool.true_eq_false_eq_False
  | false =>
    rw [Bool.toNat_false, zero_mul]
    exact iff_of_true (by omega) rfl

/-- The sign of a bit string is in its front part. -/
theorem signedOf_append {a : List Bool} (ha : a ≠ []) (b : List Bool) :
    signedOf (a ++ b) = signedOf a * (2 ^ b.length : Nat) + ofBits b := by
  obtain ⟨x, a, rfl⟩ := List.exists_cons_of_ne_nil ha
  rw [List.cons_append, signedOf_cons, signedOf_cons, ofBits_append, List.length_append, pow_add]
  push_cast
  ring

/-- A two's-complement value of at most `n + 1` bits. -/
theorem signedOf_bounds {bs : List Bool} {n : Nat} (h : bs.length ≤ n + 1) :
    -((2 ^ n : Nat) : Int) ≤ signedOf bs ∧ signedOf bs < (2 ^ n : Nat) := by
  cases bs with
  | nil =>
    have hpos : 0 < 2 ^ n := Nat.two_pow_pos n
    simp only [signedOf, ofBits]
    omega
  | cons b bs =>
    have hlow := ofBits_lt bs
    have hpow : 2 ^ bs.length ≤ 2 ^ n :=
      Nat.pow_le_pow_right (by decide) (Nat.le_of_succ_le_succ h)
    rw [signedOf_cons]
    cases b with
    | true =>
      rw [Bool.toNat_true]
      omega
    | false =>
      rw [Bool.toNat_false]
      omega

/-- The two's-complement value is the balanced remainder of the unsigned one. -/
theorem signedOf_eq_bmod (bs : List Bool) :
    signedOf bs = (ofBits bs : Int).bmod (2 ^ bs.length) := by
  cases bs with
  | nil => rfl
  | cons b bs =>
    have hlow := ofBits_lt bs
    obtain ⟨hlo, hhi⟩ := signedOf_bounds (n := bs.length) (le_refl (b :: bs).length)
    have hmod : (ofBits (b :: bs) : Int).bmod (2 ^ (b :: bs).length) =
        (signedOf (b :: bs)).bmod (2 ^ (b :: bs).length) := by
      cases b with
      | true =>
        rw [signedOf, List.length_cons]
        exact (Int.sub_bmod_right _ _).symm
      | false => rfl
    rw [hmod, List.length_cons]
    refine (Int.bmod_eq_of_le ?_ ?_).symm
    · rw [pow_succ]
      omega
    · rw [pow_succ]
      omega

/-- Only the last `w` bits of a number are printed. -/
theorem bitsBE_mod (w n : Nat) : bitsBE w (n % 2 ^ w) = bitsBE w n := by
  have key : ∀ k, k ≤ w → bitsBE k (n % 2 ^ w) = bitsBE k n := by
    intro k hk
    induction k with
    | zero => rfl
    | succ k ih =>
      rw [bitsBE, bitsBE, ih (by omega), Nat.testBit_mod_two_pow]
      simp [show k < w by omega]
  exact key w le_rfl

/-- A string is the print of its number. -/
theorem bitsBE_ofBits (bs : List Bool) : bitsBE bs.length (ofBits bs) = bs := by
  induction bs with
  | nil => rfl
  | cons b bs ih =>
    have hlow : bitsBE bs.length (ofBits (b :: bs)) = bs := by
      rw [← bitsBE_mod, ofBits, Nat.mul_add_mod_self_right, Nat.mod_eq_of_lt (ofBits_lt bs), ih]
    rw [List.length_cons, bitsBE, hlow, ofBits, mul_comm,
      Nat.testBit_two_pow_mul_add b.toNat (ofBits_lt bs)]
    cases b <;> simp

/-- Of a printed number the last `w` bits are read back. -/
theorem ofBits_bitsBE (w n : Nat) : ofBits (bitsBE w n) = n % 2 ^ w := by
  induction w with
  | zero => simp [bitsBE, ofBits, Nat.mod_one]
  | succ w ih =>
    have hsplit := Nat.mod_pow_succ (b := 2) (x := n) (k := w)
    have htop : (n.testBit w).toNat = n / 2 ^ w % 2 := by
      rw [Nat.testBit_eq_decide_div_mod_eq]
      rcases Nat.mod_two_eq_zero_or_one (n / 2 ^ w) with h | h <;> simp [h]
    rw [bitsBE, ofBits, ih, length_bitsBE, htop, hsplit]
    ring

/-- Bit strings of one length differ in their values. -/
theorem ofBits_inj {a b : List Bool} (hlen : a.length = b.length) (h : ofBits a = ofBits b) :
    a = b := by
  rw [← bitsBE_ofBits a, ← bitsBE_ofBits b, hlen, h]

/-- Below `2 ^ w` no two numbers are printed alike. -/
theorem bitsBE_injOn {w m n : Nat} (hm : m < 2 ^ w) (hn : n < 2 ^ w)
    (h : bitsBE w m = bitsBE w n) : m = n := by
  have := congrArg ofBits h
  rwa [ofBits_bitsBE, ofBits_bitsBE, Nat.mod_eq_of_lt hm, Nat.mod_eq_of_lt hn] at this

/-! ### Bytes and bit strings -/

/-- The bits of a byte string, in order of transmission. -/
def bitStream (bytes : List UInt8) : List Bool :=
  bytes.flatMap fun b => bitsBE 8 b.toNat

@[simp] theorem bitStream_nil : bitStream [] = [] := rfl

/-- The bits of the first byte stand in front. -/
@[simp] theorem bitStream_cons (b : UInt8) (bytes : List UInt8) :
    bitStream (b :: bytes) = bitsBE 8 b.toNat ++ bitStream bytes := rfl

/-- The bits of two byte strings, one behind the other. -/
@[simp] theorem bitStream_append (a b : List UInt8) :
    bitStream (a ++ b) = bitStream a ++ bitStream b :=
  List.flatMap_append

/-- Eight bits for each byte. -/
@[simp] theorem length_bitStream (bytes : List UInt8) :
    (bitStream bytes).length = 8 * bytes.length := by
  induction bytes with
  | nil => rfl
  | cons b bytes ih =>
    rw [bitStream_cons, List.length_append, length_bitsBE, ih, List.length_cons]
    omega

/-- The first byte is the most significant one. -/
theorem ofBits_bitStream_cons (b : UInt8) (bytes : List UInt8) :
    ofBits (bitStream (b :: bytes)) =
      b.toNat * 2 ^ (8 * bytes.length) + ofBits (bitStream bytes) := by
  rw [bitStream_cons, ofBits_append, ofBits_bitsBE, length_bitStream,
    Nat.mod_eq_of_lt (UInt8.toNat_lt b)]

/-- Bytes are determined by their bits. -/
theorem bitStream_injective : Function.Injective bitStream := by
  intro a
  induction a with
  | nil =>
    intro b h
    have := congrArg List.length h
    simp only [length_bitStream, List.length_nil] at this
    exact (List.length_eq_zero_iff.mp (by omega)).symm
  | cons x a ih =>
    intro b h
    cases b with
    | nil =>
      have := congrArg List.length h
      simp only [length_bitStream, List.length_nil, List.length_cons] at this
      omega
    | cons y b =>
      rw [bitStream_cons, bitStream_cons] at h
      obtain ⟨hxy, hab⟩ := List.append_inj h (by simp)
      have : x.toNat = y.toNat := bitsBE_injOn (UInt8.toNat_lt x) (UInt8.toNat_lt y) hxy
      rw [ih hab, UInt8.toNat_inj.mp this]

/-- Whole bytes are cut off as whole groups of eight bits. -/
theorem take_bitStream (n : Nat) (bytes : List UInt8) :
    bitStream (bytes.take n) = (bitStream bytes).take (8 * n) := by
  conv_rhs => rw [← List.take_append_drop n bytes, bitStream_append]
  by_cases h : n ≤ bytes.length
  · rw [List.take_left']
    simp [h]
  · rw [List.take_of_length_le (by omega), List.drop_of_length_le (by omega)]
    rw [List.take_of_length_le (by simp; omega)]
    simp

/-- Pack a bit string into bytes; an incomplete last byte is dropped. -/
def packBytes : List Bool → List UInt8
  | b₇ :: b₆ :: b₅ :: b₄ :: b₃ :: b₂ :: b₁ :: b₀ :: bs =>
      UInt8.ofNat (ofBits [b₇, b₆, b₅, b₄, b₃, b₂, b₁, b₀]) :: packBytes bs
  | _ => []

/-- Packing whole bytes loses nothing. -/
theorem bitStream_packBytes {bs : List Bool} (h : 8 ∣ bs.length) :
    bitStream (packBytes bs) = bs := by
  induction bs using packBytes.induct with
  | case1 b₇ b₆ b₅ b₄ b₃ b₂ b₁ b₀ bs ih =>
    have hlt := ofBits_lt [b₇, b₆, b₅, b₄, b₃, b₂, b₁, b₀]
    have hbyte := bitsBE_ofBits [b₇, b₆, b₅, b₄, b₃, b₂, b₁, b₀]
    simp only [List.length_cons, List.length_nil] at hlt hbyte h
    rw [packBytes, bitStream_cons, UInt8.toNat_ofNat', Nat.mod_eq_of_lt hlt, hbyte,
      ih (by omega)]
    rfl
  | case2 bs hshort =>
    -- fewer than eight bits, and a multiple of eight: there are none
    have hnil : bs = [] := by
      by_contra hne
      have hpos : 0 < bs.length := List.length_pos_iff.mpr hne
      match bs, hshort with
      | [], _ | [_], _ | [_, _], _ | [_, _, _], _ | [_, _, _, _], _ | [_, _, _, _, _], _
      | [_, _, _, _, _, _], _ | [_, _, _, _, _, _, _], _ =>
        simp only [List.length_cons, List.length_nil] at h hpos
        omega
      | _ :: _ :: _ :: _ :: _ :: _ :: _ :: _ :: _, hs => exact hs _ _ _ _ _ _ _ _ _ rfl
    subst hnil
    rfl

/-- The bits of bytes are packed to these bytes. -/
theorem packBytes_bitStream (bytes : List UInt8) : packBytes (bitStream bytes) = bytes :=
  bitStream_injective (bitStream_packBytes (by simp))

/-- One byte for eight bits. -/
theorem length_packBytes {bs : List Bool} (h : 8 ∣ bs.length) :
    (packBytes bs).length = bs.length / 8 := by
  have := congrArg List.length (bitStream_packBytes h)
  rw [length_bitStream] at this
  omega

end Bits

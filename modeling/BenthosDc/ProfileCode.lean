/-
BenthosDc/ProfileCode.lean

The record code of the Smart profiles, and `smart_parser_parse_profile` as its
decoder.

A record of model `m` is an entry of the DTI table of `m` with its payload.
Entry `i` is announced by the type bits `typeBits m i`: `i` one-bits and a
zero-bit, or for the Galileo Sol the bit pattern in the comments of its table.
The rest of the last type byte and the extra bytes follow.

* `smartProcessDti_encode`: one record is cut out of the stream exactly;
* `exists_record_of_done`: nothing but a record is;
* `profileStep_record`, `profileStep_next`: the same for one iteration of the
  profile loop, so that the two record rules of `Loop` apply.
-/
import BenthosDc.SmartParser

namespace BenthosDc

open Bits Loop

/-! ### Type codes

A type code is a word over the bits of the stream.  Both identifications are functions of the
bits from the place of the loop on, so that they can be compared with the code words.
-/

/-- The type bits that select entry `i` of the Galileo Sol table. -/
def galileoBits (i : Nat) : List Bool :=
  if i = 0 then [false]
  else if i = 1 then [true, false, false]
  else if i ≤ 6 then bitsBE 4 (i + 8)
  else bitsBE 8 (0xF0 + (i - 7))

/-- The type bits that select entry `i` of the DTI table of model `m`. -/
def typeBits (m : Model) (i : Nat) : List Bool :=
  if m = .galileoSol then galileoBits i else List.replicate i true ++ [false]

/-- Count one-bits up to the first zero-bit: `inl` when there is one, `inr`
when the bits run out. -/
def scanOnes : List Bool → Nat → Nat ⊕ Nat
  | [], count => .inr count
  | false :: _, count => .inl count
  | true :: bs, count => scanOnes bs (count + 1)

theorem scanOnes_append (a b : List Bool) (count : Nat) :
    scanOnes (a ++ b) count =
      match scanOnes a count with
      | .inl n => .inl n
      | .inr n => scanOnes b n := by
  induction a generalizing count with
  | nil => rfl
  | cons x a ih =>
    cases x with
    | false => rfl
    | true => simpa [scanOnes] using ih (count + 1)

/-- The count goes up only. -/
theorem le_of_scanOnes {bs : List Bool} {count n : Nat} (h : scanOnes bs count = .inl n) :
    count ≤ n := by
  induction bs generalizing count with
  | nil => cases h
  | cons b bs ih =>
    cases b with
    | false =>
      cases h
      exact le_rfl
    | true => exact (Nat.le_succ count).trans (ih h)

theorem scanOnes_eq_inl_iff (bs : List Bool) (count k : Nat) :
    scanOnes bs count = .inl (count + k) ↔ List.replicate k true ++ [false] <+: bs := by
  induction bs generalizing count k with
  | nil => simp [scanOnes]
  | cons x bs ih =>
    cases x with
    | false =>
      cases k with
      | zero => simp [scanOnes]
      | succ k => simp [scanOnes, List.replicate_succ]
    | true =>
      cases k with
      | zero =>
        have hne : ∀ c, scanOnes bs (c + 1) ≠ .inl c := by
          intro c h
          have hle := le_of_scanOnes h
          omega
        simp [scanOnes, hne]
      | succ k =>
        have := ih (count + 1) k
        rw [show count + 1 + k = count + (k + 1) by omega] at this
        simpa [scanOnes, List.replicate_succ] using this

/-- The bits of one byte. -/
theorem smartIdentifyBits_eq (value : UInt8) (k count : Nat) :
    smartIdentifyBits value k count = scanOnes (bitsBE k value.toNat) count := by
  induction k generalizing count with
  | zero => rfl
  | succ k ih =>
    rw [smartIdentifyBits, bitsBE, Nat.one_shiftLeft, ih]
    cases h : value.toNat.testBit k with
    | false => simp [scanOnes, Nat.and_two_pow, h]
    | true => simp [scanOnes, Nat.and_two_pow, h]

/-- The bytes up to the first one that holds a zero-bit. -/
theorem smartIdentifyBytes_eq (data : List UInt8) (count : Nat) :
    smartIdentifyBytes data count =
      match scanOnes (bitStream data) count with
      | .inl n => n
      | .inr _ => 255 := by
  induction data generalizing count with
  | nil => rfl
  | cons value data ih =>
    rw [smartIdentifyBytes, smartIdentifyBits_eq, bitStream_cons, scanOnes_append]
    rcases scanOnes (bitsBE 8 value.toNat) count with n | n
    · rfl
    · exact ih n

/-- `smart_identify` reads off the unary type codes of up to 64 bits. -/
theorem smartIdentify_eq_iff {data : List UInt8} {k : Nat} (hk : k < 64) :
    smartIdentify data = k ↔ List.replicate k true ++ [false] <+: bitStream data := by
  have htake : (List.replicate k true ++ [false] <+: bitStream (data.take 8)) ↔
      List.replicate k true ++ [false] <+: bitStream data := by
    rw [take_bitStream, List.prefix_take_iff]
    simp
    omega
  have hscan := scanOnes_eq_inl_iff (bitStream (data.take 8)) 0 k
  rw [← htake, ← hscan, Nat.zero_add, smartIdentify, smartIdentifyBytes_eq]
  rcases scanOnes (bitStream (data.take 8)) 0 with n | n
  · simp
  · simp
    omega

/-- A Galileo byte has type `k` exactly if it starts with the code of `k`. -/
theorem galileoIdentify_eq_iff (value : UInt8) {k : Nat} (hk : k < 23) :
    galileoIdentify value = k ↔ galileoBits k <+: bitsBE 8 value.toNat := by
  have key : ∀ v : Fin 256, ∀ k : Fin 23,
      galileoIdentify (UInt8.ofNat v) = k ↔ galileoBits k <+: bitsBE 8 v := by
    decide +kernel
  have := key ⟨value.toNat, value.toNat_lt⟩ ⟨k, hk⟩
  rwa [UInt8.ofNat_toNat] at this

/-- No table is longer than that of the Galileo. -/
theorem dtiSize_lt (m : Model) : m.dtiSize < 23 := by
  cases m <;> decide

theorem length_galileoBits_le {k : Nat} (hk : k < 23) : (galileoBits k).length ≤ 8 := by
  have key : ∀ k : Fin 23, (galileoBits k).length ≤ 8 := by decide
  exact key ⟨k, hk⟩

/-- **The type code is read exactly**: the parser identifies type `k`, up to
the first code past the table, where the data begins with the type bits of
`k`. -/
theorem identify_eq_iff (m : Model) {data : List UInt8} (hne : data ≠ []) {k : Nat}
    (hk : k ≤ m.dtiSize) : identify m.number data = k ↔ typeBits m k <+: bitStream data := by
  have hlt := dtiSize_lt m
  have hnum : m.number = Model.galileoSol.number ↔ m = .galileoSol := by
    cases m <;> decide
  by_cases hm : m = .galileoSol
  · obtain ⟨value, rest, rfl⟩ := List.exists_cons_of_ne_nil hne
    rw [identify, if_pos (hnum.mpr hm), typeBits, if_pos hm, List.headD_cons,
      galileoIdentify_eq_iff value (by omega), bitStream_cons]
    constructor
    · exact fun h => List.prefix_append_of_prefix h
    · intro h
      apply List.prefix_of_prefix_length_le h (List.prefix_append _ _)
      rw [length_bitsBE]
      exact length_galileoBits_le (by omega)
  · rw [identify, if_neg (hnum.not.mpr hm), typeBits, if_neg hm]
    exact smartIdentify_eq_iff (by omega)

/-- The table counts the bits of a type as `ntb`. -/
theorem length_typeBits {m : Model} {i : Nat} {e : DtiEntry} (h : m.dtiTable[i]? = some e) :
    (typeBits m i).length = e.ntb := by
  have key : ∀ m : Model, ∀ i : Fin m.dtiSize, (typeBits m i).length = m.dtiTable[i].ntb := by
    intro m
    cases m <;> decide
  obtain ⟨hi, rfl⟩ := List.getElem?_eq_some_iff.mp h
  exact key m ⟨i, hi⟩

/-- Every type has a bit. -/
theorem ntb_pos {m : Model} {e : DtiEntry} (h : e ∈ m.dtiTable) : 0 < e.ntb := by
  revert e
  cases m <;> decide

/-- No record has more than two bytes behind the first one. -/
theorem extra_le {m : Model} {e : DtiEntry} (h : e ∈ m.dtiTable) : e.extra ≤ 2 := by
  revert e
  cases m <;> decide

/-! ### Records

The bits that the type leaves of its last byte, and the bytes behind it, are free.  A record is
built from both, so that it cannot be of the wrong size.
-/

/-- A record of a model: a table entry, the rest `head` of its last type byte
and the extra bytes `body`. -/
structure Record (m : Model) where
  id : Fin m.dtiSize
  head : List Bool
  body : List UInt8
  head_length : head.length = (8 - m.dtiTable[id].ntb % 8) % 8
  body_length : body.length = m.dtiTable[id].extra

namespace Record

variable {m : Model} (r : Record m)

/-- The entry of the table. -/
def dti : DtiEntry := m.dtiTable[r.id]

/-- The payload bits; an ignored head is not part of the payload. -/
def payload : List Bool := (if r.dti.ignore then [] else r.head) ++ bitStream r.body

/-- The bytes that hold the type. -/
def typeBytes : List UInt8 := packBytes (typeBits m r.id ++ r.head)

/-- **The bytes of a record.** -/
def encode : List UInt8 := r.typeBytes ++ r.body

/-- What the parser makes of the record. -/
def call : DtiCall :=
  ⟨r.dti, BitVec.ofNat 32 (ofBits r.payload), BitVec.ofInt 32 (signedOf r.payload)⟩

theorem getElem?_id : m.dtiTable[r.id.val]? = some r.dti :=
  List.getElem?_eq_getElem r.id.isLt

theorem dti_mem : r.dti ∈ m.dtiTable := List.getElem_mem _

theorem length_head : r.head.length = (8 - r.dti.ntb % 8) % 8 := r.head_length

theorem length_body : r.body.length = r.dti.extra := r.body_length

/-- The type and the bits behind it fill whole bytes. -/
theorem dvd_typeBits_head : 8 ∣ (typeBits m r.id ++ r.head).length := by
  rw [List.length_append, length_typeBits r.getElem?_id, r.length_head]
  omega

theorem bitStream_typeBytes : bitStream r.typeBytes = typeBits m r.id ++ r.head :=
  bitStream_packBytes r.dvd_typeBits_head

theorem length_typeBytes : r.typeBytes.length = (r.dti.ntb + 7) / 8 := by
  rw [typeBytes, length_packBytes r.dvd_typeBits_head, List.length_append,
    length_typeBits r.getElem?_id, r.length_head]
  omega

/-- The length of a record depends on its type only. -/
theorem length_encode : r.encode.length = (r.dti.ntb + 7) / 8 + r.dti.extra := by
  rw [encode, List.length_append, length_typeBytes, length_body]

theorem length_encode_pos : 0 < r.encode.length := by
  have := ntb_pos r.dti_mem
  rw [length_encode]
  omega

/-- A record starts with the code of its type. -/
theorem typeBits_prefix (rest : List UInt8) :
    typeBits m r.id <+: bitStream (r.encode ++ rest) := by
  rw [encode, bitStream_append, bitStream_append, bitStream_typeBytes, List.append_assoc,
    List.append_assoc]
  exact List.prefix_append _ _

/-- A payload goes into a word. -/
theorem length_payload_le : r.payload.length ≤ 32 := by
  have hbody := extra_le r.dti_mem
  have hhead := r.length_head
  rw [payload, List.length_append, length_bitStream, length_body]
  split
  · simp
    omega
  · omega

/-- The low bits of the last type byte are the head of the record. -/
theorem exists_lastByte (hn : 0 < r.dti.ntb % 8) :
    ∃ front b, r.typeBytes = front ++ [b] ∧ front.length = r.dti.ntb / 8 ∧
      b.toNat &&& (0xFF >>> (r.dti.ntb % 8)) = ofBits r.head := by
  have hlen := r.length_typeBytes
  have hne : r.typeBytes ≠ [] := by
    rw [← List.length_pos_iff, hlen]
    omega
  obtain ⟨front, b, hfront⟩ := (List.eq_nil_or_concat r.typeBytes).resolve_left hne
  rw [List.concat_eq_append] at hfront
  have hfl : front.length = r.dti.ntb / 8 := by
    rw [hfront, List.length_append, List.length_singleton] at hlen
    omega
  have hhead : r.head.length = 8 - r.dti.ntb % 8 := by
    rw [r.length_head]
    omega
  -- the last eight bits of the type bytes end with the head
  have hbits : bitsBE 8 b.toNat = (typeBits m r.id).drop (8 * front.length) ++ r.head := by
    have h := r.bitStream_typeBytes
    rw [hfront, bitStream_append, bitStream_cons, bitStream_nil, List.append_nil] at h
    have hd := congrArg (List.drop (8 * front.length)) h
    rw [List.drop_left' (by simp), List.drop_append_of_le_length] at hd
    · exact hd
    · rw [length_typeBits r.getElem?_id, hfl]
      omega
  have hval := congrArg ofBits hbits
  rw [ofBits_bitsBE, Nat.mod_eq_of_lt (UInt8.toNat_lt b), ofBits_append, hhead] at hval
  have hmask : ∀ n : Fin 8, 0xFF >>> n.val = 2 ^ (8 - n.val) - 1 := by decide
  refine ⟨front, b, hfront, hfl, ?_⟩
  have hlow := ofBits_lt r.head
  rw [hhead] at hlow
  rw [hmask ⟨r.dti.ntb % 8, by omega⟩, Nat.and_two_pow_sub_one_eq_mod, hval,
    Nat.mul_add_mod_self_right, Nat.mod_eq_of_lt hlow]

end Record

/-! ### Cutting one record out

The value is put together from the bits behind the type, which a mask cuts out, and from the
extra bytes, which are shifted in.  A sign is spread over the word afterwards.
-/

/-- A payload leaves the bits above its width clear. -/
theorem payload_and_mask {x n : Nat} (hx : x < 2 ^ n) :
    BitVec.ofNat 32 x &&& 0xFFFFFFFF#32 <<< n = 0 := by
  apply BitVec.eq_of_getLsbD_eq
  intro i hi
  simp only [BitVec.getLsbD_and, BitVec.getLsbD_ofNat, BitVec.getLsbD_shiftLeft]
  by_cases hin : i < n
  · simp [hin]
  · have : x.testBit i = false :=
      Nat.testBit_lt_two_pow (hx.trans_le (Nat.pow_le_pow_right (by decide) (by omega)))
    simp [this]

/-- The mask that spreads a sign. -/
theorem mask_eq (n : Nat) : 0xFFFFFFFF#32 <<< n = BitVec.ofInt 32 (-(2 ^ n : Nat)) := by
  rw [BitVec.ofInt_neg, BitVec.ofInt_natCast, BitVec.shiftLeft_eq_mul_twoPow,
    show (0xFFFFFFFF#32) = -1#32 from rfl, BitVec.neg_mul, BitVec.one_mul]
  congr 1
  apply BitVec.eq_of_toNat_eq
  simp [BitVec.toNat_twoPow]

/-- The sign bit of a payload is its first bit. -/
theorem payload_and_signbit (b : Bool) (bs : List Bool) (h : bs.length < 32) :
    (BitVec.ofNat 32 (ofBits (b :: bs)) &&& 1#32 <<< bs.length = 1#32 <<< bs.length) ↔
      b = true := by
  -- the first bit is the topmost one
  have hbit : (BitVec.ofNat 32 (ofBits (b :: bs))).getLsbD bs.length = b := by
    rw [BitVec.getLsbD_ofNat, ofBits, mul_comm,
      Nat.testBit_two_pow_mul_add b.toNat (ofBits_lt bs)]
    cases b <;> simp [h]
  have hsign : ∀ i, (1#32 <<< bs.length).getLsbD i = decide (i = bs.length) := by
    intro i
    simp only [BitVec.getLsbD_shiftLeft, BitVec.getLsbD_one]
    by_cases hi : i = bs.length
    · simp [hi, h]
    · simp [hi]
      omega
  constructor
  · intro heq
    have := congrArg (fun v : BitVec 32 => v.getLsbD bs.length) heq
    simp only [BitVec.getLsbD_and, hbit, hsign] at this
    simpa using this
  · rintro rfl
    apply BitVec.eq_of_getLsbD_eq
    intro i _
    rw [BitVec.getLsbD_and, hsign]
    by_cases hi : i = bs.length
    · rw [hi, hbit]
      rfl
    · simp [hi]

/-- `smart_fixsignbit` turns the unsigned value of a payload into its
two's-complement value. -/
theorem smartFixsignbit_payload {bs : List Bool} (h : bs.length ≤ 32) :
    smartFixsignbit (BitVec.ofNat 32 (ofBits bs)) bs.length = BitVec.ofInt 32 (signedOf bs) := by
  cases bs with
  | nil => rfl
  | cons b bs =>
    rw [List.length_cons] at h
    have hdisj := payload_and_mask (ofBits_lt (b :: bs))
    have hsign := payload_and_signbit b bs (by omega)
    rw [List.length_cons] at hdisj
    simp only [smartFixsignbit, List.length_cons, Nat.add_sub_cancel, hsign]
    rw [if_neg (by omega)]
    cases b with
    | true =>
      rw [if_pos rfl, ← BitVec.add_eq_or_of_and_eq_zero _ _ hdisj, mask_eq,
        ← BitVec.ofInt_natCast, ← BitVec.ofInt_add, signedOf]
      congr 1
    | false =>
      rw [if_neg (by simp), signedOf, BitVec.ofInt_natCast]
      · -- the mask clears what is above the payload, where there is nothing
        calc BitVec.ofNat 32 (ofBits (false :: bs)) &&& ~~~(0xFFFFFFFF#32 <<< (bs.length + 1))
            = (BitVec.ofNat 32 (ofBits (false :: bs)) &&& ~~~(0xFFFFFFFF#32 <<< (bs.length + 1)))
                ||| (BitVec.ofNat 32 (ofBits (false :: bs)) &&&
                  0xFFFFFFFF#32 <<< (bs.length + 1)) := by
              rw [hdisj]
              simp
          _ = BitVec.ofNat 32 (ofBits (false :: bs)) &&& BitVec.allOnes 32 := by
              rw [← BitVec.and_or_distrib_left]
              simp
          _ = BitVec.ofNat 32 (ofBits (false :: bs)) := BitVec.and_allOnes
      · simp

theorem getElem?_of_drop {α : Type*} {l : List α} {n : Nat} {x : α} {rest : List α}
    (h : l.drop n = x :: rest) : l[n]? = some x := by
  have := congrArg (fun l => l[0]?) h
  simpa using this

/-- The extra bytes are shifted into the value one after the other. -/
theorem processExtra_body {data body rest : List UInt8} {offset : Nat}
    (h : data.drop offset = body ++ rest) (bs : List Bool) :
    processExtra data body.length offset bs.length (BitVec.ofNat 32 (ofBits bs)) =
      some (offset + body.length, (bs ++ bitStream body).length,
        BitVec.ofNat 32 (ofBits (bs ++ bitStream body))) := by
  induction body generalizing offset bs with
  | nil => simp [processExtra]
  | cons b body ih =>
    have hdrop : data.drop (offset + 1) = body ++ rest := by
      rw [← List.drop_drop, h]
      rfl
    -- a byte that is shifted in is eight bits behind the others
    have hvalue : BitVec.ofNat 32 (ofBits bs) <<< 8 + BitVec.ofNat 32 b.toNat =
        BitVec.ofNat 32 (ofBits (bs ++ bitsBE 8 b.toNat)) := by
      rw [ofBits_append, ofBits_bitsBE, Nat.mod_eq_of_lt (UInt8.toNat_lt b), length_bitsBE,
        BitVec.ofNat_add, BitVec.ofNat_mul, BitVec.shiftLeft_eq_mul_twoPow]
      rfl
    have := ih hdrop (bs ++ bitsBE 8 b.toNat)
    rw [List.length_append, length_bitsBE] at this
    rw [List.length_cons, processExtra, getElem?_of_drop h]
    simp only [hvalue, this, bitStream_cons, List.append_assoc, Option.some.injEq, Prod.mk.injEq,
      and_true]
    omega

/-- The second half of `smart_process_dti` in front of the extra bytes of a
record, with the bits `bs` already read. -/
theorem processTail_body {data body rest : List UInt8} {offset : Nat} {e : DtiEntry}
    (h : data.drop offset = body ++ rest) (hbody : body.length = e.extra)
    (hoff : offset ≤ data.length) (hdata : data.length < 2 ^ 32) (bs : List Bool)
    (hbs : (bs ++ bitStream body).length ≤ 32) :
    processTail data e offset bs.length (BitVec.ofNat 32 (ofBits bs)) =
      .done (offset + e.extra) (BitVec.ofNat 32 (ofBits (bs ++ bitStream body)))
        (BitVec.ofInt 32 (signedOf (bs ++ bitStream body))) := by
  have hle : offset + e.extra ≤ data.length := by
    have := congrArg List.length h
    rw [List.length_drop, List.length_append] at this
    omega
  have hu : u32 (offset + e.extra) = offset + e.extra := Nat.mod_eq_of_lt (by omega)
  rw [processTail, hu, if_neg (by omega), ← hbody, processExtra_body h bs]
  show DtiResult.done _ _ _ = _
  rw [smartFixsignbit_payload hbs]

/-- **One record is cut out exactly.**  In front of the encoding of a record
`smart_process_dti` stops behind it, with the payload of the record read as an
unsigned and as a signed number. -/
theorem smartProcessDti_encode {m : Model} (r : Record m) {data rest : List UInt8} {offset : Nat}
    (hdata : data.length < 2 ^ 32) (h : data.drop offset = r.encode ++ rest) :
    smartProcessDti data offset r.dti =
      .done (offset + r.encode.length) r.call.value r.call.svalue := by
  have hoff : offset + r.encode.length ≤ data.length := by
    have hlen := congrArg List.length h
    have hpos := r.length_encode_pos
    rw [List.length_drop, List.length_append] at hlen
    omega
  have hlen := r.length_encode
  have hpay := r.length_payload_le
  rw [smartProcessDti]
  -- the last type byte is shared with the payload, or the type fills its bytes
  by_cases hn : 0 < r.dti.ntb % 8
  · obtain ⟨front, b, hfront, hfl, hb⟩ := r.exists_lastByte hn
    rw [Record.encode, hfront, List.append_assoc, List.append_assoc] at h
    have hdrop : data.drop (offset + r.dti.ntb / 8) = b :: (r.body ++ rest) := by
      rw [← hfl, ← List.drop_drop, h, List.drop_left]
      rfl
    have hdrop' : data.drop (offset + r.dti.ntb / 8 + 1) = r.body ++ rest := by
      rw [← List.drop_drop, hdrop]
      rfl
    have hend : offset + r.dti.ntb / 8 + 1 + r.dti.extra = offset + r.encode.length := by
      omega
    simp only [if_pos hn, getElem?_of_drop hdrop, hb]
    cases hi : r.dti.ignore with
    | true =>
      have hp : r.payload = bitStream r.body := by
        rw [Record.payload, hi]
        rfl
      rw [hp] at hpay
      have := processTail_body hdrop' r.length_body (by omega) hdata [] hpay
      rw [if_pos rfl, ← hend, Record.call, hp]
      exact this
    | false =>
      have hp : r.payload = r.head ++ bitStream r.body := by
        rw [Record.payload, hi]
        rfl
      rw [hp] at hpay
      have := processTail_body hdrop' r.length_body (by omega) hdata r.head hpay
      rw [r.length_head, Nat.mod_eq_of_lt (by omega)] at this
      rw [if_neg (by decide), ← hend, Record.call, hp]
      exact this
  · have hhead : r.head = [] := by
      rw [← List.length_eq_zero_iff, r.length_head]
      omega
    have hp : r.payload = bitStream r.body := by
      rw [Record.payload, hhead, ite_self]
      rfl
    have hdrop : data.drop (offset + r.dti.ntb / 8) = r.body ++ rest := by
      have htl : r.typeBytes.length = r.dti.ntb / 8 := by
        rw [r.length_typeBytes]
        omega
      rw [← htl, ← List.drop_drop, h, Record.encode, List.append_assoc, List.drop_left]
    have hend : offset + r.dti.ntb / 8 + r.dti.extra = offset + r.encode.length := by
      omega
    rw [hp] at hpay
    have := processTail_body hdrop r.length_body (by omega) hdata [] hpay
    simp only [if_neg hn]
    rw [← hend, Record.call, hp]
    exact this

/-! ### Nothing but records is cut out

The other direction: where a record is cut out, one has been there.  The bytes that have been
read are the parts of it.
-/

/-- Extra bytes that are read lie within the data. -/
theorem processExtra_some {data : List UInt8} {k offset nbits : Nat} {value : BitVec 32}
    {res : Nat × Nat × BitVec 32} (h : processExtra data k offset nbits value = some res) :
    res.1 = offset + k ∧ (k = 0 ∨ offset + k ≤ data.length) := by
  induction k generalizing offset nbits value with
  | zero =>
    cases h
    exact ⟨rfl, .inl rfl⟩
  | succ k ih =>
    rw [processExtra] at h
    rcases hb : data[offset]? with _ | b
    · rw [hb] at h
      cases h
    · rw [hb] at h
      obtain ⟨hend, hle⟩ := ih h
      have hlt := (List.getElem?_eq_some_iff.mp hb).1
      omega

/-- A record ends behind its extra bytes. -/
theorem processTail_done {data : List UInt8} {e : DtiEntry} {offset nbits off' : Nat}
    {value v sv : BitVec 32} (h : processTail data e offset nbits value = .done off' v sv) :
    off' = offset + e.extra ∧ (e.extra = 0 ∨ offset + e.extra ≤ data.length) := by
  rw [processTail] at h
  split at h
  · cases h
  · rcases hx : processExtra data e.extra offset nbits value with _ | ⟨off, n, w⟩
    · rw [hx] at h
      cases h
    · rw [hx] at h
      cases h
      exact processExtra_some hx

/-- A record that has been cut out lies within the data. -/
theorem smartProcessDti_done {data : List UInt8} {e : DtiEntry} {offset off' : Nat}
    {v sv : BitVec 32} (hoff : offset + e.ntb / 8 ≤ data.length)
    (h : smartProcessDti data offset e = .done off' v sv) :
    off' = offset + (e.ntb + 7) / 8 + e.extra ∧ off' ≤ data.length := by
  rw [smartProcessDti] at h
  -- a type that does not fill its last byte has that byte read on its own
  by_cases hn : 0 < e.ntb % 8
  · simp only [if_pos hn] at h
    rcases hb : data[offset + e.ntb / 8]? with _ | b
    · rw [hb] at h
      cases h
    · rw [hb] at h
      have hlt := (List.getElem?_eq_some_iff.mp hb).1
      have htail : off' = offset + e.ntb / 8 + 1 + e.extra ∧
          (e.extra = 0 ∨ offset + e.ntb / 8 + 1 + e.extra ≤ data.length) := by
        dsimp only at h
        split at h
        · exact processTail_done h
        · exact processTail_done h
      omega
  · simp only [if_neg hn] at h
    have := processTail_done h
    omega

/-- The type bits of an entry are followed by enough bits to fill a byte. -/
theorem exists_record_prefix {m : Model} {i : Nat} {e : DtiEntry} (he : m.dtiTable[i]? = some e)
    {bs : List UInt8} (hbits : typeBits m i <+: bitStream bs)
    (hlen : (e.ntb + 7) / 8 + e.extra ≤ bs.length) :
    ∃ r : Record m, r.dti = e ∧ r.id.val = i ∧ r.encode = bs.take ((e.ntb + 7) / 8 + e.extra) := by
  obtain ⟨hi, rfl⟩ := List.getElem?_eq_some_iff.mp he
  set e := m.dtiTable[i]
  have hntb := length_typeBits he
  obtain ⟨tail, htail⟩ := hbits
  -- the bits behind the type up to the end of its last byte are the head
  have hstream : bitStream (bs.take ((e.ntb + 7) / 8)) =
      typeBits m i ++ tail.take ((8 - e.ntb % 8) % 8) := by
    rw [take_bitStream, ← htail, List.take_append, hntb]
    congr 1
    · exact List.take_of_length_le (by omega)
    · congr 1
      omega
  have htl : (tail.take ((8 - e.ntb % 8) % 8)).length = (8 - e.ntb % 8) % 8 := by
    have := congrArg List.length hstream
    rw [length_bitStream, List.length_take, List.length_append, hntb] at this
    omega
  refine ⟨⟨⟨i, hi⟩, tail.take ((8 - e.ntb % 8) % 8), (bs.drop ((e.ntb + 7) / 8)).take e.extra,
    htl, ?_⟩, rfl, rfl, ?_⟩
  · rw [List.length_take, List.length_drop]
    show min e.extra _ = e.extra
    omega
  · show packBytes (typeBits m i ++ tail.take ((8 - e.ntb % 8) % 8)) ++ _ = _
    rw [← hstream, packBytes_bitStream, List.take_add]

/-- A record whose extra bytes are not all there is refused. -/
theorem smartProcessDti_tooShort {data : List UInt8} {e : DtiEntry} {offset : Nat}
    (hextra : e.extra ≤ 2) (hdata : data.length ≤ 2 ^ 32 - 3)
    (hle : offset + (e.ntb + 7) / 8 ≤ data.length)
    (hlt : data.length < offset + (e.ntb + 7) / 8 + e.extra) :
    smartProcessDti data offset e = .tooShort := by
  have htail : ∀ nbits value,
      processTail data e (offset + (e.ntb + 7) / 8) nbits value = .tooShort := by
    intro nbits value
    have hu : u32 (offset + (e.ntb + 7) / 8 + e.extra) = offset + (e.ntb + 7) / 8 + e.extra :=
      Nat.mod_eq_of_lt (by omega)
    rw [processTail, hu, if_pos hlt]
  rw [smartProcessDti]
  by_cases hn : 0 < e.ntb % 8
  · have hend : offset + e.ntb / 8 + 1 = offset + (e.ntb + 7) / 8 := by omega
    have hb : offset + e.ntb / 8 < data.length := by omega
    simp only [if_pos hn, List.getElem?_eq_getElem hb, hend, htail, ite_self]
  · have hend : offset + e.ntb / 8 = offset + (e.ntb + 7) / 8 := by omega
    simp only [if_neg hn, hend, htail]

/-! ### One iteration of the profile loop

An iteration takes one record or stops.  It stops at the end of the data, at a type that no
entry has, and at a record that is cut off.
-/

@[simp] theorem smartParseDti_model (p : SmartParser) (c : DtiCall) :
    (smartParseDti p c).model = p.model := by
  rw [smartParseDti]
  split
  all_goals first | rfl | (split <;> rfl)

@[simp] theorem sampleLoop_model (n : Nat) (p : SmartParser) :
    (sampleLoop n p).1.model = p.model := by
  induction n generalizing p with
  | zero => rfl
  | succ n ih => exact ih (waypointNext p)

@[simp] theorem processCall_model (p : SmartParser) (c : DtiCall) :
    (processCall p c).1.model = p.model := by
  rw [processCall, sampleLoop_model, smartParseDti_model]

/-- The loop state after the record `r` has been taken in. -/
def takeRecord {m : Model} (s : ProfileState) (r : Record m) : ProfileState :=
  ⟨s.offset + r.encode.length, (processCall s.parser r.call).1,
    s.trace ++ .lookup r.id :: .parse r.call ::
      (processCall s.parser r.call).2.map .waypoint⟩

section Step

variable {m : Model} {data : List UInt8} {s : ProfileState}

/-- **An iteration takes in the record it stands at.** -/
theorem profileStep_record (hdata : data.length < 2 ^ 32) (hm : s.parser.model = m)
    (r : Record m) {rest : List UInt8} (h : data.drop s.offset = r.encode ++ rest) :
    profileStep data s = .next (takeRecord s r) := by
  have hpos := r.length_encode_pos
  have hoff : s.offset < data.length := by
    have := congrArg List.length h
    rw [List.length_drop, List.length_append] at this
    omega
  have hne : data.drop s.offset ≠ [] := by
    rw [← List.length_pos_iff, List.length_drop]
    omega
  have hid : identify m.number (data.drop s.offset) = r.id :=
    (identify_eq_iff m hne r.id.isLt.le).mpr (h ▸ r.typeBits_prefix rest)
  rw [profileStep, profileStepOn, if_pos hoff, s.parser.dev_model, hm]
  simp only [hid, r.getElem?_id, smartProcessDti_encode r hdata h]
  rw [if_neg (by have := r.id.isLt; omega), takeRecord, List.append_assoc]
  rfl

/-- The ways in which the loop ends. -/
inductive ProfileStop (data : List UInt8) (s : ProfileState) : ProfileResult → Prop
  | atEnd : data.length ≤ s.offset → ProfileStop data s ⟨some 0, s.parser, s.trace⟩
  | invalid : s.offset < data.length →
      s.parser.model.dtiSize < identify s.parser.dev.model (data.drop s.offset) →
      ProfileStop data s
        ⟨some (-1), s.parser.setError driverErrInvalid "Invalid DTI Code", s.trace⟩
  | noEntry : s.offset < data.length →
      identify s.parser.dev.model (data.drop s.offset) ≤ s.parser.model.dtiSize →
      s.parser.model.dtiTable[identify s.parser.dev.model (data.drop s.offset)]? = none →
      ProfileStop data s ⟨none, s.parser,
        s.trace ++ [.lookup (identify s.parser.dev.model (data.drop s.offset))]⟩
  | undef {dti : DtiEntry} : s.offset < data.length →
      identify s.parser.dev.model (data.drop s.offset) ≤ s.parser.model.dtiSize →
      s.parser.model.dtiTable[identify s.parser.dev.model (data.drop s.offset)]? = some dti →
      smartProcessDti data s.offset dti = .undef →
      ProfileStop data s ⟨none, s.parser,
        s.trace ++ [.lookup (identify s.parser.dev.model (data.drop s.offset))]⟩
  | tooShort {dti : DtiEntry} : s.offset < data.length →
      identify s.parser.dev.model (data.drop s.offset) ≤ s.parser.model.dtiSize →
      s.parser.model.dtiTable[identify s.parser.dev.model (data.drop s.offset)]? = some dti →
      smartProcessDti data s.offset dti = .tooShort →
      ProfileStop data s ⟨some (-1),
        s.parser.setError driverErrInvalid "DTI extends past end of data buffer",
        s.trace ++ [.lookup (identify s.parser.dev.model (data.drop s.offset))]⟩

/-- The ways to stop. -/
theorem profileStep_stop {r : ProfileResult} (h : profileStep data s = .stop r) :
    ProfileStop data s r := by
  rw [profileStep, profileStepOn] at h
  split at h
  case isFalse hoff =>
    cases h
    exact .atEnd (Nat.le_of_not_lt hoff)
  case isTrue hoff =>
    dsimp only at h
    split at h
    case isTrue hid =>
      cases h
      exact .invalid hoff hid
    case isFalse hid =>
      have hle := Nat.le_of_not_lt hid
      split at h
      case h_1 hnone =>
        cases h
        exact .noEntry hoff hle hnone
      case h_2 dti hdti =>
        split at h
        case h_1 hundef =>
          cases h
          exact .undef hoff hle hdti hundef
        case h_2 hshort =>
          cases h
          exact .tooShort hoff hle hdti hshort
        case h_3 => cases h

/-- Behind a prefix of the type bits there is room for the type bits. -/
theorem ntb_le_of_prefix {i : Nat} {e : DtiEntry} (he : m.dtiTable[i]? = some e)
    {bs : List UInt8} (h : typeBits m i <+: bitStream bs) : (e.ntb + 7) / 8 ≤ bs.length := by
  have := h.length_le
  rw [length_typeBits he, length_bitStream] at this
  omega

/-- **Every iteration that goes on takes in a record.** -/
theorem profileStep_next (hdata : data.length < 2 ^ 32) (hm : s.parser.model = m)
    {s' : ProfileState} (h : profileStep data s = .next s') :
    ∃ r : Record m, data.drop s.offset = r.encode ++ data.drop s'.offset ∧
      s' = takeRecord s r := by
  have hnext := h
  rw [profileStep, profileStepOn] at h
  split at h
  case isFalse => cases h
  case isTrue hoff =>
    rw [s.parser.dev_model, hm] at h
    dsimp only at h
    split at h
    case isTrue => cases h
    case isFalse hid =>
      split at h
      case h_1 => cases h
      case h_2 e he =>
        -- a code of the table whose record is cut out: that record is what stands there
        have hne : data.drop s.offset ≠ [] := by
          rw [← List.length_pos_iff, List.length_drop]
          omega
        have hbits := (identify_eq_iff m hne (Nat.le_of_not_lt hid)).mp rfl
        have hntb := ntb_le_of_prefix he hbits
        rw [List.length_drop] at hntb
        split at h
        case h_1 => cases h
        case h_2 => cases h
        case h_3 off v sv hdone =>
          obtain ⟨hend, hle⟩ := smartProcessDti_done (by omega) hdone
          obtain ⟨r, rfl, -, henc⟩ := exists_record_prefix he hbits (by
            rw [List.length_drop]
            omega)
          have hoffs : s'.offset = s.offset + ((r.dti.ntb + 7) / 8 + r.dti.extra) := by
            cases h
            show off = _
            omega
          have hdrop : data.drop s.offset = r.encode ++ data.drop s'.offset := by
            rw [henc, hoffs, ← List.drop_drop, List.take_append_drop]
          refine ⟨r, hdrop, ?_⟩
          rw [profileStep_record hdata hm r hdrop] at hnext
          cases hnext
          rfl

/-- The loop advances in every iteration. -/
theorem profileStep_advance (hdata : data.length < 2 ^ 32) {s' : ProfileState}
    (h : profileStep data s = .next s') : data.length - s'.offset < data.length - s.offset := by
  obtain ⟨r, hdrop, -⟩ := profileStep_next hdata rfl h
  have hlen := congrArg List.length hdrop
  have hpos := r.length_encode_pos
  rw [List.length_append, List.length_drop, List.length_drop] at hlen
  omega

/-- At the end of the data the code is 0. -/
theorem profileStep_end (h : data.length ≤ s.offset) :
    profileStep data s = .stop ⟨some 0, s.parser, s.trace⟩ := by
  rw [profileStep, profileStepOn, if_neg (by omega)]

/-- The loop stops with an error where the stream ends inside a record. -/
theorem profileStep_cut (hdata : data.length ≤ 2 ^ 32 - 3) (hm : s.parser.model = m)
    (r : Record m) (hne : data.drop s.offset ≠ []) (hcut : data.drop s.offset <+: r.encode)
    (hshort : data.drop s.offset ≠ r.encode) :
    ∃ p trace, profileStep data s = .stop ⟨some (-1), p, trace⟩ ∧
      dtiCalls trace = dtiCalls s.trace := by
  have hoff : s.offset < data.length := by
    rw [← List.length_pos_iff, List.length_drop] at hne
    omega
  rw [profileStep, profileStepOn, if_pos hoff, s.parser.dev_model, hm]
  by_cases hid : identify m.number (data.drop s.offset) > m.dtiSize
  · exact ⟨_, _, if_pos hid, rfl⟩
  · have hbits := (identify_eq_iff m hne (Nat.le_of_not_lt hid)).mp rfl
    -- two type codes at the head of one record are the same
    have hsame : identify m.number (data.drop s.offset) = r.id := by
      have henc : r.encode ≠ [] := by
        rw [← List.length_pos_iff]
        exact r.length_encode_pos
      obtain ⟨tail, htail⟩ := hcut
      have h₁ : identify m.number r.encode = identify m.number (data.drop s.offset) := by
        refine (identify_eq_iff m henc (Nat.le_of_not_lt hid)).mpr (hbits.trans ?_)
        rw [← htail, bitStream_append]
        exact List.prefix_append _ _
      have h₂ : identify m.number r.encode = r.id := by
        apply (identify_eq_iff m henc r.id.isLt.le).mpr
        simpa using r.typeBits_prefix []
      exact h₁.symm.trans h₂
    rw [hsame] at hbits
    have hntb := ntb_le_of_prefix r.getElem?_id hbits
    have hlt : (data.drop s.offset).length < r.encode.length :=
      lt_of_le_of_ne hcut.length_le fun h => hshort (hcut.eq_of_length h)
    have hlen := r.length_encode
    rw [List.length_drop] at hntb hlt
    have htoo : smartProcessDti data s.offset r.dti = .tooShort :=
      smartProcessDti_tooShort (extra_le r.dti_mem) hdata (by omega) (by omega)
    refine ⟨s.parser.setError driverErrInvalid "DTI extends past end of data buffer",
      s.trace ++ [.lookup r.id], ?_, ?_⟩
    · simp only [hsame, r.getElem?_id, htoo]
      rw [if_neg (by have := r.id.isLt; omega)]
    · simp [dtiCalls]

end Step

end BenthosDc

/-
BenthosDc/Base64Text.lean

Which texts are base64 (`base64.c`).

`Base64Text` is the grammar of the format: groups of four characters of the
alphabet, the last of which may end in `=` or `==` when the bits it leaves out
are zero.  Its texts are the encoded ones (`base64Text_iff`), so decoding a text
and encoding the result gives the text back just when it is one of them
(`base64Decode_canonical_iff`): `base64_decode` itself looks at the length only.

Encoding is injective, and its texts are counted off in groups of four; so the grammar needs no
more than the alphabet and the zero bits of the last group.  A text outside of it that is
decoded nevertheless is encoded to another text, which is where the decoder shows that it does
not check its input.
-/
import Mathlib.Algebra.Order.Floor.Div
import Mathlib.GroupTheory.GroupAction.Ring
import BenthosDc.Base64

namespace BenthosDc

open CString

/-- The base64 texts. -/
inductive Base64Text : Text → Prop
  | nil : Base64Text []
  | two {a b : Char} : a ∈ encodingTable → b ∈ encodingTable →
      encodingTable.idxOf b % 16 = 0 → Base64Text [a, b, '=', '=']
  | three {a b c : Char} : a ∈ encodingTable → b ∈ encodingTable → c ∈ encodingTable →
      encodingTable.idxOf c % 4 = 0 → Base64Text [a, b, c, '=']
  | four {a b c d : Char} {text : Text} : a ∈ encodingTable → b ∈ encodingTable →
      c ∈ encodingTable → d ∈ encodingTable → Base64Text text →
      Base64Text (a :: b :: c :: d :: text)

/-! ### The alphabet -/

/-- No character stands in the table twice. -/
theorem idxOf_encodingTable : ∀ i : Fin 64,
    encodingTable.idxOf (encodingTable.getD i.val 'A') = i.val := by
  decide +kernel

/-- The alphabet: letters, digits, `+` and `/`. -/
theorem isAlphanum_of_mem_encodingTable {c : Char} (h : c ∈ encodingTable) :
    c.isAlphanum ∨ c = '+' ∨ c = '/' := by
  have hall : encodingTable.all (fun c => c.isAlphanum ∨ c = '+' ∨ c = '/') = true := by decide
  simpa using List.all_eq_true.mp hall c h

/-- The place of a character in the table is its sextet. -/
theorem idxOf_encodeSextet (triple n : Nat) :
    encodingTable.idxOf (encodeSextet triple n) = (triple >>> n) % 64 :=
  idxOf_encodingTable ⟨(triple >>> n) % 64, Nat.mod_lt _ (by decide)⟩

/-- There are 64 places. -/
theorem idxOf_lt {c : Char} (h : c ∈ encodingTable) : encodingTable.idxOf c < 64 :=
  List.idxOf_lt_length_of_mem h

/-- A character of the alphabet stands for its place there. -/
theorem encodeSextet_idxOf {c : Char} (h : c ∈ encodingTable) {triple n : Nat}
    (ht : (triple >>> n) % 64 = encodingTable.idxOf c) : encodeSextet triple n = c := by
  rw [encodeSextet, ht, List.getD_eq_getElem?_getD, List.getElem?_idxOf h]
  rfl

/-! ### An encoded text is base64 -/

/-- What is encoded is base64. -/
theorem base64Text_padTriples (data : List UInt8) : Base64Text (padTriples data) := by
  induction data using padTriples.induct with
  | case1 a b c data ih =>
    exact .four (encodeSextet_mem _ _) (encodeSextet_mem _ _) (encodeSextet_mem _ _)
      (encodeSextet_mem _ _) ih
  | case2 a b =>
    -- the third character has four bits of `b` and two of the byte that is missing
    refine .three (encodeSextet_mem _ _) (encodeSextet_mem _ _) (encodeSextet_mem _ _) ?_
    rw [idxOf_encodeSextet]
    simp only [Nat.shiftLeft_eq, Nat.shiftRight_eq_div_pow, UInt8.toNat_zero]
    omega
  | case3 a =>
    refine .two (encodeSextet_mem _ _) (encodeSextet_mem _ _) ?_
    rw [idxOf_encodeSextet]
    simp only [Nat.shiftLeft_eq, Nat.shiftRight_eq_div_pow, UInt8.toNat_zero]
    omega
  | case4 => exact .nil

/-! ### A base64 text is an encoded one -/

/-- Every 24-bit value is three bytes. -/
theorem exists_bytes {t : Nat} (h : t < 2 ^ 24) :
    ∃ a b c : UInt8, a.toNat <<< 16 + b.toNat <<< 8 + c.toNat = t ∧
      a.toNat = t / 65536 ∧ b.toNat = t / 256 % 256 ∧ c.toNat = t % 256 := by
  have hbyte : ∀ {n : Nat}, n < 256 → (UInt8.ofNat n).toNat = n := by
    intro n hn
    rw [UInt8.toNat_ofNat', Nat.mod_eq_of_lt hn]
  have ha := @hbyte (t / 65536) (by omega)
  have hb := @hbyte (t / 256 % 256) (by omega)
  have hc := @hbyte (t % 256) (by omega)
  refine ⟨UInt8.ofNat (t / 65536), UInt8.ofNat (t / 256 % 256), UInt8.ofNat (t % 256), ?_,
    ha, hb, hc⟩
  rw [ha, hb, hc]
  simp only [Nat.shiftLeft_eq]
  omega

/-- Four characters of the alphabet are the encoding of three bytes. -/
theorem exists_encodeTriple {a b c d : Char} (ha : a ∈ encodingTable) (hb : b ∈ encodingTable)
    (hc : c ∈ encodingTable) (hd : d ∈ encodingTable) :
    ∃ x y z : UInt8, encodeTriple x y z = [a, b, c, d] ∧
      y.toNat = encodingTable.idxOf b % 16 * 16 + encodingTable.idxOf c / 4 ∧
      z.toNat = encodingTable.idxOf c % 4 * 64 + encodingTable.idxOf d := by
  have hi := idxOf_lt ha
  have hj := idxOf_lt hb
  have hk := idxOf_lt hc
  have hl := idxOf_lt hd
  obtain ⟨x, y, z, ht, -, hy, hz⟩ := @exists_bytes (encodingTable.idxOf a * 262144 +
    encodingTable.idxOf b * 4096 + encodingTable.idxOf c * 64 + encodingTable.idxOf d) (by omega)
  refine ⟨x, y, z, ?_, by omega, by omega⟩
  rw [encodeTriple]
  simp only [ht, List.cons.injEq, and_true]
  refine ⟨encodeSextet_idxOf ha ?_, encodeSextet_idxOf hb ?_, encodeSextet_idxOf hc ?_,
    encodeSextet_idxOf hd ?_⟩
  all_goals
    simp only [Nat.shiftRight_eq_div_pow]
    omega

/-- Base64 is what is encoded. -/
theorem Base64Text.exists_padTriples {text : Text} (h : Base64Text text) :
    ∃ data, padTriples data = text := by
  have hzero : encodingTable.idxOf 'A' = 0 := by decide
  have hmem : 'A' ∈ encodingTable := by decide
  induction h with
  | nil => exact ⟨[], rfl⟩
  | two ha hb hpad =>
    -- the two characters that `==` stands for would be `AA`
    obtain ⟨x, y, z, htriple, hy, hz⟩ := exists_encodeTriple ha hb hmem hmem
    have hy0 : y = 0 := UInt8.toNat_inj.mp (by rw [hy, hpad, hzero]; rfl)
    have hz0 : z = 0 := UInt8.toNat_inj.mp (by rw [hz, hzero]; rfl)
    subst hy0 hz0
    exact ⟨[x], by rw [padTriples, htriple]; rfl⟩
  | three ha hb hc hpad =>
    obtain ⟨x, y, z, htriple, -, hz⟩ := exists_encodeTriple ha hb hc hmem
    have hz0 : z = 0 := UInt8.toNat_inj.mp (by rw [hz, hpad, hzero]; rfl)
    subst hz0
    exact ⟨[x, y], by rw [padTriples, htriple]; rfl⟩
  | four ha hb hc hd _ ih =>
    obtain ⟨x, y, z, htriple, -, -⟩ := exists_encodeTriple ha hb hc hd
    obtain ⟨data, hdata⟩ := ih
    exact ⟨x :: y :: z :: data, by rw [padTriples, htriple, hdata]; rfl⟩

/-- **The base64 texts are the encoded ones.** -/
theorem base64Text_iff {text : Text} : Base64Text text ↔ ∃ data, padTriples data = text := by
  constructor
  · exact Base64Text.exists_padTriples
  · rintro ⟨data, rfl⟩
    exact base64Text_padTriples data

/-! ### Encoding, then decoding -/

/-- Where the padding of an encoded text stands. -/
theorem getElem?_padTriples {data : List UInt8} {i : Nat} {c : Char}
    (h : (padTriples data)[i]? = some c) :
    (i < (padTriples data).length - modTable (data.length % 3) ∧ c ∈ encodingTable) ∨
      ((padTriples data).length - modTable (data.length % 3) ≤ i ∧ c = '=') := by
  have hle := modTable_le data
  rw [length_encodeTriples, ← length_padTriples] at hle
  have hbody : ((encodeTriples data).take
      ((encodeTriples data).length - modTable (data.length % 3))).length =
        (padTriples data).length - modTable (data.length % 3) := by
    rw [List.length_take, length_encodeTriples, length_padTriples]
    omega
  rw [← take_encodeTriples] at h
  rcases Nat.lt_or_ge i ((padTriples data).length - modTable (data.length % 3)) with hi | hi
  · left
    rw [List.getElem?_append_left (by rw [hbody]; exact hi)] at h
    exact ⟨hi, mem_encodeTriples (List.mem_of_mem_take (List.mem_of_getElem? h))⟩
  · right
    rw [List.getElem?_append_right (by rw [hbody]; exact hi)] at h
    exact ⟨hi, List.eq_of_mem_replicate (List.mem_of_getElem? h)⟩

/-- **Encoding, then decoding.**  The text has four characters for each group of
three bytes, of the alphabet but for the padding, and decodes to the data. -/
theorem base64Encode_decodes {data : List UInt8} (hne : data ≠ []) (h : data.length < 2 ^ 30) :
    ∃ text, base64Encode data = some text ∧
      text.length = 4 * (data.length ⌈/⌉ 3) ∧
      (∀ i c, text[i]? = some c →
        (i < text.length - (3 - data.length % 3) % 3 ∧ (c.isAlphanum ∨ c = '+' ∨ c = '/')) ∨
          (text.length - (3 - data.length % 3) % 3 ≤ i ∧ c = '=')) ∧
      base64Decode text = some data := by
  have hmax : data.length ≤ maxEncodable := by
    rw [maxEncodable]
    omega
  have hmod : (3 - data.length % 3) % 3 = modTable (data.length % 3) := by
    have hlt := Nat.mod_lt data.length (show 0 < 3 by decide)
    rw [modTable]
    split
    · omega
    · split <;> omega
  refine ⟨padTriples data, base64Encode_eq hne hmax, ?_, ?_, base64Decode_padTriples hne hmax⟩
  · rw [length_padTriples, Nat.ceilDiv_eq_add_pred_div]
    omega
  · intro i c hc
    rw [hmod]
    rcases getElem?_padTriples hc with ⟨hi, hmem⟩ | hpad
    · exact .inl ⟨hi, isAlphanum_of_mem_encodingTable hmem⟩
    · exact .inr hpad

theorem base64Encode_decodes_one : ∃ text, base64Encode [0xff] = some text ∧
    text.length = 4 * ([0xff].length ⌈/⌉ 3) ∧
    (∀ i c, text[i]? = some c →
      (i < text.length - (3 - [0xff].length % 3) % 3 ∧ (c.isAlphanum ∨ c = '+' ∨ c = '/')) ∨
        (text.length - (3 - [0xff].length % 3) % 3 ≤ i ∧ c = '=')) ∧
    base64Decode text = some [0xff] :=
  base64Encode_decodes (List.cons_ne_nil _ _) (by decide)

/-! ### Decoding, then encoding -/

/-- A length that is no multiple of four is refused. -/
theorem base64Decode_eq_none {text : Text} (h : text.length % 4 ≠ 0) :
    base64Decode text = none := by
  rw [base64Decode, if_pos h]

/-- A text whose length is a multiple of four is decoded, whatever it holds. -/
theorem base64Decode_isSome {text : Text} (hne : text ≠ []) (hlt : text.length < 2 ^ 31)
    (h : text.length % 4 = 0) : ∃ data, base64Decode text = some data := by
  rw [base64Decode, if_neg (by omega), if_neg]
  · exact ⟨_, rfl⟩
  · rintro (hnil | hlong)
    · exact hne hnil
    · omega

/-- **Decoding, then encoding.**  The text comes back just when it was base64 or
its length was refused. -/
theorem base64Decode_canonical_iff {text : Text} (hne : text ≠ []) (hlt : text.length < 2 ^ 31) :
    (∀ data, base64Decode text = some data → base64Encode data = some text) ↔
      text.length % 4 ≠ 0 ∨ Base64Text text := by
  constructor
  · intro h
    by_cases hlen : text.length % 4 = 0
    · right
      obtain ⟨data, hdata⟩ := base64Decode_isSome hne hlt hlen
      have henc := h data hdata
      by_cases hbad : data = [] ∨ maxEncodable < data.length
      · rw [base64Encode_eq_none hbad] at henc
        cases henc
      · rw [not_or, Nat.not_lt] at hbad
        rw [base64Encode_eq hbad.1 hbad.2] at henc
        exact base64Text_iff.mpr ⟨data, Option.some.inj henc⟩
    · exact .inl hlen
  · rintro (hlen | htext) data hdata
    · rw [base64Decode_eq_none hlen] at hdata
      cases hdata
    · obtain ⟨data', rfl⟩ := base64Text_iff.mp htext
      have hne' : data' ≠ [] := by
        rintro rfl
        exact hne rfl
      have hmax : data'.length ≤ maxEncodable := by
        rw [length_padTriples] at hlt
        rw [maxEncodable]
        omega
      rw [base64Decode_padTriples hne' hmax] at hdata
      cases hdata
      exact base64Encode_eq hne' hmax

/-- Two characters and their padding. -/
theorem base64Decode_canonical_iff_two :
    (∀ data, base64Decode "/w==".toList = some data → base64Encode data = some "/w==".toList) ↔
      "/w==".toList.length % 4 ≠ 0 ∨ Base64Text "/w==".toList :=
  base64Decode_canonical_iff (by decide) (by decide)

/-- Characters outside the alphabet are decoded. -/
theorem base64Decode_not_canonical :
    ¬∀ text : Text, text ≠ [] → text.length < 2 ^ 31 →
      ∀ data, base64Decode text = some data → base64Encode data = some text := by
  intro h
  have hdec : base64Decode "!!!!".toList = some [0xfb, 0xef, 0xbf] := by decide +kernel
  exact absurd (h "!!!!".toList (by decide) (by decide) _ hdec) (by decide +kernel)

end BenthosDc

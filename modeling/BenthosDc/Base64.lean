/-
BenthosDc/Base64.lean

Base64 encoding and decoding (`base64.c`).

Both functions index their buffers with an `int`, so a result longer than
`2 ^ 31 - 1` characters is undefined; so is looking at the last characters of an
empty text.  `base64EncodeRun` tells an undefined result from a null pointer
(`EncodeFailure`); for those who only ask whether there is a text, and for the decoder,
both are `none`.

The encoder is told byte triple by byte triple, as the loop of the source runs: it packs three
bytes into a number and cuts it into four sextets, and overwrites the last characters by `=`
when the loop is over.  What is written for the bytes behind the end of the data is overwritten
so.
-/
import BenthosDc.Lib.CString
import BenthosDc.Unpack

namespace BenthosDc

open CString

/-- `encoding_table` -/
def encodingTable : List Char :=
  "ABCDEFGHIJKLMNOPQRSTUVWXYZabcdefghijklmnopqrstuvwxyz0123456789+/".toList

/-- `decoding_table`, by the code of a character; −1 for those that are not in the alphabet. -/
def decodingTable : List Int :=
  List.replicate 43 (-1) ++ [62] ++ List.replicate 3 (-1) ++ [63] ++
    [52, 53, 54, 55, 56, 57, 58, 59, 60, 61] ++ List.replicate 7 (-1) ++
    [0, 1, 2, 3, 4, 5, 6, 7, 8, 9, 10, 11, 12, 13, 14, 15, 16, 17, 18, 19, 20, 21, 22, 23, 24,
      25] ++
    List.replicate 6 (-1) ++
    [26, 27, 28, 29, 30, 31, 32, 33, 34, 35, 36, 37, 38, 39, 40, 41, 42, 43, 44, 45, 46, 47, 48,
      49, 50, 51] ++
    List.replicate 133 (-1)

/-! ### Encoding -/

/-- `encoding_table[(triple >> n) & 0x3F]` -/
def encodeSextet (triple n : Nat) : Char := encodingTable.getD ((triple >>> n) % 64) 'A'

/-- The four characters for three bytes. -/
def encodeTriple (a b c : UInt8) : Text :=
  let triple := a.toNat <<< 16 + b.toNat <<< 8 + c.toNat
  [encodeSextet triple 18, encodeSextet triple 12, encodeSextet triple 6, encodeSextet triple 0]

/-- The loop over the data: a missing byte counts as zero. -/
def encodeTriples : List UInt8 → Text
  | a :: b :: c :: data => encodeTriple a b c ++ encodeTriples data
  | [a, b] => encodeTriple a b 0
  | [a] => encodeTriple a 0 0
  | [] => []

/-- `mod_table` -/
def modTable (n : Nat) : Nat := if n = 1 then 2 else if n = 2 then 1 else 0

/-- `* output_length`, a `size_t`. -/
def encodedLength (n : Nat) : Nat := ((n + (2 ^ 64 - 1)) % 2 ^ 64 / 3 * 4 + 4) % 2 ^ 64

/-- How `base64_encode` ends without a text. -/
inductive EncodeFailure
  /-- The length of the text has wrapped around, and `malloc` returns a null pointer. -/
  | null
  /-- The counters of the loop, which are of type `int`, overflow. -/
  | overflow
  deriving DecidableEq

/-- `base64_encode`, with the reason why there is no text. -/
def base64EncodeRun (data : List UInt8) : Except EncodeFailure Text :=
  if data = [] then .error .null
  -- `i` counts the bytes, `j` the characters
  else if data.length < 2 ^ 31 ∧ encodedLength data.length < 2 ^ 31 then
    let pad := modTable (data.length % 3)
    let encoded := encodeTriples data
    .ok (encoded.take (encodedLength data.length - pad) ++ List.replicate pad '=')
  else .error .overflow

/-- `base64_encode`, for a caller that does not ask why there is no text. -/
def base64Encode (data : List UInt8) : Option Text := (base64EncodeRun data).toOption

/-! ### Decoding -/

/-- One character of the text as a `uint32_t`. -/
def decodeSextet (c : Char) : Nat :=
  if c = '=' then 0 else (decodingTable.getD c.toNat (-1) % 2 ^ 32).toNat

/-- The three bytes for four characters. -/
def decodeQuad (a b c d : Char) : List UInt8 :=
  let triple := u32 (u32 (decodeSextet a <<< 18) + u32 (decodeSextet b <<< 12) +
    u32 (decodeSextet c <<< 6) + decodeSextet d)
  [UInt8.ofNat (triple >>> 16), UInt8.ofNat (triple >>> 8), UInt8.ofNat triple]

/-- The loop of the decoder; it takes four characters at a time. -/
def decodeQuads : Text → List UInt8
  | a :: b :: c :: d :: text => decodeQuad a b c d ++ decodeQuads text
  | _ => []

/-- `base64_decode`.  The last two characters are looked at on their own, for `=`. -/
def base64Decode (text : Text) : Option (List UInt8) :=
  if text.length % 4 ≠ 0 then none
  else if text = [] ∨ 2 ^ 31 ≤ text.length then none
  else
    let n := text.length / 4 * 3
    let n := if text.getD (text.length - 1) 'A' = '=' then n - 1 else n
    let n := if text.getD (text.length - 2) 'A' = '=' then n - 1 else n
    some ((decodeQuads text).take n)

/-! ### Decoding undoes encoding -/

/-- The base64 characters without the padding. -/
theorem encodingTable_spec : ∀ i : Fin 64,
    decodeSextet (encodingTable.getD i.val 'A') = i.val ∧
      encodingTable.getD i.val 'A' ≠ '=' := by
  decide +kernel

/-- A character of the alphabet is decoded to its six bits. -/
theorem decodeSextet_encodeSextet (triple n : Nat) :
    decodeSextet (encodeSextet triple n) = (triple >>> n) % 64 :=
  (encodingTable_spec ⟨(triple >>> n) % 64, Nat.mod_lt _ (by decide)⟩).1

/-- The sign for padding is not in the alphabet. -/
theorem encodeSextet_ne_pad (triple n : Nat) : encodeSextet triple n ≠ '=' :=
  (encodingTable_spec ⟨(triple >>> n) % 64, Nat.mod_lt _ (by decide)⟩).2

/-- **Four characters are decoded to the three bytes** that they have been made of. -/
theorem decodeQuad_encodeTriple (a b c : UInt8) :
    decodeQuad (encodeSextet (a.toNat <<< 16 + b.toNat <<< 8 + c.toNat) 18)
      (encodeSextet (a.toNat <<< 16 + b.toNat <<< 8 + c.toNat) 12)
      (encodeSextet (a.toNat <<< 16 + b.toNat <<< 8 + c.toNat) 6)
      (encodeSextet (a.toNat <<< 16 + b.toNat <<< 8 + c.toNat) 0) = [a, b, c] := by
  have ha := UInt8.toNat_lt a
  have hb := UInt8.toNat_lt b
  have hc := UInt8.toNat_lt c
  have hbyte : ∀ (n : Nat) (x : UInt8), n % 256 = x.toNat → UInt8.ofNat n = x := by
    intro n x h
    apply UInt8.toNat_inj.mp
    rw [UInt8.toNat_ofNat', h]
  simp only [decodeQuad, decodeSextet_encodeSextet, u32, Nat.shiftLeft_eq,
    Nat.shiftRight_eq_div_pow]
  refine congrArg₂ _ (hbyte _ a ?_) (congrArg₂ _ (hbyte _ b ?_) (congrArg₂ _ (hbyte _ c ?_) rfl))
  · omega
  · omega
  · omega

/-- The encoded text with its padding, group by group. -/
def padTriples : List UInt8 → Text
  | a :: b :: c :: data => encodeTriple a b c ++ padTriples data
  | [a, b] => (encodeTriple a b 0).take 3 ++ ['=']
  | [a] => (encodeTriple a 0 0).take 2 ++ ['=', '=']
  | [] => []

/-- Four characters for three bytes. -/
@[simp] theorem length_encodeTriple (a b c : UInt8) : (encodeTriple a b c).length = 4 := rfl

/-- Four characters for each triple that has been begun. -/
theorem length_encodeTriples (data : List UInt8) :
    (encodeTriples data).length = (data.length + 2) / 3 * 4 := by
  induction data using encodeTriples.induct with
  | case1 a b c data ih =>
    rw [encodeTriples, List.length_append, ih, length_encodeTriple]
    simp only [List.length_cons]
    omega
  | case2 a b => simp [encodeTriples]
  | case3 a => simp [encodeTriples]
  | case4 => rfl

/-- Padding does not change the length. -/
theorem length_padTriples (data : List UInt8) :
    (padTriples data).length = (data.length + 2) / 3 * 4 := by
  induction data using padTriples.induct with
  | case1 a b c data ih =>
    rw [padTriples, List.length_append, ih, length_encodeTriple]
    simp only [List.length_cons]
    omega
  | case2 a b => simp [padTriples]
  | case3 a => simp [padTriples]
  | case4 => rfl

/-- The length that the source computes, without overflow. -/
theorem encodedLength_eq {n : Nat} (h : 0 < n) (hn : n < 2 ^ 31) :
    encodedLength n = (n + 2) / 3 * 4 := by
  rw [encodedLength]
  omega

/-- There are as many characters as are overwritten. -/
theorem modTable_le (data : List UInt8) :
    modTable (data.length % 3) ≤ (encodeTriples data).length := by
  rw [length_encodeTriples, modTable]
  split
  · omega
  · split
    · omega
    · omega

/-- The padded text is the encoded one with its end overwritten. -/
theorem take_encodeTriples (data : List UInt8) :
    (encodeTriples data).take ((encodeTriples data).length - modTable (data.length % 3)) ++
      List.replicate (modTable (data.length % 3)) '=' = padTriples data := by
  induction data using encodeTriples.induct with
  | case1 a b c data ih =>
    have hle := modTable_le data
    have hmod : (a :: b :: c :: data).length % 3 = data.length % 3 := by
      simp only [List.length_cons]
      omega
    rw [encodeTriples, padTriples, ← ih, hmod, List.length_append, length_encodeTriple,
      ← List.append_assoc, Nat.add_sub_assoc hle, ← length_encodeTriple a b c,
      List.take_length_add_append]
  | case2 a b => rfl
  | case3 a => rfl
  | case4 => rfl

/-- The greatest number of bytes whose encoding has fewer than `2 ^ 31`
characters. -/
def maxEncodable : Nat := 1610612733

/-- Up to `maxEncodable` bytes the index does not overflow. -/
theorem length_padTriples_lt {data : List UInt8} (h : data.length ≤ maxEncodable) :
    (padTriples data).length < 2 ^ 31 := by
  rw [length_padTriples]
  rw [maxEncodable] at h
  omega

/-- There is a text for every data that is not empty. -/
theorem length_padTriples_pos {data : List UInt8} (hne : data ≠ []) :
    0 < (padTriples data).length := by
  have hpos := List.length_pos_iff.mpr hne
  rw [length_padTriples]
  omega

/-- **What is encoded** is the padded text. -/
theorem base64EncodeRun_eq {data : List UInt8} (hne : data ≠ []) (h : data.length ≤ maxEncodable) :
    base64EncodeRun data = .ok (padTriples data) := by
  have hpos : 0 < data.length := List.length_pos_iff.mpr hne
  rw [maxEncodable] at h
  have hlen := encodedLength_eq hpos (by omega)
  rw [base64EncodeRun, if_neg hne, if_pos ⟨by omega, by omega⟩, hlen, ← length_encodeTriples]
  exact congrArg Except.ok (take_encodeTriples data)

/-- What is too long makes the counters overflow. -/
theorem base64EncodeRun_overflow {data : List UInt8} (h : maxEncodable < data.length) :
    base64EncodeRun data = .error .overflow := by
  rw [maxEncodable] at h
  have hne : data ≠ [] := List.ne_nil_of_length_pos (by omega)
  rw [base64EncodeRun, if_neg hne, if_neg]
  rintro ⟨hlt, henc⟩
  rw [encodedLength_eq (by omega) hlt] at henc
  omega

/-- The same as the callers see it. -/
theorem base64Encode_eq {data : List UInt8} (hne : data ≠ []) (h : data.length ≤ maxEncodable) :
    base64Encode data = some (padTriples data) := by
  rw [base64Encode, base64EncodeRun_eq hne h]
  rfl

/-- When the callers see no text. -/
theorem base64Encode_eq_none {data : List UInt8} (h : data = [] ∨ maxEncodable < data.length) :
    base64Encode data = none := by
  rcases h with rfl | h
  · rfl
  · rw [base64Encode, base64EncodeRun_overflow h]
    rfl

/-- Padded characters are decoded to zeros behind the data. -/
theorem decodeQuads_padTriples (data : List UInt8) :
    decodeQuads (padTriples data) =
      data ++ List.replicate (modTable (data.length % 3)) 0 := by
  have hpad : decodeSextet '=' = decodeSextet (encodeSextet 0 0) := by decide +kernel
  induction data using padTriples.induct with
  | case1 a b c data ih =>
    have hmod : (a :: b :: c :: data).length % 3 = data.length % 3 := by
      simp only [List.length_cons]
      omega
    rw [hmod]
    show decodeQuad _ _ _ _ ++ decodeQuads (padTriples data) = _
    rw [ih, decodeQuad_encodeTriple]
    rfl
  | case2 a b =>
    -- a pad stands where the sextet of the missing byte would be 0
    have h := decodeQuad_encodeTriple a b 0
    have hlast : decodeSextet (encodeSextet (a.toNat <<< 16 + b.toNat <<< 8 + (0 : UInt8).toNat) 0)
        = decodeSextet '=' := by
      rw [decodeSextet_encodeSextet]
      show _ = 0
      simp only [Nat.shiftLeft_eq, Nat.shiftRight_eq_div_pow, UInt8.toNat_zero]
      omega
    show decodeQuad _ _ _ _ ++ decodeQuads [] = _
    rw [decodeQuad, hlast] at h
    exact congrArg (· ++ []) h
  | case3 a =>
    have h := decodeQuad_encodeTriple a 0 0
    have hthird : decodeSextet
        (encodeSextet (a.toNat <<< 16 + (0 : UInt8).toNat <<< 8 + (0 : UInt8).toNat) 6)
        = decodeSextet '=' := by
      rw [decodeSextet_encodeSextet]
      show _ = 0
      simp only [Nat.shiftLeft_eq, Nat.shiftRight_eq_div_pow, UInt8.toNat_zero]
      omega
    have hlast : decodeSextet
        (encodeSextet (a.toNat <<< 16 + (0 : UInt8).toNat <<< 8 + (0 : UInt8).toNat) 0)
        = decodeSextet '=' := by
      rw [decodeSextet_encodeSextet]
      show _ = 0
      simp only [Nat.shiftLeft_eq, Nat.shiftRight_eq_div_pow, UInt8.toNat_zero]
      omega
    show decodeQuad _ _ _ _ ++ decodeQuads [] = _
    rw [decodeQuad, hthird, hlast] at h
    exact congrArg (· ++ []) h
  | case4 => rfl

/-- There is no padding but at the end. -/
theorem not_mem_encodeTriples (data : List UInt8) : '=' ∉ encodeTriples data := by
  have htriple : ∀ a b c : UInt8, '=' ∉ encodeTriple a b c := by
    intro a b c
    have key := fun n => (encodeSextet_ne_pad (a.toNat <<< 16 + b.toNat <<< 8 + c.toNat) n).symm
    show '=' ∉ [_, _, _, _]
    simp only [List.mem_cons, List.not_mem_nil, or_false, not_or]
    exact ⟨key 18, key 12, key 6, key 0⟩
  induction data using encodeTriples.induct with
  | case1 a b c data ih =>
    rw [encodeTriples, List.mem_append, not_or]
    exact ⟨htriple a b c, ih⟩
  | case2 a b => exact htriple a b 0
  | case3 a => exact htriple a 0 0
  | case4 => exact List.not_mem_nil

/-- Padding shows at the end of a text, and only there. -/
theorem getD_pad_iff {body : Text} (hbody : '=' ∉ body) {pad k : Nat}
    (hk : k = 1 ∨ k = 2) (hlen : k ≤ (body ++ List.replicate pad '=').length) :
    (body ++ List.replicate pad '=').getD ((body ++ List.replicate pad '=').length - k) 'A' = '='
      ↔ k ≤ pad := by
  rw [List.length_append, List.length_replicate] at hlen ⊢
  constructor
  · intro h
    by_contra hlt
    have hin : body.length + pad - k < body.length := by omega
    rw [List.getD_eq_getElem?_getD, List.getElem?_append_left hin, List.getElem?_eq_getElem hin] at h
    exact hbody (h ▸ List.getElem_mem hin)
  · intro h
    have hout : body.length ≤ body.length + pad - k := by omega
    rw [List.getD_eq_getElem?_getD, List.getElem?_append_right hout, List.getElem?_replicate,
      if_pos (by omega)]
    rfl

/-- **Decoding undoes encoding.** -/
theorem base64Decode_padTriples {data : List UInt8} (hne : data ≠ [])
    (h : data.length ≤ maxEncodable) : base64Decode (padTriples data) = some data := by
  have hpos : 0 < data.length := List.length_pos_iff.mpr hne
  rw [maxEncodable] at h
  have hlen := length_padTriples data
  have hend : ∀ k, k = 1 ∨ k = 2 → ((padTriples data).getD ((padTriples data).length - k) 'A' = '='
      ↔ k ≤ modTable (data.length % 3)) := by
    intro k hk
    have hle : k ≤ (padTriples data).length := by omega
    rw [← take_encodeTriples] at hle ⊢
    exact getD_pad_iff (fun hmem => not_mem_encodeTriples data (List.mem_of_mem_take hmem)) hk hle
  have hsize : (padTriples data).length / 4 * 3 = data.length + modTable (data.length % 3) := by
    rw [hlen, modTable]
    split
    · omega
    · split <;> omega
  have hnil : ¬(padTriples data = [] ∨ 2 ^ 31 ≤ (padTriples data).length) := by
    rintro (hnil | hlong)
    · rw [hnil, List.length_nil] at hlen
      omega
    · omega
  rw [base64Decode, if_neg (by omega), if_neg hnil, decodeQuads_padTriples]
  simp only [hend 1 (.inl rfl), hend 2 (.inr rfl), hsize]
  -- each pad at the end takes one byte off
  have htake : (if 2 ≤ modTable (data.length % 3) then
      (if 1 ≤ modTable (data.length % 3) then data.length + modTable (data.length % 3) - 1
        else data.length + modTable (data.length % 3)) - 1
      else if 1 ≤ modTable (data.length % 3) then data.length + modTable (data.length % 3) - 1
        else data.length + modTable (data.length % 3)) = data.length := by
    split
    · rw [if_pos (by omega)]
      omega
    · split <;> omega
  rw [htake, List.take_left]

/-! ### The characters of an encoded text -/

/-- Every sextet has a character of the alphabet. -/
theorem encodeSextet_mem (triple n : Nat) : encodeSextet triple n ∈ encodingTable := by
  have hlt : (triple >>> n) % 64 < encodingTable.length := Nat.mod_lt _ (by decide)
  rw [encodeSextet, List.getD_eq_getElem?_getD, List.getElem?_eq_getElem hlt]
  exact List.getElem_mem hlt

/-- The characters of a triple are those of the alphabet. -/
theorem mem_encodeTriple {a b c : UInt8} {x : Char} (h : x ∈ encodeTriple a b c) :
    x ∈ encodingTable := by
  rw [encodeTriple] at h
  simp only [List.mem_cons, List.not_mem_nil, or_false] at h
  rcases h with rfl | rfl | rfl | rfl <;> exact encodeSextet_mem _ _

/-- So are those of all triples. -/
theorem mem_encodeTriples {data : List UInt8} {x : Char} (h : x ∈ encodeTriples data) :
    x ∈ encodingTable := by
  induction data using encodeTriples.induct with
  | case1 a b c data ih =>
    rw [encodeTriples, List.mem_append] at h
    rcases h with h | h
    · exact mem_encodeTriple h
    · exact ih h
  | case2 a b => exact mem_encodeTriple h
  | case3 a => exact mem_encodeTriple h
  | case4 => cases h

/-- An encoded text consists of base64 characters. -/
theorem mem_padTriples {data : List UInt8} {c : Char} (h : c ∈ padTriples data) :
    c = '=' ∨ c ∈ encodingTable := by
  rw [← take_encodeTriples, List.mem_append] at h
  rcases h with h | h
  · exact .inr (mem_encodeTriples (List.mem_of_mem_take h))
  · exact .inl (List.eq_of_mem_replicate h)

/-- An encoded text is one line. -/
theorem newline_not_mem_padTriples (data : List UInt8) : '\n' ∉ padTriples data := by
  intro hmem
  rcases mem_padTriples hmem with h | h
  · cases h
  · exact absurd h (by decide)

end BenthosDc

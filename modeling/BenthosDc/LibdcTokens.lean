/-
BenthosDc/LibdcTokens.lean

The tokens of the libdc driver as strings.

`libdc_driver_extract` hands out the block that `base64_encode` has written, without a NUL
behind it; the callback, and later the event handler, read it as a string.  The string goes
on with what is behind the block in memory.

* `tokensSurvive_iff`: which tokens come back as they were.

Padding makes the encoding of a token a multiple of four characters long, so that any character
behind it is noticed: with a longer string the decoder gives another token or none.  An empty
token has no block at all.  What is left is that a NUL comes right behind the block by chance
(`TokenLucky`).
-/
import BenthosDc.LibdcDriver

namespace BenthosDc

open CString Loop

variable {mem : Memory} {size : Nat} {s s' : LibdcState} {token : List UInt8} {t text : Text}
  {behind : Nat → Char}

/-! ### Decoding -/

/-- Three bytes for four characters. -/
theorem length_decodeQuads (t : Text) : (decodeQuads t).length = t.length / 4 * 3 := by
  induction t using decodeQuads.induct with
  | case1 a b c d t ih =>
    have hquad : (decodeQuad a b c d).length = 3 := rfl
    rw [decodeQuads, List.length_append, hquad, ih]
    simp only [List.length_cons]
    omega
  | case2 t ht =>
    have hlt : t.length < 4 := by
      by_contra hge
      match t, ht, hge with
      | a :: b :: c :: d :: t, ht, _ => exact ht a b c d t rfl
      | [], _, hge => exact hge (by decide)
      | [_], _, hge => exact hge (by simp)
      | [_, _], _, hge => exact hge (by simp)
      | [_, _, _], _, hge => exact hge (by simp)
    rw [decodeQuads, Nat.div_eq_of_lt hlt]
    · rfl
    · exact ht

/-- Every four characters make three bytes, but for the two that padding takes away. -/
theorem base64Decode_length (h : base64Decode t = some token) :
    t.length % 4 = 0 ∧ t.length / 4 * 3 ≤ token.length + 2 := by
  unfold base64Decode at h
  split at h
  case isTrue => cases h
  case isFalse hmod =>
    split at h
    case isTrue => cases h
    case isFalse =>
      refine ⟨not_not.mp hmod, ?_⟩
      obtain rfl := Option.some.inj h
      rw [List.length_take, length_decodeQuads]
      split <;> split <;> omega

/-- The text that has been encoded has no NUL. -/
theorem nul_not_mem_padTriples (token : List UInt8) : '\x00' ∉ padTriples token := by
  intro hmem
  rcases mem_padTriples hmem with h | h
  · exact absurd h (by decide)
  · exact absurd h (by decide)

/-- **Only the encoded text itself decodes to the token**, and nothing longer. -/
theorem base64Decode_append_iff {rest : Text} (hne : token ≠ [])
    (hlen : token.length ≤ maxEncodable) :
    base64Decode (padTriples token ++ rest) = some token ↔ rest = [] := by
  constructor
  · intro h
    by_contra hrest
    obtain ⟨hmod, hle⟩ := base64Decode_length h
    have hpos : 0 < rest.length := List.length_pos_iff.mpr hrest
    rw [List.length_append, length_padTriples] at hmod hle
    omega
  · rintro rfl
    rw [List.append_nil]
    exact base64Decode_padTriples hne hlen

/-! ### One token -/

/-- The argument of the callback is a string that decodes to the token, and so does the event
handler when it is given the string. -/
def TokenSurvives (arg : Option Text) (behind : Nat → Char) (token : List UInt8) : Prop :=
  ∃ text t, arg = some text ∧ StringAt (inMemory text behind) t ∧
    base64Decode t = some token ∧ tokenData (some t) = some token

/-- The token is not empty, it can be encoded, and there happens to be a NUL behind the
block. -/
structure TokenLucky (behind : Nat → Char) (token : List UInt8) : Prop where
  ne : token ≠ []
  encodable : token.length ≤ maxEncodable
  nul : behind 0 = '\x00'

/-- **A token comes back if and only if** it is lucky. -/
theorem tokenSurvives_iff (behind : Nat → Char) (token : List UInt8) :
    TokenSurvives (base64Encode token) behind token ↔ TokenLucky behind token := by
  constructor
  · rintro ⟨text, t, henc, hstring, hdecode, -⟩
    have hable : token ≠ [] ∧ token.length ≤ maxEncodable := by
      -- the encoder gives nothing for the other tokens
      by_contra hnot
      have hnone : base64Encode token = none := by
        apply base64Encode_eq_none
        by_cases hnil : token = []
        · exact .inl hnil
        · exact .inr (Nat.lt_of_not_le fun hle => hnot ⟨hnil, hle⟩)
      rw [hnone] at henc
      cases henc
    obtain ⟨hne, hlen⟩ := hable
    rw [base64Encode_eq hne hlen] at henc
    obtain rfl := Option.some.inj henc
    -- what is read goes on behind the block, and only an empty rest decodes to the token
    obtain ⟨rest, rfl, hrest⟩ :=
      (stringAt_inMemory_iff (nul_not_mem_padTriples token)).mp hstring
    obtain rfl := (base64Decode_append_iff hne hlen).mp hdecode
    exact ⟨hne, hlen, stringAt_nil_iff.mp hrest⟩
  · rintro ⟨hne, hlen, hnul⟩
    have hdecode := base64Decode_padTriples hne hlen
    refine ⟨padTriples token, padTriples token, base64Encode_eq hne hlen, ?_, hdecode, ?_⟩
    · apply (stringAt_inMemory_iff (nul_not_mem_padTriples token)).mpr
      exact ⟨[], (List.append_nil _).symm, stringAt_nil_iff.mpr hnul⟩
    · show base64Decode (cstr (padTriples token)) = some token
      rw [cstr_eq (nul_not_mem_padTriples token)]
      exact hdecode

/-! ### The tokens of a buffer -/

/-- The token that a pass of the loop cuts out of the buffer. -/
def tokenAt (mem : Memory) (s : LibdcState) : List UInt8 :=
  let pos := u32 (u32 (s.pos + sizeT) + loadLe mem sizeT s.pos)
  copied mem (u32 (pos + sizeT)) (loadLe mem sizeT pos)

/-- A pass that goes on calls the callback once, with the token in base64. -/
theorem libdcExtractStep_call (h : libdcExtractStep mem size s = .next s') :
    ∃ data, s'.calls = s.calls ++ [(data, base64Encode (tokenAt mem s))] := by
  unfold libdcExtractStep at h
  split at h
  case isFalse =>
    split at h <;> cases h
  case isTrue =>
    split at h
    case isTrue => cases h
    case isFalse =>
      dsimp only at h
      split at h
      case isTrue => cases h
      case isFalse =>
        split at h
        case isTrue => cases h
        case isFalse =>
          split at h
          case isTrue => cases h
          case isFalse =>
            -- the one way through the pass that goes on
            rw [← Iter.next.inj h]
            exact ⟨_, rfl⟩

/-- The token of every call that the extraction makes comes back; `behind` is what the memory
holds behind the block of a pass. -/
def TokensSurvive (mem : Memory) (size : Nat) (behind : LibdcState → Nat → Char) : Prop :=
  ∀ s s', Reaches (libdcExtractStep mem size) ⟨0, []⟩ s → libdcExtractStep mem size s = .next s' →
    ∀ data arg, s'.calls = s.calls ++ [(data, arg)] →
      TokenSurvives arg (behind s) (tokenAt mem s)

/-- **The tokens survive if and only if** each of them is lucky: whatever is in the buffer,
the callback gets strings that stand for the tokens exactly when no token is empty or too
long and there is a NUL behind every block by chance. -/
theorem tokensSurvive_iff (mem : Memory) (size : Nat) (behind : LibdcState → Nat → Char) :
    TokensSurvive mem size behind ↔ ∀ s s', Reaches (libdcExtractStep mem size) ⟨0, []⟩ s →
      libdcExtractStep mem size s = .next s' → TokenLucky (behind s) (tokenAt mem s) := by
  constructor
  · intro hall s s' hreaches hstep
    obtain ⟨data, hcall⟩ := libdcExtractStep_call hstep
    exact (tokenSurvives_iff _ _).mp (hall s s' hreaches hstep data _ hcall)
  · intro hall s s' hreaches hstep data arg hcall
    obtain ⟨data', hcall'⟩ := libdcExtractStep_call hstep
    have harg : arg = base64Encode (tokenAt mem s) := by
      rw [hcall'] at hcall
      have hlast := List.append_cancel_left hcall
      cases hlast
      rfl
    rw [harg]
    exact (tokenSurvives_iff _ _).mpr (hall s s' hreaches hstep)

/-- A dive without data and without a token. -/
def blankBuffer : List UInt8 := List.replicate 16 0

/-- **An empty token is handed out as a null pointer**, whatever the memory holds. -/
theorem not_tokensSurvive_blank :
    ¬TokensSurvive (loaded blankBuffer fun _ => 0) 16 fun _ _ => '\x00' := by
  intro hall
  have hstep : libdcExtractStep (loaded blankBuffer fun _ => 0) 16 ⟨0, []⟩ =
      .next ⟨16, [([], none)]⟩ := by rfl
  obtain ⟨text, t, harg, -⟩ :=
    hall ⟨0, []⟩ ⟨16, [([], none)]⟩ Relation.ReflTransGen.refl hstep [] none rfl
  cases harg

end BenthosDc

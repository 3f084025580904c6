/-
BenthosDc/ProfileFormat.lean

The Smart profile as a data format.

The records of a model are a prefix code (`isPrefixCode_encode`), so the bytes
behind the header split into records and a rest in exactly one way.
`smartParserParseProfile_parsedAs` says what `smart_parser_parse_profile` makes
of every buffer with a correct size word: it decodes the records of that
splitting and no others, and its code is decided by the rest.
-/
import BenthosDc.Lib.PrefixCode
import BenthosDc.ProfileBounds
import BenthosDc.Waypoints

namespace BenthosDc

open Bits Loop PrefixCode

/-! ### The records are a prefix code

The type of a record can be told from its first bytes, and the type fixes the length.  No
record is therefore the beginning of another one.
-/

section Code

variable {m : Model}

/-- A record is its type and its free bits. -/
theorem Record.eq_of_parts {r r' : Record m} (hid : r.id = r'.id) (hhead : r.head = r'.head)
    (hbody : r.body = r'.body) : r = r' := by
  cases r
  cases r'
  subst hid hhead hbody
  rfl

/-- The type bits at the head of a stream name the entry. -/
theorem Record.id_of_append {r r' : Record m} {s s' : List UInt8}
    (h : r.encode ++ s = r'.encode ++ s') : r.id = r'.id := by
  have hne : r.encode ++ s ≠ [] := by
    intro hnil
    have hpos := r.length_encode_pos
    rw [(List.append_eq_nil_iff.mp hnil).1] at hpos
    exact absurd hpos (lt_irrefl 0)
  have hid := (identify_eq_iff m hne r.id.isLt.le).mpr (r.typeBits_prefix s)
  have hid' : identify m.number (r.encode ++ s) = r'.id := by
    apply (identify_eq_iff m hne r'.id.isLt.le).mpr
    rw [h]
    exact r'.typeBits_prefix s'
  exact Fin.ext (hid.symm.trans hid')

/-- **The records of a model are a prefix code.** -/
theorem isPrefixCode_encode (m : Model) : IsPrefixCode (Record.encode : Record m → List UInt8) where
  ne_nil r := List.ne_nil_of_length_pos r.length_encode_pos
  head_unique := by
    intro r r' s s' h
    have hid : r.id = r'.id := Record.id_of_append h
    have hdti : r.dti = r'.dti := by simp only [Record.dti, hid]
    -- the entry says how long the type bytes and the extra bytes are
    rw [Record.encode, Record.encode, List.append_assoc, List.append_assoc] at h
    have htype : r.typeBytes.length = r'.typeBytes.length := by
      rw [r.length_typeBytes, r'.length_typeBytes, hdti]
    have hlen : r.body.length = r'.body.length := by
      rw [r.length_body, r'.length_body, hdti]
    obtain ⟨hbytes, htail⟩ := List.append_inj h htype
    obtain ⟨hbody, -⟩ := List.append_inj htail hlen
    -- the bits of the type bytes behind the type are the head
    have hbits : typeBits m r.id ++ r.head = typeBits m r'.id ++ r'.head := by
      rw [← r.bitStream_typeBytes, ← r'.bitStream_typeBytes, hbytes]
    rw [hid] at hbits
    exact Record.eq_of_parts hid (List.append_cancel_left hbits) hbody

end Code

/-! ### What the parser makes of a splitting

A buffer is read as records and a rest in which no record starts.  The records decide the calls
and the waypoints, the rest decides the code.
-/

/-- The waypoints that the parser `p` reports for the records `rs`. -/
def reportsOf {m : Model} (p : SmartParser) : List (Record m) → List (List Waypoint)
  | [] => []
  | r :: rs => (processCall p r.call).2 ++ reportsOf (processCall p r.call).1 rs

/-- The waypoints of a list of records. -/
theorem waypoints_foldl_takeRecord {m : Model} (rs : List (Record m)) (s : ProfileState) :
    waypoints (rs.foldl takeRecord s).trace = waypoints s.trace ++ reportsOf s.parser rs := by
  induction rs generalizing s with
  | nil => exact (List.append_nil _).symm
  | cons r rs ih =>
    rw [List.foldl_cons, ih, reportsOf, ← List.append_assoc]
    simp [takeRecord]

/-- The code of a profile with `rest` behind its records.  It is not defined where
the type code one past the table stands there. -/
def profileCode (m : Model) (rest : List UInt8) : Option Int :=
  if rest = [] then some 0
  else if typeBits m m.dtiSize <+: bitStream rest then none
  else some (-1)

/-- The parser has decoded the records `rs`, reported their waypoints, and stopped
in front of `rest`. -/
structure ParsedAs (p : SmartParser) (rs : List (Record p.model)) (rest : List UInt8)
    (r : ProfileResult) : Prop where
  calls : dtiCalls r.trace = rs.map Record.call
  reports : waypoints r.trace = reportsOf p rs
  code : r.ret = profileCode p.model rest

section Parsed

variable {p : SmartParser} {buffer : List UInt8} {s : ProfileState}

/-- A lookup adds no call and no waypoint to a trace. -/
theorem dtiCalls_snoc_lookup (t : List ProfileEvent) (id : Nat) :
    dtiCalls (t ++ [.lookup id]) = dtiCalls t := by
  rw [dtiCalls_append, dtiCalls_lookup]
  exact List.append_nil _

/-- A lookup is no waypoint. -/
theorem waypoints_snoc_lookup (t : List ProfileEvent) (id : Nat) :
    waypoints (t ++ [.lookup id]) = waypoints t := by
  rw [waypoints_append, waypoints_lookup]
  exact List.append_nil _

/-- The last iteration tells nothing. -/
theorem profileStep_stop_events {r : ProfileResult} (h : profileStep buffer s = .stop r) :
    dtiCalls r.trace = dtiCalls s.trace ∧ waypoints r.trace = waypoints s.trace := by
  rcases profileStep_stop_trace h with htrace | ⟨-, -, htrace⟩
  · rw [htrace]
    exact ⟨rfl, rfl⟩
  · rw [htrace]
    exact ⟨dtiCalls_snoc_lookup _ _, waypoints_snoc_lookup _ _⟩

/-- **The code of the iteration that ends the loop** is decided by what is left of the
buffer. -/
theorem profileStep_stop_code (hsize : buffer.length ≤ 2 ^ 32 - 3) {m : Model}
    (hm : s.parser.model = m) {r : ProfileResult} (h : profileStep buffer s = .stop r) :
    r.ret = profileCode m (buffer.drop s.offset) := by
  have hnil : buffer.drop s.offset = [] ↔ buffer.length ≤ s.offset := List.drop_eq_nil_iff
  have hfree : s.offset < buffer.length →
      (identify s.parser.dev.model (buffer.drop s.offset) = m.dtiSize ↔
        typeBits m m.dtiSize <+: bitStream (buffer.drop s.offset)) := by
    intro hoff
    rw [s.parser.dev_model, hm]
    apply identify_eq_iff m _ le_rfl
    rw [ne_eq, hnil]
    omega
  rw [profileCode]
  cases profileStep_stop h with
  | atEnd hend => rw [if_pos (hnil.mpr hend)]
  | invalid hoff hid =>
    rw [hm] at hid
    rw [if_neg (by rw [hnil]; omega), if_neg]
    intro hcode
    have heq := (hfree hoff).mpr hcode
    omega
  | noEntry hoff hle hnone =>
    -- no entry, and not past the first free code: the first free code itself
    rw [hm] at hle hnone
    have hge : m.dtiSize ≤ identify s.parser.dev.model (buffer.drop s.offset) :=
      List.getElem?_eq_none_iff.mp hnone
    rw [if_neg (by rw [hnil]; omega), if_pos ((hfree hoff).mp (le_antisymm hle hge))]
  | undef hoff hle hdti hundef =>
    -- an identified record is read inside the buffer
    obtain ⟨i, hi, hout⟩ := smartProcessDti_undef.mp hundef
    have hbits : typeBits s.parser.model (identify s.parser.dev.model (buffer.drop s.offset)) <+:
        bitStream (buffer.drop s.offset) := by
      have hne : buffer.drop s.offset ≠ [] := by
        rw [ne_eq, hnil]
        omega
      apply (identify_eq_iff s.parser.model hne hle).mp
      rw [s.parser.dev_model]
    have hin := dtiPlaces_lt hsize hdti hbits hoff hi
    omega
  | tooShort hoff hle hdti hshort =>
    rw [hm] at hdti
    have hlt : identify s.parser.dev.model (buffer.drop s.offset) < m.dtiSize :=
      (List.getElem?_eq_some_iff.mp hdti).1
    rw [if_neg (by rw [hnil]; omega), if_neg]
    intro hcode
    have heq := (hfree hoff).mpr hcode
    omega

/-- Where no record stands the loop ends. -/
theorem profileStep_stuck (hsize : buffer.length < 2 ^ 32) (hm : s.parser.model = p.model)
    (hstuck : ∀ (r : Record p.model) (t : List UInt8), buffer.drop s.offset ≠ r.encode ++ t) :
    ∃ r, profileStep buffer s = .stop r := by
  cases hstep : profileStep buffer s with
  | next s' =>
    obtain ⟨r, hdrop, -⟩ := profileStep_next hsize hm hstep
    exact absurd hdrop (hstuck r _)
  | stop r => exact ⟨r, rfl⟩

/-- A splitting says what the parser does. -/
theorem parsedAs_of_splits (hsize : buffer.length ≤ 2 ^ 32 - 3)
    (hcheck : smartCheckBuffer p.model buffer = none) {rs : List (Record p.model)}
    {rest : List UInt8} (h : Splits Record.encode (buffer.drop p.model.hdrSize) rs rest) :
    ParsedAs p rs rest (smartParserParseProfile p buffer) := by
  have hlt := length_lt_of_check hcheck
  obtain ⟨hreach, hrest, hm⟩ := profile_reaches hlt rs h.eq_append
  obtain ⟨r, hstop⟩ := profileStep_stuck hlt hm (by
    rw [hrest]
    exact h.stuck)
  rw [smartParserParseProfile_of_returns hcheck ⟨_, hreach, hstop⟩]
  obtain ⟨hcalls, hreports⟩ := profileStep_stop_events hstop
  constructor
  · rw [hcalls, dtiCalls_foldl]
    rfl
  · rw [hreports, waypoints_foldl_takeRecord]
    rfl
  · rw [profileStep_stop_code hsize hm hstop, hrest]

/-- **Every buffer is parsed as the one splitting of its profile.**  The bytes behind
the header are records and a rest in one way only; exactly these records are decoded
and reported, and the function returns 0 if and only if there is no rest. -/
theorem smartParserParseProfile_parsedAs (p : SmartParser) (buffer : List UInt8)
    (hsize : buffer.length ≤ 2 ^ 32 - 3) (hcheck : smartCheckBuffer p.model buffer = none) :
    ∃ rs rest, Splits Record.encode (buffer.drop p.model.hdrSize) rs rest ∧
      (∀ rs' rest', Splits Record.encode (buffer.drop p.model.hdrSize) rs' rest' →
        rs' = rs ∧ rest' = rest) ∧
      ParsedAs p rs rest (smartParserParseProfile p buffer) ∧
      ((smartParserParseProfile p buffer).ret = some 0 ↔
        buffer.drop p.model.hdrSize = (rs.map Record.encode).flatten) := by
  have hcode := isPrefixCode_encode p.model
  obtain ⟨rs, rest, h⟩ := exists_splits hcode.ne_nil (buffer.drop p.model.hdrSize)
  have hparsed := parsedAs_of_splits hsize hcheck h
  refine ⟨rs, rest, h, fun rs' rest' h' => h.unique hcode h', hparsed, ?_⟩
  have hzero : profileCode p.model rest = some 0 ↔ rest = [] := by
    rw [profileCode]
    split
    · simp [*]
    · split
      · simp [*]
      · simp [*]
  rw [hparsed.code, hzero, h.eq_append, List.append_right_eq_self]

theorem smartParserParseProfile_parsedAs_smartPro :
    ∃ (rs : List (Record .smartPro)) (rest : List UInt8),
      Splits Record.encode ((smartProDive [0xBE, 0xFD, 0x01]).drop Model.smartPro.hdrSize) rs rest ∧
      (∀ rs' rest', Splits Record.encode
          ((smartProDive [0xBE, 0xFD, 0x01]).drop Model.smartPro.hdrSize) rs' rest' →
        rs' = rs ∧ rest' = rest) ∧
      ParsedAs default rs rest
        (smartParserParseProfile default (smartProDive [0xBE, 0xFD, 0x01])) ∧
      ((smartParserParseProfile default (smartProDive [0xBE, 0xFD, 0x01])).ret = some 0 ↔
        (smartProDive [0xBE, 0xFD, 0x01]).drop Model.smartPro.hdrSize =
          (rs.map Record.encode).flatten) :=
  smartParserParseProfile_parsedAs default (smartProDive [0xBE, 0xFD, 0x01]) (by decide) (by decide)

end Parsed

end BenthosDc

/-
BenthosDc/Profile.lean

Whole profiles.

The records rules of `Loop` carry the lemmas about one iteration over to runs:
a profile that is a concatenation of records is decoded exactly
(`smartParserParseProfile_decodes`), a profile that ends inside a record is
refused after the complete ones, and any run is the run over the records taken
in so far (`profile_reaches_records`).

The guard in front of the table lookup lets the first code past the table
through.  `lookupsInRange_iff` says which profiles contain it.
-/
import BenthosDc.ProfileCode

namespace BenthosDc

open Bits Loop

/-! ### Runs of the profile loop

A run of the loop is a chain of iterations.  One that comes to its end fixes the result, and
each state on the way is what the records before it have made of the first one.
-/

/-- The state the profile loop is entered in. -/
def profileStart (p : SmartParser) : ProfileState := ⟨p.model.hdrSize, p, []⟩

section Runs

variable {p : SmartParser} {buffer : List UInt8}

theorem length_lt_of_check (h : smartCheckBuffer p.model buffer = none) :
    buffer.length < 2 ^ 32 := by
  rw [smartCheckBuffer] at h
  split at h
  · cases h
  · split at h
    · cases h
    · rename_i hword
      rw [not_not] at hword
      rw [← hword]
      exact uint32Le_lt buffer 4

/-- The loop returns before its fuel is used up. -/
theorem profile_exists_returns (hsize : buffer.length < 2 ^ 32) :
    ∃ r, iterate (profileStep buffer) (buffer.length + 1) (profileStart p) = .stop r := by
  refine iterate_of_measure (fun s => buffer.length - s.offset) (I := fun _ => True) ?_ trivial ?_
  · intro s s' _ h
    exact ⟨trivial, profileStep_advance hsize h⟩
  · show buffer.length - p.model.hdrSize < buffer.length + 1
    omega

/-- The value of the profile loop is the value of the function. -/
theorem smartParserParseProfile_of_returns (hcheck : smartCheckBuffer p.model buffer = none)
    {r : ProfileResult} (h : Returns (profileStep buffer) (profileStart p) r) :
    smartParserParseProfile p buffer = r := by
  obtain ⟨r', hr'⟩ := profile_exists_returns (p := p) (length_lt_of_check hcheck)
  rw [h.unique (iterate_stop_returns hr')]
  rw [profileStart] at hr'
  simp only [smartParserParseProfile, hcheck, hr']

/-- The model of the computer is no matter of the records. -/
theorem takeRecord_model {m : Model} (s : ProfileState) (r : Record m) :
    (takeRecord s r).parser.model = s.parser.model :=
  processCall_model s.parser r.call

/-- The loop takes in the records at the head of the profile. -/
theorem profile_reaches (hsize : buffer.length < 2 ^ 32) (rs : List (Record p.model))
    {rest : List UInt8} (h : buffer.drop p.model.hdrSize = (rs.map Record.encode).flatten ++ rest) :
    Reaches (profileStep buffer) (profileStart p) (rs.foldl takeRecord (profileStart p)) ∧
      buffer.drop (rs.foldl takeRecord (profileStart p)).offset = rest ∧
      (rs.foldl takeRecord (profileStart p)).parser.model = p.model := by
  have hstart : buffer.drop (profileStart p).offset = (rs.map Record.encode).flatten ++ rest := h
  refine reaches_foldl (·.offset) takeRecord (I := fun s => s.parser.model = p.model)
    ?_ ?_ ?_ rfl rs hstart
  · intro s r rest hm hdrop
    exact profileStep_record hsize hm r hdrop
  · intro s r
    rfl
  · intro s r hm
    rw [takeRecord_model, hm]

/-- **Every state of a run is the state behind some records** at the head of
the profile. -/
theorem profile_reaches_records (hsize : buffer.length < 2 ^ 32) {s : ProfileState}
    (h : Reaches (profileStep buffer) (profileStart p) s) :
    ∃ rs : List (Record p.model),
      buffer.drop p.model.hdrSize = (rs.map Record.encode).flatten ++ buffer.drop s.offset ∧
        s = rs.foldl takeRecord (profileStart p) ∧ s.parser.model = p.model := by
  refine Reaches.exists_records (·.offset) takeRecord (I := fun s => s.parser.model = p.model)
    ?_ ?_ rfl h
  · intro s s' hm hnext
    exact profileStep_next hsize hm hnext
  · intro s r hm
    rw [takeRecord_model, hm]

end Runs

/-! ### Traces

The trace of a run tells three kinds of things: the lookups of the table, the calls for its
entries, and the waypoints that are passed on.
-/

@[simp] theorem dtiCalls_append (t t' : List ProfileEvent) :
    dtiCalls (t ++ t') = dtiCalls t ++ dtiCalls t' := List.filterMap_append

@[simp] theorem dtiCalls_lookup (id : Nat) (t : List ProfileEvent) :
    dtiCalls (.lookup id :: t) = dtiCalls t := rfl

@[simp] theorem dtiCalls_parse (c : DtiCall) (t : List ProfileEvent) :
    dtiCalls (.parse c :: t) = c :: dtiCalls t := rfl

@[simp] theorem dtiCalls_waypoint (ws : List (List Waypoint)) :
    dtiCalls (ws.map .waypoint) = [] := by
  induction ws with
  | nil => rfl
  | cons w ws ih => exact ih

@[simp] theorem lookups_append (t t' : List ProfileEvent) :
    lookups (t ++ t') = lookups t ++ lookups t' := List.filterMap_append

@[simp] theorem lookups_lookup (id : Nat) (t : List ProfileEvent) :
    lookups (.lookup id :: t) = id :: lookups t := rfl

@[simp] theorem lookups_parse (c : DtiCall) (t : List ProfileEvent) :
    lookups (.parse c :: t) = lookups t := rfl

@[simp] theorem lookups_waypoint (ws : List (List Waypoint)) :
    lookups (ws.map .waypoint) = [] := by
  induction ws with
  | nil => rfl
  | cons w ws ih => exact ih

@[simp] theorem waypoints_append (t t' : List ProfileEvent) :
    waypoints (t ++ t') = waypoints t ++ waypoints t' := List.filterMap_append

@[simp] theorem waypoints_lookup (id : Nat) (t : List ProfileEvent) :
    waypoints (.lookup id :: t) = waypoints t := rfl

@[simp] theorem waypoints_parse (c : DtiCall) (t : List ProfileEvent) :
    waypoints (.parse c :: t) = waypoints t := rfl

@[simp] theorem waypoints_waypoint (ws : List (List Waypoint)) :
    waypoints (ws.map .waypoint) = ws := by
  induction ws with
  | nil => rfl
  | cons w ws ih => exact congrArg (w :: ·) ih

/-- A list of records makes one call for each of them. -/
theorem dtiCalls_foldl {m : Model} (rs : List (Record m)) (s : ProfileState) :
    dtiCalls (rs.foldl takeRecord s).trace = dtiCalls s.trace ++ rs.map Record.call := by
  induction rs generalizing s with
  | nil => simp
  | cons r rs ih =>
    rw [List.foldl_cons, ih]
    simp [takeRecord]

/-- A list of records makes one lookup for each of them. -/
theorem lookups_foldl {m : Model} (rs : List (Record m)) (s : ProfileState) :
    lookups (rs.foldl takeRecord s).trace = lookups s.trace ++ rs.map fun r => r.id.val := by
  induction rs generalizing s with
  | nil => simp
  | cons r rs ih =>
    rw [List.foldl_cons, ih]
    simp [takeRecord]

/-! ### Exact decoding

A call is compared with its record: the entry of the table, the value, and the place.
-/

/-- A call of `smart_parse_dti` as it ought to be for the record `r`: the
entry, the payload as an unsigned number, and the payload as a two's-complement
number. -/
def Decodes {m : Model} (c : DtiCall) (r : Record m) : Prop :=
  c.dti = r.dti ∧ c.value.toNat = ofBits r.payload ∧ c.svalue.toInt = signedOf r.payload

theorem decodes_call {m : Model} (r : Record m) : Decodes r.call r := by
  have hlen := r.length_payload_le
  refine ⟨rfl, ?_, ?_⟩
  · show (BitVec.ofNat 32 (ofBits r.payload)).toNat = _
    rw [BitVec.toNat_ofNat]
    refine Nat.mod_eq_of_lt ((ofBits_lt r.payload).trans_le ?_)
    exact Nat.pow_le_pow_right (by decide) hlen
  · show (BitVec.ofInt 32 (signedOf r.payload)).toInt = _
    obtain ⟨hlo, hhi⟩ := signedOf_bounds (n := 31) hlen
    exact BitVec.toInt_ofInt_eq_self (by decide) hlo hhi

/-- The calls of records decode the records. -/
theorem forall₂_decodes_call {m : Model} (rs : List (Record m)) :
    List.Forall₂ Decodes (rs.map Record.call) rs := by
  rw [List.forall₂_map_left_iff, List.forall₂_same]
  exact fun r _ => decodes_call r

/-- **Profile decoding is exact.**  A profile that is a concatenation of records
is decoded to these records, and the parser returns 0; a profile that ends
inside a record is refused after exactly the complete records. -/
theorem smartParserParseProfile_decodes (p : SmartParser) (buffer : List UInt8)
    (hsize : buffer.length ≤ 2 ^ 32 - 3) (hhdr : p.model.hdrSize ≤ buffer.length)
    (hword : uint32Le buffer 4 = buffer.length) (rs : List (Record p.model)) :
    (buffer.drop p.model.hdrSize = (rs.map Record.encode).flatten →
      (smartParserParseProfile p buffer).ret = some 0 ∧
        List.Forall₂ Decodes (dtiCalls (smartParserParseProfile p buffer).trace) rs) ∧
    (∀ (r : Record p.model) (cut : List UInt8),
      buffer.drop p.model.hdrSize = (rs.map Record.encode).flatten ++ cut →
      cut ≠ [] → cut <+: r.encode → cut ≠ r.encode →
      (smartParserParseProfile p buffer).ret = some (-1) ∧
        List.Forall₂ Decodes (dtiCalls (smartParserParseProfile p buffer).trace) rs) := by
  have hcheck : smartCheckBuffer p.model buffer = none := by
    rw [smartCheckBuffer, if_neg (by omega), if_neg (by omega)]
  have hcalls : dtiCalls (rs.foldl takeRecord (profileStart p)).trace = rs.map Record.call := by
    rw [dtiCalls_foldl]
    rfl
  constructor
  · intro h
    rw [← List.append_nil (rs.map Record.encode).flatten] at h
    obtain ⟨hreach, hrest, -⟩ := profile_reaches (length_lt_of_check hcheck) rs h
    -- nothing is left behind the last record
    have hend := profileStep_end (List.drop_eq_nil_iff.mp hrest)
    rw [smartParserParseProfile_of_returns hcheck ⟨_, hreach, hend⟩]
    refine ⟨rfl, ?_⟩
    rw [hcalls]
    exact forall₂_decodes_call rs
  · intro r cut h hne hcut hshort
    obtain ⟨hreach, rfl, hm⟩ := profile_reaches (length_lt_of_check hcheck) rs h
    -- the iteration at the cut ends the loop without a call
    obtain ⟨q, trace, hstop, htrace⟩ := profileStep_cut hsize hm r hne hcut hshort
    rw [smartParserParseProfile_of_returns hcheck ⟨_, hreach, hstop⟩]
    refine ⟨rfl, ?_⟩
    show List.Forall₂ Decodes (dtiCalls trace) rs
    rw [htrace, hcalls]
    exact forall₂_decodes_call rs

/-- A Smart Pro profile: a temperature delta and an absolute depth. -/
def smartProRecords : List (Record .smartPro) :=
  [⟨⟨1, by decide⟩, [true, true, true, true, true, false], [], rfl, rfl⟩,
   ⟨⟨6, by decide⟩, [true], [0x01, 0x90], rfl, rfl⟩]

/-- A Smart Pro dive with nothing but its length word set in the header. -/
def smartProDive (profile : List UInt8) : List UInt8 :=
  [0, 0, 0, 0, UInt8.ofNat (92 + profile.length), 0, 0, 0] ++ List.replicate 84 0 ++ profile

theorem smartParserParseProfile_decodes_smartPro :
    (smartParserParseProfile default (smartProDive [0xBE, 0xFD, 0x01, 0x90])).ret = some 0 ∧
      List.Forall₂ Decodes
        (dtiCalls (smartParserParseProfile default (smartProDive [0xBE, 0xFD, 0x01, 0x90])).trace)
        smartProRecords :=
  (smartParserParseProfile_decodes default (smartProDive [0xBE, 0xFD, 0x01, 0x90])
    (by decide) (by decide) (by decide) smartProRecords).1 (by decide)

/-! ### Table lookups

The guard compares with `>` where `>=` was meant, so that the code one past the last entry is
looked up.
-/

/-- The table is read inside its bounds only, and every type code without an
entry is answered with `-1`. -/
def LookupsInRange (p : SmartParser) (buffer : List UInt8) : Prop :=
  (∀ id ∈ lookups (smartParserParseProfile p buffer).trace, id < p.model.dtiSize) ∧
    ∀ s, Reaches (profileStep buffer) (profileStart p) s → s.offset < buffer.length →
      p.model.dtiSize ≤ identify s.parser.dev.model (buffer.drop s.offset) →
      ∃ r, profileStep buffer s = .stop r ∧ r.ret = some (-1)

/-- Behind some complete records the profile goes on with the first type code
past the table. -/
def HasFirstFreeCode (m : Model) (buffer : List UInt8) : Prop :=
  ∃ (rs : List (Record m)) (rest : List UInt8),
    buffer.drop m.hdrSize = (rs.map Record.encode).flatten ++ rest ∧
      typeBits m m.dtiSize <+: bitStream rest

section Lookups

variable {p : SmartParser} {buffer : List UInt8} {s : ProfileState}

/-- The condition on the bytes is the condition on a state that the loop reaches. -/
theorem hasFirstFreeCode_iff (hsize : buffer.length < 2 ^ 32) :
    HasFirstFreeCode p.model buffer ↔
      ∃ s, Reaches (profileStep buffer) (profileStart p) s ∧ s.offset < buffer.length ∧
        s.parser.model = p.model ∧
        identify s.parser.dev.model (buffer.drop s.offset) = p.model.dtiSize := by
  constructor
  · rintro ⟨rs, rest, hdrop, hbits⟩
    obtain ⟨hreach, rfl, hm⟩ := profile_reaches hsize rs hdrop
    have hlen := hbits.length_le
    have hpos : 0 < (typeBits p.model p.model.dtiSize).length := by
      cases p.model <;> decide
    rw [length_bitStream, List.length_drop] at hlen
    have hoff : (rs.foldl takeRecord (profileStart p)).offset < buffer.length := by omega
    refine ⟨_, hreach, hoff, hm, ?_⟩
    rw [SmartParser.dev_model, hm, identify_eq_iff _ _ le_rfl]
    · exact hbits
    · rw [← List.length_pos_iff, List.length_drop]
      omega
  · rintro ⟨s, hreach, hoff, hm, hid⟩
    obtain ⟨rs, hdrop, rfl, -⟩ := profile_reaches_records hsize hreach
    refine ⟨rs, _, hdrop, ?_⟩
    rw [SmartParser.dev_model, hm, identify_eq_iff _ _ le_rfl] at hid
    · exact hid
    · rw [← List.length_pos_iff, List.length_drop]
      omega

/-- The iteration that ends the loop makes one table lookup or none. -/
theorem profileStep_stop_trace {r : ProfileResult} (h : profileStep buffer s = .stop r) :
    r.trace = s.trace ∨
      (s.offset < buffer.length ∧
        identify s.parser.dev.model (buffer.drop s.offset) ≤ s.parser.model.dtiSize ∧
        r.trace = s.trace ++ [.lookup (identify s.parser.dev.model (buffer.drop s.offset))]) := by
  cases profileStep_stop h with
  | atEnd | invalid => exact .inl rfl
  | noEntry hoff hle | undef hoff hle | tooShort hoff hle => exact .inr ⟨hoff, hle, rfl⟩

/-- **The table lookups.**  The guard `id > dti_size` lets the first code past
the table through, so the lookups stay in range exactly for the profiles that
do not reach that code. -/
theorem lookupsInRange_iff (p : SmartParser) (buffer : List UInt8)
    (hcheck : smartCheckBuffer p.model buffer = none) :
    LookupsInRange p buffer ↔ ¬HasFirstFreeCode p.model buffer := by
  have hsize := length_lt_of_check hcheck
  rw [hasFirstFreeCode_iff hsize]
  constructor
  · rintro ⟨-, hrejects⟩ ⟨s, hreach, hoff, hm, hid⟩
    obtain ⟨r, hstop, hret⟩ := hrejects s hreach hoff hid.ge
    have hnone : p.model.dtiTable[p.model.dtiSize]? = none :=
      List.getElem?_eq_none le_rfl
    rw [profileStep, profileStepOn, if_pos hoff, hid, hm, if_neg (lt_irrefl _), hnone] at hstop
    cases hstop
    cases hret
  · intro hfree
    constructor
    · intro id hid
      obtain ⟨r, hr⟩ := profile_exists_returns (p := p) hsize
      obtain ⟨s, hreach, hstop⟩ := iterate_stop_returns hr
      rw [smartParserParseProfile_of_returns hcheck ⟨s, hreach, hstop⟩] at hid
      obtain ⟨rs, -, hs, hm⟩ := profile_reaches_records hsize hreach
      have hold : ∀ id ∈ lookups s.trace, id < p.model.dtiSize := by
        -- the lookups of the records, and that of the iteration that ends the loop
        intro id hid
        rw [hs, lookups_foldl] at hid
        obtain ⟨r, -, rfl⟩ := List.mem_map.mp hid
        exact r.id.isLt
      rcases profileStep_stop_trace hstop with htrace | ⟨hoff, hle, htrace⟩
      · rw [htrace] at hid
        exact hold id hid
      · rw [htrace, lookups_append, List.mem_append] at hid
        rcases hid with hid | hid
        · exact hold id hid
        · rw [List.mem_singleton.mp hid]
          rw [hm] at hle
          exact lt_of_le_of_ne hle fun heq => hfree ⟨s, hreach, hoff, hm, heq⟩
    · intro s hreach hoff hid
      obtain ⟨-, -, -, hm⟩ := profile_reaches_records hsize hreach
      have hlt : p.model.dtiSize < identify s.parser.dev.model (buffer.drop s.offset) :=
        lt_of_le_of_ne hid fun heq => hfree ⟨s, hreach, hoff, hm, heq.symm⟩
      refine ⟨⟨some (-1), s.parser.setError driverErrInvalid "Invalid DTI Code", s.trace⟩, ?_, rfl⟩
      rw [profileStep, profileStepOn, if_pos hoff, hm]
      exact if_pos hlt

theorem lookupsInRange_iff_smartPro :
    LookupsInRange default (smartProDive [0x81]) ↔
      ¬HasFirstFreeCode Model.smartPro (smartProDive [0x81]) :=
  lookupsInRange_iff default (smartProDive [0x81]) (by decide)

/-- Eight one-bits and a zero-bit: the lookup one past the Smart Pro table. -/
theorem not_lookupsInRange_smartPro :
    ¬∀ (p : SmartParser) (buffer : List UInt8), smartCheckBuffer p.model buffer = none →
      LookupsInRange p buffer := by
  intro h
  have hlookup : 8 ∈ lookups (smartParserParseProfile default (smartProDive [0xFF, 0x00])).trace := by
    decide +kernel
  have hlt := (h default (smartProDive [0xFF, 0x00]) (by decide)).1 8 hlookup
  exact absurd hlt (by decide)

end Lookups

end BenthosDc

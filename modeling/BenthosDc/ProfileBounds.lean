/-
BenthosDc/ProfileBounds.lean

Which bytes the parsing of a profile reads, and how long its loops run.

The places that an iteration reads are written down as the code goes from one to the next.
The type bits of a record have been seen in the data before they are read again, so that
the test behind them comes in time.

* `profile_staysInside`: the reads of a profile stay in its buffer, and its loops end.
-/
import BenthosDc.Profile

namespace BenthosDc

open Bits Loop

variable {data : List UInt8} {s : ProfileState} {m : Model}

/-! ### Places of an identification

An identification counts the one-bits from the place of the loop on, and goes to the next byte
behind a byte of ones.
-/

/-- The loop of `smart_identify` with the places that it reads, from `place` on. -/
def smartIdentifyTrace : List UInt8 → Nat → Nat → Nat × List Nat
  | [], _, _ => (255, [])
  | value :: data, place, count =>
      match smartIdentifyBits value 8 count with
      | .inl count => (count, [place])
      | .inr count =>
          let (id, places) := smartIdentifyTrace data (place + 1) count
          (id, place :: places)

/-- It reads at the place of the loop and behind it, and no more bytes than are left. -/
theorem mem_smartIdentifyTrace {data : List UInt8} {place count i : Nat}
    (h : i ∈ (smartIdentifyTrace data place count).2) : place ≤ i ∧ i < place + data.length := by
  induction data generalizing place count with
  | nil => cases h
  | cons value data ih =>
    rw [smartIdentifyTrace] at h
    rw [List.length_cons]
    revert h
    cases smartIdentifyBits value 8 count with
    | inl count =>
      intro h
      rw [List.mem_singleton.mp h]
      omega
    | inr count =>
      intro h
      rcases List.mem_cons.mp h with rfl | h
      · omega
      · have := ih h
        omega

/-- The bytes that `galileo_identify` or `smart_identify` reads at `offset`; there are at
most eight, and none behind the size. -/
def identifyPlaces (mdl : Nat) (data : List UInt8) (offset : Nat) : List Nat :=
  if mdl = Model.galileoSol.number then [offset]
  else (smartIdentifyTrace ((data.drop offset).take 8) offset 0).2

/-- Both kinds of identification stay in the buffer. -/
theorem identifyPlaces_lt {mdl offset i : Nat} (hoff : offset < data.length)
    (h : i ∈ identifyPlaces mdl data offset) : i < data.length := by
  rw [identifyPlaces] at h
  split at h
  · rw [List.mem_singleton.mp h]
    exact hoff
  · have hle := (mem_smartIdentifyTrace h).2
    rw [List.length_take, List.length_drop] at hle
    omega

/-! ### Places of a record

A record is read at the place of its last type bit and at the bytes behind it that the entry of
the table names.
-/

/-- The bytes that `smart_process_dti` reads: the last byte of the type bits, if it has
other bits in it, and behind the test for an overflow the extra bytes. -/
def dtiPlaces (data : List UInt8) (offset : Nat) (dti : DtiEntry) : List Nat :=
  (if dti.ntb % 8 > 0 then [offset + dti.ntb / 8] else []) ++
    if u32 (offset + (dti.ntb + 7) / 8 + dti.extra) > data.length then []
    else List.range' (offset + (dti.ntb + 7) / 8) dti.extra

/-- The bytes behind the first one are missed if one of them lies outside. -/
theorem processExtra_eq_none {k offset nbits : Nat} {value : BitVec 32} :
    processExtra data k offset nbits value = none ↔
      ∃ i ∈ List.range' offset k, data.length ≤ i := by
  induction k generalizing offset nbits value with
  | zero => simp [processExtra]
  | succ k ih =>
    rw [processExtra, List.range'_succ]
    cases hb : data[offset]? with
    | none =>
      have hout : data.length ≤ offset := List.getElem?_eq_none_iff.mp hb
      exact iff_of_true rfl ⟨offset, List.mem_cons_self, hout⟩
    | some b =>
      have hin : offset < data.length := (List.getElem?_eq_some_iff.mp hb).1
      show processExtra data k (offset + 1) _ _ = none ↔ _
      rw [ih]
      constructor
      · rintro ⟨i, hi, hout⟩
        exact ⟨i, List.mem_cons_of_mem offset hi, hout⟩
      · rintro ⟨i, hi, hout⟩
        rcases List.mem_cons.mp hi with rfl | hi
        · omega
        · exact ⟨i, hi, hout⟩

/-- The rest of a record is read outside exactly if one of its places is outside. -/
theorem processTail_undef {dti : DtiEntry} {offset nbits : Nat} {value : BitVec 32} :
    processTail data dti offset nbits value = .undef ↔
      ∃ i ∈ (if u32 (offset + dti.extra) > data.length then []
        else List.range' offset dti.extra), data.length ≤ i := by
  rw [processTail]
  by_cases hlong : u32 (offset + dti.extra) > data.length
  · simp [if_pos hlong]
  · have hextra : processExtra data dti.extra offset nbits value = none ↔
        ∃ i ∈ List.range' offset dti.extra, data.length ≤ i := processExtra_eq_none
    rw [if_neg hlong, if_neg hlong, ← hextra]
    cases processExtra data dti.extra offset nbits value with
    | none => simp
    | some r => simp

/-- **The places of a record are all that it reads**: a read outside the buffer is one of
them. -/
theorem smartProcessDti_undef {offset : Nat} {dti : DtiEntry} :
    smartProcessDti data offset dti = .undef ↔
      ∃ i ∈ dtiPlaces data offset dti, data.length ≤ i := by
  rw [smartProcessDti, dtiPlaces]
  by_cases hn : dti.ntb % 8 > 0
  · -- the last type byte is read for its value bits
    have hnext : offset + dti.ntb / 8 + 1 = offset + (dti.ntb + 7) / 8 := by omega
    simp only [if_pos hn, hnext, List.singleton_append, List.mem_cons]
    cases hb : data[offset + dti.ntb / 8]? with
    | none =>
      have hout : data.length ≤ offset + dti.ntb / 8 := List.getElem?_eq_none_iff.mp hb
      exact iff_of_true rfl ⟨_, .inl rfl, hout⟩
    | some b =>
      have hin : offset + dti.ntb / 8 < data.length := (List.getElem?_eq_some_iff.mp hb).1
      have htail : ∀ nbits value, processTail data dti (offset + (dti.ntb + 7) / 8) nbits value =
          .undef ↔ ∃ i, (i = offset + dti.ntb / 8 ∨
            i ∈ if u32 (offset + (dti.ntb + 7) / 8 + dti.extra) > data.length then []
              else List.range' (offset + (dti.ntb + 7) / 8) dti.extra) ∧ data.length ≤ i := by
        intro nbits value
        rw [processTail_undef]
        constructor
        · rintro ⟨i, hi, hout⟩
          exact ⟨i, .inr hi, hout⟩
        · rintro ⟨i, rfl | hi, hout⟩
          · omega
          · exact ⟨i, hi, hout⟩
      dsimp only
      split
      · exact htail _ _
      · exact htail _ _
  · -- the type fills its bytes
    have hnext : offset + dti.ntb / 8 = offset + (dti.ntb + 7) / 8 := by omega
    simp only [if_neg hn, hnext, List.nil_append]
    exact processTail_undef

/-- **A record that has been identified is read inside the buffer.** -/
theorem dtiPlaces_lt {id offset i : Nat} {dti : DtiEntry} (hdata : data.length ≤ 2 ^ 32 - 3)
    (hdti : m.dtiTable[id]? = some dti) (hbits : typeBits m id <+: bitStream (data.drop offset))
    (hoff : offset < data.length) (h : i ∈ dtiPlaces data offset dti) : i < data.length := by
  have hntb := ntb_le_of_prefix hdti hbits
  have hextra := extra_le (List.mem_of_getElem? hdti)
  rw [List.length_drop] at hntb
  rw [dtiPlaces, List.mem_append] at h
  rcases h with h | h
  · split at h
    · rw [List.mem_singleton.mp h]
      omega
    · cases h
  · split at h
    · cases h
    · rename_i hshort
      -- no sum wraps around here
      rw [u32_of_lt (by omega)] at hshort
      rw [List.mem_range'_1] at h
      omega

/-! ### The inner loop

The inner loop passes one waypoint for each sample interval and counts `complete` down to zero.
-/

/-- As many waypoints as the count says. -/
theorem sampleLoop_passes (n : Nat) (p : SmartParser) : (sampleLoop n p).2.length = n := by
  induction n generalizing p with
  | zero => rfl
  | succ n ih =>
    show (sampleLoop n (waypointNext p)).2.length + 1 = n + 1
    rw [ih]

/-- The count is used up. -/
theorem sampleLoop_complete (n : Nat) (p : SmartParser) :
    (sampleLoop n p).1.complete = p.complete - n := by
  induction n generalizing p with
  | zero => rfl
  | succ n ih =>
    show (sampleLoop n (waypointNext p)).1.complete = p.complete - (n + 1)
    rw [ih]
    show p.complete - 1 - n = p.complete - (n + 1)
    omega

/-- `complete` is an `uint8_t`. -/
theorem smartParseDti_complete_lt (p : SmartParser) (c : DtiCall) (h : p.complete < 2 ^ 8) :
    (smartParseDti p c).complete < 2 ^ 8 := by
  have hone : 1 < 2 ^ 8 := by decide
  obtain ⟨⟨type, abs, idx, ntb, ignore, extra⟩, value, svalue⟩ := c
  cases type with
  | pressureDepth => exact hone
  | depth => cases abs <;> exact hone
  | time => exact (value.setWidth 8).isLt
  | rbt => cases abs <;> exact h
  | temperature => cases abs <;> exact h
  | pressure => cases abs <;> exact h
  | heartrate => cases abs <;> exact h
  | bearing => exact h
  | alarms => exact h

/-- No count is left over for the next record. -/
theorem processCall_complete (p : SmartParser) (c : DtiCall) :
    (processCall p c).1.complete = 0 := by
  show (sampleLoop (smartParseDti p c).complete (smartParseDti p c)).1.complete = 0
  rw [sampleLoop_complete, Nat.sub_self]

/-- The passes of the inner loop in one iteration. -/
theorem processCall_passes (p : SmartParser) (c : DtiCall) (h : p.complete < 2 ^ 8) :
    (processCall p c).2.length ≤ 255 := by
  show (sampleLoop (smartParseDti p c).complete (smartParseDti p c)).2.length ≤ 255
  rw [sampleLoop_passes]
  exact Nat.le_of_lt_succ (smartParseDti_complete_lt p c h)

/-! ### The profile loop

The three groups of facts come together in one iteration, and from there go to the run.
-/

/-- The record type of an iteration. -/
def typeOf (data : List UInt8) (s : ProfileState) : Nat :=
  identify s.parser.dev.model (data.drop s.offset)

/-- One iteration reads inside the buffer, and if it goes on it goes forward, to a place
that is not behind the end, and reports at most 255 waypoints. -/
structure IterationInside (data : List UInt8) (s : ProfileState) : Prop where
  identified : ∀ i ∈ identifyPlaces s.parser.dev.model data s.offset, i < data.length
  processed : ∀ dti, s.parser.model.dtiTable[typeOf data s]? = some dti →
    ∀ i ∈ dtiPlaces data s.offset dti, i < data.length
  /-- The place of the test for an overflow, which a record that is cut off gets to. -/
  tested : ∀ dti, s.parser.model.dtiTable[typeOf data s]? = some dti →
    s.offset < s.offset + (dti.ntb + 7) / 8 ∧ s.offset + (dti.ntb + 7) / 8 ≤ data.length
  advances : ∀ s', profileStep data s = .next s' → s.offset < s'.offset ∧ s'.offset ≤ data.length
  passes : ∀ s', profileStep data s = .next s' →
    (waypoints s'.trace).length ≤ (waypoints s.trace).length + 255
  /-- No code is lost. -/
  defined : ∀ r, profileStep data s = .stop r → r.ret ≠ none

section Inside

variable {p : SmartParser} {buffer : List UInt8}

/-- An iteration that goes on reports the passes of its inner loop. -/
theorem waypoints_takeRecord (s : ProfileState) (r : Record m) :
    (waypoints (takeRecord s r).trace).length =
      (waypoints s.trace).length + (processCall s.parser r.call).2.length := by
  have htrace : waypoints (takeRecord s r).trace =
      waypoints s.trace ++ waypoints ((processCall s.parser r.call).2.map .waypoint) :=
    List.filterMap_append
  rw [htrace, waypoints_waypoint, List.length_append]

/-- **An iteration with a type code of the table stays inside the buffer.** -/
theorem iterationInside (hdata : data.length ≤ 2 ^ 32 - 3) (hoff : s.offset < data.length)
    (hcomplete : s.parser.complete < 2 ^ 8) (hid : typeOf data s < s.parser.model.dtiSize) :
    IterationInside data s := by
  have hlt : data.length < 2 ^ 32 := by omega
  have hne : data.drop s.offset ≠ [] := by
    rw [← List.length_pos_iff, List.length_drop]
    omega
  have hbits : typeBits s.parser.model (typeOf data s) <+: bitStream (data.drop s.offset) := by
    apply (identify_eq_iff s.parser.model hne hid.le).mp
    rw [typeOf, s.parser.dev_model]
  -- what has been identified lies in the buffer
  have hplaces : ∀ dti, s.parser.model.dtiTable[typeOf data s]? = some dti →
      ∀ i ∈ dtiPlaces data s.offset dti, i < data.length := by
    intro dti hdti i hi
    exact dtiPlaces_lt hdata hdti hbits hoff hi
  constructor
  · intro i hi
    exact identifyPlaces_lt hoff hi
  · exact hplaces
  · intro dti hdti
    have hntb := ntb_le_of_prefix hdti hbits
    have hpos := ntb_pos (List.mem_of_getElem? hdti)
    rw [List.length_drop] at hntb
    omega
  · intro s' hs'
    obtain ⟨r, hdrop, rfl⟩ := profileStep_next hlt rfl hs'
    have hlen := congrArg List.length hdrop
    have hpos := r.length_encode_pos
    have hnext : (takeRecord s r).offset = s.offset + r.encode.length := rfl
    rw [List.length_append, List.length_drop, List.length_drop] at hlen
    omega
  · intro s' hs'
    obtain ⟨r, -, rfl⟩ := profileStep_next hlt rfl hs'
    rw [waypoints_takeRecord]
    exact Nat.add_le_add_left (processCall_passes s.parser r.call hcomplete) _
  · intro r hr
    -- a code of the table ends the loop by its record only, which is inside the buffer
    cases profileStep_stop hr with
    | atEnd | invalid | tooShort => exact nofun
    | noEntry _ _ hnone =>
      exact absurd hid (Nat.not_lt.mpr (List.getElem?_eq_none_iff.mp hnone))
    | undef _ _ hdti hundef =>
      obtain ⟨i, hi, hout⟩ := smartProcessDti_undef.mp hundef
      have hin := hplaces _ hdti i hi
      omega

/-- What holds of every state of the profile loop. -/
theorem profile_reaches_bounds (hcomplete : p.complete < 2 ^ 8)
    (hcheck : smartCheckBuffer p.model buffer = none)
    (h : Reaches (profileStep buffer) (profileStart p) s) :
    s.offset ≤ buffer.length ∧ s.parser.model = p.model ∧ s.parser.complete < 2 ^ 8 := by
  have hlt := length_lt_of_check hcheck
  refine h.invariant (I := fun s => s.offset ≤ buffer.length ∧ s.parser.model = p.model ∧
    s.parser.complete < 2 ^ 8) ?_ ⟨?_, rfl, hcomplete⟩
  · intro s s' ⟨_, hmodel, _⟩ hs'
    -- one record goes forward, and its waypoints use `complete` up
    obtain ⟨r, hdrop, rfl⟩ := profileStep_next hlt hmodel hs'
    have hlen := congrArg List.length hdrop
    have hnext : (takeRecord s r).offset = s.offset + r.encode.length := rfl
    rw [List.length_append, List.length_drop, List.length_drop] at hlen
    refine ⟨by omega, (takeRecord_model s r).trans hmodel, ?_⟩
    show (processCall s.parser r.call).1.complete < 2 ^ 8
    rw [processCall_complete]
    decide
  · show p.model.hdrSize ≤ buffer.length
    by_contra hshort
    rw [smartCheckBuffer, if_pos (Nat.lt_of_not_le hshort)] at hcheck
    cases hcheck

/-- **The parsing of a profile stays in its buffer and ends.**  Each iteration with a type
code of the table reads inside the buffer only, goes forward and not behind the end, and
runs its inner loop at most 255 times; if all codes are of the table the function
returns a code. -/
theorem profile_staysInside (p : SmartParser) (hcomplete : p.complete < 2 ^ 8)
    (buffer : List UInt8) (hsize : buffer.length ≤ 2 ^ 32 - 3)
    (hcheck : smartCheckBuffer p.model buffer = none) :
    (∀ s, Reaches (profileStep buffer) (profileStart p) s → s.offset ≤ buffer.length ∧
      (s.offset < buffer.length → typeOf buffer s < s.parser.model.dtiSize →
        IterationInside buffer s)) ∧
    ((∀ s, Reaches (profileStep buffer) (profileStart p) s → s.offset < buffer.length →
        typeOf buffer s < s.parser.model.dtiSize) →
      ∃ r, Returns (profileStep buffer) (profileStart p) r ∧
        smartParserParseProfile p buffer = r ∧ r.ret ≠ none) := by
  have hinside : ∀ s, Reaches (profileStep buffer) (profileStart p) s →
      s.offset ≤ buffer.length ∧ (s.offset < buffer.length →
        typeOf buffer s < s.parser.model.dtiSize → IterationInside buffer s) := by
    intro s hreach
    obtain ⟨hle, _, hcomplete⟩ := profile_reaches_bounds hcomplete hcheck hreach
    exact ⟨hle, fun hoff hid => iterationInside hsize hoff hcomplete hid⟩
  refine ⟨hinside, fun hids => ?_⟩
  obtain ⟨r, hr⟩ := profile_exists_returns (p := p) (length_lt_of_check hcheck)
  have hreturns : Returns (profileStep buffer) (profileStart p) r := iterate_stop_returns hr
  refine ⟨r, hreturns, smartParserParseProfile_of_returns hcheck hreturns, ?_⟩
  obtain ⟨s, hreach, hstop⟩ := hreturns
  -- the loop ends at a record that does not fit, or at the end of the buffer
  by_cases hoff : s.offset < buffer.length
  · exact ((hinside s hreach).2 hoff (hids s hreach hoff)).defined r hstop
  · rw [profileStep_end (Nat.le_of_not_lt hoff)] at hstop
    cases hstop
    exact nofun

theorem profile_staysInside_smartPro :
    (∀ s, Reaches (profileStep (smartProDive [0x80])) (profileStart default) s →
      s.offset ≤ (smartProDive [0x80]).length ∧
        (s.offset < (smartProDive [0x80]).length →
          typeOf (smartProDive [0x80]) s < s.parser.model.dtiSize →
            IterationInside (smartProDive [0x80]) s)) ∧
    ((∀ s, Reaches (profileStep (smartProDive [0x80])) (profileStart default) s →
        s.offset < (smartProDive [0x80]).length →
          typeOf (smartProDive [0x80]) s < s.parser.model.dtiSize) →
      ∃ r, Returns (profileStep (smartProDive [0x80])) (profileStart default) r ∧
        smartParserParseProfile default (smartProDive [0x80]) = r ∧ r.ret ≠ none) :=
  profile_staysInside default (by decide) (smartProDive [0x80]) (by decide) (by decide)

end Inside

end BenthosDc

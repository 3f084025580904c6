/-
BenthosDc/Waypoints.lean

The waypoints of a sequence of records.

What the parser reports at a waypoint is compared with the records decoded since
the last reset.  Depth, temperature, pressure, remaining bottom time and heart
rate are sequences of absolute and delta readings; each of them has an
accumulator in the parser that follows it (`Follows`).  Bearings and alarms
belong to the records since the previous waypoint (`recordsSince`).
-/
import BenthosDc.Lib.Readings
import BenthosDc.Profile
import Mathlib.Data.BitVec

namespace BenthosDc

open Bits Loop Readings

/-! ### Quantities and their readings

A reading is absolute or relative.  A packed record of depth and pressure is a relative reading
of both.
-/

/-- The quantities with an accumulator. -/
inductive Quantity
  | depth
  | temperature
  | pressure
  | rbt
  | heartrate
  deriving DecidableEq

namespace Quantity

/-- The type of the records with its readings. -/
def type : Quantity → DtiType
  | depth => .depth
  | temperature => .temperature
  | pressure => .pressure
  | rbt => .rbt
  | heartrate => .heartrate

/-- The unit of the records in units of the accumulator. -/
def scale : Quantity → BitVec 32
  | depth => 2
  | temperature => 40
  | pressure => 250
  | rbt => 1
  | heartrate => 1

/-- The value of the accumulator after a reset. -/
def init : Quantity → BitVec 32
  | rbt => 99
  | _ => 0

/-- The accumulator of a quantity. -/
def accumulator (p : SmartParser) : Quantity → BitVec 32
  | depth => p.depth
  | temperature => p.temp
  | pressure => p.pressure
  | rbt => p.rbt
  | heartrate => p.heartrate

/-- The flag that a value of it is known. -/
def seen (p : SmartParser) : Quantity → Bool
  | depth => p.haveDepth
  | temperature => p.haveTemp
  | pressure => p.havePressure
  | rbt => p.haveRbt
  | heartrate => p.haveHeartrate

end Quantity

section Records

variable {m : Model}

/-- The reading of `q` in the record `r`.  A record `PRESSURE_DEPTH` has 15
payload bits, 7 for the pressure and 8 for the depth. -/
def Record.reading (q : Quantity) (r : Record m) : Option (Reading (BitVec 32)) :=
  if r.dti.type = .pressureDepth then
    match q with
    | .pressure => some (.delta (BitVec.ofInt 32 (signedOf (r.payload.take 7))))
    | .depth => some (.delta (BitVec.ofInt 32 (signedOf (r.payload.drop 7))))
    | _ => none
  else if r.dti.type = q.type then
    if r.dti.abs then some (.absolute (BitVec.ofNat 32 (ofBits r.payload)))
    else some (.delta (BitVec.ofInt 32 (signedOf r.payload)))
  else none

/-- The readings of a quantity, in order. -/
def readings (q : Quantity) (rs : List (Record m)) : List (Reading (BitVec 32)) :=
  rs.filterMap (Record.reading q)

/-- The tank of the last absolute pressure. -/
def lastTank (rs : List (Record m)) : Option (Fin 3) :=
  ((rs.filter fun r => r.dti.type = .pressure ∧ r.dti.abs).getLast?).map (·.dti.idx)

/-- The number of waypoints the record `r` completes. -/
def Record.completes (r : Record m) : Nat :=
  match r.dti.type with
  | .pressureDepth | .depth => 1
  | .time => ofBits r.payload % 256
  | _ => 0

/-- The records since the last one that completed a waypoint. -/
def recordsSince (rs : List (Record m)) : List (Record m) :=
  rs.rtakeWhile fun r => r.completes = 0

/-- The records between waypoint `k` of the record `r`, decoded after `pre`, and
the waypoint before. -/
def freshRecords (pre : List (Record m)) (r : Record m) (k : Nat) : List (Record m) :=
  if k = 0 then recordsSince pre ++ [r] else []

/-- The parser after the records `rs`. -/
def parserAfter (p : SmartParser) (rs : List (Record m)) : SmartParser :=
  rs.foldl (fun p r => (processCall p r.call).1) p

/-- The waypoints reported for the record `r` after the records `pre`. -/
def waypointsOf (p : SmartParser) (pre : List (Record m)) (r : Record m) : List (List Waypoint) :=
  (processCall (parserAfter p pre) r.call).2

@[simp] theorem parserAfter_concat (p : SmartParser) (rs : List (Record m)) (r : Record m) :
    parserAfter p (rs ++ [r]) = (processCall (parserAfter p rs) r.call).1 := by
  simp [parserAfter]

/-- The parser behind some records in a run. -/
theorem parserAfter_takeRecord (rs : List (Record m)) (s : ProfileState) :
    (rs.foldl takeRecord s).parser = parserAfter s.parser rs := by
  induction rs generalizing s with
  | nil => rfl
  | cons r rs ih => exact ih (takeRecord s r)

/-- The waypoints of one record more. -/
theorem waypoints_foldl_concat (rs : List (Record m)) (r : Record m) (s : ProfileState) :
    waypoints ((rs ++ [r]).foldl takeRecord s).trace =
      waypoints (rs.foldl takeRecord s).trace ++ waypointsOf s.parser rs r := by
  rw [List.foldl_append, List.foldl_cons, List.foldl_nil, waypointsOf,
    ← parserAfter_takeRecord rs s]
  simp [takeRecord]

/-- Every waypoint of a run belongs to a record of the profile. -/
theorem mem_waypoints_foldl {rs : List (Record m)} {s : ProfileState} {w : List Waypoint}
    (hs : waypoints s.trace = []) (hw : w ∈ waypoints (rs.foldl takeRecord s).trace) :
    ∃ pre r post, rs = pre ++ r :: post ∧ w ∈ waypointsOf s.parser pre r := by
  induction rs using List.reverseRecOn with
  | nil =>
    rw [List.foldl_nil, hs] at hw
    cases hw
  | append_singleton rs r ih =>
    rw [waypoints_foldl_concat, List.mem_append] at hw
    rcases hw with hw | hw
    · obtain ⟨pre, r', post, rfl, hmem⟩ := ih hw
      exact ⟨pre, r', post ++ [r], by simp, hmem⟩
    · exact ⟨rs, r, [], rfl, hw⟩

end Records

/-- **The waypoints of a profile** are those of the records at its head. -/
theorem mem_waypoints_profile {p : SmartParser} {buffer : List UInt8} {w : List Waypoint}
    (hcheck : smartCheckBuffer p.model buffer = none)
    (hw : w ∈ waypoints (smartParserParseProfile p buffer).trace) :
    ∃ (pre : List (Record p.model)) (r : Record p.model) (rest : List UInt8),
      buffer.drop p.model.hdrSize = ((pre ++ [r]).map Record.encode).flatten ++ rest ∧
        w ∈ waypointsOf p pre r := by
  have hsize := length_lt_of_check hcheck
  obtain ⟨result, hresult⟩ := profile_exists_returns (p := p) hsize
  obtain ⟨s, hreach, hstop⟩ := iterate_stop_returns hresult
  obtain ⟨rs, hdrop, hs, -⟩ := profile_reaches_records hsize hreach
  rw [smartParserParseProfile_of_returns hcheck ⟨_, hreach, hstop⟩] at hw
  have hw : w ∈ waypoints (rs.foldl takeRecord (profileStart p)).trace := by
    rw [← hs]
    rcases profileStep_stop_trace hstop with htrace | ⟨-, -, htrace⟩
    · rwa [htrace] at hw
    · rw [htrace] at hw
      simpa [waypoints] using hw
  obtain ⟨pre, r, post, rfl, hmem⟩ := mem_waypoints_foldl (s := profileStart p) rfl hw
  refine ⟨pre, r, (post.map Record.encode).flatten ++ buffer.drop s.offset, ?_, hmem⟩
  rw [hdrop]
  simp

/-! ### Packed deltas

Two signed values share one payload, seven bits and eight.
-/

/-- A byte with its sign. -/
theorem signedChar_toInt (x : BitVec 32) :
    (signedChar (x &&& 0xFF)).toInt = ((x.toNat % 256 : Nat) : Int).bmod 256 := by
  have hlow : (x &&& 0xFF).toNat = x.toNat % 256 := by
    rw [BitVec.toNat_and]
    exact Nat.and_two_pow_sub_one_eq_mod x.toNat 8
  rw [signedChar, BitVec.toInt_signExtend_of_le (by decide), BitVec.toInt_setWidth, hlow]

/-- The last byte of a number. -/
theorem toNat_ofInt_mod (x : Int) :
    (((BitVec.ofInt 32 x).toNat % 256 : Nat) : Int) = x % 256 := by
  rw [BitVec.toNat_ofInt]
  omega

section PressureDepth

variable {a b : List Bool}

/-- The upper byte of the packed delta is the signed pressure delta. -/
theorem signedChar_pressure (ha : a.length = 7) (hb : b.length = 8) :
    signedChar ((BitVec.ofInt 32 (signedOf (a ++ b))).sshiftRight 8 &&& 0xFF) =
      BitVec.ofInt 32 (signedOf a) := by
  have hne : a ≠ [] := by
    rintro rfl
    cases ha
  have hpack := signedOf_append hne b
  have hlow := ofBits_lt b
  obtain ⟨hlo, hhi⟩ := signedOf_bounds (n := 6) ha.le
  rw [hb] at hpack hlow
  have hpacked : (BitVec.ofInt 32 (signedOf (a ++ b))).toInt = signedOf (a ++ b) :=
    BitVec.toInt_ofInt_eq_self (by decide) (by omega) (by omega)
  have hshift : ((BitVec.ofInt 32 (signedOf (a ++ b))).sshiftRight 8) =
      BitVec.ofInt 32 (signedOf a) := by
    apply BitVec.eq_of_toInt_eq
    rw [BitVec.toInt_sshiftRight, hpacked, Int.shiftRight_eq_div_pow,
      BitVec.toInt_ofInt_eq_self (by decide) (by omega) (by omega)]
    omega
  apply BitVec.eq_of_toInt_eq
  rw [hshift, signedChar_toInt, toNat_ofInt_mod,
    BitVec.toInt_ofInt_eq_self (by decide) (by omega) (by omega)]
  rw [Int.bmod_def]
  omega

/-- The lower byte of the packed delta is the signed depth delta. -/
theorem signedChar_depth (ha : a.length = 7) (hb : b.length = 8) :
    signedChar (BitVec.ofInt 32 (signedOf (a ++ b)) &&& 0xFF) = BitVec.ofInt 32 (signedOf b) := by
  have hne : a ≠ [] := by
    rintro rfl
    cases ha
  have hpack := signedOf_append hne b
  have hlow := ofBits_lt b
  have hmod := signedOf_eq_bmod b
  rw [hb] at hpack hlow hmod
  obtain ⟨hlo, hhi⟩ := signedOf_bounds (n := 7) hb.le
  apply BitVec.eq_of_toInt_eq
  rw [signedChar_toInt, toNat_ofInt_mod,
    BitVec.toInt_ofInt_eq_self (by decide) (by omega) (by omega), hmod]
  congr 1
  omega

end PressureDepth

/-! ### One record

What a record does to each accumulator is a reading or nothing.
-/

section Record

variable {m : Model}

/-- The layout of a packed record. -/
theorem pressureDepth_layout {e : DtiEntry} (h : e ∈ m.dtiTable) (ht : e.type = .pressureDepth) :
    e.ntb % 8 = 1 ∧ e.ignore = false ∧ e.extra = 1 := by
  revert e
  cases m <;> decide

/-- Its payload has two parts. -/
theorem Record.exists_payload_append (r : Record m) (ht : r.dti.type = .pressureDepth) :
    ∃ a b, r.payload = a ++ b ∧ a.length = 7 ∧ b.length = 8 := by
  obtain ⟨hntb, hignore, hextra⟩ := pressureDepth_layout r.dti_mem ht
  refine ⟨r.head, bitStream r.body, ?_, ?_, ?_⟩
  · rw [Record.payload, hignore]
    rfl
  · rw [r.length_head, hntb]
  · rw [length_bitStream, r.length_body, hextra]

/-- A reading changes its own accumulator only. -/
theorem accumulator_smartParseDti (q : Quantity) (p : SmartParser) (r : Record m) :
    q.accumulator (smartParseDti p r.call) =
      match r.reading q with
      | none => q.accumulator p
      | some (.absolute v) => q.scale * v
      | some (.delta d) => q.accumulator p + q.scale * d := by
  have hdti : r.call.dti = r.dti := rfl
  by_cases ht : r.dti.type = .pressureDepth
  · obtain ⟨a, b, hpay, ha, hb⟩ := r.exists_payload_append ht
    have hs : r.call.svalue = BitVec.ofInt 32 (signedOf (a ++ b)) := by
      rw [← hpay]
      rfl
    have hp : r.payload.take 7 = a := by rw [hpay, ← ha, List.take_left]
    have hd : r.payload.drop 7 = b := by rw [hpay, ← ha, List.drop_left]
    simp only [smartParseDti, hdti, ht, hs, Record.reading, if_true, signedChar_pressure ha hb,
      signedChar_depth ha hb, hp, hd]
    cases q with
    | depth => exact congrArg (p.depth + ·) (mul_comm _ _)
    | pressure => exact congrArg (p.pressure + ·) (mul_comm _ _)
    | temperature => rfl
    | rbt => rfl
    | heartrate => rfl
  · simp only [smartParseDti, hdti, Record.reading, if_neg ht]
    cases htype : r.dti.type <;> cases q <;> cases habs : r.dti.abs <;>
      simp_all [Quantity.type, Quantity.accumulator, Quantity.scale, Record.call, mul_comm]

/-- An absolute reading sets its flag. -/
theorem seen_smartParseDti (q : Quantity) (p : SmartParser) (r : Record m) :
    q.seen (smartParseDti p r.call) =
      match r.reading q with
      | some (.absolute _) => true
      | _ => q.seen p := by
  have hdti : r.call.dti = r.dti := rfl
  by_cases ht : r.dti.type = .pressureDepth
  · simp only [smartParseDti, hdti, ht, Record.reading, if_true]
    cases q <;> rfl
  · simp only [smartParseDti, hdti, Record.reading, if_neg ht]
    cases htype : r.dti.type <;> cases q <;> cases habs : r.dti.abs <;>
      simp_all [Quantity.type, Quantity.seen]

/-- **Every record moves the accumulators on** by its reading. -/
theorem tracks_smartParseDti {q : Quantity} {p : SmartParser} {h : List (Reading (BitVec 32))}
    (hx : Tracks q.scale q.init h (q.accumulator p) (q.seen p)) (r : Record m) :
    Tracks q.scale q.init (h ++ (r.reading q).toList) (q.accumulator (smartParseDti p r.call))
      (q.seen (smartParseDti p r.call)) := by
  rw [accumulator_smartParseDti, seen_smartParseDti]
  rcases r.reading q with _ | v | d
  · simpa using hx
  · exact Tracks.absolute q.scale q.init h v
  · exact hx.delta d

/-- The last record that sent alarm word `i`. -/
def lastAlarms (i : Fin 3) (rs : List (Record m)) : Option (Record m) :=
  (rs.filter fun r => r.dti.type = .alarms ∧ r.dti.idx = i).getLast?

/-- **The parser follows the records**: the part of its state that lasts from
one waypoint to the next, in terms of the records since the reset. -/
structure Follows (rs : List (Record m)) (p : SmartParser) : Prop where
  tracks : ∀ q : Quantity, Tracks q.scale q.init (readings q rs) (q.accumulator p) (q.seen p)
  dcal : p.dcal = ((firstAbsolute (readings .depth rs)).map (2 * ·)).getD 0
  calibrated : p.calibrated = (firstAbsolute (readings .depth rs)).isSome
  tank : p.tank = (lastTank rs).getD 0
  seen_tank : p.havePressure = (lastTank rs).isSome
  alarms : ∀ i, p.alarms i = ((lastAlarms i rs).map (·.call.value.setWidth 16)).getD 0

/-- A parser that has been reset has seen no record. -/
theorem Follows.start (p : SmartParser) : Follows ([] : List (Record m)) (smartParserReset p) where
  tracks q := by
    cases q <;> exact Tracks.start _ _
  dcal := rfl
  calibrated := rfl
  tank := rfl
  seen_tank := rfl
  alarms _ := rfl

theorem readings_concat (q : Quantity) (rs : List (Record m)) (r : Record m) :
    readings q (rs ++ [r]) = readings q rs ++ (r.reading q).toList := by
  rw [readings, readings, List.filterMap_append]
  rfl

/-- The last tank with one record more. -/
theorem lastTank_concat (rs : List (Record m)) (r : Record m) :
    lastTank (rs ++ [r]) =
      if r.dti.type = .pressure ∧ r.dti.abs then some r.dti.idx else lastTank rs := by
  rw [lastTank, List.filter_append]
  by_cases h : r.dti.type = .pressure ∧ r.dti.abs
  · simp [h]
  · simp only [List.filter_singleton, decide_eq_false h, cond_false, List.append_nil, if_neg h]
    rfl

/-- The last alarms with one record more. -/
theorem lastAlarms_concat (i : Fin 3) (rs : List (Record m)) (r : Record m) :
    lastAlarms i (rs ++ [r]) =
      if r.dti.type = .alarms ∧ r.dti.idx = i then some r else lastAlarms i rs := by
  rw [lastAlarms, List.filter_append]
  by_cases h : r.dti.type = .alarms ∧ r.dti.idx = i
  · simp [h]
  · simp only [List.filter_singleton, decide_eq_false h, cond_false, List.append_nil, if_neg h]
    rfl

/-- The first absolute reading with one record more. -/
theorem firstAbsolute_readings_concat (q : Quantity) (rs : List (Record m)) (r : Record m) :
    firstAbsolute (readings q (rs ++ [r])) =
      (firstAbsolute (readings q rs)).or ((r.reading q).bind Reading.value) := by
  rw [readings_concat]
  rcases r.reading q with _ | v | d
  · simp
  · simp [Reading.value]
  · simp [Reading.value]

/-- An absolute depth is the only reading with a value among those of the
depth. -/
theorem depth_value (r : Record m) :
    (r.reading .depth).bind Reading.value =
      if r.dti.type = .depth ∧ r.dti.abs then some r.call.value else none := by
  rw [Record.reading]
  by_cases ht : r.dti.type = .pressureDepth
  · simp [ht, Reading.value]
  · by_cases hd : r.dti.type = .depth
    · cases habs : r.dti.abs <;> simp [hd, Quantity.type, Reading.value, Record.call]
    · simp [ht, hd, Quantity.type]

/-- **A record keeps the parser in step.** -/
theorem Follows.smartParseDti {rs : List (Record m)} {p : SmartParser} (hp : Follows rs p)
    (r : Record m) : Follows (rs ++ [r]) (smartParseDti p r.call) where
  tracks q := by
    rw [readings_concat]
    exact tracks_smartParseDti (hp.tracks q) r
  dcal := by
    have hdti : r.call.dti = r.dti := rfl
    have hdcal := hp.dcal
    have hcal := hp.calibrated
    rw [firstAbsolute_readings_concat, depth_value, BenthosDc.smartParseDti, hdti]
    cases h : firstAbsolute (readings .depth rs) <;> cases ht : r.dti.type <;>
      cases habs : r.dti.abs <;> simp_all [mul_comm]
  calibrated := by
    have hdti : r.call.dti = r.dti := rfl
    have hcal := hp.calibrated
    rw [firstAbsolute_readings_concat, depth_value, BenthosDc.smartParseDti, hdti]
    cases ht : r.dti.type <;> cases habs : r.dti.abs <;> simp_all
  tank := by
    have hdti : r.call.dti = r.dti := rfl
    have htank := hp.tank
    rw [lastTank_concat, BenthosDc.smartParseDti, hdti]
    cases ht : r.dti.type <;> cases habs : r.dti.abs <;> simp_all
  seen_tank := by
    have hdti : r.call.dti = r.dti := rfl
    have htank := hp.seen_tank
    rw [lastTank_concat, BenthosDc.smartParseDti, hdti]
    cases ht : r.dti.type <;> cases habs : r.dti.abs <;> simp_all
  alarms i := by
    have hdti : r.call.dti = r.dti := rfl
    have halarms := hp.alarms i
    rw [lastAlarms_concat, BenthosDc.smartParseDti, hdti]
    by_cases ht : r.dti.type = .alarms
    · rw [ht]
      by_cases hi : i = r.dti.idx
      · subst hi
        simp
      · simp [Function.update_of_ne hi, Ne.symm hi, halarms]
    · cases habs : r.dti.abs <;> cases htype : r.dti.type <;> simp_all

/-- The passes of the sample loop leave the lasting part of the state alone. -/
theorem Follows.waypointNext {rs : List (Record m)} {p : SmartParser} (hp : Follows rs p) :
    Follows rs (waypointNext p) where
  tracks q := by
    cases q <;> exact hp.tracks _
  dcal := hp.dcal
  calibrated := hp.calibrated
  tank := hp.tank
  seen_tank := hp.seen_tank
  alarms := hp.alarms

/-- So do the waypoints that it completes. -/
theorem Follows.iterate {rs : List (Record m)} {p : SmartParser} (hp : Follows rs p) (k : Nat) :
    Follows rs (BenthosDc.waypointNext^[k] p) := by
  induction k generalizing p with
  | zero => exact hp
  | succ k ih => exact ih hp.waypointNext

/-! ### Between two waypoints

A waypoint clears two flags, so that they tell of the records since then.
-/

/-- The part of the parser state that a waypoint clears, in terms of the
records since the previous waypoint. -/
structure Pending (rs : List (Record m)) (p : SmartParser) : Prop where
  haveBearing : p.haveBearing = rs.any (·.dti.type = .bearing)
  haveAlarms : p.haveAlarms = rs.any (·.dti.type = .alarms)

theorem Pending.smartParseDti {rs : List (Record m)} {p : SmartParser} (hp : Pending rs p)
    (r : Record m) : Pending (rs ++ [r]) (smartParseDti p r.call) where
  haveBearing := by
    have hdti : r.call.dti = r.dti := rfl
    rw [List.any_append, ← hp.haveBearing, BenthosDc.smartParseDti, hdti]
    cases ht : r.dti.type <;> cases habs : r.dti.abs <;> simp [ht]
  haveAlarms := by
    have hdti : r.call.dti = r.dti := rfl
    rw [List.any_append, ← hp.haveAlarms, BenthosDc.smartParseDti, hdti]
    cases ht : r.dti.type <;> cases habs : r.dti.abs <;> simp [ht]

/-- Behind a waypoint there are no records yet. -/
theorem Pending.waypointNext (p : SmartParser) :
    Pending ([] : List (Record m)) (waypointNext p) where
  haveBearing := rfl
  haveAlarms := rfl

/-- The number of waypoints that a record completes. -/
theorem complete_smartParseDti {p : SmartParser} (hp : p.complete = 0) (r : Record m) :
    (smartParseDti p r.call).complete = r.completes := by
  have hdti : r.call.dti = r.dti := rfl
  have hbyte : (r.call.value.setWidth 8).toNat = ofBits r.payload % 256 := by
    show ((BitVec.ofNat 32 (ofBits r.payload)).setWidth 8).toNat = _
    rw [BitVec.toNat_setWidth, BitVec.toNat_ofNat]
    omega
  rw [smartParseDti, hdti, Record.completes]
  cases ht : r.dti.type <;> cases habs : r.dti.abs <;> simp [hp, hbyte]

/-- The loop is an iteration. -/
theorem sampleLoop_eq (n : Nat) (p : SmartParser) :
    sampleLoop n p =
      (waypointNext^[n] p, (List.range n).map fun k => waypointTokens (waypointNext^[k] p)) := by
  induction n generalizing p with
  | zero => rfl
  | succ n ih =>
    rw [sampleLoop, ih, List.range_succ_eq_map, List.map_cons, List.map_map]
    rfl

/-- Each waypoint counts down by one. -/
theorem complete_iterate (k : Nat) (p : SmartParser) :
    (waypointNext^[k] p).complete = p.complete - k := by
  induction k generalizing p with
  | zero => rfl
  | succ k ih =>
    rw [Function.iterate_succ_apply, ih]
    show p.complete - 1 - k = p.complete - (k + 1)
    omega

theorem recordsSince_concat (rs : List (Record m)) (r : Record m) :
    recordsSince (rs ++ [r]) = if r.completes = 0 then recordsSince rs ++ [r] else [] := by
  rw [recordsSince, List.rtakeWhile_concat]
  simp only [decide_eq_true_eq]
  rfl

/-- Waypoint `k` of the record `r`, in front of which the parser is in a state
that follows all records, with the fresh ones pending. -/
theorem follows_pending_iterate {pre : List (Record m)} {p : SmartParser} (hf : Follows pre p)
    (hp : Pending (recordsSince pre) p) (r : Record m) (k : Nat) :
    Follows (pre ++ [r]) (waypointNext^[k] (smartParseDti p r.call)) ∧
      Pending (freshRecords pre r k) (waypointNext^[k] (smartParseDti p r.call)) := by
  refine ⟨(hf.smartParseDti r).iterate k, ?_⟩
  cases k with
  | zero => exact hp.smartParseDti r
  | succ k =>
    rw [Function.iterate_succ_apply']
    exact Pending.waypointNext _

/-- **The invariant of a whole run.** -/
theorem parserAfter_follows (p : SmartParser) (rs : List (Record m)) :
    Follows rs (parserAfter (smartParserReset p) rs) ∧
      Pending (recordsSince rs) (parserAfter (smartParserReset p) rs) ∧
      (parserAfter (smartParserReset p) rs).complete = 0 := by
  induction rs using List.reverseRecOn with
  | nil => exact ⟨Follows.start p, ⟨rfl, rfl⟩, rfl⟩
  | append_singleton rs r ih =>
    obtain ⟨hf, hp, hc⟩ := ih
    have hcomplete := complete_smartParseDti hc r
    obtain ⟨hf', hp'⟩ := follows_pending_iterate hf hp r r.completes
    rw [parserAfter_concat, processCall]
    rw [sampleLoop_eq, hcomplete]
    refine ⟨hf', ?_, ?_⟩
    · rw [recordsSince_concat]
      rw [freshRecords] at hp'
      exact hp'
    · rw [complete_iterate, hcomplete, Nat.sub_self]

/-- The waypoints of a record. -/
theorem getElem?_waypointsOf {p : SmartParser} {pre : List (Record m)} {r : Record m} {k : Nat}
    {w : List Waypoint} (h : (waypointsOf (smartParserReset p) pre r)[k]? = some w) :
    ∃ q, Follows (pre ++ [r]) q ∧ Pending (freshRecords pre r k) q ∧ w = waypointTokens q := by
  obtain ⟨hf, hp, hc⟩ := parserAfter_follows p pre
  obtain ⟨hf', hp'⟩ := follows_pending_iterate hf hp r k
  refine ⟨_, hf', hp', ?_⟩
  rw [waypointsOf, processCall] at h
  rw [sampleLoop_eq, List.getElem?_map] at h
  obtain ⟨j, hj, rfl⟩ := Option.map_eq_some_iff.mp h
  obtain ⟨hlt, rfl⟩ := List.getElem?_eq_some_iff.mp hj
  rw [List.getElem_range]

/-- As many waypoints as the record completes. -/
theorem length_waypointsOf (p : SmartParser) (pre : List (Record m)) (r : Record m) :
    (waypointsOf (smartParserReset p) pre r).length = r.completes := by
  obtain ⟨-, -, hc⟩ := parserAfter_follows p pre
  rw [waypointsOf, processCall]
  rw [sampleLoop_eq, List.length_map, List.length_range, complete_smartParseDti hc]

/-! ### Reported quantities

The tokens of a waypoint, compared with the readings in front of it.
-/

/-- The entries of a waypoint with token `t`. -/
def tokensOf (t : WaypointToken) (w : List Waypoint) : List Waypoint := w.filter (·.token = t)

/-- The entry for bit `j` of alarm word `i`. -/
theorem mem_alarmToken {p : SmartParser} {i : Fin 3} {j : Nat} {x : Waypoint}
    (h : x ∈ alarmToken p i j) :
    p.alarms i &&& 1#16 <<< j = 1#16 <<< j ∧ x.token = .alarm ∧ x.value = BitVec.ofNat 32 j ∧
      x.index = i := by
  rw [alarmToken] at h
  split at h
  case isFalse => cases h
  case isTrue hbit =>
    refine ⟨hbit, ?_⟩
    split at h
    · rw [List.mem_singleton.mp h]
      exact ⟨rfl, rfl, rfl⟩
    · rw [List.mem_singleton.mp h]
      exact ⟨rfl, rfl, rfl⟩

/-- An alarm token is one of a bit. -/
theorem mem_alarmTokens {p : SmartParser} {x : Waypoint} :
    x ∈ alarmTokens p ↔ ∃ i, ∃ j < 9, x ∈ alarmToken p i j := by
  simp [alarmTokens]

/-- All of them are alarms. -/
theorem alarmTokens_token {p : SmartParser} {x : Waypoint} (h : x ∈ alarmTokens p) :
    x.token = .alarm := by
  obtain ⟨i, j, -, hx⟩ := mem_alarmTokens.mp h
  exact (mem_alarmToken hx).2.1

/-- A waypoint has an entry for each quantity that is shown, and no other. -/
theorem tokensOf_waypointTokens (p : SmartParser) :
    tokensOf .depth (waypointTokens p) =
        (if p.haveDepth then [⟨.depth, p.depth - p.dcal, 0, none⟩] else []) ∧
      tokensOf .temp (waypointTokens p) =
        (if p.haveTemp then [⟨.temp, p.temp, 0, none⟩] else []) ∧
      tokensOf .px (waypointTokens p) =
        (if p.havePressure then [⟨.px, p.pressure, p.tank, none⟩] else []) ∧
      tokensOf .rbt (waypointTokens p) =
        (if p.haveRbt then [⟨.rbt, p.rbt, 0, none⟩] else []) ∧
      tokensOf .heartrate (waypointTokens p) =
        (if p.haveHeartrate then [⟨.heartrate, p.heartrate, 0, none⟩] else []) ∧
      tokensOf .bearing (waypointTokens p) =
        (if p.haveBearing then [⟨.bearing, p.bearing, 0, none⟩] else []) := by
  have hfilter : ∀ (t : WaypointToken) (b : Bool) (l : List Waypoint),
      (if b then l else []).filter (fun w => decide (w.token = t)) =
        if b then tokensOf t l else [] := by
    intro t b l
    cases b <;> rfl
  simp only [tokensOf, waypointTokens, List.filter_append, hfilter]
  refine ⟨?_, ?_, ?_, ?_, ?_, ?_⟩ <;>
  · simp only [List.filter_cons, List.filter_nil, decide_true, decide_false, reduceCtorEq,
      if_true, if_false, Bool.false_eq_true, ite_self, List.nil_append, List.append_nil,
      List.append_right_eq_self, ite_eq_right_iff, List.filter_eq_nil_iff, decide_eq_true_eq]
    intro _ x hx
    rw [alarmTokens_token hx]
    decide

/-- What a waypoint says after the records `rs` since the reset, the records
`fresh` of them since the previous waypoint. -/
structure ReportsQuantities (rs fresh : List (Record m)) (w : List Waypoint) : Prop where
  temp : tokensOf .temp w =
    ((current (readings .temperature rs)).map fun v => ⟨.temp, 40 * v, 0, none⟩).toList
  px : tokensOf .px w =
    match current (readings .pressure rs), lastTank rs with
    | some v, some tank => [⟨.px, 250 * v, tank, none⟩]
    | _, _ => []
  rbt : tokensOf .rbt w =
    ((current (readings .rbt rs)).map fun v => ⟨.rbt, v, 0, none⟩).toList
  heartrate : tokensOf .heartrate w =
    ((current (readings .heartrate rs)).map fun v => ⟨.heartrate, v, 0, none⟩).toList
  depth : tokensOf .depth w =
    match current (readings .depth rs), firstAbsolute (readings .depth rs) with
    | some v, some v₀ => [⟨.depth, 2 * v - 2 * v₀, 0, none⟩]
    | _, _ => []
  bearing : tokensOf .bearing w ≠ [] ↔ ∃ b ∈ fresh, b.dti.type = .bearing

/-- A quantity is shown, in its unit, once it has a current value. -/
theorem Follows.map_current {rs : List (Record m)} {p : SmartParser} (hp : Follows rs p)
    (q : Quantity) :
    (current (readings q rs)).map (q.scale * ·) =
      if q.seen p then some (q.accumulator p) else none :=
  (hp.tracks q).map_current

/-- The entry of a quantity that is shown in its unit. -/
theorem entry_eq {h : List (Reading (BitVec 32))} {k x : BitVec 32} {shown : Bool}
    (f : BitVec 32 → Waypoint) (hx : (current h).map (k * ·) = if shown then some x else none) :
    (if shown then [f x] else []) = ((current h).map fun v => f (k * v)).toList := by
  cases hc : current h with
  | none =>
    cases shown with
    | false => rfl
    | true =>
      rw [hc] at hx
      cases hx
  | some v =>
    cases shown with
    | false =>
      rw [hc] at hx
      cases hx
    | true =>
      rw [hc] at hx
      obtain rfl : k * v = x := Option.some.inj hx
      rfl

/-- **Reported quantities follow the records.**  At each waypoint the tokens
say what the absolute and delta records since the reset add up to. -/
theorem waypointsOf_reportsQuantities (p : SmartParser) (pre : List (Record p.model))
    (r : Record p.model) (k : Nat) (w : List Waypoint)
    (hw : (waypointsOf (smartParserReset p) pre r)[k]? = some w) :
    ReportsQuantities (pre ++ [r]) (freshRecords pre r k) w := by
  obtain ⟨q, hf, hp, rfl⟩ := getElem?_waypointsOf hw
  obtain ⟨hdepth, htemp, hpx, hrbt, hheartrate, hbearing⟩ := tokensOf_waypointTokens q
  refine ⟨?_, ?_, ?_, ?_, ?_, ?_⟩
  · rw [htemp]
    exact entry_eq (⟨.temp, ·, 0, none⟩) (hf.map_current .temperature)
  · have hseen : (lastTank (pre ++ [r])).isSome =
        (current (readings .pressure (pre ++ [r]))).isSome := by
      rw [← hf.seen_tank, current_isSome]
      exact (hf.tracks .pressure).seen_eq
    rw [hpx]
    apply (entry_eq (⟨.px, ·, q.tank, none⟩) (hf.map_current .pressure)).trans
    rw [hf.tank]
    cases hc : current (readings .pressure (pre ++ [r])) with
    | none => rfl
    | some v =>
      rw [hc] at hseen
      obtain ⟨tank, ht⟩ := Option.isSome_iff_exists.mp hseen
      rw [ht]
      rfl
  · rw [hrbt]
    apply (entry_eq (⟨.rbt, ·, 0, none⟩) (hf.map_current .rbt)).trans
    simp only [Quantity.scale, one_mul]
  · rw [hheartrate]
    apply (entry_eq (⟨.heartrate, ·, 0, none⟩) (hf.map_current .heartrate)).trans
    simp only [Quantity.scale, one_mul]
  · rw [hdepth]
    apply (entry_eq (fun v => ⟨.depth, v - q.dcal, 0, none⟩) (hf.map_current .depth)).trans
    have hfirst := firstAbsolute_isSome (readings .depth (pre ++ [r]))
    rw [hf.dcal]
    cases hc : current (readings .depth (pre ++ [r])) with
    | none => rfl
    | some v =>
      rw [hc] at hfirst
      obtain ⟨v₀, hv₀⟩ := Option.isSome_iff_exists.mp hfirst
      rw [hv₀]
      rfl
  · rw [hbearing, hp.haveBearing]
    simp

end Record

/-- A Smart Pro with its first records. -/
theorem waypointsOf_reportsQuantities_smartPro :
    ReportsQuantities smartProRecords (freshRecords (smartProRecords.take 1) smartProRecords[1] 0)
      [⟨.time, 0, 0, none⟩, ⟨.depth, 0, 0, none⟩] :=
  waypointsOf_reportsQuantities default (smartProRecords.take 1) smartProRecords[1] 0
    [⟨.time, 0, 0, none⟩, ⟨.depth, 0, 0, none⟩] (by decide +kernel)

/-! ### Alarms

A word of alarms is not cleared by a waypoint.  An alarm is stale if its word was sent before
the waypoint in front of it.
-/

section Alarms

variable {m : Model}

/-- The alarm at bit `j` of word `i` was sent by one of the records `rs`. -/
def SentBy (rs : List (Record m)) (i j : Nat) : Prop :=
  ∃ a ∈ rs, a.dti.type = .alarms ∧ a.dti.idx = i ∧ (ofBits a.payload).testBit j

instance (rs : List (Record m)) (i j : Nat) : Decidable (SentBy rs i j) :=
  inferInstanceAs (Decidable (∃ a ∈ rs, _))

/-- Every alarm at a waypoint was sent since the previous waypoint. -/
def NoStaleAlarms (p : SmartParser) (rs : List (Record p.model)) : Prop :=
  ∀ pre r post, rs = pre ++ r :: post →
    ∀ (k : Nat) (w : List Waypoint), (waypointsOf (smartParserReset p) pre r)[k]? = some w →
      ∀ x ∈ w, x.token = .alarm → SentBy (freshRecords pre r k) x.index x.value.toNat

/-- Where a waypoint comes after an alarm record, each alarm word that has not
been sent since the previous waypoint was last sent without an alarm. -/
def AlarmsRefreshed (rs : List (Record m)) : Prop :=
  ∀ pre r post, rs = pre ++ r :: post → 0 < r.completes →
    (∃ a ∈ recordsSince pre, a.dti.type = .alarms) →
      ∀ i, (∀ a ∈ recordsSince pre, ¬(a.dti.type = .alarms ∧ a.dti.idx = i)) →
        ∀ old, lastAlarms i pre = some old → ∀ j < 9, ¬(ofBits old.payload).testBit j

/-- A bit of a word. -/
theorem alarm_bit_iff (x : BitVec 16) {j : Nat} (hj : j < 16) :
    x &&& 1#16 <<< j = 1#16 <<< j ↔ x.getLsbD j = true := by
  have hmask : ∀ i, (1#16 <<< j).getLsbD i = decide (i = j) := by
    intro i
    simp only [BitVec.getLsbD_shiftLeft, BitVec.getLsbD_one]
    by_cases hi : i = j
    · simp [hi, hj]
    · simp [hi]
      omega
  constructor
  · intro h
    have := congrArg (fun v : BitVec 16 => v.getLsbD j) h
    simpa [BitVec.getLsbD_and, hmask] using this
  · intro h
    apply BitVec.eq_of_getLsbD_eq
    intro i _
    rw [BitVec.getLsbD_and, hmask]
    by_cases hi : i = j
    · simp [hi, h]
    · simp [hi]

/-- Bit `j` of alarm word `i`, in terms of the record that sent it last. -/
theorem Follows.alarm_bit {rs : List (Record m)} {p : SmartParser} (hp : Follows rs p) (i : Fin 3)
    {j : Nat} (hj : j < 9) :
    p.alarms i &&& 1#16 <<< j = 1#16 <<< j ↔
      ∃ a, lastAlarms i rs = some a ∧ (ofBits a.payload).testBit j := by
  rw [alarm_bit_iff _ (by omega), hp.alarms i]
  cases h : lastAlarms i rs with
  | none => simp
  | some a =>
    have hbit : (r : Record m) → ((r.call.value.setWidth 16).getLsbD j) =
        (ofBits r.payload).testBit j := by
      intro r
      show (((BitVec.ofNat 32 (ofBits r.payload)).setWidth 16).getLsbD j) = _
      rw [BitVec.getLsbD_setWidth, BitVec.getLsbD_ofNat]
      simp [show j < 16 by omega, show j < 32 by omega]
    simp [hbit]

/-- The record with the last word of alarms. -/
theorem mem_lastAlarms {i : Fin 3} {rs : List (Record m)} {a : Record m}
    (h : lastAlarms i rs = some a) : a ∈ rs ∧ a.dti.type = .alarms ∧ a.dti.idx = i := by
  simpa using List.mem_filter.mp (List.mem_of_getLast? h)

/-- Where an alarm word was sent since the previous waypoint, it was sent last
since the previous waypoint. -/
theorem lastAlarms_mem_recordsSince {i : Fin 3} {rs : List (Record m)} {a b : Record m}
    (hb : b ∈ recordsSince rs) (hbi : b.dti.type = .alarms ∧ b.dti.idx = i)
    (h : lastAlarms i rs = some a) : a ∈ recordsSince rs := by
  obtain ⟨front, hfront⟩ : recordsSince rs <:+ rs := List.rtakeWhile_suffix _ _
  have hne : lastAlarms i (recordsSince rs) ≠ none := by
    rw [lastAlarms, Ne, List.getLast?_eq_none_iff, List.filter_eq_nil_iff]
    intro hnone
    exact hnone b hb (by simpa using hbi)
  obtain ⟨c, hc⟩ := Option.ne_none_iff_exists'.mp hne
  have hlast : lastAlarms i rs = some c := by
    rw [← hfront, lastAlarms, List.filter_append, List.getLast?_append]
    rw [lastAlarms] at hc
    rw [hc]
    rfl
  rw [hlast] at h
  obtain rfl : c = a := Option.some.inj h
  exact (mem_lastAlarms hc).1

/-- A record that completes a waypoint is none of alarms. -/
theorem type_ne_alarms {r : Record m} (h : 0 < r.completes) : r.dti.type ≠ .alarms := by
  intro ht
  rw [Record.completes, ht] at h
  exact lt_irrefl 0 h

/-- The alarms of a waypoint. -/
theorem mem_waypointTokens_alarm {p : SmartParser} {x : Waypoint} (ht : x.token = .alarm) :
    x ∈ waypointTokens p ↔ p.haveAlarms ∧ x ∈ alarmTokens p := by
  have hother : ∀ t : WaypointToken, t ≠ .alarm → ∀ (v : BitVec 32) (i : Nat)
      (n : Option String), x ≠ ⟨t, v, i, n⟩ := by
    intro t hne v i n hx
    rw [hx] at ht
    exact hne ht
  have hshown : ∀ t : WaypointToken, t ≠ .alarm → ∀ (b : Bool) (v : BitVec 32) (i : Nat)
      (n : Option String), x ∉ (if b then [⟨t, v, i, n⟩] else []) := by
    intro t hne b v i n hx
    cases b with
    | false => cases hx
    | true => exact hother t hne v i n (List.mem_singleton.mp hx)
  simp only [waypointTokens, List.mem_append, List.mem_singleton, hother .time (by decide),
    hshown .depth (by decide), hshown .temp (by decide), hshown .px (by decide),
    hshown .rbt (by decide), hshown .heartrate (by decide), hshown .bearing (by decide), false_or]
  cases p.haveAlarms with
  | false => simp
  | true => simp

/-- Where no alarm is stale, an old word holds none. -/
theorem NoStaleAlarms.refreshed {p : SmartParser} {rs : List (Record p.model)}
    (hstale : NoStaleAlarms p rs) : AlarmsRefreshed rs := by
  intro pre r post hrs hr ⟨a, ha, hat⟩ i hi old hold j hj hbit
  -- the first waypoint of `r` shows the alarm
  obtain ⟨w, hw⟩ : ∃ w, (waypointsOf (smartParserReset p) pre r)[0]? = some w := by
    refine ⟨_, List.getElem?_eq_getElem ?_⟩
    rwa [length_waypointsOf]
  obtain ⟨q, hf, hp, hwq⟩ := getElem?_waypointsOf hw
  have hshown : q.haveAlarms = true := by
    rw [hp.haveAlarms, freshRecords, if_pos rfl, List.any_append, Bool.or_eq_true]
    exact .inl (List.any_eq_true.mpr ⟨a, ha, by simpa using hat⟩)
  have hlast : lastAlarms i (pre ++ [r]) = some old := by
    rw [lastAlarms_concat, if_neg fun h => type_ne_alarms hr h.1, hold]
  have hword := (hf.alarm_bit i hj).mpr ⟨old, hlast, hbit⟩
  obtain ⟨name, hx⟩ : ∃ name, (⟨.alarm, BitVec.ofNat 32 j, i, name⟩ : Waypoint) ∈
      alarmToken q i j := by
    rw [alarmToken, if_pos hword]
    split
    · exact ⟨_, List.mem_singleton_self _⟩
    · exact ⟨_, List.mem_singleton_self _⟩
  have hmem : (⟨.alarm, BitVec.ofNat 32 j, i, name⟩ : Waypoint) ∈ w := by
    rw [hwq, mem_waypointTokens_alarm rfl]
    exact ⟨hshown, mem_alarmTokens.mpr ⟨i, j, hj, hx⟩⟩
  obtain ⟨b, hb, hbt, hbi, -⟩ := hstale pre r post hrs 0 w hw _ hmem rfl
  rw [freshRecords, if_pos rfl, List.mem_append, List.mem_singleton] at hb
  rcases hb with hb | rfl
  · exact hi b hb ⟨hbt, Fin.ext hbi⟩
  · exact type_ne_alarms hr hbt

/-- And the other way round. -/
theorem AlarmsRefreshed.noStale {p : SmartParser} {rs : List (Record p.model)}
    (hfresh : AlarmsRefreshed rs) : NoStaleAlarms p rs := by
  intro pre r post hrs k w hw x hx ht
  obtain ⟨q, hf, hp, rfl⟩ := getElem?_waypointsOf hw
  have hr : 0 < r.completes := by
    rw [← length_waypointsOf p pre r]
    exact (Nat.zero_le k).trans_lt (List.getElem?_eq_some_iff.mp hw).1
  obtain ⟨hshown, hx⟩ := (mem_waypointTokens_alarm ht).mp hx
  obtain ⟨i, j, hj, hx⟩ := mem_alarmTokens.mp hx
  obtain ⟨hword, -, hvalue, hindex⟩ := mem_alarmToken hx
  obtain ⟨old, hold, hbit⟩ := (hf.alarm_bit i hj).mp hword
  rw [lastAlarms_concat, if_neg fun h => type_ne_alarms hr h.1] at hold
  -- the flag is up, so this is the first waypoint of `r` and an alarm record came before it
  rw [hp.haveAlarms, List.any_eq_true] at hshown
  obtain ⟨a, ha, hat⟩ := hshown
  have hat : a.dti.type = .alarms := by simpa using hat
  have hk : k = 0 := by
    by_contra hk
    rw [freshRecords, if_neg hk] at ha
    cases ha
  rw [freshRecords, if_pos hk, List.mem_append, List.mem_singleton] at ha
  have ha : a ∈ recordsSince pre := by
    rcases ha with ha | rfl
    · exact ha
    · exact absurd hat (type_ne_alarms hr)
  have hsent : ∃ b ∈ recordsSince pre, b.dti.type = .alarms ∧ b.dti.idx = i := by
    by_contra hnone
    refine hfresh pre r post hrs hr ⟨a, ha, hat⟩ i ?_ old hold j hj hbit
    exact fun b hb hbi => hnone ⟨b, hb, hbi⟩
  obtain ⟨b, hb, hbi⟩ := hsent
  obtain ⟨-, holdt, holdi⟩ := mem_lastAlarms hold
  refine ⟨old, ?_, holdt, ?_, ?_⟩
  · rw [freshRecords, if_pos hk]
    exact List.mem_append_left _ (lastAlarms_mem_recordsSince hb hbi hold)
  · rw [hindex, holdi]
  · rw [hvalue, BitVec.toNat_ofNat, Nat.mod_eq_of_lt (by omega)]
    exact hbit

/-- **Stale alarms.**  The alarm words are never cleared, so a run reports only
fresh alarms exactly if none of its waypoints finds an old one. -/
theorem noStaleAlarms_iff (p : SmartParser) (rs : List (Record p.model)) :
    NoStaleAlarms p rs ↔ AlarmsRefreshed rs :=
  ⟨NoStaleAlarms.refreshed, AlarmsRefreshed.noStale⟩

/-- A Galileo Sol parser. -/
def galileoSolParser : SmartParser :=
  { (default : SmartParser) with
    dev := { (default : SmartDeviceBase) with model := Model.galileoSol.number }
    model := .galileoSol
    dev_model := rfl }

/-- An alarm in word 0, a waypoint, no alarm in word 1, a waypoint. -/
def staleAlarmRecords : List (Record .galileoSol) :=
  [⟨⟨6, by decide⟩, [false, false, false, true], [], rfl, List.length_nil⟩,
   ⟨⟨0, by decide⟩, [false, false, false, false, false, false, false], [], rfl, List.length_nil⟩,
   ⟨⟨7, by decide⟩, [], [0x00], rfl, rfl⟩,
   ⟨⟨0, by decide⟩, [false, false, false, false, false, false, false], [], rfl, List.length_nil⟩]

/-- The second waypoint repeats the alarm of the first one. -/
theorem not_noStaleAlarms_galileoSol :
    ¬∀ (p : SmartParser) (rs : List (Record p.model)), NoStaleAlarms p rs := by
  intro h
  have hstale := h galileoSolParser staleAlarmRecords (staleAlarmRecords.take 3)
    staleAlarmRecords[3] [] rfl 0 [⟨.time, 4, 0, none⟩, ⟨.alarm, 0, 0, some "alarm0-0"⟩]
    (by decide +kernel) ⟨.alarm, 0, 0, some "alarm0-0"⟩ (by simp) rfl
  exact absurd hstale (by decide +kernel)

end Alarms

end BenthosDc

/-
BenthosDc/DiveTimes.lean

The times of a dive.

The time of a waypoint is not in the profile: it is counted by the passes of the sample
loop, which a record of depth runs once and a record of time as often as it says.
`Clocked` is what the records since a reset leave in the parser, and it is kept by each
record.  The start time is the distance of two ticks of the device, taken from the clock
of the host; the sums wrap around, and the wraps cancel.

* `waypointClock`: waypoint `k` since a reset is the one at `4 * k` seconds.
* `startTime_exact`: the start time of a dive.

A reset sets the count back to zero, and nothing else does: parsing a header leaves it, and a
second profile without a reset goes on where the first one has stopped.  So the time of a
waypoint is told by the calls since the last reset (`callEvents`).
-/
import BenthosDc.SmartParserReset
import BenthosDc.SmartPlugin
import BenthosDc.Waypoints
import Mathlib.Data.List.SplitBy

namespace BenthosDc

open Bits Loop

/-! ### Waypoints in a stream of tokens -/

/-- The waypoints that an application makes of the calls of its callback: each TIME
begins one. -/
def gatherWaypoints (calls : List Waypoint) : List (List Waypoint) :=
  calls.splitBy fun _ x => x.token ≠ .time

/-- A waypoint at the time `t`. -/
def OpensAt (t : BitVec 32) (w : List Waypoint) : Prop :=
  ∃ rest, w = ⟨.time, t, 0, none⟩ :: rest ∧ ∀ x ∈ rest, x.token ≠ .time

/-- The tokens of a waypoint begin with its time. -/
theorem opensAt_waypointTokens (p : SmartParser) : OpensAt p.time (waypointTokens p) := by
  have hshown : ∀ (b : Bool) (t : WaypointToken) (v : BitVec 32) (i : Nat), t ≠ .time →
      ∀ x ∈ (if b then [⟨t, v, i, none⟩] else [] : List Waypoint), x.token ≠ .time := by
    intro b t v i ht x hx
    cases b with
    | false => cases hx
    | true =>
      rw [List.mem_singleton.mp hx]
      exact ht
  -- TIME comes first, and each of the other tokens only if its quantity has been seen
  refine ⟨(waypointTokens p).tail, rfl, ?_⟩
  intro x hx
  simp only [waypointTokens, List.cons_append, List.nil_append, List.tail_cons,
    List.mem_append] at hx
  rcases hx with (((((hx | hx) | hx) | hx) | hx) | hx) | hx
  · exact hshown _ _ _ _ (by decide) x hx
  · exact hshown _ _ _ _ (by decide) x hx
  · exact hshown _ _ _ _ (by decide) x hx
  · exact hshown _ _ _ _ (by decide) x hx
  · exact hshown _ _ _ _ (by decide) x hx
  · exact hshown _ _ _ _ (by decide) x hx
  · split at hx
    case isTrue =>
      rw [alarmTokens_token hx]
      decide
    case isFalse => cases hx

/-- **The stream of tokens falls into the waypoints** that it was made of. -/
theorem gatherWaypoints_flatten {ws : List (List Waypoint)} (h : ∀ w ∈ ws, ∃ t, OpensAt t w) :
    gatherWaypoints ws.flatten = ws := by
  apply List.splitBy_flatten
  · intro hnil
    obtain ⟨t, rest, hw, -⟩ := h [] hnil
    cases hw
  · intro w hw
    obtain ⟨t, rest, rfl, hrest⟩ := h w hw
    apply List.Pairwise.isChain
    rw [List.pairwise_cons]
    exact ⟨fun x hx => by simpa using hrest x hx,
      List.pairwise_of_forall_mem_list fun _ _ x hx => by simpa using hrest x hx⟩
  · apply List.Pairwise.isChain
    apply List.pairwise_of_forall_mem_list
    intro a ha b hb
    obtain ⟨t, rest, rfl, -⟩ := h a ha
    obtain ⟨t', rest', rfl, -⟩ := h b hb
    exact ⟨List.cons_ne_nil _ _, List.cons_ne_nil _ _, rfl⟩

/-! ### The count of a record -/

/-- The number of waypoints that a record is to complete. -/
def DtiCall.completes (c : DtiCall) : Nat :=
  match c.dti.type with
  | .pressureDepth | .depth => 1
  | .time => c.value.toNat
  | _ => 0

section Record

variable {m : Model}

/-- A record of time has one byte for its number at most. -/
theorem time_layout {e : DtiEntry} (h : e ∈ m.dtiTable) (ht : e.type = .time) :
    (8 - e.ntb % 8) % 8 + 8 * e.extra ≤ 8 := by
  revert e
  cases m <;> decide

/-- The time of a record fits into the counter. -/
theorem Record.value_time_lt (r : Record m) (ht : r.dti.type = .time) :
    ofBits r.payload < 256 := by
  have hlayout := time_layout r.dti_mem ht
  have hlen : r.payload.length ≤ 8 := by
    rw [Record.payload, List.length_append, length_bitStream, r.length_body]
    have hhead : (if r.dti.ignore then [] else r.head).length ≤ r.head.length := by
      split
      · exact Nat.zero_le _
      · exact le_rfl
    rw [r.length_head] at hhead
    omega
  exact (ofBits_lt r.payload).trans_le (Nat.pow_le_pow_right (by decide) hlen)

/-- The call that a record makes runs the loop as often as the record says. -/
theorem Record.completes_call (r : Record m) : r.call.completes = r.completes := by
  have hdti : r.call.dti = r.dti := rfl
  rw [DtiCall.completes, Record.completes, hdti]
  cases ht : r.dti.type with
  | time =>
    have hlt := r.value_time_lt ht
    show (BitVec.ofNat 32 (ofBits r.payload)).toNat = ofBits r.payload % 256
    rw [BitVec.toNat_ofNat]
    omega
  | _ => rfl

end Record

/-! ### The clock -/

/-- What the calls of `smart_parse_dti` complete together. -/
def completed (calls : List DtiCall) : Nat := (calls.map DtiCall.completes).sum

/-- **The invariant of the profile loop**, for the events since the reset. -/
structure Clocked (trace : List ProfileEvent) (p : SmartParser) : Prop where
  complete : p.complete = 0
  time : p.time = BitVec.ofNat 32 (4 * (waypoints trace).length)
  count : (waypoints trace).length = completed (dtiCalls trace)
  opens : ∀ k w, (waypoints trace)[k]? = some w → OpensAt (BitVec.ofNat 32 (4 * k)) w

theorem Clocked.start (p : SmartParser) : Clocked [] (smartParserReset p) where
  complete := rfl
  time := rfl
  count := rfl
  opens := by simp [waypoints]

/-- Each pass counts four seconds. -/
theorem time_iterate (k : Nat) (p : SmartParser) :
    (waypointNext^[k] p).time = p.time + BitVec.ofNat 32 (4 * k) := by
  induction k generalizing p with
  | zero => exact (BitVec.add_zero p.time).symm
  | succ k ih =>
    rw [Function.iterate_succ_apply, ih]
    show p.time + 4 + BitVec.ofNat 32 (4 * k) = p.time + BitVec.ofNat 32 (4 * (k + 1))
    rw [BitVec.add_assoc, Nat.mul_add, Nat.add_comm, BitVec.ofNat_add]
    rfl

/-- Parsing a record does not change the time; only the loop does. -/
theorem time_smartParseDti (p : SmartParser) (c : DtiCall) :
    (smartParseDti p c).time = p.time := by
  rw [smartParseDti]
  split
  all_goals first | rfl | (split <;> rfl)

variable {m : Model} {t : List ProfileEvent} {s : ProfileState}

/-- **Each record moves the clock on** by the waypoints that it completes. -/
theorem Clocked.takeRecord (h : Clocked (t ++ s.trace) s.parser) (r : Record m) :
    Clocked (t ++ (takeRecord s r).trace) (takeRecord s r).parser := by
  have hcomplete := complete_smartParseDti h.complete r
  have hcall : processCall s.parser r.call =
      (waypointNext^[r.completes] (smartParseDti s.parser r.call),
        (List.range r.completes).map fun k =>
          waypointTokens (waypointNext^[k] (smartParseDti s.parser r.call))) := by
    rw [processCall]
    rw [sampleLoop_eq, hcomplete]
  have hwaypoints : waypoints (t ++ (BenthosDc.takeRecord s r).trace) =
      waypoints (t ++ s.trace) ++ (processCall s.parser r.call).2 := by
    simp [BenthosDc.takeRecord]
  have hcalls : dtiCalls (t ++ (BenthosDc.takeRecord s r).trace) =
      dtiCalls (t ++ s.trace) ++ [r.call] := by
    simp [BenthosDc.takeRecord]
  have hlen : (processCall s.parser r.call).2.length = r.completes := by
    rw [hcall, List.length_map, List.length_range]
  refine ⟨?_, ?_, ?_, ?_⟩
  · show (processCall s.parser r.call).1.complete = 0
    rw [hcall, complete_iterate, hcomplete, Nat.sub_self]
  · show (processCall s.parser r.call).1.time = _
    rw [hwaypoints, List.length_append, hlen, hcall, time_iterate, time_smartParseDti, h.time,
      Nat.mul_add, BitVec.ofNat_add]
  · rw [hwaypoints, hcalls, List.length_append, hlen, h.count, completed, completed,
      List.map_append, List.sum_append, List.map_singleton, List.sum_singleton, r.completes_call]
  · intro k w hw
    rw [hwaypoints, List.getElem?_append] at hw
    split at hw
    case isTrue => exact h.opens k w hw
    case isFalse hk =>
      -- a waypoint of this record: the clock has been moved on by those in front of it
      rw [hcall, List.getElem?_map] at hw
      obtain ⟨j, hj, rfl⟩ := Option.map_eq_some_iff.mp hw
      obtain ⟨-, rfl⟩ := List.getElem?_eq_some_iff.mp hj
      rw [List.getElem_range]
      have hopens := opensAt_waypointTokens (waypointNext^[k - (waypoints (t ++ s.trace)).length]
        (smartParseDti s.parser r.call))
      rw [time_iterate, time_smartParseDti, h.time, ← BitVec.ofNat_add, ← Nat.mul_add,
        Nat.add_sub_cancel' (Nat.le_of_not_lt hk)] at hopens
      exact hopens

/-- Records one after the other. -/
theorem Clocked.foldl_takeRecord (h : Clocked (t ++ s.trace) s.parser) (rs : List (Record m)) :
    Clocked (t ++ (rs.foldl BenthosDc.takeRecord s).trace)
      (rs.foldl BenthosDc.takeRecord s).parser := by
  induction rs generalizing s with
  | nil => exact h
  | cons r rs ih => exact ih (h.takeRecord r)

/-- An error leaves the clock alone, and so does a table lookup. -/
theorem Clocked.of_eq {t' : List ProfileEvent} {p q : SmartParser} (h : Clocked t p)
    (hcomplete : q.complete = p.complete) (htime : q.time = p.time)
    (hcalls : dtiCalls t' = dtiCalls t) (hwaypoints : waypoints t' = waypoints t) :
    Clocked t' q where
  complete := by rw [hcomplete, h.complete]
  time := by rw [htime, h.time, hwaypoints]
  count := by rw [hwaypoints, h.count, hcalls]
  opens := by
    rw [hwaypoints]
    exact h.opens

section Runs

variable {p : SmartParser} {buffer : List UInt8}

/-- The end of the loop may set an error, and nothing else. -/
theorem parser_of_profileStep_stop {r : ProfileResult} (h : profileStep buffer s = .stop r) :
    r.parser = s.parser ∨ ∃ msg, r.parser = s.parser.setError driverErrInvalid msg := by
  cases profileStep_stop h with
  | atEnd | noEntry | undef => exact .inl rfl
  | invalid | tooShort => exact .inr ⟨_, rfl⟩

/-- The iteration that ends the loop leaves the clock alone. -/
theorem Clocked.stop (h : Clocked (t ++ s.trace) s.parser) {r : ProfileResult}
    (hstop : profileStep buffer s = .stop r) : Clocked (t ++ r.trace) r.parser := by
  have htrace : dtiCalls r.trace = dtiCalls s.trace ∧ waypoints r.trace = waypoints s.trace := by
    rcases profileStep_stop_trace hstop with htrace | ⟨-, -, htrace⟩
    · rw [htrace]
      exact ⟨rfl, rfl⟩
    · rw [htrace]
      simp [dtiCalls, waypoints]
  have hcalls : dtiCalls (t ++ r.trace) = dtiCalls (t ++ s.trace) := by
    rw [dtiCalls_append, dtiCalls_append, htrace.1]
  have hwaypoints : waypoints (t ++ r.trace) = waypoints (t ++ s.trace) := by
    rw [waypoints_append, waypoints_append, htrace.2]
  rcases parser_of_profileStep_stop hstop with hparser | ⟨msg, hparser⟩
  · rw [hparser]
    exact h.of_eq rfl rfl hcalls hwaypoints
  · rw [hparser]
    exact h.of_eq rfl rfl hcalls hwaypoints

/-- The clock is right at the beginning of every iteration. -/
theorem Clocked.reaches (h : Clocked t p) (hcheck : smartCheckBuffer p.model buffer = none)
    (hreach : Reaches (profileStep buffer) (profileStart p) s) :
    Clocked (t ++ s.trace) s.parser := by
  obtain ⟨rs, -, rfl, -⟩ := profile_reaches_records (length_lt_of_check hcheck) hreach
  apply Clocked.foldl_takeRecord
  show Clocked (t ++ []) p
  rwa [List.append_nil]

/-- A whole profile, however it ends. -/
theorem Clocked.smartParserParseProfile (h : Clocked t p) (buffer : List UInt8) :
    Clocked (t ++ (smartParserParseProfile p buffer).trace)
      (smartParserParseProfile p buffer).parser := by
  cases hcheck : smartCheckBuffer p.model buffer with
  | some msg =>
    rw [BenthosDc.smartParserParseProfile, hcheck]
    exact h.of_eq rfl rfl (by simp [dtiCalls]) (by simp [waypoints])
  | none =>
    obtain ⟨r, hr⟩ := profile_exists_returns (p := p) (length_lt_of_check hcheck)
    obtain ⟨s, hreach, hstop⟩ := iterate_stop_returns hr
    rw [smartParserParseProfile_of_returns hcheck ⟨s, hreach, hstop⟩]
    exact (h.reaches hcheck hreach).stop hstop

end Runs

/-- The events of a call. -/
def ParserCall.events (p : SmartParser) : ParserCall → List ProfileEvent
  | .profile buffer => (smartParserParseProfile p buffer).trace
  | _ => []

/-- The events of calls behind one another. -/
def callEvents (p : SmartParser) : List ParserCall → List ProfileEvent
  | [] => []
  | c :: cs => c.events p ++ callEvents (c.run p) cs

/-- A call that is no reset. -/
theorem Clocked.run {p : SmartParser} (h : Clocked t p) {c : ParserCall} (hc : c ≠ .reset) :
    Clocked (t ++ c.events p) (c.run p) := by
  cases c with
  | reset => exact absurd rfl hc
  | header buffer =>
    show Clocked (t ++ []) (smartParserParseHeader p buffer).parser
    rw [List.append_nil]
    rcases smartParserParseHeader_accumulators p buffer with hp | ⟨msg, -, hp⟩
    · rwa [hp]
    · rw [hp]
      exact h.of_eq rfl rfl rfl rfl
  | profile buffer => exact h.smartParserParseProfile buffer

/-- **The clock of a history.** -/
theorem Clocked.calls {p : SmartParser} (h : Clocked t p) (cs : List ParserCall)
    (hcs : .reset ∉ cs) : Clocked (t ++ callEvents p cs) (cs.foldl ParserCall.run p) := by
  induction cs generalizing t p with
  | nil =>
    rw [callEvents, List.append_nil]
    exact h
  | cons c cs ih =>
    rw [List.mem_cons, not_or] at hcs
    rw [callEvents, ← List.append_assoc]
    exact ih (h.run (Ne.symm hcs.1)) hcs.2

/-- The number of records of the type `type`. -/
def countType (type : DtiType) (calls : List DtiCall) : Nat :=
  calls.countP (·.dti.type = type)

/-- The sum of the values of the TIME records. -/
def timeTotal (calls : List DtiCall) : Nat :=
  ((calls.filter (·.dti.type = .time)).map (·.value.toNat)).sum

/-- The passes are those of the depths and those that records of time ask for. -/
theorem completed_eq (calls : List DtiCall) :
    completed calls =
      countType .depth calls + countType .pressureDepth calls + timeTotal calls := by
  induction calls with
  | nil => rfl
  | cons c calls ih =>
    have hcompleted : completed (c :: calls) = c.completes + completed calls := rfl
    rw [hcompleted, ih, DtiCall.completes]
    simp only [countType, timeTotal, List.countP_cons, List.filter_cons]
    cases ht : c.dti.type <;> simp <;> omega

/-- **The waypoint clock**, for every model and every history behind a reset: the counter
of the sample loop is zero at the beginning of each iteration, the records say how many
waypoints there are, and the tokens fall into waypoints at `4 * k` seconds. -/
theorem waypointClock (p : SmartParser) (cs : List ParserCall) (hcs : .reset ∉ cs) :
    (∀ pre buffer post, cs = pre ++ .profile buffer :: post →
      smartCheckBuffer p.model buffer = none →
      ∀ s, Reaches (profileStep buffer)
        (profileStart (pre.foldl ParserCall.run (smartParserReset p))) s →
      s.parser.complete = 0) ∧
    (waypoints (callEvents (smartParserReset p) cs)).length =
      countType .depth (dtiCalls (callEvents (smartParserReset p) cs)) +
        countType .pressureDepth (dtiCalls (callEvents (smartParserReset p) cs)) +
        timeTotal (dtiCalls (callEvents (smartParserReset p) cs)) ∧
    gatherWaypoints (waypoints (callEvents (smartParserReset p) cs)).flatten =
      waypoints (callEvents (smartParserReset p) cs) ∧
    ∀ k w, (waypoints (callEvents (smartParserReset p) cs))[k]? = some w →
      OpensAt (BitVec.ofNat 32 (4 * k)) w := by
  have hclock := (Clocked.start p).calls cs hcs
  rw [List.nil_append] at hclock
  refine ⟨?_, ?_, ?_, hclock.opens⟩
  · rintro pre buffer post rfl hcheck s hreach
    -- the calls before the dive keep the clock, and so do the iterations of its loop
    have hpre := (Clocked.start p).calls pre fun hmem => hcs (List.mem_append_left _ hmem)
    refine (hpre.reaches ?_ hreach).complete
    rw [foldl_run_model]
    exact hcheck
  · rw [hclock.count, completed_eq]
  · apply gatherWaypoints_flatten
    intro w hw
    obtain ⟨k, hk⟩ := List.mem_iff_getElem?.mp hw
    exact ⟨_, hclock.opens k w hk⟩

/-- A depth, and the header and a depth of another dive. -/
def twoDives : List ParserCall :=
  [.profile (smartProDive [0x01]), .header (smartProDive []), .profile (smartProDive [0xC2, 0x81])]

/-- A second dive behind a reset begins at zero again. -/
theorem waypointClock_twoDives :
    (∀ pre buffer post, twoDives = pre ++ .profile buffer :: post →
      smartCheckBuffer (default : SmartParser).model buffer = none →
      ∀ s, Reaches (profileStep buffer)
        (profileStart (pre.foldl ParserCall.run (smartParserReset default))) s →
      s.parser.complete = 0) ∧
    (waypoints (callEvents (smartParserReset default) twoDives)).length =
      countType .depth (dtiCalls (callEvents (smartParserReset default) twoDives)) +
        countType .pressureDepth (dtiCalls (callEvents (smartParserReset default) twoDives)) +
        timeTotal (dtiCalls (callEvents (smartParserReset default) twoDives)) ∧
    gatherWaypoints (waypoints (callEvents (smartParserReset default) twoDives)).flatten =
      waypoints (callEvents (smartParserReset default) twoDives) ∧
    ∀ k w, (waypoints (callEvents (smartParserReset default) twoDives))[k]? = some w →
      OpensAt (BitVec.ofNat 32 (4 * k)) w :=
  waypointClock default twoDives (by simp [twoDives])

/-! ### The start of a dive -/

/-- The values of the START_TIME tokens among the calls of the header callback. -/
def startTimes (calls : List HeaderEntry) : List Nat :=
  (calls.filter (·.token = .startTime)).map (·.value.toNat)

/-- The UTC offset that the header of a model gives, in quarters of an hour. -/
def headerOffset (m : Model) (buffer : List UInt8) : Int :=
  match m with
  | .galileoSol | .aladinTec | .aladinTec2g => int8 buffer 16
  | _ => 0

/-- The start of a dive in half seconds: the time of the host less the ticks that have
passed since, which are counted modulo `2 ^ 32`, in the time zone of the dive. -/
def diveStart (now ticks tick offset : Int) : Int :=
  2 * now - (ticks - tick) % 2 ^ 32 + 1800 * offset

/-- **The wraps cancel.** -/
theorem toNat_headerTime (base : SmartBase) (now tick : Nat) (offset : Int)
    (hstart : 0 ≤ diveStart now base.ticks tick offset)
    (hend : diveStart now base.ticks tick offset < 2 ^ 32) :
    (((BitVec.ofNat 32 tick + BitVec.ofInt 32 (base.setClock now).tcorr +
      BitVec.ofInt 32 (offset * 1800)) / 2).toNat : Int) =
      diveStart now base.ticks tick offset / 2 := by
  have hcorr : (BitVec.ofInt 32 (base.setClock now).tcorr).toNat =
      ((now * 2 - base.ticks : Int) % 2 ^ 32).toNat := by
    rw [BitVec.toNat_ofInt, SmartBase.setClock]
    show ((((now * 2 : Int) - base.ticks).bmod (2 ^ 32)) % (2 ^ 32 : Nat)).toNat = _
    rw [Int.bmod_emod]
    rfl
  have hoffset : (BitVec.ofInt 32 (offset * 1800)).toNat = (offset * 1800 % 2 ^ 32).toNat :=
    BitVec.toNat_ofInt _
  rw [BitVec.toNat_udiv, BitVec.toNat_add, BitVec.toNat_add, hcorr, hoffset, BitVec.toNat_ofNat]
  rw [diveStart] at hstart hend ⊢
  show ((_ / 2 : Nat) : Int) = _
  omega

/-- Each layout begins with the start time and has no other. -/
theorem startTimes_header (p : SmartParser) (buffer : List UInt8)
    (hcheck : smartCheckBuffer p.model buffer = none) :
    startTimes (smartParserParseHeader p buffer).trace =
      [((BitVec.ofNat 32 (uint32Le buffer 8) + p.dev.tcorr +
        BitVec.ofInt 32 (headerOffset p.model buffer * 1800)) / 2).toNat] := by
  rw [smartParserParseHeader, hcheck, p.dev_model]
  have hnone : ∀ x : BitVec 32, x + BitVec.ofInt 32 (0 * 1800) = x := BitVec.add_zero
  cases p.model with
  | galileoSol => rfl
  | aladinTec => rfl
  | aladinTec2g => rfl
  | _ =>
    simp only [headerOffset, hnone]
    rfl

/-- **The start time is exact**, although the clock and the ticks have wrapped around. -/
theorem startTime_exact (base : SmartBase) (now : Nat) (p : SmartParser)
    (hdev : p.dev.tcorr = (base.setClock now).forParser.tcorr) (buffer : List UInt8)
    (hcheck : smartCheckBuffer p.model buffer = none)
    (hstart : 0 ≤ diveStart now base.ticks (uint32Le buffer 8) (headerOffset p.model buffer))
    (hend : diveStart now base.ticks (uint32Le buffer 8) (headerOffset p.model buffer) < 2 ^ 32) :
    (startTimes (smartParserParseHeader p buffer).trace).map Int.ofNat =
      [diveStart now base.ticks (uint32Le buffer 8) (headerOffset p.model buffer) / 2] := by
  rw [startTimes_header p buffer hcheck, hdev, List.map_singleton]
  exact congrArg (· :: []) (toNat_headerTime base now _ _ hstart hend)

/-- An Aladin Tec 2G parser behind an opening at `now`, the device being at tick `ticks`. -/
def aladinParser (ticks now : Nat) : SmartParser :=
  { (default : SmartParser) with
    dev := (({ model := 19, ticks := ticks } : SmartBase).setClock now).forParser
    model := .aladinTec2g
    dev_model := rfl }

/-- The header of a dive in the time zone UTC-2, 256 ticks before the counter wraps around. -/
def aladinHeader : List UInt8 :=
  [0, 0, 0, 0, 116, 0, 0, 0, 0x00, 0xFF, 0xFF, 0xFF, 0, 0, 0, 0, 0xF8] ++ List.replicate 99 0

/-- The device has wrapped around since, and has come to tick 144: the dive began 200 seconds
ago. -/
theorem startTime_exact_wrapped :
    (startTimes (smartParserParseHeader (aladinParser 144 1400000000) aladinHeader).trace).map
      Int.ofNat = [1400000000 - 200 - 7200] :=
  startTime_exact { model := 19, ticks := 144 } 1400000000 (aladinParser 144 1400000000) rfl
    aladinHeader (by decide) (by decide) (by decide)

end BenthosDc

/-
BenthosDc/SmartParserReset.lean

What a reset of the parser leaves of its history.

Behind a reset two parsers of one model differ in the device that they point to, and
nothing that a profile reports depends on it: `UpToDev` is kept by each function of the
profile loop, so that the two runs go side by side.

* `smartParserReset_erases`: a parser that has been reset parses a profile as a new one.
-/
import BenthosDc.Profile
import BenthosDc.SmartHeader

namespace BenthosDc

open Loop

variable {p q : SmartParser}

/-! ### Parsers that agree

Agreement is equality up to the device.  Each function of the parser keeps it, and what they
give is equal.
-/

/-- The parser with another device of the same model. -/
def SmartParser.withDev (p : SmartParser) (dev : SmartDeviceBase)
    (h : dev.model = p.model.number) : SmartParser :=
  { p with dev := dev, dev_model := h }

/-- Two parsers that differ in their device only. -/
def UpToDev (p q : SmartParser) : Prop := ∃ dev h, q = p.withDev dev h

/-- They have one model. -/
theorem UpToDev.model (h : UpToDev p q) : q.model = p.model := by
  obtain ⟨dev, hdev, rfl⟩ := h
  rfl

/-- They have the same number of intervals to report. -/
theorem UpToDev.complete (h : UpToDev p q) : q.complete = p.complete := by
  obtain ⟨dev, hdev, rfl⟩ := h
  rfl

/-- Behind a reset all parsers of one model agree. -/
theorem upToDev_smartParserReset (h : q.model = p.model) :
    UpToDev (smartParserReset p) (smartParserReset q) := by
  obtain ⟨dev, model, hdev, _⟩ := p
  obtain ⟨dev', model', hdev', _⟩ := q
  have hmodel : model' = model := h
  subst hmodel
  exact ⟨dev', hdev', rfl⟩

/-- A record keeps the agreement. -/
theorem UpToDev.smartParseDti (h : UpToDev p q) (c : DtiCall) :
    UpToDev (smartParseDti p c) (smartParseDti q c) := by
  obtain ⟨dev, hdev, rfl⟩ := h
  obtain ⟨⟨type, abs, idx, ntb, ignore, extra⟩, value, svalue⟩ := c
  -- the types with a relative and an absolute form ask for it
  cases type with
  | pressureDepth => exact ⟨dev, hdev, rfl⟩
  | rbt => cases abs <;> exact ⟨dev, hdev, rfl⟩
  | temperature => cases abs <;> exact ⟨dev, hdev, rfl⟩
  | pressure => cases abs <;> exact ⟨dev, hdev, rfl⟩
  | depth => cases abs <;> exact ⟨dev, hdev, rfl⟩
  | heartrate => cases abs <;> exact ⟨dev, hdev, rfl⟩
  | bearing => exact ⟨dev, hdev, rfl⟩
  | alarms => exact ⟨dev, hdev, rfl⟩
  | time => exact ⟨dev, hdev, rfl⟩

/-- They pass the same tokens on. -/
theorem UpToDev.waypointTokens (h : UpToDev p q) : waypointTokens q = waypointTokens p := by
  obtain ⟨dev, hdev, rfl⟩ := h
  rfl

/-- So they do after a waypoint. -/
theorem UpToDev.waypointNext (h : UpToDev p q) : UpToDev (waypointNext p) (waypointNext q) := by
  obtain ⟨dev, hdev, rfl⟩ := h
  exact ⟨dev, hdev, rfl⟩

/-- So they do over all waypoints of a record. -/
theorem UpToDev.sampleLoop (h : UpToDev p q) (n : Nat) :
    UpToDev (sampleLoop n p).1 (sampleLoop n q).1 ∧
      (sampleLoop n q).2 = (sampleLoop n p).2 := by
  induction n generalizing p q with
  | zero => exact ⟨h, rfl⟩
  | succ n ih =>
    obtain ⟨hagrees, hsamples⟩ := ih h.waypointNext
    refine ⟨hagrees, ?_⟩
    show BenthosDc.waypointTokens q :: _ = BenthosDc.waypointTokens p :: _
    rw [h.waypointTokens, hsamples]

/-- A whole record keeps the agreement. -/
theorem UpToDev.processCall (h : UpToDev p q) (c : DtiCall) :
    UpToDev (processCall p c).1 (processCall q c).1 ∧
      (processCall q c).2 = (processCall p c).2 := by
  have hparsed := h.smartParseDti c
  unfold BenthosDc.processCall
  simp only [hparsed.complete]
  exact hparsed.sampleLoop _

/-! ### Profiles

Two runs in step reach the same places and pass the same waypoints on.
-/

/-- Two states of the profile loop that differ in the device only. -/
structure StateAgrees (s t : ProfileState) : Prop where
  offset : t.offset = s.offset
  parser : UpToDev s.parser t.parser
  trace : t.trace = s.trace

/-- Two results with the same code and the same callbacks. -/
structure ResultAgrees (r r' : ProfileResult) : Prop where
  ret : r'.ret = r.ret
  trace : r'.trace = r.trace

/-- **One iteration does not look at the device** but for its model. -/
theorem profileStep_agrees (data : List UInt8) {s t : ProfileState} (h : StateAgrees s t) :
    IterRel StateAgrees ResultAgrees (profileStep data s) (profileStep data t) := by
  obtain ⟨offset₀, p, trace₀⟩ := s
  obtain ⟨offset, q, trace⟩ := t
  obtain ⟨hoffset, hparser, htrace⟩ := h
  simp only at hoffset hparser htrace
  subst hoffset htrace
  unfold profileStep profileStepOn
  simp only [p.dev_model, q.dev_model, hparser.model]
  -- the two states take the same branches
  by_cases hend : offset < data.length
  · rw [if_pos hend, if_pos hend]
    generalize identify p.model.number (data.drop offset) = id
    by_cases hid : id > p.model.dtiSize
    · rw [if_pos hid, if_pos hid]
      exact .stop ⟨rfl, rfl⟩
    · rw [if_neg hid, if_neg hid]
      cases p.model.dtiTable[id]? with
      | none => exact IterRel.stop (ResultAgrees.mk rfl rfl)
      | some dti =>
        dsimp only
        cases smartProcessDti data offset dti with
        | undef => exact IterRel.stop (ResultAgrees.mk rfl rfl)
        | tooShort => exact IterRel.stop (ResultAgrees.mk rfl rfl)
        | done offset' value svalue =>
          obtain ⟨hagrees, hsamples⟩ := hparser.processCall ⟨dti, value, svalue⟩
          apply IterRel.next
          refine ⟨rfl, hagrees, ?_⟩
          simp only [hsamples]
  · rw [if_neg hend, if_neg hend]
    exact .stop ⟨rfl, rfl⟩

/-- **Parsers that agree report the same profile.** -/
theorem smartParserParseProfile_agrees (h : UpToDev p q) (buffer : List UInt8) :
    ResultAgrees (smartParserParseProfile p buffer) (smartParserParseProfile q buffer) := by
  have hstart : StateAgrees ⟨p.model.hdrSize, p, []⟩ ⟨q.model.hdrSize, q, []⟩ :=
    ⟨by rw [h.model], h, rfl⟩
  have hruns := IterRel.iterate (fun s t => profileStep_agrees buffer) hstart (buffer.length + 1)
  unfold smartParserParseProfile
  rw [h.model] at hruns ⊢
  cases smartCheckBuffer p.model buffer with
  | some msg => exact ⟨rfl, rfl⟩
  | none =>
    revert hruns
    generalize iterate (profileStep buffer) (buffer.length + 1) ⟨p.model.hdrSize, p, []⟩ = a
    generalize iterate (profileStep buffer) (buffer.length + 1) ⟨p.model.hdrSize, q, []⟩ = b
    intro hruns
    cases hruns with
    | next h => exact ⟨rfl, h.trace⟩
    | stop h => exact h

/-! ### Histories

Before the reset the parser may have been called in any way.  The only thing that is known of
it then is its model, which no call changes.
-/

/-- A call of the parser between its creation and a reset. -/
inductive ParserCall
  | reset
  | header (buffer : List UInt8)
  | profile (buffer : List UInt8)

/-- The parser behind a call, whatever its return value. -/
def ParserCall.run (p : SmartParser) : ParserCall → SmartParser
  | .reset => smartParserReset p
  | .header buffer => (smartParserParseHeader p buffer).parser
  | .profile buffer => (smartParserParseProfile p buffer).parser

/-- The calls of the waypoint callback. -/
def profileCallbacks (r : ProfileResult) : List Waypoint := (waypoints r.trace).flatten

/-- The parser behind an outcome of an iteration. -/
def parserOf : Iter ProfileState ProfileResult → SmartParser
  | .next s => s.parser
  | .stop r => r.parser

/-- An iteration keeps the model. -/
theorem parserOf_profileStep_model (data : List UInt8) (s : ProfileState) :
    (parserOf (profileStep data s)).model = s.parser.model := by
  unfold profileStep profileStepOn
  dsimp only
  split
  case isFalse => rfl
  case isTrue =>
    split
    · rfl
    · split
      · rfl
      · split
        · rfl
        · rfl
        · exact processCall_model s.parser _

/-- A run keeps the model. -/
theorem parserOf_iterate_model (data : List UInt8) (n : Nat) (s : ProfileState) :
    (parserOf (iterate (profileStep data) n s)).model = s.parser.model := by
  induction n generalizing s with
  | zero => rfl
  | succ n ih =>
    have hstep := parserOf_profileStep_model data s
    rw [iterate]
    revert hstep
    cases profileStep data s with
    | next s' =>
      intro hstep
      exact (ih s').trans hstep
    | stop r => exact id

/-- The loop that reads the number of the model in each iteration is the loop with the fixed
model. -/
theorem iterate_profileStepOn {mdl : Nat} (data : List UInt8) (n : Nat) {s : ProfileState}
    (hs : s.parser.model.number = mdl) :
    iterate (profileStepOn mdl data) n s = iterate (profileStep data) n s := by
  induction n generalizing s with
  | zero => rfl
  | succ n ih =>
    have hstep := parserOf_profileStep_model data s
    have hon : profileStepOn mdl data s = profileStep data s := by
      rw [profileStep, s.parser.dev_model, hs]
    rw [iterate, iterate, hon]
    revert hstep
    cases profileStep data s with
    | next s' =>
      intro hstep
      have hmodel : s'.parser.model = s.parser.model := hstep
      exact ih (hmodel ▸ hs)
    | stop r => exact fun _ => rfl

/-- **While the device stays as it is**, the parser sees the one that it was created for. -/
theorem smartParserParseProfileOn_number (p : SmartParser) (buffer : List UInt8) :
    smartParserParseProfileOn p.model.number p buffer = smartParserParseProfile p buffer := by
  have hloop := iterate_profileStepOn buffer (buffer.length + 1)
    (show (ProfileState.mk p.model.hdrSize p []).parser.model.number = p.model.number from rfl)
  rw [smartParserParseProfileOn, smartParserParseProfile, hloop]

/-- **The model of a parser never changes.** -/
theorem ParserCall.run_model (p : SmartParser) (c : ParserCall) : (c.run p).model = p.model := by
  cases c with
  | reset => rfl
  | header buffer =>
    show (smartParserParseHeader p buffer).parser.model = p.model
    rcases smartParserParseHeader_accumulators p buffer with h | ⟨msg, -, h⟩
    · rw [h]
    · rw [h]
      rfl
  | profile buffer =>
    show (smartParserParseProfile p buffer).parser.model = p.model
    have hloop := parserOf_iterate_model buffer (buffer.length + 1) ⟨p.model.hdrSize, p, []⟩
    unfold smartParserParseProfile
    revert hloop
    cases smartCheckBuffer p.model buffer with
    | some msg => exact fun _ => rfl
    | none =>
      cases iterate (profileStep buffer) (buffer.length + 1) ⟨p.model.hdrSize, p, []⟩ with
      | next s => exact id
      | stop r => exact id

/-- No history changes the model. -/
theorem foldl_run_model (cs : List ParserCall) (p : SmartParser) :
    (cs.foldl ParserCall.run p).model = p.model := by
  induction cs generalizing p with
  | nil => rfl
  | cons c cs ih => rw [List.foldl_cons, ih, ParserCall.run_model]

/-- The models have different numbers. -/
theorem Model.number_inj {m m' : Model} (h : m.number = m'.number) : m = m' := by
  revert h
  cases m <;> cases m' <;> decide

/-- A parser is created for a device of a supported model. -/
theorem smartParserCreate_of_model {block : SmartParser} {dev : SmartDeviceBase} {m : Model}
    (hm : dev.model = m.number) :
    ∃ p, smartParserCreate block dev = .ok p ∧ p.model = m ∧ p.dev = dev := by
  unfold smartParserCreate
  split
  case h_8 h₁ h₂ h₃ h₄ h₅ h₆ h₇ =>
    exfalso
    cases m with
    | smartPro => exact h₁ hm
    | galileoSol => exact h₂ hm
    | aladinTec => exact h₃ hm
    | aladinTec2g => exact h₄ hm
    | smartCom => exact h₅ hm
    | smartTec => exact h₆ hm
    | smartZ => exact h₇ hm
  all_goals
    rename_i h
    exact ⟨_, rfl, Model.number_inj (h.symm.trans hm), rfl⟩

/-- A new parser is one that has been reset. -/
theorem smartParserCreate_eq_ok {block : SmartParser} {dev : SmartDeviceBase}
    (h : smartParserCreate block dev = .ok p) :
    p = smartParserReset p ∧ p.model.number = dev.model := by
  unfold smartParserCreate at h
  split at h
  case h_8 => cases h
  all_goals
    rename_i hmodel
    cases h
    exact ⟨rfl, hmodel.symm⟩

/-- **A reset erases the history of a parser**: whatever it has parsed before, a profile
behind the reset gives the code and the callbacks that a new parser of the model gives. -/
theorem smartParserReset_erases {block block' : SmartParser} {dev dev' : SmartDeviceBase}
    {p p' : SmartParser} (hmodel : dev'.model = dev.model)
    (hp : smartParserCreate block dev = .ok p) (hp' : smartParserCreate block' dev' = .ok p')
    (history : List ParserCall) (buffer : List UInt8) :
    (smartParserParseProfile (smartParserReset (history.foldl ParserCall.run p)) buffer).ret =
        (smartParserParseProfile p' buffer).ret ∧
      profileCallbacks
          (smartParserParseProfile (smartParserReset (history.foldl ParserCall.run p)) buffer) =
        profileCallbacks (smartParserParseProfile p' buffer) := by
  obtain ⟨-, hnumber⟩ := smartParserCreate_eq_ok hp
  obtain ⟨hreset', hnumber'⟩ := smartParserCreate_eq_ok hp'
  have hsame : p'.model = (history.foldl ParserCall.run p).model := by
    rw [foldl_run_model]
    exact Model.number_inj (hnumber'.trans (hmodel.trans hnumber.symm))
  have hagrees : UpToDev (smartParserReset (history.foldl ParserCall.run p)) p' := by
    rw [hreset']
    exact upToDev_smartParserReset hsame
  have hresults := smartParserParseProfile_agrees hagrees buffer
  exact ⟨hresults.ret.symm, congrArg (fun t => (waypoints t).flatten) hresults.trace.symm⟩

/-- A dive with a header that is refused, and one whose profile ends inside a record. -/
def smartProHistory : List ParserCall :=
  [.header [], .profile (smartProDive [0x80, 1, 0xff]), .reset, .profile [0]]

/-- A new Smart Pro parser. -/
def newSmartProParser : SmartParser := smartParserReset default

theorem smartParserReset_erases_smartPro :
    (smartParserParseProfile
        (smartParserReset (smartProHistory.foldl ParserCall.run newSmartProParser))
        (smartProDive [0x80, 1])).ret =
        (smartParserParseProfile newSmartProParser (smartProDive [0x80, 1])).ret ∧
      profileCallbacks (smartParserParseProfile
          (smartParserReset (smartProHistory.foldl ParserCall.run newSmartProParser))
          (smartProDive [0x80, 1])) =
        profileCallbacks (smartParserParseProfile newSmartProParser (smartProDive [0x80, 1])) :=
  have hnew : smartParserCreate default (default : SmartParser).dev = .ok newSmartProParser := rfl
  smartParserReset_erases rfl hnew hnew smartProHistory (smartProDive [0x80, 1])

end BenthosDc

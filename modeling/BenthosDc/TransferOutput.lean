/-
BenthosDc/TransferOutput.lean

What a transfer hands to the output formatter.

`transferOutput` is `transferDives` with what `run_parser` leaves of the formatter
(`transferDives_eq`).  For a Smart device the parser hands the tokens of every dive to
it that is laid out as its model says, whatever has been parsed before
(`diveCalls_logged`); any other dive ends `run_parser` (`diveCalls_refused`).
-/
import BenthosDc.ProfileFormat
import BenthosDc.SmartParserReset
import BenthosDc.SmartPluginOwned
import BenthosDc.TransferApp

namespace BenthosDc

open Bits CString Hoare Lifetime Loop PrefixCode

variable {σ D α : Type}

/-! ### The transfer with its output

The formatter is the state of a fold over the dives.  A transfer gives it back only if all
dives have been parsed.
-/

section Program

variable (drv : DriverInterface σ) (F : Formatter D)

/-- `parseTransferred`, and the formatter behind its `close_fn`. -/
def parseOutput (init : Except Int D) (o : TransferOptions) (dev : Nat)
    (dives : List (List UInt8 × Text)) : Driver σ (TransferResult × Option D) := do
  if dives.length > 0 then
    match ← runParserWith drv F init dev dives with
    | .error _ => return (transferFailed, none)
    | .ok s => return (storeToken o dives, some s)
  else return (storeToken o dives, none)

/-- `transferDives`, and the formatter behind its `close_fn`. -/
def transferOutput (init : Except Int D) (o : TransferOptions) (dev : Nat) :
    Driver σ (TransferResult × Option D) := do
  match ← drv.driverTransfer dev (deviceCb o) transferCb o.bufferLen with
  | .error _ =>
    let _ ← drv.driverErrmsg dev
    return (transferFailed, none)
  | .ok (bufferLen, buffer) =>
    if bufferLen > 0 then
      let (rv, data) ← drv.driverExtract dev (o.bufferPtr buffer) bufferLen
      match extractCb data with
      | none => throw .overflow
      | some dives =>
        if rv ≠ driverErrSuccess then
          let _ ← drv.driverErrmsg dev
          return (transferFailed, none)
        else parseOutput drv F init o dev dives
    else parseOutput drv F init o dev []

variable (init : Except Int D) (o : TransferOptions) (dev : Nat)

/-- The result without the formatter. -/
theorem map_fst_drop (m : Driver σ α) (r : TransferResult) (out : Option D) :
    (do let _ ← m; return r) = Prod.fst <$> (do let _ ← m; return (r, out)) := by
  rw [map_bind (m := Driver σ)]
  rfl

/-- Parsing without looking at the formatter. -/
theorem parseTransferred_eq (dives : List (List UInt8 × Text)) :
    parseTransferred drv F init o dev dives = Prod.fst <$> parseOutput drv F init o dev dives := by
  rw [parseTransferred, parseOutput]
  split
  · rw [map_bind (m := Driver σ)]
    congr 1
    funext r
    cases r with
    | error rv => rfl
    | ok s => rfl
  · rfl

/-- **The transfer of the application** is the one with its output dropped. -/
theorem transferDives_eq :
    transferDives drv F init o dev = Prod.fst <$> transferOutput drv F init o dev := by
  rw [transferDives, transferOutput, map_bind (m := Driver σ)]
  congr 1
  funext r
  cases r with
  | error rc => exact map_fst_drop _ _ _
  | ok b =>
    obtain ⟨bufferLen, buffer⟩ := b
    dsimp only
    split
    · rw [map_bind (m := Driver σ)]
      congr 1
      funext x
      obtain ⟨rv, data⟩ := x
      dsimp only
      cases extractCb data with
      | none => rfl
      | some dives =>
        dsimp only
        split
        · exact map_fst_drop _ _ _
        · exact parseTransferred_eq drv F init o dev dives
    · exact parseTransferred_eq drv F init o dev []

end Program

/-! ### Dives as their model lays them out

A dive is laid out if its bytes are a header of its model and whole records behind it.
-/

/-- A header with its size word, and behind it the records `rs`. -/
structure LaidOut (m : Model) (bytes : List UInt8) (rs : List (Record m)) : Prop where
  check : smartCheckBuffer m bytes = none
  profile : bytes.drop m.hdrSize = (rs.map Record.encode).flatten

/-- A parser of the model `m` as it is created. -/
def newParser (m : Model) : SmartParser :=
  smartParserReset
    { (default : SmartParser) with
      dev := { (default : SmartDeviceBase) with model := m.number }
      model := m
      dev_model := rfl }

/-- What a dive is in the clock of its device: the entries of its header, and the waypoints
of its records. -/
def laidOutTokens {m : Model} (tcorr : BitVec 32) (bytes : List UInt8) (rs : List (Record m)) :
    DiveTokens :=
  ⟨headerEntries m bytes tcorr, (reportsOf (newParser m) rs).flatten⟩

section Functions

variable {p q : SmartParser} {data : List UInt8}

/-- The waypoints do not depend on the device. -/
theorem reportsOf_upToDev {m : Model} (h : UpToDev p q) (rs : List (Record m)) :
    reportsOf q rs = reportsOf p rs := by
  induction rs generalizing p q with
  | nil => rfl
  | cons r rs ih =>
    obtain ⟨hnext, hreports⟩ := h.processCall r.call
    rw [reportsOf, reportsOf, hreports, ih hnext]

/-- Parsing keeps the model. -/
theorem smartParserParseProfile_model (p : SmartParser) (data : List UInt8) :
    (smartParserParseProfile p data).parser.model = p.model :=
  ParserCall.run_model p (.profile data)

/-- **A dive that is laid out is parsed to its tokens.** -/
theorem smartParserParseProfile_laidOut (hsize : data.length ≤ 2 ^ 32 - 3)
    {rs : List (Record p.model)} (h : LaidOut p.model data rs)
    (hnew : UpToDev (newParser p.model) p) :
    (smartParserParseProfile p data).ret = some 0 ∧
      waypoints (smartParserParseProfile p data).trace = reportsOf (newParser p.model) rs := by
  have hsplits : Splits Record.encode (data.drop p.model.hdrSize) rs [] := by
    rw [h.profile]
    exact (isPrefixCode_encode p.model).splits_flatten rs
  have hparsed := parsedAs_of_splits hsize h.check hsplits
  refine ⟨?_, ?_⟩
  · rw [hparsed.code, profileCode, if_pos rfl]
  · rw [hparsed.reports, reportsOf_upToDev hnew]

/-- **Any other dive is refused**, by the header or by the profile. -/
theorem smartParserParseProfile_refused (hsize : data.length ≤ 2 ^ 32 - 3)
    (hcheck : smartCheckBuffer p.model data = none)
    (h : ∀ rs : List (Record p.model), ¬LaidOut p.model data rs) :
    (smartParserParseProfile p data).ret ≠ some 0 := by
  obtain ⟨rs, -, -, -, -, hzero⟩ := smartParserParseProfile_parsedAs p data hsize hcheck
  rw [ne_eq, hzero]
  exact fun hprofile => h rs ⟨hcheck, hprofile⟩

end Functions

/-! ### The calls of the parser

What each call does on the desk of the plugin, from what the parser does with the bytes.
-/

/-- The parser `p` and its device are of the model `m`, and the clock of the device is `tcorr`
behind. -/
structure ReadsDives [HasBase σ] (valid : σ → Prop) (handles : σ → Set Nat) (m : Model)
    (tcorr : BitVec 32) (dev p : Nat) (d : Desk (Parsing σ)) : Prop
    extends Parses valid handles dev p d where
  model : (d.state.parser p).model = m
  dev_model : (HasBase.base d.state.driver).model = m.number
  tcorr_eq : BitVec.ofInt 32 (HasBase.base d.state.driver).tcorr = tcorr

section Calls

variable [HasBase σ] {valid : σ → Prop} {handles : σ → Set Nat} {m : Model} {tcorr : BitVec 32}
  {dev p : Nat} {d : Desk (Parsing σ)} {data : List UInt8} {E : Halt → Prop}

/-- The structure of the parser is written with one of the same model. -/
theorem setParser_reads (hd : ReadsDives valid handles m tcorr dev p d) {parser : SmartParser}
    (hmodel : parser.model = m) :
    Triple (SmartPlugin.setParser p parser) d (fun _ d' =>
      ReadsDives valid handles m tcorr dev p d' ∧ d'.state.parser p = parser) E := by
  have hparser : Function.update d.state.parser p parser p = parser := Function.update_self ..
  refine Triple.of_run rfl ⟨⟨⟨hd.owned, hd.live, hd.ne, hd.parserDev⟩, ?_, hd.dev_model,
    hd.tcorr_eq⟩, hparser⟩
  show (Function.update d.state.parser p parser p).model = m
  rw [hparser]
  exact hmodel

/-- Only the state and the handles matter. -/
theorem ReadsDives.of_state (hd : ReadsDives valid handles m tcorr dev p d)
    {d' : Desk (Parsing σ)} (hstate : d'.state = d.state)
    (hd' : Parses valid handles dev p d') : ReadsDives valid handles m tcorr dev p d' :=
  ⟨hd', hstate ▸ hd.model, hstate ▸ hd.dev_model, hstate ▸ hd.tcorr_eq⟩

/-- A reset makes the parser a new one. -/
theorem parserReset_reads (hd : ReadsDives valid handles m tcorr dev p d) :
    Triple (SmartPlugin.parserReset p) d (fun rc d' => rc = 0 ∧
      ReadsDives valid handles m tcorr dev p d' ∧ UpToDev (newParser m) (d'.state.parser p)) E := by
  have huse : Triple (useHandle p) d (fun _ d' => d'.state = d.state ∧
      Parses valid handles dev p d') E :=
    useHandle_spec hd.live fun l hl => ⟨rfl, hd.toParses.of_eq hl⟩
  apply huse.bind
  rintro _ d₁ ⟨hstate, hd₁⟩
  have hreads₁ := hd.of_state hstate hd₁
  have hget : Triple getState d₁ (fun s d' => s = d₁.state ∧ d₁ = d') E :=
    Triple.of_run rfl ⟨rfl, rfl⟩
  apply hget.bind
  rintro _ _ ⟨rfl, rfl⟩
  have hmodel : (smartParserReset (d₁.state.parser p)).model = m := hreads₁.model
  apply (setParser_reads hreads₁ hmodel).bind
  rintro _ d₂ ⟨hd₂, hparser⟩
  refine Triple.pure ⟨rfl, hd₂, ?_⟩
  rw [hparser]
  exact upToDev_smartParserReset hreads₁.model

/-- The beginning of the two calls that parse. -/
theorem parserRead_owned (hbase : BaseOwned valid handles dev)
    (hd : Parses valid handles dev p d) {f : Parsing σ → Driver (Parsing σ) α}
    {Q : α → Desk (Parsing σ) → Prop}
    (hf : ∀ d', d'.state = d.state → Parses valid handles dev p d' → Triple (f d.state) d' Q E) :
    Triple (do
      useHandle p
      let s ← getState
      useHandle (s.parserDev p)
      f s) d Q E := by
  have huse : Triple (useHandle p) d (fun _ d' => d'.state = d.state ∧
      Parses valid handles dev p d') E :=
    useHandle_spec hd.live fun l hl => ⟨rfl, hd.of_eq hl⟩
  apply huse.bind
  rintro _ d₁ ⟨hstate₁, hd₁⟩
  have hget : Triple getState d₁ (fun s d' => s = d.state ∧ d₁ = d') E :=
    Triple.of_run rfl ⟨hstate₁, rfl⟩
  apply hget.bind
  rintro _ _ ⟨rfl, rfl⟩
  have hdev : Triple (useHandle (d.state.parserDev p)) d₁ (fun _ d' => d'.state = d.state ∧
      Parses valid handles dev p d') E := by
    rw [hd.parserDev]
    exact useHandle_spec (hd₁.owned.live (hbase.mem _)) fun l hl => ⟨hstate₁, hd₁.of_eq hl⟩
  apply hdev.bind
  rintro _ d₂ ⟨hstate₂, hd₂⟩
  exact hf d₂ hstate₂ hd₂

/-- An error is stored in the base, if there is one. -/
theorem storeError_parses (hbase : BaseOwned valid handles dev)
    (hd : Parses valid handles dev p d) (ret : Int) (base : SmartDeviceBase) :
    Triple (SmartPlugin.storeError ret base) d (fun _ d' => Parses valid handles dev p d' ∧
      (ret = 0 → d'.state = d.state)) E := by
  rw [SmartPlugin.storeError]
  split
  · next hret =>
    refine Triple.of_run rfl ⟨⟨⟨hbase.valid_setBase _ _ hd.owned.valid, ?_⟩, hd.live, ?_,
      hd.parserDev⟩, fun h => absurd h hret⟩
    · show handles (HasBase.setBase _ _) ⊆ _
      rw [hbase.handles_setBase]
      exact hd.owned.live
    · show p ∉ handles (HasBase.setBase _ _)
      rw [hbase.handles_setBase]
      exact hd.ne
  · exact Triple.pure ⟨hd, fun _ => rfl⟩

/-- The header of a dive gives its entries. -/
theorem parserParseHeader_laidOut (hbase : BaseOwned valid handles dev)
    (hd : ReadsDives valid handles m tcorr dev p d) (hcheck : smartCheckBuffer m data = none) :
    Triple (SmartPlugin.parserParseHeader p data) d (fun r d' =>
      r = (0, headerEntries m data tcorr) ∧ ReadsDives valid handles m tcorr dev p d' ∧
        d'.state.parser p = d.state.parser p) E := by
  apply parserRead_owned hbase hd.toParses
  intro d₁ hstate hd₁
  obtain ⟨-, rfl, hmodel, rfl⟩ := id hd
  have hheader : smartParserParseHeaderOn (HasBase.base d.state.driver).forParser
      (d.state.parser p) data = some ⟨0, d.state.parser p, headerEntries (d.state.parser p).model
        data (BitVec.ofInt 32 (HasBase.base d.state.driver).tcorr)⟩ :=
    smartParserParseHeaderOn_checked hmodel hcheck
  rw [hheader]
  apply (setParser_reads (hd.of_state hstate hd₁) rfl).bind
  rintro _ d₂ ⟨hd₂, hparser⟩
  exact Triple.of_run rfl ⟨rfl, hd₂, hparser⟩

/-- A buffer that fails its check gives none. -/
theorem parserParseHeader_refused (hbase : BaseOwned valid handles dev)
    (hd : ReadsDives valid handles m tcorr dev p d) (hcheck : smartCheckBuffer m data ≠ none) :
    Triple (SmartPlugin.parserParseHeader p data) d (fun r d' =>
      r.1 ≠ 0 ∧ Parses valid handles dev p d') E := by
  apply parserRead_owned hbase hd.toParses
  intro d₁ hstate hd₁
  obtain ⟨msg, hmsg⟩ := Option.ne_none_iff_exists'.mp hcheck
  rw [← hd.model] at hmsg
  rw [smartParserParseHeaderOn_unchecked _ hmsg]
  have hmodel : ((d.state.parser p).setError driverErrInvalid msg).model = m := hd.model
  apply (setParser_reads (hd.of_state hstate hd₁) hmodel).bind
  rintro _ d₂ ⟨hd₂, -⟩
  apply (storeError_parses hbase hd₂.toParses _ _).bind
  rintro _ d₃ ⟨hd₃, -⟩
  exact Triple.pure ⟨fun h => absurd h (show (-1 : Int) ≠ 0 by decide), hd₃⟩

/-- The profile of a dive gives its waypoints. -/
theorem parserParseProfile_laidOut (hbase : BaseOwned valid handles dev)
    (hd : ReadsDives valid handles m tcorr dev p d) (hsize : data.length ≤ 2 ^ 32 - 3)
    {rs : List (Record m)} (h : LaidOut m data rs)
    (hnew : UpToDev (newParser m) (d.state.parser p)) :
    Triple (SmartPlugin.parserParseProfile p data) d (fun r d' =>
      r = (0, (reportsOf (newParser m) rs).flatten) ∧
        ReadsDives valid handles m tcorr dev p d') E := by
  apply parserRead_owned hbase hd.toParses
  intro d₁ hstate hd₁
  obtain ⟨-, rfl, hmodel, rfl⟩ := id hd
  obtain ⟨hret, hreports⟩ := smartParserParseProfile_laidOut hsize h hnew
  dsimp only
  rw [hmodel, smartParserParseProfileOn_number, hret, hreports]
  refine (setParser_reads (hd.of_state hstate hd₁)
    (smartParserParseProfile_model (d.state.parser p) data)).bind ?_
  rintro _ d₂ ⟨hd₂, -⟩
  exact Triple.of_run rfl ⟨rfl, hd₂⟩

/-- A profile that is not laid out is refused, or read outside of a table. -/
theorem parserParseProfile_refused (hbase : BaseOwned valid handles dev)
    (hd : ReadsDives valid handles m tcorr dev p d) (hsize : data.length ≤ 2 ^ 32 - 3)
    (hcheck : smartCheckBuffer m data = none) (h : ∀ rs : List (Record m), ¬LaidOut m data rs) :
    Triple (SmartPlugin.parserParseProfile p data) d (fun r d' =>
      r.1 ≠ 0 ∧ Parses valid handles dev p d') (· = .overflow) := by
  apply parserRead_owned hbase hd.toParses
  intro d₁ hstate hd₁
  obtain ⟨-, rfl, hmodel, rfl⟩ := id hd
  have hne := smartParserParseProfile_refused hsize hcheck h
  dsimp only
  rw [hmodel, smartParserParseProfileOn_number]
  refine (setParser_reads (hd.of_state hstate hd₁)
    (smartParserParseProfile_model (d.state.parser p) data)).bind ?_
  rintro _ d₂ ⟨hd₂, -⟩
  revert hne
  cases (smartParserParseProfile (d.state.parser p) data).ret with
  | none => exact fun _ => Triple.throw rfl
  | some ret =>
    intro hne
    apply (storeError_parses hbase hd₂.toParses _ _).bind
    rintro _ d₃ ⟨hd₃, -⟩
    exact Triple.pure ⟨fun hzero => hne (congrArg some hzero), hd₃⟩

/-- The message is read. -/
theorem driverErrmsg_parses (hbase : BaseOwned valid handles dev)
    (hd : Parses valid handles dev p d) :
    Triple (SmartPlugin.driverErrmsg dev) d (fun _ d' => Parses valid handles dev p d') E := by
  have huse : Triple (useHandle dev) d (fun _ d' => Parses valid handles dev p d') E :=
    useHandle_spec (hd.owned.live (hbase.mem _)) fun l hl => hd.of_eq hl
  refine huse.bind fun _ d₁ hd₁ => ?_
  exact Triple.of_run rfl hd₁

end Calls

/-! ### `run_parser`

The dives of a log, one by one, with the parser reset in front of each.
-/

/-- A driver with the parser and the extraction that the two Smart plugins share. -/
structure SharesParser [HasBase σ] (drv : DriverInterface (Parsing σ)) (fuel : Nat) : Prop where
  driverErrmsg : drv.driverErrmsg = SmartPlugin.driverErrmsg
  driverExtract : drv.driverExtract = SmartPlugin.driverExtract fuel
  parserCreate : drv.parserCreate = SmartPlugin.parserCreate
  parserClose : drv.parserClose = SmartPlugin.parserClose
  parserReset : drv.parserReset = SmartPlugin.parserReset
  parserParseHeader : drv.parserParseHeader = SmartPlugin.parserParseHeader
  parserParseProfile : drv.parserParseProfile = SmartPlugin.parserParseProfile

/-- A dive with its records. -/
structure LaidOutDive (m : Model) where
  bytes : List UInt8
  records : List (Record m)
  laidOut : LaidOut m bytes records
  length_le : bytes.length ≤ 2 ^ 32 - 3

/-- What the formatter is given of a dive. -/
def LaidOutDive.tokens {m : Model} (tcorr : BitVec 32) (e : LaidOutDive m) : DiveTokens :=
  laidOutTokens tcorr e.bytes e.records

/-- A failing call ends the pass. -/
theorem runParserDive_error (F : Formatter D) (s : D) {c : ParserCalls} (h : ¬c.Succeed) :
    ∃ rv, runParserDive F s c = .error rv := by
  unfold runParserDive failOn
  by_cases hreset : c.reset = 0
  · by_cases hheader : c.headerRv = 0
    · have hprofile : c.profileRv ≠ 0 := fun hprofile => h ⟨hreset, hheader, hprofile⟩
      rw [hreset, hheader, if_neg (not_not.mpr rfl), if_pos hprofile]
      exact ⟨_, rfl⟩
    · rw [hreset, if_neg (not_not.mpr rfl), if_pos hheader]
      exact ⟨_, rfl⟩
  · rw [if_pos hreset]
    exact ⟨_, rfl⟩

section RunParser

variable [HasBase σ] {drv : DriverInterface (Parsing σ)} {fuel : Nat} {valid : σ → Prop}
  {handles : σ → Set Nat} {m : Model} {tcorr : BitVec 32} {dev p : Nat} {d : Desk (Parsing σ)}
  {data : List UInt8} {E : Halt → Prop}

/-- A dive that is laid out. -/
theorem diveCalls_laidOut (hdrv : SharesParser drv fuel) (hbase : BaseOwned valid handles dev)
    (hd : ReadsDives valid handles m tcorr dev p d) (hsize : data.length ≤ 2 ^ 32 - 3)
    {rs : List (Record m)} (h : LaidOut m data rs) :
    Triple (diveCalls drv dev p data) d (fun c d' => c.Succeed ∧
      c.dive = laidOutTokens tcorr data rs ∧ ReadsDives valid handles m tcorr dev p d') E := by
  rw [diveCalls, hdrv.parserReset, hdrv.parserParseHeader, hdrv.parserParseProfile]
  apply (parserReset_reads hd).bind
  rintro _ d₁ ⟨rfl, hd₁, hnew⟩
  rw [if_neg (not_not.mpr rfl)]
  apply (parserParseHeader_laidOut hbase hd₁ h.check).bind
  rintro _ d₂ ⟨rfl, hd₂, hparser⟩
  dsimp only
  rw [if_neg (not_not.mpr rfl)]
  rw [← hparser] at hnew
  apply (parserParseProfile_laidOut hbase hd₂ hsize h hnew).bind
  rintro _ d₃ ⟨rfl, hd₃⟩
  dsimp only
  rw [if_neg (not_not.mpr rfl)]
  exact Triple.pure ⟨⟨rfl, rfl, rfl⟩, rfl, hd₃⟩

/-- A dive that is not. -/
theorem diveCalls_refused (hdrv : SharesParser drv fuel) (hbase : BaseOwned valid handles dev)
    (hd : ReadsDives valid handles m tcorr dev p d) (hsize : data.length ≤ 2 ^ 32 - 3)
    (h : ∀ rs : List (Record m), ¬LaidOut m data rs) :
    Triple (diveCalls drv dev p data) d (fun c d' => ¬c.Succeed ∧
      Parses valid handles dev p d') (· = .overflow) := by
  rw [diveCalls, hdrv.parserReset, hdrv.parserParseHeader, hdrv.parserParseProfile,
    hdrv.driverErrmsg]
  apply (parserReset_reads hd).bind
  rintro _ d₁ ⟨rfl, hd₁, -⟩
  rw [if_neg (not_not.mpr rfl)]
  by_cases hcheck : smartCheckBuffer m data = none
  · apply (parserParseHeader_laidOut hbase hd₁ hcheck).bind
    rintro _ d₂ ⟨rfl, hd₂, -⟩
    dsimp only
    rw [if_neg (not_not.mpr rfl)]
    apply (parserParseProfile_refused hbase hd₂ hsize hcheck h).bind
    rintro ⟨rv, ws⟩ d₃ ⟨hrv, hd₃⟩
    dsimp only at hrv ⊢
    rw [if_pos hrv]
    refine (driverErrmsg_parses hbase hd₃).bind fun _ d₄ hd₄ => ?_
    exact Triple.pure ⟨fun hsucceed => hrv hsucceed.2.2, hd₄⟩
  · apply (parserParseHeader_refused hbase hd₁ hcheck).bind
    rintro ⟨rv, es⟩ d₂ ⟨hrv, hd₂⟩
    dsimp only at hrv ⊢
    rw [if_pos hrv]
    refine (driverErrmsg_parses hbase hd₂).bind fun _ d₃ hd₃ => ?_
    exact Triple.pure ⟨fun hsucceed => hrv hsucceed.2.1, hd₃⟩

variable {F : Formatter D}

/-- The loop over dives that are all laid out. -/
theorem parseDives_laidOut (hdrv : SharesParser drv fuel) (hbase : BaseOwned valid handles dev)
    (hd : ReadsDives valid handles m tcorr dev p d) (s : D) {dives : List (List UInt8 × Text)}
    {log : List (LaidOutDive m)} (h : dives.map Prod.fst = log.map LaidOutDive.bytes) :
    Triple (parseDives drv F dev p s dives) d (fun r d' =>
      r = .ok (F.dives s (log.map (LaidOutDive.tokens tcorr))) ∧
        ReadsDives valid handles m tcorr dev p d') E := by
  induction log generalizing dives s d with
  | nil =>
    obtain rfl : dives = [] := List.map_eq_nil_iff.mp h
    exact Triple.pure ⟨rfl, hd⟩
  | cons e log ih =>
    obtain ⟨dive, dives, rfl, hdive, hrest⟩ := List.map_eq_cons_iff.mp h
    have hlaidOut := e.laidOut
    have hlength := e.length_le
    rw [← hdive] at hlaidOut hlength
    apply (diveCalls_laidOut hdrv hbase hd hlength hlaidOut).bind
    rintro c d₁ ⟨hsucceed, htokens, hd₁⟩
    rw [runParserDive_succeed F s hsucceed, htokens, hdive]
    exact ih hd₁ _ hrest

/-- A dive that is not laid out ends the loop. -/
theorem parseDives_refused (hdrv : SharesParser drv fuel) (hbase : BaseOwned valid handles dev)
    (hd : ReadsDives valid handles m tcorr dev p d) (s : D) {dives : List (List UInt8 × Text)}
    (hsize : ∀ dive ∈ dives, dive.1.length ≤ 2 ^ 32 - 3)
    (h : ∃ dive ∈ dives, ∀ rs : List (Record m), ¬LaidOut m dive.1 rs) :
    Triple (parseDives drv F dev p s dives) d (fun r d' => (∃ rv, r = .error rv) ∧
      Parses valid handles dev p d') (· = .overflow) := by
  induction dives generalizing s d with
  | nil =>
    obtain ⟨dive, hdive, -⟩ := h
    cases hdive
  | cons dive dives ih =>
    have hlength := hsize dive List.mem_cons_self
    have hsizes : ∀ dive ∈ dives, dive.1.length ≤ 2 ^ 32 - 3 := by
      intro dive hdive
      exact hsize dive (List.mem_cons_of_mem _ hdive)
    by_cases hlaidOut : ∃ rs : List (Record m), LaidOut m dive.1 rs
    · obtain ⟨rs, hlaidOut⟩ := hlaidOut
      have hrest : ∃ dive ∈ dives, ∀ rs : List (Record m), ¬LaidOut m dive.1 rs := by
        obtain ⟨bad, hbad, hrs⟩ := h
        rcases List.mem_cons.mp hbad with rfl | hbad
        · exact absurd hlaidOut (hrs rs)
        · exact ⟨bad, hbad, hrs⟩
      apply (diveCalls_laidOut hdrv hbase hd hlength hlaidOut).bind
      rintro c d₁ ⟨hsucceed, -, hd₁⟩
      rw [runParserDive_succeed F s hsucceed]
      exact ih hd₁ _ hsizes hrest
    · apply (diveCalls_refused hdrv hbase hd hlength (not_exists.mp hlaidOut)).bind
      rintro c d₁ ⟨hfails, hd₁⟩
      obtain ⟨rv, hrv⟩ := runParserDive_error F s hfails
      rw [hrv]
      exact Triple.pure ⟨⟨rv, rfl⟩, hd₁⟩

/-- The parser of a device of a model with a parser is created. -/
theorem parserCreate_reads (hbase : BaseOwned valid handles dev)
    (hd : Owned valid handles d.driver)
    (hmodel : (HasBase.base d.state.driver).model = m.number) :
    Triple (SmartPlugin.parserCreate dev) d (fun r d' => ∃ p, r = .ok p ∧
      ReadsDives valid handles m (BitVec.ofInt 32 (HasBase.base d.state.driver).tcorr) dev p d')
      E := by
  have halloc : Triple allocHandle d (fun p d' => d'.state = d.state ∧
      Owned valid handles d'.driver ∧ p ∈ d'.ledger.live ∧ p ∉ handles d'.state.driver) E := by
    refine allocHandle_spec fun p l hp hl =>
      ⟨rfl, hd.of_insert hl, ?_, fun h => hp (hd.live h)⟩
    exact hl ▸ Set.mem_insert p _
  apply halloc.bind
  rintro p d₁ ⟨hstate₁, hd₁, hp₁, hne₁⟩
  have huse : Triple (useHandle dev) d₁ (fun _ d' => d'.state = d.state ∧
      Owned valid handles d'.driver ∧ p ∈ d'.ledger.live ∧ p ∉ handles d'.state.driver) E :=
    useHandle_spec (hd₁.live (hbase.mem _)) fun l hl => ⟨hstate₁, hd₁.of_eq hl, hl ▸ hp₁, hne₁⟩
  apply huse.bind
  rintro _ d₂ ⟨hstate₂, hd₂, hp₂, hne₂⟩
  have hget : Triple getState d₂ (fun s d' => s = d.state ∧ d₂ = d') E :=
    Triple.of_run rfl ⟨hstate₂, rfl⟩
  apply hget.bind
  rintro _ _ ⟨rfl, rfl⟩
  have hcreate : ∃ q, smartParserCreate (d.state.parser p)
      (HasBase.base d.state.driver).forParser = .ok q ∧ q.model = m ∧
        q.dev = (HasBase.base d.state.driver).forParser := smartParserCreate_of_model hmodel
  obtain ⟨q, hq, hqm, -⟩ := hcreate
  rw [hq]
  refine Triple.of_run rfl ⟨p, rfl, ⟨⟨hd₂, hp₂, hne₂, Function.update_self ..⟩, ?_, ?_, ?_⟩⟩
  · show (Function.update d₂.state.parser p q p).model = m
    rw [Function.update_self]
    exact hqm
  · exact hstate₂ ▸ hmodel
  · exact hstate₂ ▸ rfl

variable {s : D} {dives : List (List UInt8 × Text)}

/-- **The formatter is given every dive of a log**, in order, and closed. -/
theorem runParserWith_laidOut (hdrv : SharesParser drv fuel) (hbase : BaseOwned valid handles dev)
    (hd : Owned valid handles d.driver)
    (hmodel : (HasBase.base d.state.driver).model = m.number) {log : List (LaidOutDive m)}
    (h : dives.map Prod.fst = log.map LaidOutDive.bytes) :
    Triple (runParserWith drv F (.ok s) dev dives) d (fun r _ =>
      r = .ok (F.closeFn (F.dives s (log.map
        (LaidOutDive.tokens (BitVec.ofInt 32 (HasBase.base d.state.driver).tcorr)))))) E := by
  rw [runParserWith, hdrv.parserCreate, hdrv.parserClose]
  apply (parserCreate_reads hbase hd hmodel).bind
  rintro _ d₁ ⟨p, rfl, hd₁⟩
  apply (parseDives_laidOut hdrv hbase hd₁ s h).bind
  rintro _ d₂ ⟨rfl, hd₂⟩
  have hclose : Triple (SmartPlugin.parserClose p) d₂ (fun _ _ => True) E :=
    disposeHandle_spec hd₂.live fun _ _ => trivial
  exact hclose.bind fun _ _ _ => Triple.pure rfl

/-- **A dive that is not laid out leaves no output.** -/
theorem runParserWith_refused (hdrv : SharesParser drv fuel) (hbase : BaseOwned valid handles dev)
    (hd : Owned valid handles d.driver)
    (hmodel : (HasBase.base d.state.driver).model = m.number)
    (hsize : ∀ dive ∈ dives, dive.1.length ≤ 2 ^ 32 - 3)
    (h : ∃ dive ∈ dives, ∀ rs : List (Record m), ¬LaidOut m dive.1 rs) :
    Triple (runParserWith drv F (.ok s) dev dives) d (fun r _ => ∃ rv, r = .error rv)
      (· = .overflow) := by
  rw [runParserWith, hdrv.parserCreate]
  apply (parserCreate_reads hbase hd hmodel).bind
  rintro _ d₁ ⟨p, rfl, hd₁⟩
  apply (parseDives_refused hdrv hbase hd₁ s hsize h).bind
  rintro _ d₂ ⟨⟨rv, rfl⟩, -⟩
  exact Triple.pure ⟨rv, rfl⟩

end RunParser

end BenthosDc

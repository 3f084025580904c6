/-
BenthosDc/SmartHeader.lean

The dive headers of the Smart models (`smart_parser.c`).

A header has a fixed layout for each model.  `smartParserParseHeader` makes the
same two tests as the profile parser and reports the entries of the layout; it
never touches the accumulators (`smartParserParseHeader_accumulators`).
-/
import BenthosDc.SmartParser

namespace BenthosDc

/-- `DIVE_HEADER_*` -/
inductive HeaderToken
  | startTime
  | utcOffset
  | duration
  | interval
  | repetition
  | desatBefore
  | desatAfter
  | noflyBefore
  | noflyAfter
  | maxDepth
  | avgDepth
  | minTemp
  | maxTemp
  | airTemp
  | pxStart
  | pxEnd
  | pmo2
  | pmhe
  | vendor
  deriving DecidableEq, Repr

/-- The arguments of a call of the header callback. -/
structure HeaderEntry where
  token : HeaderToken
  value : BitVec 32
  index : Nat
  name : Option String
  deriving DecidableEq

/-- The byte `buffer[i]` as a signed `char`. -/
def int8 (buffer : List UInt8) (i : Nat) : Int := (BitVec.ofNat 8 (octet buffer i)).toInt

/-- The eight tissue compartments, words from `base` on. -/
def compartments (buffer : List UInt8) (base : Nat) : List HeaderEntry :=
  (List.range 8).map fun i =>
    ⟨.vendor, BitVec.ofNat 32 (uint32Le buffer (base + 4 * i)), i, some "cmp"⟩

/-! ### The layouts

The entries stand in the order in which the callbacks are made.  The time of the dive is
computed in 32 bits, from half seconds, with the correction of the clock and, where the model
has one, the offset of the time zone.
-/

/-- The header of the Smart Pro. -/
def smartParseSmartProHeader (buffer : List UInt8) (tcorr : BitVec 32) : List HeaderEntry :=
  let dtime := (BitVec.ofNat 32 (uint32Le buffer 8) + tcorr) / 2
  [⟨.startTime, dtime, 0, none⟩,
   ⟨.vendor, BitVec.ofNat 32 (uint16Le buffer 16), 0, some "alarms"⟩,
   ⟨.vendor, BitVec.ofNat 32 (octet buffer 17), 0, some "microbubble_level"⟩,
   ⟨.maxDepth, BitVec.ofNat 32 (uint16Le buffer 18), 0, none⟩,
   ⟨.duration, BitVec.ofNat 32 (uint16Le buffer 20), 0, none⟩,
   ⟨.minTemp, BitVec.ofNat 32 (uint16Le buffer 22 * 10), 0, none⟩,
   ⟨.pmo2, BitVec.ofNat 32 (octet buffer 24 * 10), 0, none⟩,
   ⟨.interval, BitVec.ofNat 32 (uint16Le buffer 26), 0, none⟩,
   ⟨.vendor, BitVec.ofNat 32 (uint16Le buffer 28), 0, some "cnsO2"⟩,
   ⟨.vendor, BitVec.ofNat 32 (uint16Le buffer 30), 0, some "altitude"⟩,
   ⟨.vendor, BitVec.ofNat 32 (uint16Le buffer 32), 0, some "ppO2_max"⟩,
   ⟨.vendor, BitVec.ofNat 32 (uint16Le buffer 34), 0, some "depth_max"⟩,
   ⟨.desatBefore, BitVec.ofNat 32 (uint16Le buffer 38), 0, none⟩,
   ⟨.vendor, BitVec.ofNat 32 (uint16Le buffer 48), 0, some "mode"⟩] ++
    compartments buffer 60

/-- The header of the Galileo, which has three gases. -/
def smartParseGalileoSolHeader (buffer : List UInt8) (tcorr : BitVec 32) : List HeaderEntry :=
  let utcoff := int8 buffer 16
  let dtime := (BitVec.ofNat 32 (uint32Le buffer 8) + tcorr + BitVec.ofInt 32 (utcoff * 1800)) / 2
  [⟨.startTime, dtime, 0, none⟩,
   ⟨.utcOffset, BitVec.ofInt 32 (utcoff * 15), 0, none⟩,
   ⟨.repetition, BitVec.ofNat 32 (octet buffer 17), 0, none⟩,
   ⟨.vendor, BitVec.ofNat 32 (octet buffer 18), 0, some "microbubble_level"⟩,
   ⟨.vendor, BitVec.ofNat 32 (octet buffer 19), 0, some "battery"⟩,
   ⟨.maxDepth, BitVec.ofNat 32 (uint16Le buffer 22), 0, none⟩,
   ⟨.avgDepth, BitVec.ofNat 32 (uint16Le buffer 24), 0, none⟩,
   ⟨.duration, BitVec.ofNat 32 (uint16Le buffer 26), 0, none⟩,
   ⟨.maxTemp, BitVec.ofNat 32 (uint16Le buffer 28 * 10), 0, none⟩,
   ⟨.minTemp, BitVec.ofNat 32 (uint16Le buffer 30 * 10), 0, none⟩,
   ⟨.airTemp, BitVec.ofNat 32 (uint16Le buffer 32 * 10), 0, none⟩,
   ⟨.interval, BitVec.ofNat 32 (uint16Le buffer 38), 0, none⟩,
   ⟨.vendor, BitVec.ofNat 32 (uint16Le buffer 40), 0, some "cnsO2"⟩,
   ⟨.pmo2, BitVec.ofNat 32 (uint16Le buffer 44 * 10), 0, none⟩,
   ⟨.pmo2, BitVec.ofNat 32 (uint16Le buffer 46 * 10), 1, none⟩,
   ⟨.pmo2, BitVec.ofNat 32 (uint16Le buffer 48 * 10), 2, none⟩,
   ⟨.pxEnd, BitVec.ofNat 32 (uint16Le buffer 50 * 125 / 16), 0, none⟩,
   ⟨.pxEnd, BitVec.ofNat 32 (uint16Le buffer 52 * 125 / 16), 1, none⟩,
   ⟨.pxEnd, BitVec.ofNat 32 (uint16Le buffer 54 * 125 / 16), 2, none⟩,
   ⟨.pxStart, BitVec.ofNat 32 (uint16Le buffer 56 * 125 / 16), 0, none⟩,
   ⟨.pxStart, BitVec.ofNat 32 (uint16Le buffer 58 * 125 / 16), 1, none⟩,
   ⟨.pxStart, BitVec.ofNat 32 (uint16Le buffer 60 * 125 / 16), 2, none⟩,
   ⟨.vendor, BitVec.ofNat 32 (uint16Le buffer 66), 0, some "ppO2_max"⟩,
   ⟨.vendor, BitVec.ofNat 32 (uint16Le buffer 68), 1, some "ppO2_max"⟩,
   ⟨.vendor, BitVec.ofNat 32 (uint16Le buffer 70), 2, some "ppO2_max"⟩,
   ⟨.vendor, BitVec.ofNat 32 (uint16Le buffer 74), 0, some "altitude"⟩,
   ⟨.vendor, BitVec.ofNat 32 (uint16Le buffer 78), 0, some "depth_max"⟩,
   ⟨.vendor, BitVec.ofNat 32 (uint16Le buffer 80), 0, some "time_max"⟩,
   ⟨.vendor, BitVec.ofNat 32 (uint16Le buffer 82), 0, some "pressure_min"⟩,
   ⟨.desatBefore, BitVec.ofNat 32 (uint16Le buffer 88), 0, none⟩] ++
    compartments buffer 120

/-- The header of the Aladin Tec. -/
def smartParseAladinTecHeader (buffer : List UInt8) (tcorr : BitVec 32) : List HeaderEntry :=
  let utcoff := int8 buffer 16
  let dtime := (BitVec.ofNat 32 (uint32Le buffer 8) + tcorr + BitVec.ofInt 32 (utcoff * 1800)) / 2
  [⟨.startTime, dtime, 0, none⟩,
   ⟨.utcOffset, BitVec.ofInt 32 (utcoff * 15), 0, none⟩,
   ⟨.repetition, BitVec.ofNat 32 (octet buffer 17), 0, none⟩,
   ⟨.vendor, BitVec.ofNat 32 (octet buffer 18), 0, some "microbubble_level"⟩,
   ⟨.vendor, BitVec.ofNat 32 (uint16Le buffer 20), 0, some "alarms"⟩,
   ⟨.maxDepth, BitVec.ofNat 32 (uint16Le buffer 22), 0, none⟩,
   ⟨.duration, BitVec.ofNat 32 (uint16Le buffer 24), 0, none⟩,
   ⟨.minTemp, BitVec.ofNat 32 (uint16Le buffer 26 * 10), 0, none⟩,
   ⟨.maxTemp, BitVec.ofNat 32 (uint16Le buffer 28 * 10), 0, none⟩,
   ⟨.pmo2, BitVec.ofNat 32 (uint16Le buffer 30 * 10), 0, none⟩,
   ⟨.airTemp, BitVec.ofNat 32 (uint16Le buffer 32 * 10), 0, none⟩,
   ⟨.interval, BitVec.ofNat 32 (uint16Le buffer 34), 0, none⟩,
   ⟨.vendor, BitVec.ofNat 32 (uint16Le buffer 36), 0, some "cnsO2"⟩,
   ⟨.vendor, BitVec.ofNat 32 (uint16Le buffer 38), 0, some "altitude"⟩,
   ⟨.vendor, BitVec.ofNat 32 (uint16Le buffer 42), 0, some "ppO2_max"⟩,
   ⟨.vendor, BitVec.ofNat 32 (uint16Le buffer 44), 0, some "depth_max"⟩,
   ⟨.desatBefore, BitVec.ofNat 32 (uint16Le buffer 48), 0, none⟩] ++
    compartments buffer 76

/-- The header of the Aladin Tec 2G. -/
def smartParseAladinTec2gHeader (buffer : List UInt8) (tcorr : BitVec 32) : List HeaderEntry :=
  let utcoff := int8 buffer 16
  let dtime := (BitVec.ofNat 32 (uint32Le buffer 8) + tcorr + BitVec.ofInt 32 (utcoff * 1800)) / 2
  [⟨.startTime, dtime, 0, none⟩,
   ⟨.utcOffset, BitVec.ofInt 32 (utcoff * 15), 0, none⟩,
   ⟨.repetition, BitVec.ofNat 32 (octet buffer 17), 0, none⟩,
   ⟨.vendor, BitVec.ofNat 32 (octet buffer 18), 0, some "microbubble_level"⟩,
   ⟨.vendor, BitVec.ofNat 32 (uint16Le buffer 20), 0, some "alarms"⟩,
   ⟨.maxDepth, BitVec.ofNat 32 (uint16Le buffer 22), 0, none⟩,
   ⟨.avgDepth, BitVec.ofNat 32 (uint16Le buffer 24), 0, none⟩,
   ⟨.duration, BitVec.ofNat 32 (uint16Le buffer 26), 0, none⟩,
   ⟨.maxTemp, BitVec.ofNat 32 (uint16Le buffer 28 * 10), 0, none⟩,
   ⟨.minTemp, BitVec.ofNat 32 (uint16Le buffer 30 * 10), 0, none⟩,
   ⟨.airTemp, BitVec.ofNat 32 (uint16Le buffer 32 * 10), 0, none⟩,
   ⟨.pmo2, BitVec.ofNat 32 (octet buffer 34 * 10), 0, none⟩,
   ⟨.pmo2, BitVec.ofNat 32 (octet buffer 35 * 10), 1, none⟩,
   ⟨.pmo2, BitVec.ofNat 32 (octet buffer 36 * 10), 2, none⟩,
   ⟨.vendor, BitVec.ofNat 32 (octet buffer 37), 0, some "battery"⟩,
   ⟨.interval, BitVec.ofNat 32 (uint16Le buffer 40), 0, none⟩,
   ⟨.vendor, BitVec.ofNat 32 (uint16Le buffer 42), 0, some "cnsO2"⟩,
   ⟨.vendor, BitVec.ofNat 32 (uint16Le buffer 46), 0, some "ppO2_max"⟩,
   ⟨.vendor, BitVec.ofNat 32 (uint16Le buffer 48), 1, some "ppO2_max"⟩,
   ⟨.vendor, BitVec.ofNat 32 (uint16Le buffer 50), 2, some "ppO2_max"⟩,
   ⟨.desatBefore, BitVec.ofNat 32 (uint16Le buffer 56), 0, none⟩,
   ⟨.noflyBefore, BitVec.ofNat 32 (uint16Le buffer 58), 0, none⟩,
   ⟨.vendor, BitVec.ofNat 32 (uint32Le buffer 60), 0, some "mode"⟩] ++
    compartments buffer 84

/-- The header of the Smart Com. -/
def smartParseSmartComHeader (buffer : List UInt8) (tcorr : BitVec 32) : List HeaderEntry :=
  let dtime := (BitVec.ofNat 32 (uint32Le buffer 8) + tcorr) / 2
  [⟨.startTime, dtime, 0, none⟩,
   ⟨.vendor, BitVec.ofNat 32 (uint16Le buffer 16), 0, some "alarms"⟩,
   ⟨.vendor, BitVec.ofNat 32 (octet buffer 17), 0, some "microbubble_level"⟩,
   ⟨.maxDepth, BitVec.ofNat 32 (uint16Le buffer 18), 0, none⟩,
   ⟨.duration, BitVec.ofNat 32 (uint16Le buffer 20), 0, none⟩,
   ⟨.minTemp, BitVec.ofNat 32 (uint16Le buffer 22 * 10), 0, none⟩,
   ⟨.pmo2, BitVec.ofNat 32 (octet buffer 24 * 10), 0, none⟩,
   ⟨.interval, BitVec.ofNat 32 (uint16Le buffer 26), 0, none⟩,
   ⟨.vendor, BitVec.ofNat 32 (uint16Le buffer 28), 0, some "cnsO2"⟩,
   ⟨.pxStart, BitVec.ofNat 32 (uint16Le buffer 30 * 125 / 16), 0, none⟩,
   ⟨.pxEnd, BitVec.ofNat 32 (uint16Le buffer 32 * 125 / 16), 0, none⟩,
   ⟨.vendor, BitVec.ofNat 32 (uint16Le buffer 34), 0, some "depth_max"⟩,
   ⟨.vendor, BitVec.ofNat 32 (uint16Le buffer 36), 0, some "pressure_min"⟩,
   ⟨.vendor, BitVec.ofNat 32 (uint16Le buffer 42), 0, some "altitude"⟩,
   ⟨.vendor, BitVec.ofNat 32 (uint16Le buffer 44), 0, some "ppO2_max"⟩,
   ⟨.vendor, BitVec.ofNat 32 (uint32Le buffer 58), 0, some "mode"⟩]

/-- The header of the Smart Tec. -/
def smartParseSmartTecHeader (buffer : List UInt8) (tcorr : BitVec 32) : List HeaderEntry :=
  let dtime := (BitVec.ofNat 32 (uint32Le buffer 8) + tcorr) / 2
  [⟨.startTime, dtime, 0, none⟩,
   ⟨.vendor, BitVec.ofNat 32 (uint16Le buffer 16), 0, some "alarms"⟩,
   ⟨.vendor, BitVec.ofNat 32 (octet buffer 17), 0, some "microbubble_level"⟩,
   ⟨.maxDepth, BitVec.ofNat 32 (uint16Le buffer 18), 0, none⟩,
   ⟨.duration, BitVec.ofNat 32 (uint16Le buffer 20), 0, none⟩,
   ⟨.minTemp, BitVec.ofNat 32 (uint16Le buffer 22 * 10), 0, none⟩,
   ⟨.interval, BitVec.ofNat 32 (uint16Le buffer 24), 0, none⟩,
   ⟨.vendor, BitVec.ofNat 32 (uint16Le buffer 26), 0, some "cnsO2"⟩,
   ⟨.pmo2, BitVec.ofNat 32 (uint16Le buffer 28 * 10), 0, none⟩,
   ⟨.pmo2, BitVec.ofNat 32 (uint16Le buffer 30 * 10), 1, none⟩,
   ⟨.pmo2, BitVec.ofNat 32 (uint16Le buffer 32 * 10), 2, none⟩,
   ⟨.pxStart, BitVec.ofNat 32 (uint16Le buffer 34 * 125 / 16), 0, none⟩,
   ⟨.pxEnd, BitVec.ofNat 32 (uint16Le buffer 36 * 125 / 16), 0, none⟩,
   ⟨.pxStart, BitVec.ofNat 32 (uint16Le buffer 38 * 125 / 16), 1, none⟩,
   ⟨.pxEnd, BitVec.ofNat 32 (uint16Le buffer 40 * 125 / 16), 1, none⟩,
   ⟨.pxStart, BitVec.ofNat 32 (uint16Le buffer 42 * 125 / 16), 2, none⟩,
   ⟨.pxEnd, BitVec.ofNat 32 (uint16Le buffer 44 * 125 / 16), 2, none⟩,
   ⟨.vendor, BitVec.ofNat 32 (uint16Le buffer 48), 0, some "depth_max"⟩,
   ⟨.vendor, BitVec.ofNat 32 (uint16Le buffer 50), 0, some "pressure_min"⟩,
   ⟨.vendor, BitVec.ofNat 32 (uint16Le buffer 56), 0, some "altitude"⟩,
   ⟨.vendor, BitVec.ofNat 32 (uint16Le buffer 58), 0, some "ppO2_max"⟩,
   ⟨.vendor, BitVec.ofNat 32 (uint16Le buffer 60), 1, some "ppO2_max"⟩,
   ⟨.vendor, BitVec.ofNat 32 (uint16Le buffer 62), 2, some "ppO2_max"⟩,
   ⟨.desatBefore, BitVec.ofNat 32 (uint16Le buffer 80), 0, none⟩,
   ⟨.vendor, BitVec.ofNat 32 (uint32Le buffer 92), 0, some "mode"⟩] ++
    compartments buffer 100

/-- The header of the Smart Z. -/
def smartParseSmartZHeader (buffer : List UInt8) (tcorr : BitVec 32) : List HeaderEntry :=
  let dtime := (BitVec.ofNat 32 (uint32Le buffer 8) + tcorr) / 2
  [⟨.startTime, dtime, 0, none⟩,
   ⟨.vendor, BitVec.ofNat 32 (uint16Le buffer 16), 0, some "alarms"⟩,
   ⟨.vendor, BitVec.ofNat 32 (octet buffer 17), 0, some "microbubble_level"⟩,
   ⟨.maxDepth, BitVec.ofNat 32 (uint16Le buffer 18), 0, none⟩,
   ⟨.duration, BitVec.ofNat 32 (uint16Le buffer 20), 0, none⟩,
   ⟨.minTemp, BitVec.ofNat 32 (uint16Le buffer 22 * 10), 0, none⟩,
   ⟨.interval, BitVec.ofNat 32 (uint16Le buffer 24), 0, none⟩,
   ⟨.vendor, BitVec.ofNat 32 (uint16Le buffer 26), 0, some "cnsO2"⟩,
   ⟨.pmo2, BitVec.ofNat 32 (uint16Le buffer 28 * 10), 0, none⟩,
   ⟨.pxStart, BitVec.ofNat 32 (uint16Le buffer 34 * 125 / 16), 0, none⟩,
   ⟨.pxEnd, BitVec.ofNat 32 (uint16Le buffer 36 * 125 / 16), 0, none⟩,
   ⟨.vendor, BitVec.ofNat 32 (uint16Le buffer 48), 0, some "depth_max"⟩,
   ⟨.vendor, BitVec.ofNat 32 (uint16Le buffer 50), 0, some "pressure_min"⟩,
   ⟨.vendor, BitVec.ofNat 32 (uint16Le buffer 56), 0, some "altitude"⟩,
   ⟨.vendor, BitVec.ofNat 32 (uint16Le buffer 58), 0, some "ppO2_max"⟩,
   ⟨.desatBefore, BitVec.ofNat 32 (uint16Le buffer 80), 0, none⟩,
   ⟨.vendor, BitVec.ofNat 32 (uint32Le buffer 92), 0, some "mode"⟩] ++
    compartments buffer 100

/-! ### Parsing a header

The buffer is checked with the model that the parser was created for, and the layout is chosen
by the model that the device has now.
-/

/-- The code, the parser behind the call, and the entries passed on. -/
structure HeaderResult where
  ret : Int
  parser : SmartParser
  trace : List HeaderEntry
  deriving DecidableEq

/-- A buffer that is refused passes no entry on. -/
def smartParserParseHeader (p : SmartParser) (buffer : List UInt8) : HeaderResult :=
  match smartCheckBuffer p.model buffer with
  | some msg => ⟨-1, p.setError driverErrInvalid msg, []⟩
  | none =>
      match p.dev.model with
      | 16 => ⟨0, p, smartParseSmartProHeader buffer p.dev.tcorr⟩
      | 17 => ⟨0, p, smartParseGalileoSolHeader buffer p.dev.tcorr⟩
      | 18 => ⟨0, p, smartParseAladinTecHeader buffer p.dev.tcorr⟩
      | 19 => ⟨0, p, smartParseAladinTec2gHeader buffer p.dev.tcorr⟩
      | 20 => ⟨0, p, smartParseSmartComHeader buffer p.dev.tcorr⟩
      | 24 => ⟨0, p, smartParseSmartTecHeader buffer p.dev.tcorr⟩
      | 28 => ⟨0, p, smartParseSmartZHeader buffer p.dev.tcorr⟩
      | _ => ⟨-1, p.setError driverErrUnsupported "Unsupported Model Number", []⟩

/-- The layout of the header of a model. -/
def headerEntries : Model → List UInt8 → BitVec 32 → List HeaderEntry
  | .smartPro => smartParseSmartProHeader
  | .galileoSol => smartParseGalileoSolHeader
  | .aladinTec => smartParseAladinTecHeader
  | .aladinTec2g => smartParseAladinTec2gHeader
  | .smartCom => smartParseSmartComHeader
  | .smartTec => smartParseSmartTecHeader
  | .smartZ => smartParseSmartZHeader

/-- How many bytes the layout reads. -/
def Model.headerReads : Model → Nat
  | smartPro => 92
  | galileoSol => 152
  | aladinTec => 108
  | aladinTec2g => 116
  | smartCom => 62
  | smartTec => 132
  | smartZ => 132

/-- The cases of the switch over the model number. -/
def Model.ofNumber : Nat → Option Model
  | 16 => some smartPro
  | 17 => some galileoSol
  | 18 => some aladinTec
  | 19 => some aladinTec2g
  | 20 => some smartCom
  | 24 => some smartTec
  | 28 => some smartZ
  | _ => none

/-- `smart_parser_parse_header` where `dev` is the device as it is now; `none` if the layout of its
model reads past the end of the buffer. -/
def smartParserParseHeaderOn (dev : SmartDeviceBase) (p : SmartParser) (buffer : List UInt8) :
    Option HeaderResult :=
  match smartCheckBuffer p.model buffer with
  | some msg => some ⟨-1, p.setError driverErrInvalid msg, []⟩
  | none =>
      match Model.ofNumber dev.model with
      | some m =>
          if buffer.length < m.headerReads then none
          else some ⟨0, p, headerEntries m buffer dev.tcorr⟩
      | none => some ⟨-1, p.setError driverErrUnsupported "Unsupported Model Number", []⟩

/-- Each model is found by its number. -/
theorem Model.ofNumber_number (m : Model) : Model.ofNumber m.number = some m := by
  cases m <;> rfl

/-- The places of a layout lie in the header. -/
theorem Model.headerReads_le (m : Model) : m.headerReads ≤ m.hdrSize := by
  cases m <;> decide

/-- A buffer that is accepted holds the header. -/
theorem hdrSize_le_of_check {m : Model} {buffer : List UInt8}
    (h : smartCheckBuffer m buffer = none) : m.hdrSize ≤ buffer.length := by
  rw [smartCheckBuffer] at h
  split at h
  · cases h
  · omega

/-- A header of the parser's own model is read inside of the buffer. -/
theorem smartParserParseHeaderOn_checked {dev : SmartDeviceBase} {p : SmartParser}
    {buffer : List UInt8} (hmodel : dev.model = p.model.number)
    (hcheck : smartCheckBuffer p.model buffer = none) :
    smartParserParseHeaderOn dev p buffer =
      some ⟨0, p, headerEntries p.model buffer dev.tcorr⟩ := by
  have hreads : ¬buffer.length < p.model.headerReads :=
    not_lt.mpr (p.model.headerReads_le.trans (hdrSize_le_of_check hcheck))
  rw [smartParserParseHeaderOn, hcheck, hmodel, Model.ofNumber_number]
  exact if_neg hreads

/-- A buffer that is refused leaves an error. -/
theorem smartParserParseHeaderOn_unchecked (dev : SmartDeviceBase) {p : SmartParser}
    {buffer : List UInt8} {msg : String} (hcheck : smartCheckBuffer p.model buffer = some msg) :
    smartParserParseHeaderOn dev p buffer =
      some ⟨-1, p.setError driverErrInvalid msg, []⟩ := by
  rw [smartParserParseHeaderOn, hcheck]

/-- Whatever the model of the device is by now, no header passes that fails the tests of the
buffer. -/
theorem check_of_smartParserParseHeaderOn {dev : SmartDeviceBase} {p : SmartParser}
    {buffer : List UInt8} {r : HeaderResult} (h : smartParserParseHeaderOn dev p buffer = some r)
    (hret : r.ret = 0) : smartCheckBuffer p.model buffer = none := by
  cases hcheck : smartCheckBuffer p.model buffer with
  | none => rfl
  | some msg =>
    rw [smartParserParseHeaderOn_unchecked dev hcheck] at h
    cases h
    have hminus : (-1 : Int) = 0 := hret
    exact absurd hminus (by decide)

/-- **While the device stays as it is**, the parser sees the one that it was created for. -/
theorem smartParserParseHeaderOn_dev (p : SmartParser) (buffer : List UInt8) :
    smartParserParseHeaderOn p.dev p buffer = some (smartParserParseHeader p buffer) := by
  cases hcheck : smartCheckBuffer p.model buffer with
  | some msg => rw [smartParserParseHeaderOn_unchecked _ hcheck, smartParserParseHeader, hcheck]
  | none =>
    rw [smartParserParseHeaderOn_checked p.dev_model hcheck, smartParserParseHeader, hcheck,
      p.dev_model]
    cases p.model <;> rfl

/-- Parsing a header leaves the accumulators alone. -/
theorem smartParserParseHeader_accumulators (p : SmartParser) (buffer : List UInt8) :
    (smartParserParseHeader p buffer).parser = p ∨
      ∃ msg, smartCheckBuffer p.model buffer = some msg ∧
        (smartParserParseHeader p buffer).parser = p.setError driverErrInvalid msg := by
  rw [smartParserParseHeader, p.dev_model]
  cases smartCheckBuffer p.model buffer with
  | some msg => exact .inr ⟨msg, rfl, rfl⟩
  | none =>
    left
    cases p.model <;> rfl

end BenthosDc

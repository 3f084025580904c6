/-
BenthosDc/SmartParser.lean

The Uwatec Smart profile parser (`smart_parser.c`).

A profile is a stream of records.  The leading type bits of a record select an
entry of the model's DTI table; the entry says how many payload bits follow.
`smartProcessDti` cuts one record out of the stream, `smartParseDti` folds it
into the accumulators of the parser, and as long as `complete` is non-zero the
parser reports a waypoint.

The callbacks of the application are recorded in a trace.  A read outside the
data buffer or the DTI table has no defined result: such runs end with `none`
as their return code.
-/
import BenthosDc.Lib.Loop
import BenthosDc.Unpack
import Mathlib.Data.Fintype.Pi

namespace BenthosDc

open Loop

/-! ### Models and DTI tables

The tables are those of the source, row by row.  Each row has the type, whether its value is
absolute, the index of the tank or alarm word, the bits of the type, and the bytes behind the
first one; the comments show the bit patterns.
-/

/-- `DTI_*` -/
inductive DtiType
  | pressureDepth
  | depth
  | temperature
  | pressure
  | rbt
  | heartrate
  | bearing
  | alarms
  | time
  deriving DecidableEq, Repr

/-- `dti_entry_t`: data type, absolute or delta, index, number of type bits,
whether the rest of the last type byte is ignored, number of extra bytes. -/
structure DtiEntry where
  type : DtiType
  abs : Bool
  idx : Fin 3
  ntb : Nat
  ignore : Bool
  extra : Nat
  deriving DecidableEq, Repr

/-- `alarm_entry_t` -/
structure AlarmEntry where
  idx : Nat
  mask : BitVec 8
  name : String
  deriving DecidableEq, Repr

/-- The supported models, `MDL_*`. -/
inductive Model
  | smartPro
  | galileoSol
  | aladinTec
  | aladinTec2g
  | smartCom
  | smartTec
  | smartZ
  deriving DecidableEq, Repr

/-- The types of the Smart Pro. -/
def smartProTable : List DtiEntry :=
  [⟨.depth,         false, 0, 1, false, 0⟩,   -- 0ddd dddd
   ⟨.temperature,   false, 0, 2, false, 0⟩,   -- 10dd dddd
   ⟨.time,          true,  0, 3, false, 0⟩,   -- 110d dddd
   ⟨.alarms,        true,  0, 4, false, 0⟩,   -- 1110 dddd
   ⟨.depth,         false, 0, 5, false, 1⟩,   -- 1111 0ddd dddd dddd
   ⟨.temperature,   false, 0, 6, false, 1⟩,   -- 1111 10dd dddd dddd
   ⟨.depth,         true,  0, 7, true,  2⟩,   -- 1111 110d dddd dddd dddd dddd
   ⟨.temperature,   true,  0, 8, false, 2⟩]   -- 1111 1110 dddd dddd dddd dddd

/-- The types of the Galileo Sol. -/
def smartGalileoSolTable : List DtiEntry :=
  [⟨.depth,         false, 0, 1, false, 0⟩,   -- 0ddd dddd
   ⟨.rbt,           false, 0, 3, false, 0⟩,   -- 100d dddd
   ⟨.pressure,      false, 0, 4, false, 0⟩,   -- 1010 dddd
   ⟨.temperature,   false, 0, 4, false, 0⟩,   -- 1011 dddd
   ⟨.time,          true,  0, 4, false, 0⟩,   -- 1100 dddd
   ⟨.heartrate,     false, 0, 4, false, 0⟩,   -- 1101 dddd
   ⟨.alarms,        true,  0, 4, false, 0⟩,   -- 1110 dddd
   ⟨.alarms,        true,  1, 8, false, 1⟩,   -- 1111 0000 dddd dddd
   ⟨.depth,         true,  0, 8, false, 2⟩,   -- 1111 0001 dddd dddd dddd dddd
   ⟨.rbt,           true,  0, 8, false, 1⟩,   -- 1111 0010 dddd dddd
   ⟨.temperature,   true,  0, 8, false, 2⟩,   -- 1111 0011 dddd dddd dddd dddd
   ⟨.pressure,      true,  0, 8, false, 2⟩,   -- 1111 0100 dddd dddd dddd dddd
   ⟨.pressure,      true,  1, 8, false, 2⟩,   -- 1111 0101 dddd dddd dddd dddd
   ⟨.pressure,      true,  2, 8, false, 2⟩,   -- 1111 0110 dddd dddd dddd dddd
   ⟨.heartrate,     true,  0, 8, false, 1⟩,   -- 1111 0111 dddd dddd
   ⟨.bearing,       true,  0, 8, false, 2⟩,   -- 1111 1000 dddd dddd dddd dddd
   ⟨.alarms,        true,  2, 8, false, 1⟩]   -- 1111 1001 dddd dddd

/-- The types of the Aladin Tec. -/
def smartAladinTable : List DtiEntry :=
  [⟨.depth,         false, 0, 1, false, 0⟩,   -- 0ddd dddd
   ⟨.temperature,   false, 0, 2, false, 0⟩,   -- 10dd dddd
   ⟨.time,          true,  0, 3, false, 0⟩,   -- 110d dddd
   ⟨.alarms,        true,  0, 4, false, 0⟩,   -- 1110 dddd
   ⟨.depth,         false, 0, 5, false, 1⟩,   -- 1111 0ddd dddd dddd
   ⟨.temperature,   false, 0, 6, false, 1⟩,   -- 1111 10dd dddd dddd
   ⟨.depth,         true,  0, 7, true,  2⟩,   -- 1111 110d dddd dddd dddd dddd
   ⟨.temperature,   true,  0, 8, false, 2⟩,   -- 1111 1110 dddd dddd dddd dddd
   ⟨.alarms,        true,  1, 9, false, 0⟩]   -- 1111 1111 0ddd dddd

/-- The types of the Aladin Tec 2G. -/
def smartAladinTec2gTable : List DtiEntry :=
  [⟨.depth,         false, 0, 1, false, 0⟩,   -- 0ddd dddd
   ⟨.temperature,   false, 0, 2, false, 0⟩,   -- 10dd dddd
   ⟨.time,          true,  0, 3, false, 0⟩,   -- 110d dddd
   ⟨.alarms,        true,  0, 4, false, 0⟩,   -- 1110 dddd
   ⟨.depth,         false, 0, 5, false, 1⟩,   -- 1111 0ddd dddd dddd
   ⟨.temperature,   false, 0, 6, false, 1⟩,   -- 1111 10dd dddd dddd
   ⟨.depth,         true,  0, 7, true,  2⟩,   -- 1111 110d dddd dddd dddd dddd
   ⟨.temperature,   true,  0, 8, false, 2⟩,   -- 1111 1110 dddd dddd dddd dddd
   ⟨.alarms,        true,  1, 9, false, 0⟩]   -- 1111 1111 0ddd dddd

/-- The alarms of the Aladin Tec 2G that have a name. -/
def smartAladinTec2gAlarms : List AlarmEntry :=
  [⟨0, 1 <<< 1, "ascent"⟩,
   ⟨0, 1 <<< 2, "bookmark"⟩]

/-- The types of the Smart Com. -/
def smartComTable : List DtiEntry :=
  [⟨.pressureDepth, false, 0, 1,  false, 1⟩,  -- 0ddd dddd dddd dddd
   ⟨.rbt,           false, 0, 2,  false, 0⟩,  -- 10dd dddd
   ⟨.temperature,   false, 0, 3,  false, 0⟩,  -- 110d dddd
   ⟨.pressure,      false, 0, 4,  false, 1⟩,  -- 1110 dddd dddd dddd
   ⟨.depth,         false, 0, 5,  false, 1⟩,  -- 1111 0ddd dddd dddd
   ⟨.temperature,   false, 0, 6,  false, 1⟩,  -- 1111 10dd dddd dddd
   ⟨.alarms,        true,  0, 7,  true,  1⟩,  -- 1111 110d dddd dddd
   ⟨.time,          true,  0, 8,  false, 1⟩,  -- 1111 1110 dddd dddd
   ⟨.depth,         true,  0, 9,  true,  2⟩,  -- 1111 1111 0ddd dddd dddd dddd dddd dddd
   ⟨.temperature,   true,  0, 10, true,  2⟩,  -- 1111 1111 10dd dddd dddd dddd dddd dddd
   ⟨.pressure,      true,  0, 11, true,  2⟩,  -- 1111 1111 110d dddd dddd dddd dddd dddd
   ⟨.rbt,           true,  0, 12, true,  1⟩]  -- 1111 1111 1110 dddd dddd dddd

/-- The types of the Smart Tec and of the Smart Z. -/
def smartTecTable : List DtiEntry :=
  [⟨.pressureDepth, false, 0, 1,  false, 1⟩,  -- 0ddd dddd dddd dddd
   ⟨.rbt,           false, 0, 2,  false, 0⟩,  -- 10dd dddd
   ⟨.temperature,   false, 0, 3,  false, 0⟩,  -- 110d dddd
   ⟨.pressure,      false, 0, 4,  false, 1⟩,  -- 1110 dddd dddd dddd
   ⟨.depth,         false, 0, 5,  false, 1⟩,  -- 1111 0ddd dddd dddd
   ⟨.temperature,   false, 0, 6,  false, 1⟩,  -- 1111 10dd dddd dddd
   ⟨.alarms,        true,  0, 7,  true,  1⟩,  -- 1111 110d dddd dddd
   ⟨.time,          true,  0, 8,  false, 1⟩,  -- 1111 1110 dddd dddd
   ⟨.depth,         true,  0, 9,  true,  2⟩,  -- 1111 1111 0ddd dddd dddd dddd dddd dddd
   ⟨.temperature,   true,  0, 10, true,  2⟩,  -- 1111 1111 10dd dddd dddd dddd dddd dddd
   ⟨.pressure,      true,  0, 11, true,  2⟩,  -- 1111 1111 110d dddd dddd dddd dddd dddd
   ⟨.pressure,      true,  1, 12, true,  2⟩,  -- 1111 1111 1110 dddd dddd dddd dddd dddd
   ⟨.pressure,      true,  2, 13, true,  2⟩,  -- 1111 1111 1111 0ddd dddd dddd dddd dddd
   ⟨.rbt,           true,  0, 14, true,  1⟩]  -- 1111 1111 1111 10dd dddd dddd

namespace Model

/-- The model number the device reports. -/
def number : Model → Nat
  | smartPro => 16
  | galileoSol => 17
  | aladinTec => 18
  | aladinTec2g => 19
  | smartCom => 20
  | smartTec => 24
  | smartZ => 28

/-- The number of bytes in front of the profile. -/
def hdrSize : Model → Nat
  | smartPro => 92
  | galileoSol => 152
  | aladinTec => 108
  | aladinTec2g => 116
  | smartCom => 100
  | smartTec => 132
  | smartZ => 132

/-- The table of a model. -/
def dtiTable : Model → List DtiEntry
  | smartPro => smartProTable
  | galileoSol => smartGalileoSolTable
  | aladinTec => smartAladinTable
  | aladinTec2g => smartAladinTec2gTable
  | smartCom => smartComTable
  | smartTec => smartTecTable
  | smartZ => smartTecTable

/-- Only one of the models has names for its alarms. -/
def alarmTable : Model → List AlarmEntry
  | aladinTec2g => smartAladinTec2gAlarms
  | _ => []

/-- `dti_size`, a `uint8_t`. -/
def dtiSize (m : Model) : Nat := m.dtiTable.length

end Model

/-! ### Device and parser state

The accumulators are unsigned words and wrap around.  A reset sets them to their starting
values; parsing a profile does not do it.
-/

/-- `DRIVER_ERR_*` -/
def driverErrInvalid : Int := -1
def driverErrUnsupported : Int := -7

/-- `smart_device_base_t`, the part the parser reads and writes. -/
structure SmartDeviceBase where
  errcode : Int
  errmsg : String
  errdyn : Bool
  tcorr : BitVec 32
  model : Nat
  deriving DecidableEq, Inhabited

/-- `smart_parser_`.  The header size and the two tables are those of `model`,
chosen at creation by the model number of the device. -/
structure SmartParser where
  dev : SmartDeviceBase
  model : Model
  dev_model : dev.model = model.number
  time : BitVec 32
  depth : BitVec 32
  temp : BitVec 32
  pressure : BitVec 32
  rbt : BitVec 32
  heartrate : BitVec 32
  bearing : BitVec 32
  alarms : Fin 3 → BitVec 16
  tank : Fin 3
  dcal : BitVec 32
  complete : Nat
  calibrated : Bool
  haveDepth : Bool
  haveTemp : Bool
  havePressure : Bool
  haveRbt : Bool
  haveHeartrate : Bool
  haveBearing : Bool
  haveAlarms : Bool
  deriving DecidableEq

instance : Inhabited SmartParser where
  default :=
    { dev := { (default : SmartDeviceBase) with model := Model.smartPro.number }
      model := .smartPro
      dev_model := rfl
      time := 0, depth := 0, temp := 0, pressure := 0, rbt := 0, heartrate := 0, bearing := 0
      alarms := fun _ => 0, tank := 0, dcal := 0, complete := 0, calibrated := false
      haveDepth := false, haveTemp := false, havePressure := false, haveRbt := false
      haveHeartrate := false, haveBearing := false, haveAlarms := false }

/-- The two assignments of a failing parser function to its device. -/
def SmartParser.setError (p : SmartParser) (code : Int) (msg : String) : SmartParser :=
  { p with dev := { p.dev with errcode := code, errmsg := msg } }

/-- All accumulators and flags, but neither the model nor the device. -/
def smartParserReset (p : SmartParser) : SmartParser :=
  { p with
    time := 0, depth := 0, temp := 0, pressure := 0, rbt := 99, heartrate := 0, bearing := 0,
    alarms := fun _ => 0, tank := 0, dcal := 0, complete := 0, calibrated := false,
    haveDepth := false, haveTemp := false, havePressure := false, haveRbt := false,
    haveHeartrate := false, haveBearing := false, haveAlarms := false }

/-- `smart_parser_create`: `block` is the content of the allocated memory. -/
def smartParserCreate (block : SmartParser) (dev : SmartDeviceBase) :
    Except SmartDeviceBase SmartParser :=
  match h : dev.model with
  | 16 => .ok (smartParserReset { block with dev := dev, model := .smartPro, dev_model := h })
  | 17 => .ok (smartParserReset { block with dev := dev, model := .galileoSol, dev_model := h })
  | 18 => .ok (smartParserReset { block with dev := dev, model := .aladinTec, dev_model := h })
  | 19 => .ok (smartParserReset { block with dev := dev, model := .aladinTec2g, dev_model := h })
  | 20 => .ok (smartParserReset { block with dev := dev, model := .smartCom, dev_model := h })
  | 24 => .ok (smartParserReset { block with dev := dev, model := .smartTec, dev_model := h })
  | 28 => .ok (smartParserReset { block with dev := dev, model := .smartZ, dev_model := h })
  | _ => .error { dev with errcode := driverErrUnsupported, errmsg := "Unsupported Model Number" }

/-- The two tests `smart_parser_parse_header` and `smart_parser_parse_profile`
begin with. -/
def smartCheckBuffer (m : Model) (buffer : List UInt8) : Option String :=
  if buffer.length < m.hdrSize then
    some "Data buffer is too short"
  else if uint32Le buffer 4 ≠ buffer.length then
    some "Data buffer size does not match header-specified data size"
  else none

/-! ### Cutting a record out of the stream

The identification and the reading of the value are two passes over the same bytes.
-/

/-- The inner loop of `smart_identify` over the `k` bits of `value` still to
look at: `inl` returns from the function, `inr` leaves the loop. -/
def smartIdentifyBits (value : UInt8) : Nat → Nat → Nat ⊕ Nat
  | 0, count => .inr count
  | k + 1, count =>
      if value.toNat &&& (1 <<< k) = 0 then .inl count
      else smartIdentifyBits value k (count + 1)

/-- The outer loop of `smart_identify`; `255` is `(uint8_t)(-1)`. -/
def smartIdentifyBytes : List UInt8 → Nat → Nat
  | [], _ => 255
  | value :: data, count =>
      match smartIdentifyBits value 8 count with
      | .inl count => count
      | .inr count => smartIdentifyBytes data count

/-- The type is the number of one-bits in front of the first zero-bit. -/
def smartIdentify (data : List UInt8) : Nat := smartIdentifyBytes (data.take 8) 0

/-- The type is in the upper bits of one byte. -/
def galileoIdentify (value : UInt8) : Nat :=
  if value &&& 0x80 = 0 then 0
  else if value &&& 0xE0 = 0x80 then 1
  else if value &&& 0xF0 ≠ 0xF0 then ((value &&& 0x70) >>> 4).toNat
  else (value &&& 0x0F).toNat + 7

/-- The record type found at the head of `data`; `mdl` is the model number of
the device. -/
def identify (mdl : Nat) (data : List UInt8) : Nat :=
  if mdl = Model.galileoSol.number then galileoIdentify (data.headD 0) else smartIdentify data

/-- The sign bit of a value with `n` bits is spread over the bits above. -/
def smartFixsignbit (x : BitVec 32) (n : Nat) : BitVec 32 :=
  if n = 0 ∨ 32 < n then 0
  else
    let signbit : BitVec 32 := 1#32 <<< (n - 1)
    let mask : BitVec 32 := 0xFFFFFFFF#32 <<< n
    if x &&& signbit = signbit then x ||| mask else x &&& ~~~mask

/-- What `smart_process_dti` leaves behind. -/
inductive DtiResult
  | done (offset : Nat) (value svalue : BitVec 32)
  | tooShort
  | undef
  deriving DecidableEq

/-- The loop over the extra bytes of a record; `none` is a read outside the
buffer. -/
def processExtra (data : List UInt8) :
    Nat → Nat → Nat → BitVec 32 → Option (Nat × Nat × BitVec 32)
  | 0, offset, nbits, value => some (offset, nbits, value)
  | k + 1, offset, nbits, value =>
      match data[offset]? with
      | none => none
      | some b =>
          processExtra data k (offset + 1) (nbits + 8)
            (value <<< 8 + BitVec.ofNat 32 b.toNat)

/-- The second half of `smart_process_dti`: overflow test, extra bytes, sign. -/
def processTail (data : List UInt8) (dti : DtiEntry) (offset nbits : Nat) (value : BitVec 32) :
    DtiResult :=
  -- the sum is a `uint32_t`
  if u32 (offset + dti.extra) > data.length then .tooShort
  else
    match processExtra data dti.extra offset nbits value with
    | none => .undef
    | some (offset, nbits, value) => .done offset value (smartFixsignbit value nbits)

/-- The value is collected behind the bits of the type, and its extra bytes are shifted in. -/
def smartProcessDti (data : List UInt8) (offset : Nat) (dti : DtiEntry) : DtiResult :=
  let offset := offset + dti.ntb / 8
  let n := dti.ntb % 8
  if n > 0 then
    match data[offset]? with
    | none => .undef
    | some b =>
        if dti.ignore then processTail data dti (offset + 1) 0 0
        else
          processTail data dti (offset + 1) (8 - n) (BitVec.ofNat 32 (b.toNat &&& (0xFF >>> n)))
  else processTail data dti offset 0 0

/-! ### Folding a record into the accumulators

An absolute value replaces the accumulator, and a relative one is added to it.
-/

/-- A value converted to `signed char` and promoted again. -/
def signedChar (x : BitVec 32) : BitVec 32 := (x.setWidth 8).signExtend 32

/-- The arguments of a call of `smart_parse_dti`. -/
structure DtiCall where
  dti : DtiEntry
  value : BitVec 32
  svalue : BitVec 32
  deriving DecidableEq

/-- The first absolute depth is kept as the zero that later depths are counted from. -/
def smartParseDti (p : SmartParser) (c : DtiCall) : SmartParser :=
  match c.dti.type with
  | .pressureDepth =>
      { p with
        pressure := p.pressure + signedChar (c.svalue.sshiftRight 8 &&& 0xFF) * 250
        depth := p.depth + signedChar (c.svalue &&& 0xFF) * 2
        complete := 1 }
  | .rbt =>
      if c.dti.abs then { p with rbt := c.value, haveRbt := true }
      else { p with rbt := p.rbt + c.svalue }
  | .temperature =>
      if c.dti.abs then { p with temp := c.value * 40, haveTemp := true }
      else { p with temp := p.temp + c.svalue * 40 }
  | .pressure =>
      if c.dti.abs then
        { p with pressure := c.value * 250, tank := c.dti.idx, havePressure := true }
      else { p with pressure := p.pressure + c.svalue * 250 }
  | .depth =>
      if c.dti.abs then
        { p with
          depth := c.value * 2
          dcal := if p.calibrated then p.dcal else c.value * 2
          calibrated := true
          haveDepth := true
          complete := 1 }
      else { p with depth := p.depth + c.svalue * 2, complete := 1 }
  | .heartrate =>
      if c.dti.abs then { p with heartrate := c.value, haveHeartrate := true }
      else { p with heartrate := p.heartrate + c.svalue }
  | .bearing => { p with bearing := c.value, haveBearing := true }
  | .alarms =>
      { p with alarms := Function.update p.alarms c.dti.idx (c.value.setWidth 16)
               haveAlarms := true }
  | .time => { p with complete := (c.value.setWidth 8).toNat }

/-! ### Waypoints

For each sample that a record completes, the tokens of the values that are known are passed on,
and the time goes on by four seconds.
-/

/-- `DIVE_WAYPOINT_*` -/
inductive WaypointToken
  | time
  | depth
  | temp
  | px
  | mix
  | tank
  | alarm
  | rbt
  | ndl
  | heartrate
  | bearing
  | heading
  | vendor
  | flag
  deriving DecidableEq, Repr

/-- The arguments of a call of the waypoint callback. -/
structure Waypoint where
  token : WaypointToken
  value : BitVec 32
  index : Nat
  name : Option String
  deriving DecidableEq

/-- The name in the table of the model, if there is one. -/
def alarmName (m : Model) (idx : Nat) (mask : BitVec 8) : Option String :=
  (m.alarmTable.find? fun e => e.idx = idx ∧ e.mask = mask).map (·.name)

/-- The token for bit `j` of alarm word `i`, if it is set. -/
def alarmToken (p : SmartParser) (i : Fin 3) (j : Nat) : List Waypoint :=
  let mask : BitVec 16 := 1#16 <<< j
  if p.alarms i &&& mask = mask then
    match alarmName p.model i (mask.setWidth 8) with
    | none => [⟨.alarm, BitVec.ofNat 32 j, i, some s!"alarm{i.val}-{j}"⟩]
    | some aname => [⟨.alarm, BitVec.ofNat 32 j, i, some aname⟩]
  else []

/-- The bits of all three words that are set. -/
def alarmTokens (p : SmartParser) : List Waypoint :=
  (List.finRange 3).flatMap fun i => (List.range 9).flatMap fun j => alarmToken p i j

/-- The tokens of one pass of the sample loop. -/
def waypointTokens (p : SmartParser) : List Waypoint :=
  [⟨.time, p.time, 0, none⟩] ++
  (if p.haveDepth then [⟨.depth, p.depth - p.dcal, 0, none⟩] else []) ++
  (if p.haveTemp then [⟨.temp, p.temp, 0, none⟩] else []) ++
  (if p.havePressure then [⟨.px, p.pressure, p.tank, none⟩] else []) ++
  (if p.haveRbt then [⟨.rbt, p.rbt, 0, none⟩] else []) ++
  (if p.haveHeartrate then [⟨.heartrate, p.heartrate, 0, none⟩] else []) ++
  (if p.haveBearing then [⟨.bearing, p.bearing, 0, none⟩] else []) ++
  (if p.haveAlarms then alarmTokens p else [])

/-- The state after one pass of the sample loop. -/
def waypointNext (p : SmartParser) : SmartParser :=
  { p with
    haveBearing := false
    haveAlarms := false
    time := p.time + 4
    complete := p.complete - 1 }

/-- `while (parser->complete)`; the recursion is on the value of `complete`. -/
def sampleLoop : Nat → SmartParser → SmartParser × List (List Waypoint)
  | 0, p => (p, [])
  | n + 1, p =>
      let (p', ws) := sampleLoop n (waypointNext p)
      (p', waypointTokens p :: ws)

/-- One record: `smart_parse_dti`, then the sample loop. -/
def processCall (p : SmartParser) (c : DtiCall) : SmartParser × List (List Waypoint) :=
  let p := smartParseDti p c
  sampleLoop p.complete p

/-! ### The profile loop

A loop with a buffer, an offset and a parser.  A state remembers what has been called in it, so
that results can speak of the calls.
-/

/-- What the profile loop does that can be seen from outside: a read of
`dti_table[id]`, a call of `smart_parse_dti`, a waypoint with its tokens. -/
inductive ProfileEvent
  | lookup (id : Nat)
  | parse (c : DtiCall)
  | waypoint (tokens : List Waypoint)
  deriving DecidableEq

/-- The offset, the parser, and the calls so far. -/
structure ProfileState where
  offset : Nat
  parser : SmartParser
  trace : List ProfileEvent
  deriving DecidableEq

/-- `ret` is `none` where the C program reads outside an array. -/
structure ProfileResult where
  ret : Option Int
  parser : SmartParser
  trace : List ProfileEvent
  deriving DecidableEq

/-- One iteration of the loop of `smart_parser_parse_profile`; `mdl` is the model number that
the device has now. -/
def profileStepOn (mdl : Nat) (data : List UInt8) (s : ProfileState) :
    Iter ProfileState ProfileResult :=
  if s.offset < data.length then
    let id := identify mdl (data.drop s.offset)
    if id > s.parser.model.dtiSize then
      .stop ⟨some (-1), s.parser.setError driverErrInvalid "Invalid DTI Code", s.trace⟩
    else
      let trace := s.trace ++ [.lookup id]
      match s.parser.model.dtiTable[id]? with
      | none => .stop ⟨none, s.parser, trace⟩
      | some dti =>
          match smartProcessDti data s.offset dti with
          | .undef => .stop ⟨none, s.parser, trace⟩
          | .tooShort =>
              .stop ⟨some (-1),
                s.parser.setError driverErrInvalid "DTI extends past end of data buffer", trace⟩
          | .done offset value svalue =>
              let c : DtiCall := ⟨dti, value, svalue⟩
              let (p, ws) := processCall s.parser c
              .next ⟨offset, p, trace ++ .parse c :: ws.map .waypoint⟩
  else .stop ⟨some 0, s.parser, s.trace⟩

/-- The same with the device as the parser has found it when it was created. -/
def profileStep (data : List UInt8) (s : ProfileState) : Iter ProfileState ProfileResult :=
  profileStepOn s.parser.dev.model data s

/-- Every record has at least one byte, so `size + 1` iterations are enough. -/
def smartParserParseProfileOn (mdl : Nat) (p : SmartParser) (buffer : List UInt8) :
    ProfileResult :=
  match smartCheckBuffer p.model buffer with
  | some msg => ⟨some (-1), p.setError driverErrInvalid msg, []⟩
  | none =>
      match iterate (profileStepOn mdl buffer) (buffer.length + 1) ⟨p.model.hdrSize, p, []⟩ with
      | .stop r => r
      | .next s => ⟨none, s.parser, s.trace⟩

/-- The same with the device as the parser has found it when it was created. -/
def smartParserParseProfile (p : SmartParser) (buffer : List UInt8) : ProfileResult :=
  match smartCheckBuffer p.model buffer with
  | some msg => ⟨some (-1), p.setError driverErrInvalid msg, []⟩
  | none =>
      match iterate (profileStep buffer) (buffer.length + 1) ⟨p.model.hdrSize, p, []⟩ with
      | .stop r => r
      | .next s => ⟨none, s.parser, s.trace⟩

/-- The calls of `smart_parse_dti` in a trace. -/
def dtiCalls (trace : List ProfileEvent) : List DtiCall :=
  trace.filterMap fun
    | .parse c => some c
    | _ => none

/-- The table indices read in a trace. -/
def lookups (trace : List ProfileEvent) : List Nat :=
  trace.filterMap fun
    | .lookup id => some id
    | _ => none

/-- The waypoints reported in a trace. -/
def waypoints (trace : List ProfileEvent) : List (List Waypoint) :=
  trace.filterMap fun
    | .waypoint tokens => some tokens
    | _ => none

end BenthosDc

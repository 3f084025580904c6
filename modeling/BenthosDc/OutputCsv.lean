/-
BenthosDc/OutputCsv.lean

The CSV formatter (`output_csv.cpp`).

A profile row is written when the *next* time token arrives, and the flag
`hdr_complete` is set once and never reset.  So the last waypoint of a dive has no
row (`csvDive_omits_last`, and no dive keeps all its rows: `not_writesEveryRow`), and
only the first dive with a waypoint has its tanks and a profile header
(`csvIndependent_iff`).

The text that has been written so far stands for the file; nothing is read back from it.
-/
import BenthosDc.OutputFmt

namespace BenthosDc

open CString

/-! ### The data of the formatter -/

/-- `tank_t` -/
structure TankT where
  pxBegin : BitVec 32 := 0
  pxEnd : BitVec 32 := 0
  pmO2 : BitVec 16 := 209
  pmHe : BitVec 16 := 0
  deriving DecidableEq

/-- `csv_wp_data` -/
structure CsvWpData where
  valid : Bool
  time : BitVec 32
  depth : BitVec 32
  temp : BitVec 32
  px : BitVec 32
  alarms : List Text
  tankId : Int
  deriving DecidableEq

/-- `csv_fmt_data`; `fp` is the text written so far. -/
structure CsvFmtData where
  fp : Text
  curTanks : Std.TreeMap Nat TankT
  curWp : CsvWpData
  hdrComplete : Bool

/-- `fprintf` -/
def CsvFmtData.print (f : CsvFmtData) (t : Text) : CsvFmtData := { f with fp := f.fp ++ t }

/-! ### Prolog and epilog -/

/-- No row is pending. -/
def CsvWpData.cleared : CsvWpData := ⟨false, 0, 0, 0, 0, [], 0⟩

/-- The heading of a dive. -/
def csvDiveHeader : Text := "[DIVE HEADER]\nName,Value\n".toList

/-- What comes in front of the tokens of a dive. -/
def csvProlog (f : CsvFmtData) : CsvFmtData :=
  { f with curTanks := ∅, curWp := .cleared }.print csvDiveHeader

/-- What comes behind them. -/
def csvEpilog (f : CsvFmtData) : CsvFmtData := f.print ['\n']

/-! ### Header tokens -/

/-- `%.2f` of a value in hundredths -/
def hundredths (v : BitVec 32) : Text := printFixed 2 (Float.ofInt v.toInt / 100)

/-- A name, which may be null. -/
def tokenName (name : Option String) : Text := (name.getD "").toList

/-- The line a header token prints. -/
def csvHeaderLine (e : HeaderEntry) : Text :=
  let line (key : String) (value : Text) : Text := key.toList ++ ',' :: value ++ ['\n']
  match e.token with
  | .startTime => line "datetime" (isoTime e.value.toInt)
  | .utcOffset => line "utc_offset" (decimalInt e.value.toInt)
  | .duration => line "dive_duration" (decimalInt e.value.toInt)
  | .interval => line "surface_interval" (decimalInt e.value.toInt)
  | .repetition => line "repetition" (decimalInt e.value.toInt)
  | .desatBefore => line "desat_before" (decimalInt e.value.toInt)
  | .desatAfter => line "desat_after" (decimalInt e.value.toInt)
  | .noflyBefore => line "nofly_before" (decimalInt e.value.toInt)
  | .noflyAfter => line "nofly_after" (decimalInt e.value.toInt)
  | .maxDepth => line "max_depth" (hundredths e.value)
  | .avgDepth => line "avg_depth" (hundredths e.value)
  | .airTemp => line "air_temp" (hundredths e.value)
  | .maxTemp => line "max_temp" (hundredths e.value)
  | .minTemp => line "min_temp" (hundredths e.value)
  | .vendor =>
      "vendor_".toList ++ tokenName e.name ++ decimal e.index ++ ',' ::
        decimal e.value.toNat ++ ['\n']
  | .pxStart | .pxEnd | .pmo2 | .pmhe => []

/-- What a header token changes in the tank of its index; `none` if it leaves the tanks
alone. -/
def csvTankUpdate (e : HeaderEntry) : Option (TankT → TankT) :=
  match e.token with
  | .pxStart => some fun t => { t with pxBegin := e.value }
  | .pxEnd => some fun t => { t with pxEnd := e.value }
  | .pmo2 => if e.value = 0 then none else some fun t => { t with pmO2 := e.value.setWidth 16 }
  | .pmhe => if e.value = 0 then none else some fun t => { t with pmHe := e.value.setWidth 16 }
  | _ => none

/-- The tank of the index is inserted when it is first mentioned. -/
def csvTankStep (tanks : Std.TreeMap Nat TankT) (e : HeaderEntry) : Std.TreeMap Nat TankT :=
  match csvTankUpdate e with
  | none => tanks
  | some g => tanks.alter e.index fun t => some (g (t.getD {}))

/-- A header token is written, and looked at for a tank. -/
def csvHeaderCb (s : OutputFmtData) (f : CsvFmtData) (e : HeaderEntry) : CsvFmtData :=
  if s.outputHeader then { f with curTanks := csvTankStep f.curTanks e }.print (csvHeaderLine e)
  else f

/-! ### Waypoint tokens -/

/-- `%.1f` of a number of permille in percent -/
def percent (v : BitVec 16) : Text := printFixed 1 (Float.ofNat v.toNat / 10)

/-- The line of a tank. -/
def csvTankLine (i : Nat) (t : TankT) : Text :=
  decimal i ++ ',' :: decimal t.pxBegin.toNat ++ ',' :: decimal t.pxEnd.toNat ++ ',' ::
    percent t.pmO2 ++ ',' :: percent t.pmHe ++ ['\n']

/-- The tanks of a dive. -/
def csvTanks (tanks : List (Nat × TankT)) : Text :=
  "[TANKS]\nIndex,Start Pressure,End Pressure,%O2,%He\n".toList ++
    (tanks.map fun t => csvTankLine t.1 t.2).flatten

/-- The heading of the profile. -/
def csvProfileHeader : Text := "[PROFILE]\nTime,Depth,Temp,Tank,Pressure,Alarms\n".toList

/-- What the first waypoint token writes behind the header. -/
def csvComplete (s : OutputFmtData) (tanks : List (Nat × TankT)) : Text :=
  (if s.outputHeader then csvTanks tanks else []) ++
    (if s.outputProfile then csvProfileHeader else [])

/-- `%.1f` of a value in hundredths -/
def tenths (v : BitVec 32) : Text := printFixed 1 (Float.ofInt v.toInt / 100)

def csvRow (time depth temp : BitVec 32) (alarms : List Text) : Text :=
  decimal time.toNat ++ ',' :: tenths depth ++ ',' :: tenths temp ++ ',' ::
    [','].intercalate alarms ++ ['\n']

/-- The row that is still to be written, if there is one. -/
def CsvWpData.row (w : CsvWpData) : Text :=
  if w.valid then csvRow w.time w.depth w.temp w.alarms else []

/-- The waypoint behind a token. -/
def csvWpStep (w : CsvWpData) (t : Waypoint) : CsvWpData :=
  match t.token with
  | .time =>
      { w with time := t.value, valid := true, alarms := if w.valid then [] else w.alarms }
  | .depth => { w with depth := t.value }
  | .temp => { w with temp := t.value }
  | .alarm => { w with alarms := w.alarms ++ [tokenName t.name] }
  | _ => w

def csvWaypointCb (s : OutputFmtData) (f : CsvFmtData) (t : Waypoint) : CsvFmtData :=
  let f := if f.hdrComplete then f
    else { f.print (csvComplete s f.curTanks.toList) with hdrComplete := true }
  if s.outputProfile then
    let f := if t.token = .time then f.print f.curWp.row else f
    { f with curWp := csvWpStep f.curWp t }
  else f

/-- The formatter that `csv_init_formatter` sets up. -/
def csvFormatter (s : OutputFmtData) : Formatter CsvFmtData where
  prologFn := csvProlog
  headerCb := csvHeaderCb s
  profileCb := csvWaypointCb s
  epilogFn := csvEpilog
  closeFn := id

end BenthosDc

/-
BenthosDc/SmartPlugin.lean

The tables of the two Smart plugins, and what their drivers share behind them: the
parser (`smart_parser.c`) and the extraction of dives.

A parser is a structure of its own that points to the device.  Its header size and its tables
are those of the model that the device has when the parser is created; the model number and the
clock correction are read from the device at each call, and another opening of the device may
have changed them.
-/
import BenthosDc.LibdcFlatten
import BenthosDc.SmartDriver
import BenthosDc.SmartiDriver

namespace BenthosDc

open CString Hoare Lifetime Loop

variable {S σ α : Type}

/-- The state of a driver whose device structure begins with the base. -/
class HasBase (σ : Type) where
  base : σ → SmartBase
  setBase : SmartBase → σ → σ

instance : HasBase (SmartProc S) where
  base s := s.dev.base
  setBase base s := { s with dev := { s.dev with base := base } }

instance : HasBase (SmartiProc S) where
  base s := s.dev.base
  setBase base s := { s with dev := { s.dev with base := base } }

/-- The state of a driver, and the memory of the parser structures by their handles. -/
structure Parsing (σ : Type) where
  driver : σ
  parser : Nat → SmartParser
  /-- The handle of the device that a parser points to. -/
  parserDev : Nat → Nat

/-- The part of the desk that a driver sees. -/
def Desk.driver (d : Desk (Parsing σ)) : Desk σ := ⟨d.state.driver, d.ledger⟩

/-- A program of the driver. -/
def onDriver (m : Driver σ α) : Driver (Parsing σ) α := fun d =>
  match m d.driver with
  | .ok (a, d') => .ok (a, ⟨{ d.state with driver := d'.state }, d'.ledger⟩)
  | .error e => .error e

/-- The base as the parser sees it.  It does not read the message. -/
def SmartBase.forParser (base : SmartBase) : SmartDeviceBase where
  errcode := base.errcode
  errmsg := ""
  errdyn := base.errdyn
  tcorr := BitVec.ofInt 32 base.tcorr
  model := base.model

/-- The two assignments of the parser; `errdyn` stays as it is. -/
def SmartBase.assignError (base : SmartBase) (dev : SmartDeviceBase) : SmartBase :=
  { base with
    errcode := dev.errcode
    errmsg := some (.text dev.errmsg.toList)
    errptr := .literal }

namespace SmartPlugin

variable [HasBase σ]

/-- Change what the device and the parser share. -/
def modifyBase (f : SmartBase → SmartBase) : Driver (Parsing σ) Unit :=
  modifyState fun s =>
    { s with driver := HasBase.setBase (f (HasBase.base s.driver)) s.driver }

/-- The structure behind the handle `p` is written. -/
def setParser (p : Nat) (parser : SmartParser) : Driver (Parsing σ) Unit :=
  modifyState fun s => { s with parser := Function.update s.parser p parser }

/-- The error of a failing call of the parser. -/
def storeError (ret : Int) (dev : SmartDeviceBase) : Driver (Parsing σ) Unit :=
  if ret ≠ 0 then modifyBase fun b => b.assignError dev else return ()

/-! ### The parser

The parser is reached by its handle and the device by the pointer in it.  A call through a
device that is gone is a use after free.
-/

/-- `smart_parser_create` -/
def parserCreate (dev : Nat) : Driver (Parsing σ) (Except Int Nat) := do
  let p ← allocHandle
  useHandle dev
  let s ← getState
  match smartParserCreate (s.parser p) (HasBase.base s.driver).forParser with
  | .error base =>
    modifyBase fun b => b.assignError base
    disposeHandle p
    return .error (-1)
  | .ok parser =>
    setParser p parser
    modifyState fun s => { s with parserDev := Function.update s.parserDev p dev }
    return .ok p

/-- `smart_parser_close` -/
def parserClose (p : Nat) : Driver (Parsing σ) Unit := disposeHandle p

/-- `smart_parser_reset` -/
def parserReset (p : Nat) : Driver (Parsing σ) Int := do
  useHandle p
  setParser p (smartParserReset ((← getState).parser p))
  return 0

/-- `smart_parser_parse_header` -/
def parserParseHeader (p : Nat) (data : List UInt8) :
    Driver (Parsing σ) (Int × List HeaderEntry) := do
  useHandle p
  let s ← getState
  useHandle (s.parserDev p)
  match smartParserParseHeaderOn (HasBase.base s.driver).forParser (s.parser p) data with
  | none => throw .overflow
  | some r =>
    setParser p r.parser
    storeError r.ret r.parser.dev
    return (r.ret, r.trace)

/-- `smart_parser_parse_profile` -/
def parserParseProfile (p : Nat) (data : List UInt8) :
    Driver (Parsing σ) (Int × List Waypoint) := do
  useHandle p
  let s ← getState
  useHandle (s.parserDev p)
  let r := smartParserParseProfileOn (HasBase.base s.driver).model (s.parser p) data
  setParser p r.parser
  match r.ret with
  | none => throw .overflow
  | some ret =>
    storeError ret r.parser.dev
    return (ret, (waypoints r.trace).flatten)

/-! ### Extraction

The loop over the dives does not use the device; its error is stored there when it is over.
-/

/-- The switch over the codes of `smart_extract_dives` other than 0 and EXTRACT_INVALID. -/
def extractError (rc : Int) : Int × String :=
  if rc = extractCorrupt then (driverErrRead, "Invalid or Corrupt Data")
  else if rc = extractTooShort then (driverErrRead, "Dive extends past end of Buffer")
  else if rc = extractExtraData then (driverErrRead, "Extra data at end of Buffer")
  else (driverErrInternal, "Internal Error")

/-- `smart_driver_extract` and `smarti_driver_extract`, for at most `fuel` passes of the
loop. -/
def driverExtract (fuel dev : Nat) (buffer : Option Memory) (size : Nat) :
    Driver (Parsing σ) (Int × List DiveData) := do
  useHandle dev
  match buffer with
  -- EXTRACT_INVALID, which sets no error
  | none => return (driverErrInvalid, [])
  | some mem =>
    match iterate (extractStep mem size) fuel extractStart with
    | .next _ => throw .pending
    | .stop r =>
      let dives := r.reports.map fun d => (copied mem d.pos d.len, some d.token.toList)
      if r.ret = extractSuccess then return (driverErrSuccess, dives)
      else
        modifyBase fun b =>
          b.setError (extractError r.ret).1 (.text (extractError r.ret).2.toList) false
        return ((extractError r.ret).1, dives)

/-- `smart_driver_errmsg` and `smarti_driver_errmsg` -/
def driverErrmsg (dev : Nat) : Driver (Parsing σ) (Option ErrorText) := do
  useHandle dev
  return (HasBase.base (← getState).driver).errmsg

end SmartPlugin

/-! ### The tables

The two plugins differ in the driver functions and have the parser functions in common.
-/

open SmartPlugin

/-- The loops are granted `fuel` passes each. -/
def smartDriverInterface (H : SmartHost S) (fuel : Nat) :
    DriverInterface (Parsing (SmartProc S)) where
  driverCreate := onDriver do return .ok (← smartDriverCreate)
  driverOpen dev devpath args := onDriver (smartDriverOpen H dev devpath args)
  driverClose dev := onDriver (smartDriverClose dev)
  driverShutdown dev := onDriver (smartDriverShutdown dev)
  driverErrmsg := driverErrmsg
  driverTransfer dev dcb pcb size :=
    onDriver (smartDriverTransfer H fuel dev size (some dcb) (some pcb))
  driverExtract := driverExtract fuel
  parserCreate := parserCreate
  parserClose := parserClose
  parserReset := parserReset
  parserParseHeader := parserParseHeader
  parserParseProfile := parserParseProfile

/-- The loop of the extraction is granted `fuel` passes. -/
def smartiDriverInterface (H : SmartiHost S) (fuel : Nat) :
    DriverInterface (Parsing (SmartiProc S)) where
  driverCreate := onDriver do return .ok (← smartiDriverCreate)
  driverOpen dev devpath args := onDriver (smartiDriverOpen H dev devpath args)
  driverClose dev := onDriver (smartiDriverClose H dev)
  driverShutdown dev := onDriver (smartiDriverShutdown dev)
  driverErrmsg := driverErrmsg
  driverTransfer dev dcb _ _ := onDriver (smartiDriverTransfer H dev (some dcb))
  driverExtract := driverExtract fuel
  parserCreate := parserCreate
  parserClose := parserClose
  parserReset := parserReset
  parserParseHeader := parserParseHeader
  parserParseProfile := parserParseProfile

end BenthosDc

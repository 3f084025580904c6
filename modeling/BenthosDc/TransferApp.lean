/-
BenthosDc/TransferApp.lean

The transfer of the application (`main.cpp`): `run_transfer` from the loaded driver on,
and `run_parser`.

The application works through the table of the driver; a formatter of `output_fmt.h`
gets what the parser reports.

The driver is any table: the functions of the application do not know which of the plugins has
filled it.  What the parser and the formatter say of a dive goes through their callbacks.
-/
import BenthosDc.LibdcDriver
import BenthosDc.OutputFmt
import BenthosDc.SmartPlugin

namespace BenthosDc

open CString Hoare Lifetime

variable {σ D : Type}

/-- The options of a transfer, and the world of the application. -/
structure TransferOptions where
  /-- `--device` and `--dargs`; an option that is not given is an empty text. -/
  device : Text
  dargs : Text
  /-- `--token` -/
  token : Text
  noStoreToken : Bool
  /-- The first word of the token file for a serial number. -/
  tokenFile : Nat → Text
  /-- What is behind the transferred data in memory. -/
  behind : Memory
  /-- What `buffer_len` holds before it is set. -/
  bufferLen : Nat

/-- Where the transferred data is.  Only a null pointer has a length and no bytes. -/
def TransferOptions.bufferPtr (o : TransferOptions) (buffer : List UInt8) : Option Memory :=
  if buffer = [] then none else some (loaded buffer o.behind)

/-- The token is that of the command line, where `-` stands for none, or that of the
file. -/
def deviceCb (o : TransferOptions) : DeviceCallback := fun _ serial _ =>
  let token :=
    if o.token = [] then o.tokenFile serial else if o.token = ['-'] then [] else o.token
  (0, if token = [] then none else some token)

/-- The progress bar never cancels. -/
def transferCb : TransferCallback := fun _ _ => false

/-- The dives that `extract_cb` keeps.  A null pointer makes no string, and the exception
is not caught. -/
def extractCb (dives : List DiveData) : Option (List (List UInt8 × Text)) :=
  dives.mapM fun d => d.2.map fun token => (d.1, token)

variable (drv : DriverInterface σ)

/-! ### `run_parser`

The dives are parsed one after the other, header first.  The first one that is refused ends the
loop, and nothing is written of the rest.
-/

/-- What the parser does with one dive.  Behind a failure it is not called again. -/
def diveCalls (dev parser : Nat) (data : List UInt8) : Driver σ ParserCalls := do
  let reset ← drv.parserReset parser
  if reset ≠ 0 then
    let _ ← drv.driverErrmsg dev
    return ⟨reset, 0, [], 0, []⟩
  else
    let (headerRv, header) ← drv.parserParseHeader parser data
    if headerRv ≠ 0 then
      let _ ← drv.driverErrmsg dev
      return ⟨0, headerRv, header, 0, []⟩
    else
      let (profileRv, profile) ← drv.parserParseProfile parser data
      if profileRv ≠ 0 then
        let _ ← drv.driverErrmsg dev
        return ⟨0, 0, header, profileRv, profile⟩
      else return ⟨0, 0, header, 0, profile⟩

/-- The loop over the dives. -/
def parseDives (F : Formatter D) (dev parser : Nat) :
    D → List (List UInt8 × Text) → Driver σ (Except Int D)
  | s, [] => return .ok s
  | s, dive :: dives => do
    match runParserDive F s (← diveCalls drv dev parser dive.1) with
    | .error rv => return .error rv
    | .ok s => parseDives F dev parser s dives

/-- `init` is the initialised formatter, or the error of its initialisation.  A parser
is closed only if all dives have been parsed. -/
def runParserWith (F : Formatter D) (init : Except Int D) (dev : Nat)
    (dives : List (List UInt8 × Text)) : Driver σ (Except Int D) := do
  match init with
  | .error rv => return .error rv
  | .ok s =>
    match ← drv.parserCreate dev with
    | .error rv =>
      let _ ← drv.driverErrmsg dev
      return .error rv
    | .ok parser =>
      match ← parseDives drv F dev parser s dives with
      | .error rv => return .error rv
      | .ok s =>
        drv.parserClose parser
        return .ok (F.closeFn s)

/-! ### `run_transfer`

The driver is opened, the dives are transferred and parsed, and the token of the last dive is
stored.  The device is closed and shut down on every path.
-/

/-- How a transfer ends: the return value, and the token that it stores. -/
structure TransferResult where
  ret : Int
  token : Option Text
  deriving DecidableEq

/-- A transfer that is given up. -/
def transferFailed : TransferResult := ⟨1, none⟩

/-- The token of the last dive is stored. -/
def storeToken (o : TransferOptions) (dives : List (List UInt8 × Text)) : TransferResult :=
  ⟨0, if o.noStoreToken then none else dives.getLast?.map (·.2)⟩

/-- The dives are parsed, if there are any. -/
def parseTransferred (F : Formatter D) (init : Except Int D) (o : TransferOptions) (dev : Nat)
    (dives : List (List UInt8 × Text)) : Driver σ TransferResult := do
  if dives.length > 0 then
    match ← runParserWith drv F init dev dives with
    | .error _ => return transferFailed
    | .ok _ => return storeToken o dives
  else return storeToken o dives

/-- What happens between the opening of a device and its closing: transfer, extraction
and parsing. -/
def transferDives (F : Formatter D) (init : Except Int D) (o : TransferOptions) (dev : Nat) :
    Driver σ TransferResult := do
  match ← drv.driverTransfer dev (deviceCb o) transferCb o.bufferLen with
  | .error _ =>
    let _ ← drv.driverErrmsg dev
    return transferFailed
  | .ok (bufferLen, buffer) =>
    if bufferLen > 0 then
      let (rv, data) ← drv.driverExtract dev (o.bufferPtr buffer) bufferLen
      match extractCb data with
      | none => throw .overflow
      | some dives =>
        if rv ≠ driverErrSuccess then
          let _ ← drv.driverErrmsg dev
          return transferFailed
        else parseTransferred drv F init o dev dives
    else parseTransferred drv F init o dev []

/-- A device is created and opened; a device that cannot be opened is shut down. -/
def openDevice (o : TransferOptions) : Driver σ (Option Nat) := do
  match ← drv.driverCreate with
  | .error _ => return none
  | .ok dev =>
    let rv ← drv.driverOpen dev o.device o.dargs
    if rv ≠ driverErrSuccess then
      let _ ← drv.driverErrmsg dev
      drv.driverShutdown dev
      return none
    else return some dev

/-- All that happens before the device is closed. -/
def beforeClose (F : Formatter D) (init : Except Int D) (o : TransferOptions) :
    Driver σ (Option (Nat × TransferResult)) := do
  match ← openDevice drv o with
  | none => return none
  | some dev => return some (dev, ← transferDives drv F init o dev)

/-- Every path behind the opening of the device closes it and then shuts it down. -/
def runTransfer (F : Formatter D) (init : Except Int D) (o : TransferOptions) :
    Driver σ TransferResult := do
  match ← beforeClose drv F init o with
  | none => return transferFailed
  | some (dev, r) =>
    drv.driverClose dev
    drv.driverShutdown dev
    return r

end BenthosDc

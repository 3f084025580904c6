/-
BenthosDc/LibdcDriver.lean

The driver and the parser of the libdc plugin (`libdc_driver.c`, `libdc_parser.c`).

They work on a device, a context and a parser of libdivecomputer, which is known here by
the outcomes of its calls alone.

A call of the library is a function of the state of the world, as for the IrDA socket; the
events and the dives that a transfer raises, and the samples of a profile, are lists in its
outcome.  The driver handles them one by one in that order, as the callbacks would.
-/
import BenthosDc.LibdcFlatten
import BenthosDc.DriverBase

namespace BenthosDc

open CString Hoare Lifetime Loop

variable {S α β : Type}

/-! ### libdivecomputer -/

/-- `dc_status_t`, as far as the parser tells its values apart. -/
inductive DcStatus
  | success
  | unsupported
  | failure
  deriving DecidableEq

/-- `dc_event_type_t` with its data, and a call of the dive callback.  A dive stands for
the list element that is made of it. -/
inductive DcEvent
  | progress (current maximum : Nat)
  | devinfo (model serial : Nat)
  | clock (devtime systime : Nat)
  | dive (d : DiveList)

/-- `dc_sample_type_t` -/
inductive DcSampleType
  | time
  | depth
  | pressure
  | temperature
  | event
  | rbt
  | heartbeat
  | bearing
  | vendor
  deriving DecidableEq

/-- What each member of the union `dc_sample_value_t` reads, numbers with a fraction in
the unit and rounding of the callback. -/
structure DcSampleValue where
  time : BitVec 32
  depth : BitVec 32
  pressureTank : Nat
  pressureValue : BitVec 32
  temperature : BitVec 32
  eventType : Nat
  rbt : BitVec 32
  heartbeat : BitVec 32
  bearing : BitVec 32
  deriving DecidableEq

/-- `dc_field_type_t`, the fields that are one number. -/
inductive DcField
  | divetime
  | maxdepth
  | gasmixCount
  deriving DecidableEq

/-- The library and the devices behind it. -/
structure Libdivecomputer (S : Type) where
  /-- Whether `dc_context_new` succeeds. -/
  contextNew : S → Bool × S
  /-- The type and the model of each descriptor. -/
  descriptors : List (Nat × Nat)
  /-- Whether `dc_device_open` succeeds for a descriptor and a path. -/
  deviceOpen : S → Nat × Nat → Text → Bool × S
  /-- Whether `dc_device_foreach` succeeds, and the callbacks that it makes. -/
  foreach : S → (Bool × List DcEvent) × S
  setFingerprint : S → List UInt8 → S
  /-- Whether `dc_parser_new` succeeds. -/
  parserNew : S → Bool × S
  /-- Whether `dc_parser_set_data` succeeds. -/
  setData : S → List UInt8 → Bool × S
  /-- `dc_parser_get_datetime`, in seconds. -/
  getDatetime : S → (DcStatus × BitVec 32) × S
  /-- `dc_parser_get_field`; a depth is rounded to hundredths. -/
  getField : S → DcField → (DcStatus × Nat) × S
  /-- `dc_parser_get_field` for a gas mix: helium and oxygen in thousandths. -/
  getGasmix : S → Nat → (DcStatus × BitVec 32 × BitVec 32) × S
  /-- Whether `dc_parser_samples_foreach` succeeds, and the callbacks that it makes. -/
  samplesForeach : S → (Bool × List (DcSampleType × DcSampleValue)) × S

/-! ### The state of the driver -/

/-- `struct libdc_device_`.  The list of dives holds the handles of its elements. -/
structure LibdcDev where
  modelid : Nat
  context : Option Nat
  family : Nat
  model : Nat
  descriptor : Option (Nat × Nat)
  device : Option Nat
  devtime : Nat
  systime : Nat
  errcode : Int
  errmsg : Option String
  dcb : Option DeviceCallback
  pcb : Option TransferCallback
  cancel : Bool
  dives : List (Nat × DiveList)

/-- `struct libdc_parser_`, without the callback and its data. -/
structure LibdcParser where
  dev : Nat
  parser : Option Nat
  deriving DecidableEq

/-- What a transfer does for its callbacks: it calls that for the device or that for the
progress, and it sets a fingerprint. -/
inductive LibdcNote
  | device (model serial devtime : Nat)
  | progress (current maximum : Nat)
  | fingerprint (bytes : List UInt8)
  deriving DecidableEq

/-- The memory of the two structures, the world behind the library, and what has been done
for the callbacks, in order. -/
structure LibdcProc (S : Type) where
  world : S
  dev : LibdcDev
  parser : LibdcParser
  notes : List LibdcNote

/-- A program of the driver. -/
abbrev Libdc (S : Type) := Driver (LibdcProc S)

namespace Libdc

/-- A call of the library. -/
def call (f : S → α × S) : Libdc S α := fun d =>
  .ok ((f d.state.world).1, { d with state := { d.state with world := (f d.state.world).2 } })

/-- The device structure. -/
def getDev : Libdc S LibdcDev := fun d => .ok (d.state.dev, d)

/-- A change of it. -/
def setDev (f : LibdcDev → LibdcDev) : Libdc S Unit :=
  modifyState fun s => { s with dev := f s.dev }

/-- The two assignments of a failing function. -/
def setDevError (code : Int) (msg : String) : Libdc S Unit :=
  setDev fun dev => { dev with errcode := code, errmsg := some msg }

/-- Something that the application is told. -/
def note (n : LibdcNote) : Libdc S Unit :=
  modifyState fun s => { s with notes := s.notes ++ [n] }

/-- The parser structure. -/
def getParser : Libdc S LibdcParser := fun d => .ok (d.state.parser, d)

/-- A new one. -/
def setParser (p : LibdcParser) : Libdc S Unit := modifyState fun s => { s with parser := p }

/-- The handle of a part of the library; null is not followed. -/
def useOpt : Option Nat → Libdc S Unit
  | none => return ()
  | some h => useHandle h

/-- Releasing what may be null. -/
def disposeOpt : Option Nat → Libdc S Unit
  | none => return ()
  | some h => disposeHandle h

/-- A call with the parser of the library. -/
def onParser (f : S → α × S) : Libdc S α := do
  useOpt (← getParser).parser
  call f

end Libdc

open Libdc

variable (D : Libdivecomputer S)

/-! ### Creating and opening -/

/-- The structure as `libdc_driver_create` fills it. -/
def LibdcDev.fresh (context : Nat) : LibdcDev where
  modelid := 0
  context := some context
  family := 0
  model := 0
  descriptor := none
  device := none
  devtime := 0
  systime := 0
  errcode := 0
  errmsg := none
  dcb := none
  pcb := none
  cancel := false
  dives := []

/-- A context is made first, and then the structure. -/
def libdcDriverCreate : Libdc S (Except Int Nat) := do
  if ← call D.contextNew then
    let context ← allocHandle
    let dev ← allocHandle
    setDev fun _ => LibdcDev.fresh context
    return .ok dev
  else return .error (-1)

/-- `g_libdc_plugin_devtable`: the number of a model, and its family and model in the
library. -/
@[irreducible] def libdcPluginDevtable : List (Nat × Nat × Nat) :=
  [(1, 262146, 17495), (2, 262144, 16964), (3, 262146, 17475), (4, 262146, 17224),
   (5, 262146, 16985), (6, 262146, 17493), (7, 262146, 16983), (8, 262146, 17491),
   (9, 262146, 17229), (10, 262146, 17221), (11, 262145, 16981), (12, 524288, 0), (13, 589824, 0),
   (14, 458752, 0), (15, 458753, 0), (16, 524288, 0), (17, 262145, 16967), (18, 393217, 0),
   (19, 393216, 0), (20, 393216, 2), (21, 393216, 1), (22, 262146, 17485), (23, 327682, 0),
   (24, 327682, 1), (25, 327683, 20), (26, 327683, 21), (27, 327682, 0), (28, 327682, 0),
   (29, 327683, 15), (30, 327680, 0), (31, 327681, 4), (32, 327680, 18), (33, 327680, 17),
   (34, 327681, 1), (35, 327683, 25), (36, 327681, 7), (37, 327681, 19), (38, 327683, 24),
   (39, 262146, 16976), (40, 262146, 17218), (41, 262146, 17484), (42, 262146, 17494),
   (43, 262146, 17223), (44, 262146, 17220), (45, 262146, 17478), (46, 262146, 17230),
   (47, 262146, 17481), (48, 262146, 17488), (49, 262144, 16729), (50, 262146, 17476),
   (51, 262146, 17490), (52, 262144, 16965), (53, 262146, 16984), (54, 262146, 17479),
   (55, 262146, 17240), (56, 262145, 16978), (57, 262146, 17241), (58, 262145, 16971),
   (59, 262145, 16972), (60, 262146, 17242), (61, 262144, 16725), (62, 131072, 1),
   (63, 131073, 2), (64, 131074, 3), (65, 262145, 16977), (66, 655360, 3), (67, 655360, 2),
   (68, 262145, 16986), (69, 262146, 17235), (70, 262144, 16966), (71, 262146, 17232),
   (72, 262146, 17496), (73, 65538, 12), (74, 65539, 17), (75, 65539, 20), (76, 65538, 5),
   (77, 65540, 18), (78, 65540, 25), (79, 65540, 15), (80, 65540, 26), (81, 65540, 14),
   (82, 65540, 27), (83, 65537, 0), (84, 65538, 13), (85, 65539, 21), (86, 65538, 4),
   (87, 65536, 0), (88, 65537, 0), (89, 65537, 0), (90, 65538, 1), (91, 65538, 3),
   (92, 65538, 10), (93, 65539, 16), (94, 65539, 19), (95, 65538, 11), (96, 65538, 22),
   (97, 262146, 17239), (98, 262146, 17473), (99, 262146, 17474), (100, 196608, 0),
   (101, 196610, 18), (102, 196610, 19), (103, 196610, 17), (104, 196610, 25), (105, 196609, 0),
   (106, 196610, 20), (107, 196610, 16), (108, 196610, 24), (109, 196610, 28), (110, 524288, 0)]

/-- The loop over the table keeps the last entry with the number. -/
def LibdcDev.lookup (dev : LibdcDev) : LibdcDev × Bool :=
  libdcPluginDevtable.foldl (fun (dev, found) (id, family, model) =>
    if id = dev.modelid then ({ dev with family := family, model := model }, true)
    else (dev, found)) (dev, false)

/-- The loop over the descriptors keeps the last one of the family and model. -/
def LibdcDev.describe (descriptors : List (Nat × Nat)) (dev : LibdcDev) : LibdcDev :=
  descriptors.foldl (fun dev d =>
    if d.1 = dev.family ∧ d.2 = dev.model then { dev with descriptor := some d } else dev) dev

/-- The part of opening behind the descriptor. -/
def libdcDeviceOpen (devpath : Text) (descriptor : Nat × Nat) : Libdc S Int := do
  useOpt (← getDev).context
  if ← call fun w => D.deviceOpen w descriptor devpath then
    let device ← allocHandle
    setDev fun dev => { dev with device := some device }
    -- the events and the cancel handler are registered
    useHandle device
    return driverErrSuccess
  else
    setDevError driverErrNoDevice "Failed to connect to device"
    return -1

/-- The part of opening behind the model number. -/
def libdcDescriptor (devpath : Text) : Libdc S Int := do
  let iterator ← allocHandle
  useHandle iterator
  setDev fun dev => dev.describe D.descriptors
  disposeHandle iterator
  match (← getDev).descriptor with
  | none =>
    setDevError driverErrUnsupported "Could not load descriptor for model"
    return -1
  | some descriptor => libdcDeviceOpen D devpath descriptor

/-- The part of opening behind the arguments. -/
def libdcModel (devpath : Text) (modelid : Nat) : Libdc S Int := do
  setDev fun dev => { dev with modelid := modelid }
  let r := (← getDev).lookup
  setDev fun _ => r.1
  if r.2 then libdcDescriptor D devpath
  else
    setDevError driverErrUnsupported "Unsupported 'model' Argument"
    return -1

/-- The model of the device is found by its number or by its name, and the device is opened. -/
def libdcDriverOpen (dev : Nat) (devpath args : Text) : Libdc S Int := do
  useHandle dev
  match arglistParse args with
  | .error .overrun => throw .overflow
  | .error .einval =>
    setDevError driverErrInvalid "Invalid Argument String"
    return -1
  | .ok args =>
    match arglistReadUint args "model".toList with
    | .error _ =>
      setDevError driverErrInvalid "Missing 'model' Argument"
      return -1
    | .ok modelid => libdcModel D devpath modelid

/-! ### Closing -/

/-- The device is closed. -/
def libdcDriverShutdown (dev : Nat) : Libdc S Unit := do
  useHandle dev
  disposeOpt (← getDev).device
  setDev fun dev => { dev with device := none }

/-- The device is closed, the context freed, and the structure with them. -/
def libdcDriverClose (dev : Nat) : Libdc S Unit := do
  useHandle dev
  disposeOpt (← getDev).device
  disposeOpt (← getDev).context
  disposeHandle dev

/-- The message that is stored. -/
def libdcDriverErrmsg (dev : Nat) : Libdc S (Option ErrorText) := do
  useHandle dev
  return (← getDev).errmsg.map fun msg => .text msg.toList

/-! ### Transfers -/

/-- Each dive is put in front of the list. -/
def libdcDiveCb (dev : Nat) (d : DiveList) : Libdc S Unit := do
  useHandle dev
  let le ← allocHandle
  setDev fun dev => { dev with dives := (le, d) :: dev.dives }

/-- The bytes that a token of the device callback stands for. -/
def tokenData (token : Option Text) : Option (List UInt8) :=
  token.bind fun token => base64Decode (cstr token)

/-- The token of the device callback becomes the fingerprint. -/
def libdcFingerprint (token : Option Text) : Libdc S Unit :=
  match tokenData token with
  | none => return ()
  | some bytes => do
    useOpt (← getDev).device
    call fun w => ((), D.setFingerprint w bytes)
    note (.fingerprint bytes)

/-- Whether the transfer has been cancelled. -/
def libdcCancelCb (dev : LibdcDev) : Bool := dev.cancel

/-- `libdc_event_cb`, and `libdc_dive_cb` for a dive. -/
def libdcEventCb (dev : Nat) (event : DcEvent) : Libdc S Unit := do
  useHandle dev
  match event with
  | .progress current maximum =>
    match (← getDev).pcb with
    | none => return ()
    | some pcb =>
      note (.progress current maximum)
      setDev fun dev => { dev with cancel := dev.cancel || pcb current maximum }
  | .devinfo model serial =>
    match (← getDev).dcb with
    | none => return ()
    | some dcb =>
      let devtime := (← getDev).devtime
      note (.device model serial devtime)
      libdcFingerprint D (dcb model serial devtime).2
  | .clock devtime systime =>
    setDev fun dev => { dev with devtime := devtime, systime := systime }
  | .dive d => libdcDiveCb dev d

/-- The list is freed, but the pointer to it stays in the device. -/
def libdcFreeDives (dives : List (Nat × DiveList)) : Libdc S Unit :=
  dives.forM fun n => disposeHandle n.1

/-- `join_dive_list` follows the elements: the size and the bytes. -/
def libdcJoinDives (dives : List (Nat × DiveList)) : Libdc S (Nat × List UInt8) := do
  dives.forM fun n => useHandle n.1
  return (joinDiveList (dives.map (·.2))).swap

/-- The two callbacks that are handed in are not looked at. -/
def libdcDriverTransfer (dev : Nat) : Libdc S (Except Int (Nat × List UInt8)) := do
  useHandle dev
  useOpt (← getDev).device
  let (done, events) ← call D.foreach
  events.forM (libdcEventCb D dev)
  let dives := (← getDev).dives
  if done then
    let joined ← libdcJoinDives dives
    libdcFreeDives dives
    return .ok joined
  else
    setDevError driverErrRead "Failed to read dive data from device"
    libdcFreeDives dives
    return .error (-1)

/-- The error is set where there is one. -/
def libdcExtracted (r : LibdcResult) : Libdc S (Int × List DiveData) := do
  match r.error with
  | none => return (r.ret, r.calls)
  | some (code, msg) =>
    setDevError code msg
    return (r.ret, r.calls)

/-- The loop is granted `fuel` passes.  A null pointer is followed. -/
def libdcDriverExtract (fuel dev : Nat) (buffer : Option Memory) (size : Nat) :
    Libdc S (Int × List DiveData) := do
  useHandle dev
  if size < sizeT then libdcExtracted (libdcInvalid "Invalid or corrupt data in smart_transfer" [])
  else
    match buffer with
    | none => throw .overflow
    | some mem =>
      match iterate (libdcExtractStep mem size) fuel ⟨0, []⟩ with
      | .next _ => throw .pending
      | .stop r => libdcExtracted r

/-! ### The parser -/

/-- The structure is allocated before the parser of the library is made. -/
def libdcParserCreate (dev : Nat) : Libdc S (Except Int Nat) := do
  let p ← allocHandle
  useHandle dev
  useOpt (← getDev).device
  if ← call D.parserNew then
    let parser ← allocHandle
    setParser ⟨dev, some parser⟩
    return .ok p
  else
    setDevError driverErrInvalid "Failed to create a libdivecomputer Parser"
    disposeHandle p
    return .error (-1)

/-- The parser of the library, and then the structure. -/
def libdcParserClose (p : Nat) : Libdc S Unit := do
  useHandle p
  disposeOpt (← getParser).parser
  setParser { ← getParser with parser := none }
  disposeHandle p

/-- There is nothing to reset; the parser is compared with null only. -/
def libdcParserReset : Libdc S Int := return 0

/-- An error of the parser is stored in its device. -/
def libdcParserError (msg : String) : Libdc S Unit := do
  useHandle (← getParser).dev
  setDevError driverErrParser msg

/-- A value of the dive is asked for.  If there is one it is reported as `tokens` behind
the tokens `seen` so far, and `k` goes on with both. -/
def libdcValue (get : S → (DcStatus × β) × S) (msg : String) (tokens : β → List HeaderEntry)
    (seen : List HeaderEntry)
    (k : Option β → List HeaderEntry → Libdc S (Int × List HeaderEntry)) :
    Libdc S (Int × List HeaderEntry) := do
  match ← onParser get with
  | (.failure, _) =>
    libdcParserError msg
    return (-1, seen)
  | (.unsupported, _) => k none seen
  | (.success, value) => k (some value) (seen ++ tokens value)

/-- The loop over the gas mixes with the numbers `is`. -/
def libdcGasmixes : List Nat → List HeaderEntry → Libdc S (Int × List HeaderEntry)
  | [], seen => return (0, seen)
  | i :: is, seen =>
    libdcValue (fun w => D.getGasmix w i) "Failed to retrieve gas mix data"
      (fun (helium, oxygen) => [⟨.pmo2, oxygen, i, none⟩, ⟨.pmhe, helium, i, none⟩]) seen
      fun _ seen => libdcGasmixes is seen

/-- The fields of a header, one after the other; the first one that cannot be had ends it. -/
def libdcParserParseHeader (p : Nat) (data : List UInt8) :
    Libdc S (Int × List HeaderEntry) := do
  useHandle p
  if ← onParser fun w => D.setData w data then
    libdcValue D.getDatetime "Failed to retrieve dive date/time"
      (fun ts => [⟨.startTime, ts, 0, none⟩]) [] fun _ seen =>
    libdcValue (fun w => D.getField w .divetime) "Failed to retrieve dive duration"
      (fun n => [⟨.duration, BitVec.ofNat 32 (n / 60), 0, none⟩]) seen fun _ seen =>
    libdcValue (fun w => D.getField w .maxdepth) "Failed to retrieve maximum depth"
      (fun n => [⟨.maxDepth, BitVec.ofNat 32 n, 0, none⟩]) seen fun _ seen =>
    libdcValue (fun w => D.getField w .gasmixCount) "Failed to retrieve gas mix count"
      (fun _ => []) seen fun ngasses seen =>
    libdcGasmixes D (List.range (ngasses.getD 0)) seen
  else
    libdcParserError "Failed to set parser data"
    return (-1, [])

/-- The names of the events. -/
def libdcEventNames : List String :=
  ["none", "deco", "rbt", "ascent", "ceiling", "workload", "transmitter",
   "violation", "bookmark", "surface", "safety stop", "gaschange",
   "safety stop (voluntary)", "safety stop (mandatory)", "deepstop",
   "ceiling (safety stop)", "unknown", "divetime", "maxdepth",
   "OLF", "PO2", "airtime", "rgbm", "heading", "tissue level warning",
   "gaschange2"]

/-- The tokens of one sample. -/
def libdcSampleCb (type : DcSampleType) (value : DcSampleValue) : List Waypoint :=
  match type with
  | .time => [⟨.time, value.time, 0, none⟩]
  | .depth => [⟨.depth, value.depth, 0, none⟩]
  | .temperature =>
    -- there is no `break`
    [⟨.temp, value.temperature, 0, none⟩, ⟨.px, value.pressureValue, value.pressureTank, none⟩]
  | .pressure => [⟨.px, value.pressureValue, value.pressureTank, none⟩]
  | .rbt => [⟨.rbt, value.rbt, 0, none⟩]
  | .heartbeat => [⟨.heartrate, value.heartbeat, 0, none⟩]
  | .bearing => [⟨.bearing, value.bearing, 0, none⟩]
  | .event =>
    [⟨.alarm, BitVec.ofNat 32 value.eventType, 0, libdcEventNames[value.eventType]?⟩]
  | .vendor => []

/-- The tokens of all samples. -/
def libdcParserParseProfile (p : Nat) (data : List UInt8) : Libdc S (Int × List Waypoint) := do
  useHandle p
  if ← onParser fun w => D.setData w data then
    let (done, samples) ← onParser D.samplesForeach
    let tokens := samples.flatMap fun s => libdcSampleCb s.1 s.2
    if done then return (0, tokens)
    else
      libdcParserError "Failed to parse profile data"
      return (-1, tokens)
  else
    libdcParserError "Failed to set parser data"
    return (-1, [])

/-! ### The table -/

/-- The functions that the plugin hands out. -/
def libdcDriverInterface (fuel : Nat) : DriverInterface (LibdcProc S) where
  driverCreate := libdcDriverCreate D
  driverOpen := libdcDriverOpen D
  driverClose := libdcDriverClose
  driverShutdown := libdcDriverShutdown
  driverErrmsg := libdcDriverErrmsg
  driverTransfer dev _ _ _ := libdcDriverTransfer D dev
  driverExtract := libdcDriverExtract fuel
  parserCreate := libdcParserCreate D
  parserClose := libdcParserClose
  parserReset _ := libdcParserReset
  parserParseHeader := libdcParserParseHeader D
  parserParseProfile := libdcParserParseProfile D

end BenthosDc

/-
BenthosDc/SmartiDriver.lean

The network driver (`smarti_driver.c`): a Smart device behind the daemon.

The driver keeps what it knows of the device in a structure of its own, and talks to the client
only.  The text of an error comes from the client or from the driver, and is copied or not, as
each call says.
-/
import BenthosDc.DriverBase
import BenthosDc.SmartiClient

namespace BenthosDc

open CString Hoare Lifetime

variable {S α : Type}

/-- The network, and the daemon at its other end. -/
structure SmartiHost (S : Type) where
  irda : Irda S
  /-- The passes that the daemon is granted for a block of data. -/
  fuel : Nat
  /-- The error of a connection to a host and a port, or `none`. -/
  dial : Text → Nat → Option Int
  /-- `time(NULL)` -/
  clock : Nat
  /-- What the variable `bsize` holds before it is set. -/
  bsize : Nat

/-- `struct smarti_device_` -/
structure SmartiDev where
  base : SmartBase
  client : Nat
  epaddr : Nat
  epname : Option Text
  lsap : Nat
  csize : Nat
  deriving DecidableEq

/-- The memory of the device structure, the client's connection and its socket. -/
structure SmartiProc (S : Type) where
  link : Link S
  socket : Option Nat
  dev : SmartiDev

/-- The calls of the driver, which may end in undefined behaviour. -/
abbrev Smarti (S : Type) := Driver (SmartiProc S)

namespace Smarti

/-- The device structure. -/
def getDev : Smarti S SmartiDev := fun d => .ok (d.state.dev, d)

/-- Change the device structure. -/
def setDev (f : SmartiDev → SmartiDev) : Smarti S Unit :=
  modifyState fun s => { s with dev := f s.dev }

/-- `smart_device_set_error` -/
def setDevError (code : Int) (msg : ErrorText) (copy : Bool) : Smarti S Unit :=
  setDev fun dev => { dev with base := dev.base.setError code msg copy }

/-- A program of the client, on its connection. -/
def liftClient (m : Client S α) : Smarti S α := fun d =>
  match m.run d.state.link with
  | .ok (a, link) => .ok (a, { d with state := { d.state with link := link } })
  | .error e => .error e

/-- What a program of the client does to its connection, it does to the link of the device. -/
theorem liftClient_triple {m : Client S α} {d : Desk (SmartiProc S)}
    {Q : α → Desk (SmartiProc S) → Prop} {E : Halt → Prop}
    (hm : Triple m d.state.link
      (fun a link => Q a { d with state := { d.state with link := link } }) E) :
    Triple (liftClient m) d Q E := by
  cases hrun : m.run d.state.link with
  | error e =>
    have hlift : (liftClient m).run d = .error e := by
      show liftClient m d = _
      rw [liftClient, hrun]
    exact Triple.of_run_error hlift (hm.halt hrun)
  | ok r =>
    have hlift : (liftClient m).run d =
        .ok (r.1, { d with state := { d.state with link := r.2 } }) := by
      show liftClient m d = _
      rw [liftClient, hrun]
    exact Triple.of_run hlift (hm.result hrun)

/-- The descriptor of the connection. -/
def setSocket (s : Option Nat) : Smarti S Unit := modifyState fun p => { p with socket := s }

/-- A call with the client of the device; it uses the socket, if there is one. -/
def call (m : Client S α) : Smarti S α := do
  useHandle (← getDev).client
  match (← getState).socket with
  | none => liftClient m
  | some s =>
    useHandle s
    liftClient m

/-- `smarti_client_disconnect` with the client of the device. -/
def disconnect : Smarti S Unit := do
  useHandle (← getDev).client
  match (← getState).socket with
  | none => pure ()
  | some s =>
    disposeHandle s
    setSocket none
  let _ ← liftClient smartiClientDisconnect

/-- `smarti_client_errcode` -/
def clientErrcode : Smarti S Int := call fun l => .ok (l.errcode, l)

/-- `smarti_client_errmsg` -/
def clientErrmsg : Smarti S ErrorText := call fun l => .ok (l.errmsg, l)

/-- The message of the client is copied. -/
def setClientError (code : Int) : Smarti S Unit := do
  setDevError code (← clientErrmsg) true

end Smarti

open Smarti

variable (H : SmartiHost S)

/-! ### Creating and opening

The daemon is connected first.  Each error behind it disconnects, so that a device that has not
been opened has no connection.
-/

/-- The structure as `smarti_driver_create` fills it. -/
def SmartiDev.fresh (client : Nat) : SmartiDev where
  base := {}
  client := client
  epaddr := 0
  epname := none
  lsap := 1
  csize := 4

/-- The structure and the client are two handles. -/
def smartiDriverCreate : Smarti S Nat := do
  let dev ← allocHandle
  let client ← allocHandle
  -- a new client has no socket
  setSocket none
  setDev fun _ => SmartiDev.fresh client
  return dev

/-- The device is kept if its name is that of a Smart, in place of one that was kept before. -/
def smartiEnumCb (dev : SmartiDev) (d : Found) : SmartiDev :=
  if smartName d.2 then { dev with epaddr := d.1, epname := some (cstr d.2) } else dev

/-- An error behind the connection ends it. -/
def smartiDriverGiveUp (rc : Int) : Smarti S Int := do
  disconnect
  return rc

/-- An error with the message of the client. -/
def smartiDriverFail : Smarti S Int := do
  setClientError driverErrInternal
  smartiDriverGiveUp driverErrInternal

/-- Read a value of the device, and go on with `k`. -/
def smartiDriverRead (m : Client S (Except Int Nat)) (k : Nat → Smarti S Int) : Smarti S Int := do
  match ← call m with
  | .error _ => smartiDriverFail
  | .ok n => k n

/-- The model, the serial number and the ticks are read. -/
def smartiDriverInfo : Smarti S Int := do
  smartiDriverRead (smartiClientModel H.irda H.fuel) fun n => do
    setDev fun dev => { dev with base := { dev.base with model := n } }
    smartiDriverRead (smartiClientSerial H.irda H.fuel) fun n => do
      setDev fun dev => { dev with base := { dev.base with serial := n } }
      smartiDriverRead (smartiClientTicks H.irda H.fuel) fun n => do
        setDev fun dev => { dev with base := { dev.base with ticks := n } }
        setDev fun dev => { dev with base := dev.base.setClock H.clock }
        return driverErrSuccess

/-- The error switch of opening a device. -/
def smartiOpenError : Smarti S Int := do
  let code ← clientErrcode
  if code = etimedout then
    setDevError driverErrTimeout (.text "Timed Out".toList) false
    smartiDriverGiveUp driverErrTimeout
  else if code = smartiErrorConnect ∨ code = smartiErrorHandshake then
    setDevError driverErrHandshake (.text "Failed to Connect to Device".toList) false
    smartiDriverGiveUp driverErrHandshake
  else if code = smartiErrorIo then
    setDevError driverErrInternal (.text "I/O Error on Device".toList) false
    smartiDriverGiveUp driverErrInternal
  else smartiDriverFail

/-- The part of opening that opens the device that has been found. -/
def smartiDriverOpenDevice (lsap chunkSize : Nat) : Smarti S Int := do
  let dev ← getDev
  let rc ← call (smartiClientOpen H.irda H.fuel (UInt32.ofNat dev.epaddr) (UInt32.ofNat lsap)
    (UInt8.ofNat chunkSize))
  if rc ≠ 0 then smartiOpenError
  else smartiDriverInfo H

/-- The part of opening that looks for a device. -/
def smartiDriverEnumerate (lsap chunkSize : Nat) : Smarti S Int := do
  -- the callback never stops the enumeration
  let (rc, seen) ← call (smartiClientEnumerate H.irda H.fuel fun _ => 0)
  setDev fun dev => seen.foldl smartiEnumCb dev
  if rc ≠ 0 then
    if (← clientErrcode) = smartiStatusNoDevs then
      setDevError driverErrNoDevice (.text "No Devices Found".toList) false
      smartiDriverGiveUp driverErrNoDevice
    else smartiDriverFail
  else
    let dev ← getDev
    if dev.epname = none ∨ dev.epaddr = 0 then
      setDevError driverErrNoDevice (.text "No Smart Devices Found".toList) false
      smartiDriverGiveUp driverErrNoDevice
    else smartiDriverOpenDevice H lsap chunkSize

/-- The connection to the host; the port is a `uint16_t`. -/
def smartiDriverConnect (devpath : Text) (port : Nat) : Smarti S Int := do
  useHandle (← getDev).client
  match H.dial devpath (port % 2 ^ 16) with
  | some errno =>
    liftClient (BenthosDc.setError errno (.strerror errno))
    return -1
  | none =>
    let s ← allocHandle
    setSocket (some s)
    let rc ← liftClient smartiClientConnect
    if (← getState).link.connected then return rc
    else
      -- a greeting that is refused closes the socket
      disposeHandle s
      setSocket none
      return rc

/-- The arguments are read first; the path of the device is the name of the server. -/
def smartiDriverOpen (dev : Nat) (devpath args : Text) : Smarti S Int := do
  useHandle dev
  match arglistParse args with
  | .error .overrun => throw .overflow
  | .error .einval =>
    setDevError driverErrInvalid (.text "Invalid Argument String".toList) false
    return driverErrInvalid
  | .ok args =>
    let rc ← smartiDriverConnect H devpath (argUint args "port".toList 6740)
    if rc ≠ 0 then
      setDevError driverErrBadDevpath (.text "Failed to Connect to Server".toList) false
      return driverErrBadDevpath
    else
      smartiDriverEnumerate H (argUint args "lsap".toList 1) (argUint args "chunk_size".toList 8)

/-! ### Transfers

The token goes first, then the size, and the data only if there are some.
-/

/-- A call of a transfer has failed. -/
def smartiTransferFail : Smarti S (Except Int (Nat × List UInt8)) := do
  setClientError driverErrInternal
  return .error driverErrInternal

/-- The part of a transfer behind its size. -/
def smartiDriverReadBlock (size : Nat) : Smarti S (Except Int (Nat × List UInt8)) := do
  match ← call (smartiClientXfer H.irda H.fuel) with
  | .error _ =>
    if (← clientErrcode) = smartiErrorTimeout then
      setDevError driverErrTimeout (.text "Timed Out".toList) false
      return .error driverErrTimeout
    else smartiTransferFail
  | .ok data =>
    if (data.map List.length).getD H.bsize ≠ size then
      setDevError driverErrInternal (.text "Data length mismatch".toList) true
      return .error driverErrInternal
    else return .ok (size, data.getD [])

/-- The size and the data of a transfer.  The transfer callback cannot cancel it. -/
def smartiDriverTransfer (dev : Nat) (dcb : Option DeviceCallback) :
    Smarti S (Except Int (Nat × List UInt8)) := do
  useHandle dev
  let base := (← getDev).base
  setDev fun dev => { dev with base := (transferToken dcb base).1 }
  match (transferToken dcb base).2 with
  | .error rc => return .error rc
  | .ok token =>
    if (← call (smartiClientSetToken H.irda H.fuel (UInt32.ofNat token))) ≠ 0 then smartiTransferFail
    else
      match ← call (smartiClientSize H.irda H.fuel) with
      | .error _ => smartiTransferFail
      | .ok size =>
        if size = 0 then return .ok (0, [])
        else smartiDriverReadBlock H size

/-! ### Closing

CLOSE is sent, whatever comes back, and the client is disconnected.
-/

/-- The result of CLOSE is not looked at. -/
def smartiDriverClose (dev : Nat) : Smarti S Unit := do
  useHandle dev
  let _ ← call (smartiClientClose H.irda H.fuel)
  disconnect
  setDev fun dev => { dev with epname := none }

/-- `smarti_client_dispose` -/
def smartiClientDispose : Smarti S Unit := do
  let client := (← getDev).client
  disconnect
  disposeHandle client

/-- Both structures are released. -/
def smartiDriverShutdown (dev : Nat) : Smarti S Unit := do
  useHandle dev
  smartiClientDispose
  setDev fun dev => { dev with base := dev.base.freeError }
  disposeHandle dev

end BenthosDc

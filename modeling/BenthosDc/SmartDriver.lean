/-
BenthosDc/SmartDriver.lean

The local Smart driver (`smart_driver.c`, `smart_io.c`).

The driver works on the one device structure that the application has created; the
handle of the structure is checked at the beginning of each function.
-/
import BenthosDc.DriverBase

namespace BenthosDc

open CString Hoare Lifetime

variable {S α : Type}

/-- The socket operations of the driver. -/
structure SmartHost (S : Type) extends Irda S where
  /-- Whether `irda_socket_open` succeeds. -/
  socketOpen : S → Bool × S
  /-- Whether `irda_socket_set_timeout` succeeds. -/
  setTimeout : S → Int → Bool × S
  /-- `irda_errcode()` -/
  errcode : S → Int

/-- `struct smart_device_` -/
structure SmartDev where
  base : SmartBase
  s : Option Nat
  epaddr : Nat
  epname : Option Text
  lsap : Nat
  csize : Nat
  deriving DecidableEq

/-- The memory of the device structure, and the world behind the socket. -/
structure SmartProc (S : Type) where
  world : S
  dev : SmartDev

/-- The calls of the driver, which may end in undefined behaviour. -/
abbrev Smart (S : Type) := Driver (SmartProc S)

namespace Smart

/-- A call of the host. -/
def call (f : S → α × S) : Smart S α := fun d =>
  .ok ((f d.state.world).1, { d with state := { d.state with world := (f d.state.world).2 } })

/-- The device structure. -/
def getDev : Smart S SmartDev := fun d => .ok (d.state.dev, d)

/-- Change the device structure. -/
def setDev (f : SmartDev → SmartDev) : Smart S Unit :=
  modifyState fun s => { s with dev := f s.dev }

/-- `smart_device_set_error` with a message that is not copied. -/
def setDevError (code : Int) (msg : Text) : Smart S Unit :=
  setDev fun dev => { dev with base := dev.base.setError code (.text msg) false }

/-- An operation on the socket of the device; `null` is its result for a null pointer. -/
def onSocket (null : α) (f : S → α × S) : Smart S α := do
  match (← getDev).s with
  | none => return null
  | some h =>
    useHandle h
    call f

/-- `irda_socket_close` on the socket of the device. -/
def irdaSocketClose : Smart S Unit := do
  match (← getDev).s with
  | none => return ()
  | some h => disposeHandle h

end Smart

open Smart

variable (H : SmartHost S)

/-- The error of the socket is copied. -/
def setIrdaError : Smart S Unit := fun d =>
  setDev (fun dev => { dev with
    base := dev.base.setError (H.errcode d.state.world) (.strerror (H.errcode d.state.world)) true }) d

/-! ### Commands (`smart_io.c`)

A command is written and its answer is read, both on the socket and with the timeout of the
socket.  A timeout is an error of its own.
-/

/-- `ans` is what the memory for the answer holds before. -/
def Smart.driverCmd (cmd ans : List UInt8) : Smart S (Except Int (List UInt8)) := do
  if (← getDev).s = none then return .error driverErrInvalid
  else
    match ← onSocket .failed fun w => H.write w cmd with
    | .failed =>
      setDevError driverErrWrite "Failed to write bytes to the Uwatec Smart device".toList
      return .error driverErrWrite
    | .timedOut =>
      setDevError driverErrTimeout "Timed out writing data to the Uwatec Smart device".toList
      return .error driverErrTimeout
    | .done _ =>
      match ← onSocket .failed fun w => H.read w ans.length with
      | .failed =>
        setDevError driverErrRead "Failed to read bytes from the Uwatec Smart device".toList
        return .error driverErrRead
      | .timedOut =>
        setDevError driverErrTimeout "Timed out reading data from the Uwatec Smart device".toList
        return .error driverErrTimeout
      | .done bytes => return .ok (received bytes ans)

/-- What the `n` bytes of an unset local variable hold. -/
def Smart.junk (n : Nat) : Smart S (List UInt8) :=
  call fun w => ((List.range n).map (H.junk w), w)

/-- The second command carries the number 10000 as a word. -/
def Smart.driverHandshake : Smart S Int := do
  match ← driverCmd H [0x1b] (← junk H 1) with
  | .error rc => return rc
  | .ok ans =>
    if octet ans 0 ≠ 1 then
      setDevError driverErrHandshake "Handshake Phase 1 Failed".toList
      return driverErrHandshake
    else
      match ← driverCmd H [0x1c, 0x10, 0x27, 0, 0] ans with
      | .error rc => return rc
      | .ok ans =>
        if octet ans 0 ≠ 1 then
          setDevError driverErrHandshake "Handshake Phase 2 Failed".toList
          return driverErrHandshake
        else return driverErrSuccess

/-! ### Creating and opening

The socket is opened first and lives for the rest of the call.  Each error behind it closes the
socket again, but leaves the device structure to the caller.
-/

/-- The structure as `smart_driver_create` fills it. -/
def SmartDev.fresh : SmartDev where
  base := {}
  s := none
  epaddr := 0
  epname := none
  lsap := 1
  csize := 4

/-- The device structure gets a handle of its own. -/
def smartDriverCreate : Smart S Nat := do
  let dev ← allocHandle
  setDev fun _ => SmartDev.fresh
  return dev

/-- The device is kept if its name is that of a Smart, in place of one that was kept before. -/
def smartDriverDiscoverCb (dev : SmartDev) (d : IrdaDevice) : SmartDev :=
  if smartName d.name then { dev with epaddr := d.addr.toNat, epname := some (cstr d.name) }
  else dev

/-- An error behind the opening of the socket closes it. -/
def smartDriverGiveUp (rc : Int) : Smart S Int := do
  irdaSocketClose
  setDev fun dev => { dev with s := none }
  return rc

/-- Read a value of the device, and go on with `k`. -/
def smartDriverRead (cmd ans : List UInt8) (k : List UInt8 → Smart S Int) : Smart S Int := do
  match ← driverCmd H cmd ans with
  | .error rc => smartDriverGiveUp rc
  | .ok ans => k ans

/-- The model, the serial number and the ticks are read. -/
def smartDriverInfo : Smart S Int := do
  smartDriverRead H [0x10] [UInt8.ofNat (← getDev).base.model] fun ans => do
    setDev fun dev => { dev with base := { dev.base with model := octet ans 0 } }
    smartDriverRead H [0x14] (uint32Bytes (← getDev).base.serial) fun ans => do
      setDev fun dev => { dev with base := { dev.base with serial := uint32Le ans 0 } }
      smartDriverRead H [0x1a] (uint32Bytes (← getDev).base.ticks) fun ans => do
        setDev fun dev => { dev with base := { dev.base with ticks := uint32Le ans 0 } }
        let now ← call H.time
        setDev fun dev => { dev with base := dev.base.setClock now }
        return driverErrSuccess

/-- The part of opening from the connection on. -/
def smartDriverConnect : Smart S Int := do
  let dev ← getDev
  match ← onSocket .failed fun w => H.connectLsap w dev.epaddr dev.lsap with
  | .failed =>
    setIrdaError H
    smartDriverGiveUp driverErrInternal
  | .timedOut =>
    setDevError driverErrTimeout "Timed out connecting to Uwatec Smart device".toList
    smartDriverGiveUp driverErrTimeout
  | .done _ =>
    let rc ← driverHandshake H
    if rc ≠ 0 then smartDriverGiveUp rc
    else smartDriverInfo H

/-- The part of opening that looks for a device. -/
def smartDriverDiscover : Smart S Int := do
  match ← onSocket none H.discover with
  | none =>
    setIrdaError H
    smartDriverGiveUp driverErrInternal
  | some ds =>
    setDev fun dev => ds.foldl smartDriverDiscoverCb dev
    if ds.length = 0 then
      setDevError driverErrNoDevice "No Uwatec Smart devices found".toList
      smartDriverGiveUp driverErrNoDevice
    else smartDriverConnect H

/-- The chunk size is made to lie between 2 and 32. -/
def clampChunkSize (chunkSize : Nat) : Nat :=
  let chunkSize := if chunkSize < 2 then 2 else chunkSize
  if chunkSize > 32 then 32 else chunkSize

/-- The part of opening behind the arguments. -/
def smartDriverSocket (timeout : Int) : Smart S Int := do
  if ← call H.socketOpen then
    let s ← allocHandle
    setDev fun dev => { dev with s := some s }
    if ← onSocket false fun w => H.setTimeout w timeout then smartDriverDiscover H
    else
      setIrdaError H
      smartDriverGiveUp driverErrInternal
  else
    setIrdaError H
    return driverErrInternal

/-- The arguments are read first, and the path of the device is not used. -/
def smartDriverOpen (dev : Nat) (_devpath args : Text) : Smart S Int := do
  useHandle dev
  match arglistParse args with
  | .error .overrun => throw .overflow
  | .error .einval =>
    setDevError driverErrInvalid "Invalid Argument String".toList
    return driverErrInvalid
  | .ok args =>
    setDev fun dev => { dev with
      lsap := argUint args "lsap".toList 1
      csize := clampChunkSize (argUint args "chunk_size".toList 8) }
    smartDriverSocket H (argInt args "timeout".toList 2000)

/-! ### Transfers

The size of the data is asked for first, and nothing more is done if there is none.  The data
itself comes with its length in front, which must agree with the size.
-/

/-- The loop that reads the data, for at most `fuel` passes: the bytes so far and the
number of bytes to come. -/
def smartDriverReadData (pcb : Option TransferCallback) (size : Nat) :
    Nat → List UInt8 → Nat → Smart S (Except Int (List UInt8))
  | 0, _, _ => throw .pending
  | fuel + 1, buf, len => do
    if len = 0 then return .ok buf
    else
      let nt := chunkLength (← getDev).csize len
      match ← onSocket .failed fun w => H.read w nt with
      | .failed =>
        setDevError driverErrRead "Failed to read bytes from the Uwatec Smart device".toList
        return .error driverErrRead
      | .timedOut =>
        setDevError driverErrTimeout "Timed out reading data from the Uwatec Smart device".toList
        return .error driverErrTimeout
      | .done bytes =>
        -- what the device gives behind `nt` bytes has no room
        let buf := buf ++ bytes.take nt
        let cancel := match pcb with
          | none => false
          | some pcb => pcb buf.length size
        if cancel then
          setDevError driverErrCancelled "Operation was cancelled by the user".toList
          return .error driverErrCancelled
        else smartDriverReadData pcb size fuel buf (len - (bytes.take nt).length)

/-- The part of a transfer behind its size. -/
def smartDriverReadBlock (fuel : Nat) (token size : Nat) (pcb : Option TransferCallback) :
    Smart S (Except Int (Nat × List UInt8)) := do
  match ← driverCmd H (tokenCmd 0xc4 token) (← junk H 4) with
  | .error _ => return .error (-1)
  | .ok nb =>
    if uint32Le nb 0 ≠ u32 (size + 4) then
      setDevError driverErrInternal "Data length mismatch".toList
      return .error driverErrInternal
    else
      let cancel := match pcb with
        | none => false
        | some pcb => pcb 0 size
      if cancel then
        setDevError driverErrCancelled "Operation was cancelled by the user".toList
        return .error driverErrCancelled
      else
        match ← smartDriverReadData H pcb size fuel [] size with
        | .error rc => return .error rc
        | .ok data => return .ok (size, data)

/-- The size and the data of a transfer.  `size` is what the memory for the size holds
before. -/
def smartDriverTransfer (fuel dev size : Nat) (dcb : Option DeviceCallback)
    (pcb : Option TransferCallback) : Smart S (Except Int (Nat × List UInt8)) := do
  useHandle dev
  let base := (← getDev).base
  setDev fun dev => { dev with base := (transferToken dcb base).1 }
  match (transferToken dcb base).2 with
  | .error rc => return .error rc
  | .ok token =>
    match ← driverCmd H (tokenCmd 0xc6 token) (uint32Bytes size) with
    | .error _ => return .error (-1)
    | .ok ans =>
      if uint32Le ans 0 = 0 then return .ok (0, [])
      else smartDriverReadBlock H fuel token (uint32Le ans 0) pcb

/-! ### Closing

Shutdown closes the socket and releases the structure; close keeps the structure.
-/

/-- The pointer to the socket is kept, although the socket is gone. -/
def smartDriverClose (dev : Nat) : Smart S Unit := do
  useHandle dev
  irdaSocketClose
  setDev fun dev => { dev with epname := none }

/-- The socket is closed again, whether it has been closed or not. -/
def smartDriverShutdown (dev : Nat) : Smart S Unit := do
  useHandle dev
  -- an alias of closing the socket
  irdaSocketClose
  setDev fun dev => { dev with s := none }
  setDev fun dev => { dev with base := dev.base.freeError }
  disposeHandle dev

end BenthosDc

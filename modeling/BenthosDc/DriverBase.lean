/-
BenthosDc/DriverBase.lean

What the drivers have in common (`plugin.h`, `driver.h`, `parser.h`,
`smart_device_base.h`).

A driver is a program over its state.  Every handle that it is given, for a device
structure, a socket or a part of a library, stands in a ledger; a handle that is used
or released when it is not live brings the program to a halt.

The ledger makes the lifetime of handles a part of the run: there is no run of a driver in
which a structure is used behind its release.  `PluginCall` is how a caller drives a plugin,
one function of its table after the other.
-/
import BenthosDc.Arglist
import BenthosDc.SmartExtract
import BenthosDc.SmartiSocket

namespace BenthosDc

open CString Hoare Lifetime

variable {σ α β : Type}

/-! ### Error codes (`plugin.h`) -/

/-- The codes that the drivers return. -/
def driverErrSuccess : Int := 0
def driverErrTimeout : Int := -2
def driverErrRead : Int := -3
def driverErrWrite : Int := -4
def driverErrNoDevice : Int := -5
def driverErrHandshake : Int := -6
def driverErrCancelled : Int := -8
def driverErrParser : Int := -9
def driverErrBadDevpath : Int := -10
def driverErrInternal : Int := -11

/-! ### The base of a Smart device -/

/-- What a message pointer points to; the copies that `strdup` makes are numbered. -/
inductive MessagePtr
  | null
  | literal
  | copied (n : Nat)
  deriving DecidableEq

/-- `struct smart_device_base_t` behind its magic number, as the drivers fill it, and what
has been done with the memory of its messages. -/
structure SmartBase where
  errcode : Int := 0
  errmsg : Option ErrorText := none
  errptr : MessagePtr := .null
  /-- Whether the message has been copied. -/
  errdyn : Bool := false
  /-- The number of copies that have been made. -/
  copies : Nat := 0
  /-- The pointers that have been given to `free`, in order. -/
  frees : List MessagePtr := []
  epoch : Int := 0
  tcorr : Int := 0
  model : Nat := 0
  serial : Nat := 0
  ticks : Nat := 0
  deriving DecidableEq

/-- `if (errdyn) free(errmsg)` -/
def SmartBase.freeError (base : SmartBase) : SmartBase :=
  if base.errdyn then { base with frees := base.frees ++ [base.errptr] } else base

/-- `smart_device_set_error` -/
def SmartBase.setError (base : SmartBase) (code : Int) (msg : ErrorText) (copy : Bool) :
    SmartBase :=
  { base.freeError with
    errcode := code
    errmsg := some msg
    errptr := if copy then .copied base.copies else .literal
    errdyn := copy
    copies := if copy then base.copies + 1 else base.copies }

/-- 2000-01-01 in half seconds, which is the same in every time zone. -/
def smartEpoch : Int := 946684800 * 2

/-- The clock is `time_t`, and what is stored an `int32_t`. -/
def SmartBase.setClock (base : SmartBase) (now : Nat) : SmartBase :=
  { base with epoch := smartEpoch, tcorr := ((now * 2 : Int) - base.ticks).bmod (2 ^ 32) }

/-! ### Tokens -/

/-- `device_callback_fn_t`: the model, the serial number and the ticks; the return value
and the token. -/
abbrev DeviceCallback := Nat → Nat → Nat → Int × Option Text

/-- `transfer_callback_fn_t`: the bytes so far and their total number; whether the
transfer is to be cancelled. -/
abbrev TransferCallback := Nat → Nat → Bool

/-- The return value of `sscanf(text, "%u", ..)` where there is no number. -/
def scanFailure (text : Text) : Int := if (cstr text).dropWhile isSpace = [] then -1 else 0

/-- The beginning of a transfer: the token of the device callback. -/
def transferToken (dcb : Option DeviceCallback) (base : SmartBase) : SmartBase × Except Int Nat :=
  match dcb with
  | none => (base, .ok 0)
  | some dcb =>
    match dcb base.model base.serial base.ticks with
    | (rc, stoken) =>
      if rc ≠ driverErrSuccess then
        (base.setError rc (.text "Error in Device Callback".toList) false, .error rc)
      else
        match stoken with
        | none => (base, .ok 0)
        | some stoken =>
          match strtoul (cstr stoken) with
          | none =>
            (base.setError (scanFailure stoken) (.text "Invalid Token String".toList) false,
              .error driverErrInvalid)
          | some (token, _) => (base, .ok (u32 token))

/-! ### Names of devices -/

/-- `strstr(name, pattern) != 0` -/
def hasSubstr (name pattern : Text) : Bool := pattern <:+: cstr name

/-- `strncmp(name, pattern, strlen(pattern)) == 0` -/
def hasStart (name pattern : Text) : Bool := pattern <+: cstr name

/-- The condition of `smart_driver_discover_cb` and of `smarti_enum_cb`. -/
def smartName (name : Text) : Bool :=
  hasStart name "UWATEC Galileo Sol".toList ||
  hasStart name "Uwatec Smart".toList ||
  hasSubstr name "Uwatec".toList ||
  hasSubstr name "UWATEC".toList ||
  hasSubstr name "Aladin".toList ||
  hasSubstr name "ALADIN".toList ||
  hasSubstr name "Smart".toList ||
  hasSubstr name "SMART".toList ||
  hasSubstr name "Galileo".toList ||
  hasSubstr name "GALILEO".toList

/-- A name is recognised by a part of it. -/
theorem smartName_of_prefix {part name : Text} (hpart : cstr part <+: cstr name)
    (h : smartName part = true) : smartName name = true := by
  have hstart : ∀ p, hasStart part p = true → hasStart name p = true := by
    intro p hp
    rw [hasStart, decide_eq_true_iff] at hp ⊢
    exact hp.trans hpart
  have hsub : ∀ p, hasSubstr part p = true → hasSubstr name p = true := by
    intro p hp
    rw [hasSubstr, decide_eq_true_iff] at hp ⊢
    exact hp.trans hpart.isInfix
  unfold smartName at h ⊢
  simp only [Bool.or_eq_true] at h ⊢
  revert h
  repeat' refine Or.imp ?_ ?_
  · exact hstart _
  · exact hstart _
  all_goals exact hsub _

/-! ### Programs with handles -/

/-- What a driver works on: its state, and the ledger of its handles. -/
structure Desk (σ : Type) where
  state : σ
  ledger : Ledger

/-- A desk without handles. -/
def Desk.start (s : α) : Desk α := ⟨s, Ledger.empty⟩

/-- A program of a driver; it may come to a halt. -/
abbrev Driver (σ : Type) := StateT (Desk σ) (Except Halt)

/-- A new handle. -/
def allocHandle : Driver σ Nat := fun d => .ok (d.ledger.next, { d with ledger := d.ledger.alloc })

/-- A pointer is followed. -/
def useHandle (h : Nat) : Driver σ Unit := fun d =>
  match d.ledger.use h with
  | some ledger => .ok ((), { d with ledger := ledger })
  | none => .error .dangling

/-- What a handle stands for is released. -/
def disposeHandle (h : Nat) : Driver σ Unit := fun d =>
  match d.ledger.dispose h with
  | some ledger => .ok ((), { d with ledger := ledger })
  | none => .error .dangling

/-- The state. -/
def getState : Driver σ σ := fun d => .ok (d.state, d)

/-- A change of the state. -/
def modifyState (f : σ → σ) : Driver σ Unit := fun d => .ok ((), { d with state := f d.state })

/-! ### The interface of a driver -/

/-- A call of the dive data callback: the data and the token, which may be null. -/
abbrev DiveData := List UInt8 × Option Text

/-- `driver_interface_t`, without the names and numbers that a transfer does not ask for.
A call that gives something out gives it for the return value 0 only. -/
structure DriverInterface (σ : Type) where
  driverCreate : Driver σ (Except Int Nat)
  driverOpen : Nat → Text → Text → Driver σ Int
  driverClose : Nat → Driver σ Unit
  driverShutdown : Nat → Driver σ Unit
  driverErrmsg : Nat → Driver σ (Option ErrorText)
  /-- The last argument is what the memory for the size holds before. -/
  driverTransfer : Nat → DeviceCallback → TransferCallback → Nat →
    Driver σ (Except Int (Nat × List UInt8))
  /-- The buffer is `none` for a null pointer. -/
  driverExtract : Nat → Option Memory → Nat → Driver σ (Int × List DiveData)
  parserCreate : Nat → Driver σ (Except Int Nat)
  parserClose : Nat → Driver σ Unit
  parserReset : Nat → Driver σ Int
  parserParseHeader : Nat → List UInt8 → Driver σ (Int × List HeaderEntry)
  parserParseProfile : Nat → List UInt8 → Driver σ (Int × List Waypoint)

/-- A call through the interface of the driver, for its one device. -/
inductive PluginCall
  | opening (devpath args : Text)
  | transfer (dcb : DeviceCallback) (pcb : TransferCallback) (size : Nat)
  | extract (mem : Option Memory) (size : Nat)
  | errmsg
  | closing
  | parserCreate
  | parserClose (p : Nat)
  | parserReset (p : Nat)
  | parseHeader (p : Nat) (data : List UInt8)
  | parseProfile (p : Nat) (data : List UInt8)

/-- The result is dropped. -/
def PluginCall.run (drv : DriverInterface σ) (dev : Nat) :
    PluginCall → Driver σ Unit
  | .opening devpath args => do let _ ← drv.driverOpen dev devpath args
  | .transfer dcb pcb size => do let _ ← drv.driverTransfer dev dcb pcb size
  | .extract mem size => do let _ ← drv.driverExtract dev mem size
  | .errmsg => do let _ ← drv.driverErrmsg dev
  | .closing => drv.driverClose dev
  | .parserCreate => do let _ ← drv.parserCreate dev
  | .parserClose p => drv.parserClose p
  | .parserReset p => do let _ ← drv.parserReset p
  | .parseHeader p data => do let _ ← drv.parserParseHeader p data
  | .parseProfile p data => do let _ ← drv.parserParseProfile p data

/-! ### Arguments -/

/-- An argument with a default. -/
def argUint (args : Arglist) (name : Text) (default : Nat) : Nat :=
  (arglistReadUint args name).toOption.getD default

/-- The same for a number with a sign. -/
def argInt (args : Arglist) (name : Text) (default : Int) : Int :=
  (arglistReadInt args name).toOption.getD default

end BenthosDc

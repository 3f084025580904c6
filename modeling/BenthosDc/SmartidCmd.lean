/-
BenthosDc/SmartidCmd.lean

The commands of the daemon and their dispatch (`smartid_cmd.c`).

`smartidCmdProcess` takes one line without its terminator.  The parameters of a
command are `none` for a null pointer; `fuel` bounds the number of passes of the
loop that reads a block from the device.
-/
import BenthosDc.SmartidConn

namespace BenthosDc

open CString Hoare Lifetime

variable {S : Type} (W : Irda S)

/-! ### The command table

The table has one entry for each command, with its name, its description and its function.
-/

/-- `smarti_cmd_t` -/
inductive SmartiCmd
  | cmdClose
  | cmdEnum
  | cmdHelp
  | cmdModel
  | cmdOpen
  | cmdSerial
  | cmdSize
  | cmdTcorr
  | cmdTicks
  | cmdToken
  | cmdXfer
  deriving DecidableEq

namespace SmartiCmd

/-- The word that a line is compared with. -/
def name : SmartiCmd → Text
  | cmdClose => "close".toList
  | cmdEnum => "enum".toList
  | cmdHelp => "help".toList
  | cmdModel => "model".toList
  | cmdOpen => "open".toList
  | cmdSerial => "serial".toList
  | cmdSize => "size".toList
  | cmdTcorr => "tcorr".toList
  | cmdTicks => "ticks".toList
  | cmdToken => "token".toList
  | cmdXfer => "xfer".toList

/-- The text of the help. -/
def desc : SmartiCmd → Text
  | cmdClose => "Close the current IrDA connection".toList
  | cmdEnum => "Print the list of IrDA devices found on the bus".toList
  | cmdHelp => "Print the list of commands and their descriptions".toList
  | cmdModel => "Print the model name of the open device".toList
  | cmdOpen => "Open a connection to an IrDA device".toList
  | cmdSerial => "Print the serial number of the open device".toList
  | cmdSize => "Print the size of the next transfer in bytes".toList
  | cmdTcorr => "Print the time correction value of the open device".toList
  | cmdTicks => "Print the time tick value of the open device".toList
  | cmdToken => "Set the token for the next transfer operation".toList
  | cmdXfer => "Transfer data from the device".toList

end SmartiCmd

open SmartiCmd

/-- The order of the table is the order in which the words are compared. -/
def smartiCmdTable : List SmartiCmd :=
  [cmdClose, cmdEnum, cmdHelp, cmdModel, cmdOpen, cmdSerial, cmdSize, cmdTcorr, cmdTicks, cmdToken,
    cmdXfer]

/-! ### Checks

A command starts with the checks of its parameters and of the device, each of which answers the
line when it fails.
-/

/-- The answer to parameters that cannot be read. -/
def syntaxError (cmd : SmartiCmd) : Daemon S Unit :=
  smartidConnSendResponsef smartiErrorInvalidCommand ("Syntax error in ".toList ++ cmd.name)

/-- `CHECK_NO_PARAMS` -/
def checkNoParams (cmd : SmartiCmd) (params : Option Text) (k : Daemon S Unit) : Daemon S Unit :=
  match params with
  | some _ => syntaxError cmd
  | none => k

/-- `CHECK_PARAMS` -/
def checkParams (cmd : SmartiCmd) (params : Option Text) (k : Text → Daemon S Unit) :
    Daemon S Unit :=
  match params with
  | none => syntaxError cmd
  | some params => k params

/-- `CHECK_DEVICE` -/
def checkDevice (k : Option Nat → Daemon S Unit) : Daemon S Unit := do
  match ← smartidConnDevice with
  | none => smartidConnSendResponsef smartiErrorNoDevice "No device is open".toList
  | some h => k (some h)

/-! ### Errors

The texts of the errors hold the code that the device functions return.
-/

/-- The answer to an error without a text of its own. -/
def internalError (rv : Int) : Daemon S Unit :=
  smartidConnSendResponsef smartiErrorInternal
    ("Internal Error (code ".toList ++ decimalInt rv ++ ")".toList)

/-- The error switch of MODEL, SERIAL and SIZE. -/
def deviceError (rv : Int) : Daemon S Unit :=
  if rv = smartiErrorTimeout then smartidConnSendResponse rv "Timeout on Smart Device".toList
  else if rv = smartiErrorIo then smartidConnSendResponse rv "Device I/O error".toList
  else internalError rv

/-- The device of the connection is disposed and forgotten. -/
def dropDevice : Daemon S Unit := do
  smartidDevDispose (← smartidConnDevice)
  smartidConnSetDevice none

/-! ### The commands

Each command is a program over the connection.  Those that only read a value are the same
program with other texts.
-/

/-- A command that asks the device for a number. -/
def infoCommand (cmd : SmartiCmd) (text : Text) (ask : Option Nat → Daemon S (Except Int Nat))
    (failure : Int → Daemon S Unit) (params : Option Text) : Daemon S Unit :=
  checkNoParams cmd params <| checkDevice fun dev => do
    match ← ask dev with
    | .error rv =>
      failure rv
      dropDevice
    | .ok n => smartidConnSendResponsef smartiStatusInfo (text ++ decimal n)

/-- `smartid_cmd_model` -/
def smartidCmdModel : Option Text → Daemon S Unit :=
  infoCommand cmdModel "Model Number: ".toList (smartidDevModel W) deviceError

/-- `smartid_cmd_serial` -/
def smartidCmdSerial : Option Text → Daemon S Unit :=
  infoCommand cmdSerial "Serial Number: ".toList (smartidDevSerial W) deviceError

/-- `smartid_cmd_size` -/
def smartidCmdSize : Option Text → Daemon S Unit :=
  infoCommand cmdSize "Data Size: ".toList (smartidDevXferSize W) deviceError

/-- `smartid_cmd_tcorr` -/
def smartidCmdTcorr : Option Text → Daemon S Unit :=
  infoCommand cmdTcorr "Time Correction: ".toList smartidDevTcorr internalError

/-- `smartid_cmd_ticks` -/
def smartidCmdTicks : Option Text → Daemon S Unit :=
  infoCommand cmdTicks "Ticks: ".toList smartidDevTicks internalError

/-- The device structure is disposed of. -/
def smartidCmdClose (params : Option Text) : Daemon S Unit :=
  checkNoParams cmdClose params <| checkDevice fun _ => do
    dropDevice
    smartidConnSendResponse smartiStatusSuccess "Device Closed".toList

/-- The line for a device. -/
def enumLine (d : IrdaDevice) : Text :=
  "Device: ".toList ++ decimal d.addr.toNat ++ ' ' :: cstr d.name

/-- The list of the devices is built from its end. -/
def irdaEnumCb (list : List IrdaDevice) (d : IrdaDevice) : List IrdaDevice := d :: list

/-- One line for each device; without devices one that says so. -/
def smartidCmdEnum (params : Option Text) : Daemon S Unit :=
  checkNoParams cmdEnum params do
    if !(← smartidConnIrda) then
      smartidConnSendResponse smartiErrorIrda "IrDA subsystem error".toList
    else
      match ← irdaSocketDiscover W with
      | none => smartidConnSendResponse smartiErrorIrda "IrDA subsystem error".toList
      | some [] => smartidConnSendResponse smartiStatusNoDevs "No Devices".toList
      | some (d :: ds) =>
        ((d :: ds).foldl irdaEnumCb []).forM fun d =>
          smartidConnSendResponsef smartiStatusInfo (enumLine d)

/-- The buffer for a line of the help is short. -/
def smartidCmdHelp (params : Option Text) : Daemon S Unit :=
  checkNoParams cmdHelp params <|
    smartiCmdTable.forM fun cmd =>
      smartidConnSendResponse smartiStatusInfo ((cmd.name ++ '\t' :: cmd.desc).take 249)

/-- `sscanf(params, "%u %u %lu", &addr, &lsap, &chunk_size)`; fewer than one
conversion is `none`, and what is not converted keeps its default. -/
def scanOpen (params : Text) : Option (Nat × Nat × Nat) :=
  match strtoul params with
  | none => none
  | some (addr, rest) =>
    match strtoul rest with
    | none => some (u32 addr, 1, 8)
    | some (lsap, rest) =>
      match strtoul rest with
      | none => some (u32 addr, u32 lsap, 8)
      | some (chunkSize, _) => some (u32 addr, u32 lsap, chunkSize)

/-- The error switch of OPEN. -/
def connectError (rv : Int) : Daemon S Unit :=
  if rv = smartiErrorConnect then
    smartidConnSendResponse rv "Failed to connect to Smart Device".toList
  else if rv = smartiErrorTimeout then smartidConnSendResponse rv "Timeout on Smart Device".toList
  else if rv = smartiErrorHandshake then
    smartidConnSendResponse rv "Failed to handshake with Smart Device".toList
  else if rv = smartiErrorIo then smartidConnSendResponse rv "Device I/O error".toList
  else internalError rv

/-- One device at a time. -/
def smartidCmdOpen (params : Option Text) : Daemon S Unit :=
  checkParams cmdOpen params fun params => do
    match ← smartidConnDevice with
    | some _ => smartidConnSendResponsef smartiErrorExists "Device already connected".toList
    | none =>
      match scanOpen params with
      | none =>
        smartidConnSendResponsef smartiErrorInvalidCommand
          ("Invalid device address '".toList ++ params ++ ['\''])
      | some (addr, lsap, chunkSize) =>
        match ← smartidDevAlloc (← smartidConnIrda) with
        | none => smartidConnSendResponse smartiErrorInternal "Failed to allocate storage".toList
        | some h =>
          match ← smartidDevConnect W (some h) addr lsap chunkSize with
          | .error rv =>
            connectError rv
            smartidDevDispose (some h)
          | .ok _ =>
            smartidConnSetDevice (some h)
            smartidConnSendResponse smartiStatusSuccess "Device Opened".toList

/-- `sscanf(params, "%u", &token) != 1` is `none`. -/
def scanToken (params : Text) : Option Nat := (strtoul params).map fun r => u32 r.1

/-- The token is stored for the transfers behind it. -/
def smartidCmdToken (params : Option Text) : Daemon S Unit :=
  checkParams cmdToken params fun params => checkDevice fun dev => do
    match scanToken params with
    | none =>
      smartidConnSendResponsef smartiErrorInvalidCommand
        ("Invalid token '".toList ++ params ++ ['\''])
    | some token =>
      -- an error is reported, but does not end the command
      match ← smartidDevSetToken dev token with
      | .error rv =>
        internalError rv
        smartidConnSendResponse smartiStatusSuccess "Token Set".toList
      | .ok _ => smartidConnSendResponse smartiStatusSuccess "Token Set".toList

/-- The part of XFER behind the transfer. -/
def sendTransfer : Except Int (List UInt8) → Daemon S Unit
  | .ok buffer => smartidConnSendBuffer buffer
  | .error rv =>
    -- the first two errors keep the device
    if rv = smartiStatusNoData then smartidConnSendResponse rv "No Data".toList
    else if rv = smartiErrorDevice then smartidConnSendResponse rv "Device Error".toList
    else do
      deviceError rv
      dropDevice

/-- The data follow the line with their size. -/
def smartidCmdXfer (fuel : Nat) (params : Option Text) : Daemon S Unit :=
  checkNoParams cmdXfer params <| checkDevice fun dev => do
    sendTransfer (← smartidDevXferData W fuel dev)

def SmartiCmd.func (fuel : Nat) : SmartiCmd → Option Text → Daemon S Unit
  | cmdClose => smartidCmdClose
  | cmdEnum => smartidCmdEnum W
  | cmdHelp => smartidCmdHelp
  | cmdModel => smartidCmdModel W
  | cmdOpen => smartidCmdOpen W
  | cmdSerial => smartidCmdSerial W
  | cmdSize => smartidCmdSize W
  | cmdTcorr => smartidCmdTcorr
  | cmdTicks => smartidCmdTicks
  | cmdToken => smartidCmdToken
  | cmdXfer => smartidCmdXfer W fuel

/-! ### Dispatch

A line is cut into its first word and what stands behind it.
-/

/-- A line as `evbuffer_readln` returns it. -/
abbrev CommandLine := { line : Text // ∀ c ∈ line, c ≠ '\n' ∧ c ≠ '\r' }

/-- The separators. -/
def isBlank (c : Char) : Bool := c = ' ' ∨ c = '\t'

/-- A line from its first word on. -/
def skipBlanks (line : Text) : Text := (cstr line).dropWhile isBlank

/-- The first word. -/
def commandName (line : Text) : Text := (skipBlanks line).takeWhile fun c => !isBlank c

/-- What follows the blank behind the first word. -/
def commandParams (line : Text) : Option Text :=
  if (commandName line).length = (skipBlanks line).length then none
  else some ((skipBlanks line).drop ((commandName line).length + 1))

/-- The loop over the command table. -/
def lookupCommand (name : Text) : Option SmartiCmd :=
  smartiCmdTable.find? fun cmd => strncaseEq name.length name cmd.name

/-- `smartid_cmd_process` -/
def smartidCmdProcess (fuel : Nat) (cmdLine : Text) : Daemon S Unit := do
  if (commandName cmdLine).length = 0 then smartidConnSendReady
  else
    match lookupCommand ((commandName cmdLine).map Char.toLower) with
    | some cmd => cmd.func W fuel (commandParams cmdLine)
    | none =>
      -- `cmd` still points to the entry the loop looked at last
      match smartiCmdTable.getLast? with
      | some _ => return ()
      | none =>
        smartidConnSendResponsef smartiErrorUnknownCommand "Unknown Command '(null)'".toList

end BenthosDc

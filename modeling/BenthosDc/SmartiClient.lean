/-
BenthosDc/SmartiClient.lean

The calls of the Smart-I client (`smarti_client.c`).

Each call sends a line, reads a response line into a buffer of 1024 bytes and
parses it.  A buffer that has not been written holds `junk`, and an error leaves
its code and its message behind.  An `uint32_t` that a call stores is a number
below `2 ^ 32`.
-/
import BenthosDc.Lib.Lines
import BenthosDc.SmartiSocket
import Mathlib.Data.List.DropRight

namespace BenthosDc

open CString Delivery Hoare Lines

variable {S : Type}

/-! ### Parsing

The patterns of `sscanf` and of the regular expressions are functions on texts.  A pattern that
does not match gives nothing.
-/

/-- The value of the digit; characters that are not digits have none. -/
def digitValue (c : Char) : Nat := c.toNat - 48

/-- The status code and the rest of the line; `none` is the return value 2. -/
def smarticParseResponse (line : Text) : Option (Int × Text) :=
  match cstr line with
  | a :: b :: c :: d :: message =>
    if a.isDigit ∧ b.isDigit ∧ c.isDigit ∧ isSpace d then
      some (digitValue a * 100 + digitValue b * 10 + digitValue c, message)
    else none
  | _ => none

/-- `[0-9]+`, as long as possible. -/
def number (s : Text) : Option (Text × Text) :=
  if s.takeWhile Char.isDigit = [] then none
  else some (s.takeWhile Char.isDigit, s.dropWhile Char.isDigit)

/-- `(_([A-Za-z0-9]*))?` and a blank. -/
def releasePart : Text → Option (Text × Text)
  | ' ' :: s => some ([], s)
  | '_' :: s =>
    match s.dropWhile Char.isAlphanum with
    | ' ' :: s' => some ('_' :: s.takeWhile Char.isAlphanum, s')
    | _ => none
  | _ => none

/-- `(\.([0-9])(_([A-Za-z0-9]*))?)?` and a blank. -/
def patchPart : Text → Option (Text × Text)
  | '.' :: d :: s =>
    if d.isDigit then (releasePart s).map fun r => ('.' :: d :: r.1, r.2) else none
  | ' ' :: s => some ([], s)
  | _ => none

/-- A blank, a version, a blank and the rest of the greeting. -/
def versionPart : Text → Option (Text × Text)
  | ' ' :: s =>
    match number s with
    | some (major, '.' :: s) =>
      match number s with
      | some (minor, s) => (patchPart s).map fun r => (major ++ '.' :: minor ++ r.1, r.2)
      | none => none
    | _ => none
  | _ => none

/-- `(.*) (([0-9]+)\.([0-9]+)(\.([0-9])(_([A-Za-z0-9]*))?)?) (.*)`: the name, the
version and the rest. -/
def smarticParseGreeting (line : Text) : Option (Text × Text × Text) :=
  (splitLast versionPart (cstr line)).map fun r => (r.1, r.2.1, r.2.2)

/-- A colon, a blank and the rest. -/
def infoPart : Text → Option Text
  | ':' :: ' ' :: s => some s
  | _ => none

/-- The value of `strtoul`; it is zero if there is no number. -/
def strtoulValue (s : Text) : Nat :=
  match strtoul s with
  | some (n, _) => n
  | none => 0

/-- `(.*): (.*)` -/
def smarticParseDevinfo (line : Text) : Option Text :=
  (splitLast infoPart (cstr line)).map fun r => r.2

/-- A colon, a blank, a number, a blank and the rest. -/
def enumPart (s : Text) : Option (Text × Text) :=
  match infoPart s with
  | none => none
  | some s =>
    match number s with
    | some (digits, ' ' :: name) => some (digits, name)
    | _ => none

/-- `(.*): ([0-9]+) (.*)`: the address and the name. -/
def smarticParseEnuminfo (line : Text) : Option (Nat × Text) :=
  (splitLast enumPart (cstr line)).map fun r => (strtoulValue r.2.1 % 2 ^ 32, r.2.2)

/-! ### Errors and responses

A response is read into the line of the call, which is a local variable.  What stands in it
when nothing has been read is left open.
-/

/-- `SET_ERROR` -/
def setError (code : Int) (msg : ErrorText) : Client S Unit :=
  modify fun l => { l with errcode := code, errmsg := msg }

/-- The buffer `r_line` of a call before it is written. -/
def unsetLine : Client S Text := fun l => .ok (l.junk, l)

/-- Parse what has been read.  `timeout` is the flag as it was, and `rLine` what the
buffer held; the new contents of the buffer, the code and the message, or `none` for
an error. -/
def checkResponse (timeout : Bool) (rLine : Text) (r : LineResult) :
    Client S (Option (Text × Int × Text)) :=
  if r.ret = -1 then do
    setError r.errno (.strerror r.errno)
    return none
  else if timeout || r.timeout then do
    setError etimedout (.text "Timed Out".toList)
    return none
  else
    match smarticParseResponse (r.text.getD rLine) with
    | none => do
      setError einval (.text "Invalid response string received".toList)
      return none
    | some (code, message) => return some (r.text.getD rLine, code, message)

/-- Read and parse a response line. -/
def readResponse (timeout : Bool) (rLine : Text) : Client S (Option (Text × Int × Text)) := do
  checkResponse timeout rLine (← smarticSocketReadln 1024)

section Calls

variable (W : Irda S) (fuel : Nat)

/-- What follows the write of a command: the first response line is read. -/
def firstResponse (w : WriteResult) : Client S (Except Int (Text × Int × Text)) :=
  if w.ret ≠ 0 then return .error w.ret
  else do
    match ← readResponse w.timeout (← unsetLine) with
    | none => return .error (-1)
    | some r => return .ok r

/-- The beginning of every call: send a command, and read the first response line. -/
def smarticRequest (cmd : Text) : Client S (Except Int (Text × Int × Text)) := do
  firstResponse (← smarticSocketWrite W fuel (cmd ++ ['\n']))

/-- A call that expects the code 210. -/
def statusRequest (cmd : Text) : Client S Int := do
  match ← smarticRequest W fuel cmd with
  | .error rv => return rv
  | .ok (_, code, msg) =>
    if code ≠ smartiStatusSuccess then
      setError code (.text msg)
      return -1
    else return 0

/-- A call that expects the code 230 and a number, which is stored in `width` bits. -/
def infoRequest (cmd : Text) (width : Nat) : Client S (Except Int Nat) := do
  match ← smarticRequest W fuel cmd with
  | .error rv => return .error rv
  | .ok (_, code, msg) =>
    if code ≠ smartiStatusInfo then
      setError code (.text msg)
      return .error (-1)
    else
      match smarticParseDevinfo msg with
      | none =>
        -- the last read has set `errno` to zero
        setError 0 (.strerror 0)
        return .error (-1)
      | some info => return .ok (strtoulValue info % 2 ^ width)

/-! ### The calls

Each call is a request with its own text.  What the reply must look like depends on the kind of
the request.
-/

/-- CLOSE, with a status. -/
def smartiClientClose : Client S Int := statusRequest W fuel "CLOSE".toList

/-- MODEL, with a byte. -/
def smartiClientModel : Client S (Except Int Nat) := infoRequest W fuel "MODEL".toList 8

/-- SERIAL, with a number. -/
def smartiClientSerial : Client S (Except Int Nat) := infoRequest W fuel "SERIAL".toList 32

/-- SIZE, with a number. -/
def smartiClientSize : Client S (Except Int Nat) := infoRequest W fuel "SIZE".toList 32

/-- TICKS, with a number. -/
def smartiClientTicks : Client S (Except Int Nat) := infoRequest W fuel "TICKS".toList 32

/-- The chunk size is made to lie between 2 and 32. -/
def clampChunk (chunkSize : UInt8) : UInt8 :=
  let chunkSize := if chunkSize < 2 then 2 else chunkSize
  if chunkSize > 32 then 32 else chunkSize

/-- The text of OPEN, with the chunk size in its bounds. -/
def openCommand (addr lsap : UInt32) (chunkSize : UInt8) : Text :=
  "OPEN ".toList ++ decimal addr.toNat ++ ' ' :: decimal lsap.toNat ++
    ' ' :: decimal (clampChunk chunkSize).toNat

/-- OPEN, with a status. -/
def smartiClientOpen (addr lsap : UInt32) (chunkSize : UInt8) : Client S Int :=
  statusRequest W fuel (openCommand addr lsap chunkSize)

/-- The text of TOKEN. -/
def tokenCommand (token : UInt32) : Text := "TOKEN ".toList ++ decimal token.toNat

/-- The command and its argument. -/
theorem tokenCommand_eq (token : UInt32) :
    tokenCommand token = "TOKEN".toList ++ ' ' :: decimal token.toNat := by
  have hword : "TOKEN ".toList = "TOKEN".toList ++ [' '] := rfl
  unfold tokenCommand
  rw [hword, List.append_assoc]
  rfl

/-- TOKEN, with a status. -/
def smartiClientSetToken (token : UInt32) : Client S Int :=
  statusRequest W fuel (tokenCommand token)

/-- The connection is closed and forgotten. -/
def smartiClientDisconnect : Client S Int := do
  modify fun l => { l with connected := false, serverId := [] }
  return 0

/-- What becomes of the greeting.  `gLine` is what the buffer held. -/
def checkGreeting (gLine : Text) (r : LineResult) : Client S Int :=
  if r.ret = -1 then do
    let _ ← smartiClientDisconnect
    setError r.errno (.strerror r.errno)
    return -1
  else if r.timeout then do
    setError etimedout (.text "Timed Out".toList)
    return -1
  else
    match smarticParseResponse (r.text.getD gLine) with
    | none => do
      setError einval (.text "Invalid greeting string received".toList)
      let _ ← smartiClientDisconnect
      return -1
    | some (code, msg) =>
      -- a greeting that is not `220`
      if code ≠ smartiStatusReady then do
        setError code (.text ((decimalInt code ++ ' ' :: msg).take 1023))
        let _ ← smartiClientDisconnect
        return -1
      else
        match smarticParseGreeting msg with
        | none => do
          setError einval (.text "Invalid greeting string received".toList)
          let _ ← smartiClientDisconnect
          return -1
        | some (name, version, _) => do
          modify fun l => { l with serverId := (name ++ ' ' :: version).take 1023 }
          return 0

/-- From the moment on at which the socket is connected. -/
def smartiClientConnect : Client S Int := do
  modify fun l => { l with connected := true }
  let gLine ← unsetLine
  checkGreeting gLine (← smarticSocketReadln 1024)

/-- A device as the callback of an enumeration gets it. -/
abbrev Found := Nat × Text

/-- The end of a pass of the loop.  Nothing to read is taken for the end of the reply;
otherwise the next line is read, and the loop goes on with `k`. -/
def enumNext (seen : List Found) (rLine : Text)
    (k : Text → Int → Text → Client S (Int × List Found)) :
    Option Nat → Client S (Int × List Found)
  | some 0 => return (0, seen)
  | _ => do
    match ← readResponse false rLine with
    | none => return (-1, seen)
    | some (rLine, code, msg) => k rLine code msg

/-- The loop of `smarti_client_enumerate`.  The callback may look at all devices that it
has been handed; the return value is followed by these devices. -/
def enumLoop (cb : List Found → Int) :
    Nat → List Found → Text → Int → Text → Client S (Int × List Found)
  | 0, _, _, _, _ => throw .pending
  | fuel + 1, seen, rLine, code, msg =>
    if code ≠ smartiStatusInfo then do
      setError 0 (.text msg)
      return (-1, seen)
    else
      match smarticParseEnuminfo msg with
      | none => do
        setError einval (.text "Invalid greeting string received".toList)
        return (-1, seen)
      | some d =>
        if cb (seen ++ [d]) ≠ 0 then do
          setError (cb (seen ++ [d])) (.text "Cancelled by User".toList)
          return (-1, seen ++ [d])
        else do
          enumNext (seen ++ [d]) rLine (enumLoop cb fuel (seen ++ [d])) (← smarticSocketAvailable)

/-- Every pass of the loop uses up a character or an event. -/
def enumFuel : Client S Nat := fun l => .ok (l.measure + 1, l)

/-- ENUM, with the devices that the callback has taken. -/
def smartiClientEnumerate (cb : List Found → Int) : Client S (Int × List Found) := do
  match ← smarticRequest W fuel "ENUM".toList with
  | .error rv => return (rv, [])
  | .ok (rLine, code, msg) =>
    if code = smartiStatusNoDevs then
      setError code (.text msg)
      return (-1, [])
    else enumLoop cb (← enumFuel) [] rLine code msg

/-! ### Transfers

The data come in base64 on one line, behind a line with their size.
-/

/-- `isb64` -/
def isB64 (c : Char) : Bool := c.isAlphanum ∨ c = '+' ∨ c = '/' ∨ c = '='

/-- `EIO` of errno.h. -/
def eio : Int := 5

/-- What becomes of the line of data, which should have `rLen` characters.  The data is
`none` if it cannot be decoded. -/
def checkData (rLen : Nat) (r : LineResult) : Client S (Except Int (Option (List UInt8))) :=
  if r.ret < 0 then do
    setError r.errno (.strerror r.errno)
    return .error (-1)
  else if r.timeout then do
    setError etimedout (.text "Timed Out".toList)
    return .error (-1)
  else
    match (r.text.getD []).rdropWhile fun c => !isB64 c with
    -- the loop that trims the line runs out of the buffer
    | [] => throw .overflow
    | c :: text =>
      if (c :: text).length ≠ rLen then do
        setError eio (.text "Data Length Mismatch in XFER".toList)
        return .error (-1)
      else return .ok (base64Decode (c :: text))

/-- The part of XFER behind its first response line. -/
def readTransfer : Except Int (Text × Int × Text) → Client S (Except Int (Option (List UInt8)))
  | .error rv => return .error rv
  | .ok (_, code, msg) =>
    if code ≠ smartiDataFollows then do
      setError code (.text msg)
      return .error (-1)
    else
      match smarticParseDevinfo msg with
      | none => do
        setError 0 (.strerror 0)
        return .error (-1)
      | some info => do
        let rLen := strtoulValue info % 2 ^ 32
        checkData rLen (← smarticSocketReadln (rLen * 2 % 2 ^ 32))

/-- XFER, with the data. -/
def smartiClientXfer : Client S (Except Int (Option (List UInt8))) := do
  readTransfer (← smarticRequest W fuel "XFER".toList)

end Calls

end BenthosDc

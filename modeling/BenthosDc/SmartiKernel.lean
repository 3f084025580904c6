/-
BenthosDc/SmartiKernel.lean

The calls of the Smart-I client down to the system calls (`smarti_client.c`).

What the kernel comes to is given by sequences of outcomes, one for each kind of call; the
client keeps its place in each of them.  A call that fails returns -1; the model returns
the reason why instead.

`SmartiClient` has the same calls over the daemon and a schedule of the network.  There a
failure of `select` and one of `read` leave no number behind, and a call is never made
without a connection.
-/
import BenthosDc.SmartiClient
import BenthosDc.SmartiOutcomes

namespace BenthosDc

open CString Hoare Loop

variable {α : Type}

/-! ### System calls -/

/-- `struct addrinfo`, and what `socket` and `connect` come to for it. -/
structure ServerAddr where
  /-- `inet_ntop` -/
  text : Text
  /-- The descriptor; `none` is -1. -/
  socket : Option Nat
  /-- Whether `connect` succeeds on the descriptor. -/
  connects : Bool
  deriving DecidableEq

/-- All that the kernel and the libraries come to. -/
structure NetEnv where
  reads : Nat → NetOutcome
  writes : Nat → SendOutcome
  /-- `FIONREAD`; `none` is an error. -/
  available : Nat → Option Nat
  /-- Whether `malloc` succeeds. -/
  malloc : Nat → Bool
  clock : Nat → Int
  /-- `getaddrinfo`; an error with its `gai_strerror`. -/
  resolve : Text → UInt16 → Except ({ e : Int // e ≠ 0 } × Text) (List ServerAddr)

/-- What happens to a descriptor. -/
inductive FdEvent
  | opened (fd : Int)
  | closed (fd : Int)
  deriving DecidableEq

/-- A response line that is parsed: what `smartic_socket_readln` has returned for it, and the
positions before and behind it. -/
structure ParsedLine where
  start : Nat
  stop : Nat
  result : LineResult

/-- `struct smarti_client_t_`, and the process around it. -/
structure NetClient where
  /-- `s` and `timeout` -/
  socket : NetSocket
  /-- `s_id` -/
  serverId : Option Text
  /-- `s_addr` -/
  serverAddr : Option Text
  /-- `s_port` -/
  serverPort : UInt16
  errcode : Int
  errmsg : ErrorText
  errno : Int
  /-- The places in the sequences of outcomes. -/
  reads : Nat
  writes : Nat
  polls : Nat
  mallocs : Nat
  /-- All bytes that have been written. -/
  sent : Text
  /-- What a local buffer holds before it is set. -/
  junk : Text
  /-- The codes that have been stored with `SET_ERROR`. -/
  errors : List Int
  parses : List ParsedLine
  fds : List FdEvent

/-- The client as `smarti_client_alloc` fills it. -/
def NetClient.fresh (junk : Text) : NetClient where
  socket := ⟨-1, 2000, by decide⟩
  serverId := none
  serverAddr := none
  serverPort := 0
  errcode := 0
  errmsg := .text []
  errno := 0
  reads := 0
  writes := 0
  polls := 0
  mallocs := 0
  sent := []
  junk := junk
  errors := []
  parses := []
  fds := []

/-- The calls of the client, which may end in undefined behaviour. -/
abbrev NetM := StateT NetClient (Except Halt)

/-- Why a call fails. -/
inductive Failure
  /-- The daemon has answered with a code that the call does not expect. -/
  | status (code : Int)
  | timedOut
  /-- A read or a write has failed, or could not be made on the socket. -/
  | socket (errno : Int)
  | other
  deriving DecidableEq

/-- `ENOMEM` of errno.h. -/
def enomem : Int := 12

/-- `ENOTCONN` of errno.h. -/
def enotconn : Int := 107

namespace NetM

variable (E : NetEnv) (fuel : Nat)

/-! ### Writing and reading

The socket functions start at the place that the client has reached in the outcomes, and move
it on.
-/

/-- `smartic_socket_write`, with its loops for at most `fuel` passes. -/
def socketWrite (buffer : Text) : NetM WriteResult := fun c =>
  if !c.socket.isSelectable ∨ buffer = [] then .ok (⟨-1, false, einval⟩, { c with errno := einval })
  else
    match iterate (sendRound E.writes buffer.length fuel) fuel (c.writes, 0) with
    | .stop (some (r, n, p)) =>
      .ok (r, { c with writes := p, sent := c.sent ++ buffer.take n, errno := r.errno })
    | _ => .error .pending

/-- The number that the last outcome of a line leaves in `errno`. -/
def lineErrno : NetOutcome → Int
  | .selectFailed e => e.1
  | .failed e => e.1
  | _ => 0

/-- `smartic_socket_readln` -/
def socketReadln (len : Nat) : NetM LineResult := fun c =>
  match (outcomeNet E.reads E.clock).readln c.socket fuel len c.reads with
  | some (r, p) =>
    .ok (r, { c with
      reads := p
      errno := if r.ret = -1 then r.errno else lineErrno (E.reads (p - 1)) })
  | none => .error .pending

/-- `smartic_socket_available` -/
def socketAvailable : NetM (Option Nat) := fun c =>
  .ok (E.available c.polls, { c with polls := c.polls + 1 })

/-- The position of the next outcome of a read. -/
def readPos : NetM Nat := fun c => .ok (c.reads, c)

/-- The buffer of a call before it is written. -/
def unsetLine : NetM Text := fun c => .ok (c.junk, c)

/-! ### Errors and responses

The exits of the client store a code and a message, or do not, exactly as the source has it.
-/

/-- `SET_ERROR` -/
def setError (code : Int) (msg : ErrorText) : NetM Unit :=
  modify fun c => { c with errcode := code, errmsg := msg, errors := c.errors ++ [code] }

/-- `SET_ERROR(c, errno, strerror(errno))` -/
def setErrno : NetM Unit := fun c => setError c.errno (.strerror c.errno) c

/-- Store an error and return. -/
def fail (code : Int) (msg : Text) (e : Failure) : NetM (Except Failure α) := do
  setError code (.text msg)
  return .error e

/-- A null pointer that `CHECK_CLIENT_PTR` finds. -/
def nullPointer : NetM (Except Failure α) := do
  modify fun c => { c with errno := einval }
  return .error .other

/-- `smartic_parse_response` on a line that has been read from `start` on into a buffer that
has held `rLine`. -/
def parseResponse (start : Nat) (rLine : Text) (r : LineResult) : NetM (Option (Int × Text)) :=
  fun c => .ok (smarticParseResponse (r.text.getD rLine),
    { c with parses := c.parses ++ [⟨start, c.reads, r⟩] })

/-- Parse what has been read.  `timeout` is the flag as it was. -/
def checkResponse (timeout : Bool) (start : Nat) (rLine : Text) (r : LineResult) :
    NetM (Except Failure (Text × Int × Text)) :=
  if r.ret = -1 then do
    setErrno
    return .error (.socket r.errno)
  else if timeout || r.timeout then fail etimedout "Timed Out".toList .timedOut
  else do
    match ← parseResponse start rLine r with
    | none => fail einval "Invalid response string received".toList .other
    | some (code, message) => return .ok (r.text.getD rLine, code, message)

/-- Read and parse a response line. -/
def readResponse (timeout : Bool) (rLine : Text) :
    NetM (Except Failure (Text × Int × Text)) := do
  let start ← readPos
  checkResponse timeout start rLine (← socketReadln E fuel 1024)

/-- The beginning of every call: send a command, and read the first response line. -/
def request (cmd : Text) : NetM (Except Failure (Text × Int × Text)) := do
  let w ← socketWrite E fuel (cmd ++ ['\n'])
  if w.ret ≠ 0 then return .error (.socket w.errno)
  else readResponse E fuel w.timeout (← unsetLine)

/-- A call that expects the code 210. -/
def statusRequest (cmd : Text) : NetM (Except Failure Unit) := do
  match ← request E fuel cmd with
  | .error e => return .error e
  | .ok (_, code, msg) =>
    if code ≠ smartiStatusSuccess then fail code msg (.status code)
    else return .ok ()

/-- A response line with the code `expected`, and the information in its message. -/
def infoLine (expected : Int) : Except Failure (Text × Int × Text) → NetM (Except Failure Text)
  | .error e => return .error e
  | .ok (_, code, msg) =>
    if code ≠ expected then fail code msg (.status code)
    else
      match smarticParseDevinfo msg with
      | none => do
        setErrno
        return .error .other
      | some info => return .ok info

/-- A call that expects the code 230 and a number, which is stored in `width` bits behind the
pointer `out`. -/
def infoRequest (cmd : Text) (width : Nat) (out : Bool) : NetM (Except Failure Nat) :=
  if !out then nullPointer
  else do
    match ← infoLine smartiStatusInfo (← request E fuel cmd) with
    | .error e => return .error e
    | .ok info => return .ok (strtoulValue info % 2 ^ width)

/-! ### The calls

The same calls as over the daemon, with a null pointer as a possible place for a result.
-/

/-- CLOSE. -/
def smartiClientClose : NetM (Except Failure Unit) := statusRequest E fuel "CLOSE".toList

/-- MODEL. -/
def smartiClientModel (out : Bool) : NetM (Except Failure Nat) :=
  infoRequest E fuel "MODEL".toList 8 out

/-- SERIAL. -/
def smartiClientSerial (out : Bool) : NetM (Except Failure Nat) :=
  infoRequest E fuel "SERIAL".toList 32 out

/-- SIZE. -/
def smartiClientSize (out : Bool) : NetM (Except Failure Nat) :=
  infoRequest E fuel "SIZE".toList 32 out

/-- TICKS. -/
def smartiClientTicks (out : Bool) : NetM (Except Failure Nat) :=
  infoRequest E fuel "TICKS".toList 32 out

/-- OPEN. -/
def smartiClientOpen (addr lsap : UInt32) (chunkSize : UInt8) : NetM (Except Failure Unit) :=
  statusRequest E fuel (openCommand addr lsap chunkSize)

/-- TOKEN. -/
def smartiClientSetToken (token : UInt32) : NetM (Except Failure Unit) :=
  statusRequest E fuel (tokenCommand token)

/-- A part of a call with another timeout, which is restored at every exit. -/
def withTimeout (timeout : Int) (htimeout : 0 < timeout) (m : NetM α) : NetM α := do
  let c ← get
  modify fun c => { c with socket := ⟨c.socket.s, timeout, htimeout⟩ }
  let a ← m
  modify fun c' => { c' with socket := ⟨c'.socket.s, c.socket.timeout, c.socket.timeout_pos⟩ }
  return a

/-- The end of a pass of the loop of an enumeration. -/
def enumNext (rLine : Text) (k : Text → Int → Text → NetM (Except Failure Unit)) :
    Option Nat → NetM (Except Failure Unit)
  | some 0 => return .ok ()
  | _ => do
    match ← readResponse E fuel false rLine with
    | .error e => return .error e
    | .ok (rLine, code, msg) => k rLine code msg

/-- The loop of `smarti_client_enumerate`.  The callback may look at all devices that it has
been handed. -/
def enumLoop (cb : List Found → Int) :
    Nat → List Found → Text → Int → Text → NetM (Except Failure Unit)
  | 0, _, _, _, _ => throw .pending
  | n + 1, seen, rLine, code, msg =>
    -- `rv` is the result of the parser, which is 0
    if code ≠ smartiStatusInfo then fail 0 msg (.status code)
    else
      match smarticParseEnuminfo msg with
      | none => fail einval "Invalid greeting string received".toList .other
      | some d =>
        if cb (seen ++ [d]) ≠ 0 then
          fail (cb (seen ++ [d])) "Cancelled by User".toList .other
        else do
          enumNext E fuel rLine (enumLoop cb n (seen ++ [d])) (← socketAvailable E)

/-- ENUM waits for ten seconds, whatever the timeout was. -/
def smartiClientEnumerate : Option (List Found → Int) → NetM (Except Failure Unit)
  | none => nullPointer
  | some cb => do
    match ← withTimeout 10000 (by decide) (request E fuel "ENUM".toList) with
    | .error e => return .error e
    | .ok (rLine, code, msg) =>
      if code = smartiStatusNoDevs then fail code msg (.status code)
      else enumLoop E fuel cb fuel [] rLine code msg

/-! ### Transfers

Memory is asked for, and may not be given.
-/

/-- `malloc` -/
def allocate : NetM Bool := fun c =>
  .ok (E.malloc c.mallocs, { c with mallocs := c.mallocs + 1 })

/-- The loop that trims the data: `n` is `b64_nr`.  It reads the byte in front of the end. -/
def trim (data : Text) : Nat → NetM Nat
  -- the index would be -1
  | 0 => throw .overflow
  | n + 1 =>
    if isB64 (data.getD n '\x00') then return n + 1
    else trim data n

/-- What becomes of the line of data, which should have `rLen` characters. -/
def checkData (rLen : Nat) (r : LineResult) : NetM (Except Failure (Option (List UInt8))) :=
  if r.ret < 0 then do
    setErrno
    return .error (.socket r.errno)
  else if r.timeout then fail etimedout "Timed Out".toList .timedOut
  else do
    let data := r.text.getD []
    let nr ← trim data r.ret.toNat
    if nr ≠ rLen then fail eio "Data Length Mismatch in XFER".toList .other
    else return .ok (base64Decode (data.take nr))

/-- The part of XFER behind its first response line. -/
def readTransfer (info : Text) : NetM (Except Failure (Option (List UInt8))) := do
  let rLen := strtoulValue info % 2 ^ 32
  if !(← allocate E) then fail enomem "Failed to allocate data buffer".toList .other
  else checkData rLen (← socketReadln E fuel (rLen * 2 % 2 ^ 32))

/-- `out` is whether both pointers are given. -/
def smartiClientXfer (out : Bool) : NetM (Except Failure (Option (List UInt8))) :=
  if !out then nullPointer
  else do
    let r ← withTimeout 60000 (by decide) (request E fuel "XFER".toList)
    match ← infoLine smartiDataFollows r with
    | .error e => return .error e
    | .ok info => readTransfer E fuel info

/-! ### Connecting

The addresses are tried in order.  The descriptor of an address that cannot be connected to is
not closed.
-/

/-- The descriptor is closed, and what is known of the server is forgotten. -/
def smartiClientDisconnect : NetM Unit :=
  modify fun c => { c with
    fds := if c.socket.s = -1 then c.fds else c.fds ++ [.closed c.socket.s]
    socket := ⟨-1, c.socket.timeout, c.socket.timeout_pos⟩
    serverId := none
    serverAddr := none
    serverPort := 0 }

/-- The loop over the addresses: the first one that is connected, with its descriptor. -/
def connectFirst : List ServerAddr → NetM (Option (Nat × ServerAddr))
  | [] => return none
  | a :: rest =>
    match a.socket with
    | none => connectFirst rest
    | some fd => do
      modify fun c => { c with fds := c.fds ++ [.opened fd] }
      -- the descriptor 0 is passed over, and so is one that cannot be connected
      if fd = 0 then connectFirst rest
      else if !a.connects then connectFirst rest
      else return some (fd, a)

/-- A greeting that cannot be used. -/
def refuse (code : Int) (msg : Text) (e : Failure) : NetM (Except Failure Unit) := do
  setError code (.text msg)
  smartiClientDisconnect
  return .error e

/-- What becomes of the greeting that has been read. -/
def checkGreeting (start : Nat) (gLine : Text) (r : LineResult) : NetM (Except Failure Unit) :=
  if r.ret = -1 then do
    smartiClientDisconnect
    setErrno
    return .error (.socket r.errno)
  else if r.timeout then fail etimedout "Timed Out".toList .timedOut
  else do
    match ← parseResponse start gLine r with
    | none => refuse einval "Invalid greeting string received".toList .other
    | some (code, msg) =>
      if code ≠ smartiStatusReady then
        refuse code ((decimalInt code ++ ' ' :: msg).take 1023) (.status code)
      else
        match smarticParseGreeting msg with
        | none => refuse einval "Invalid greeting string received".toList .other
        | some (name, version, _) =>
          modify fun c => { c with serverId := some ((name ++ ' ' :: version).take 1023) }
          return .ok ()

/-- The socket of a client that has just been connected. -/
def connectedSocket (fd : Nat) : NetSocket := ⟨fd, 2000, by decide⟩

/-- The part of connecting behind the loop. -/
def greet (port : UInt16) (fd : Nat) (a : ServerAddr) : NetM (Except Failure Unit) := do
  modify fun c => { c with
    socket := connectedSocket fd
    serverAddr := some a.text
    serverPort := port }
  let start ← readPos
  let gLine ← unsetLine
  checkGreeting start gLine (← socketReadln E fuel 1024)

/-- The name is resolved first, and an error of the resolver has its own text. -/
def smartiClientConnect (addr : Text) (port : UInt16) : NetM (Except Failure Unit) :=
  match E.resolve addr port with
  | .error (e, msg) => fail e.1 msg .other
  | .ok servers => do
    match ← connectFirst servers with
    | none => fail enotconn "Could not connect to server".toList .other
    | some (fd, a) => greet E fuel port fd a

/-- A call without its value. -/
def discard (m : NetM (Except Failure α)) : NetM (Except Failure Unit) := do
  match ← m with
  | .error e => return .error e
  | .ok _ => return .ok ()

end NetM

/-! ### All calls

A session is a list of calls, each with its arguments.
-/

/-- A request to the daemon; a pointer for its result is given or not. -/
inductive Request
  | close
  | enumerate (cb : Option (List Found → Int))
  | model (out : Bool)
  | openDevice (addr lsap : UInt32) (chunkSize : UInt8)
  | serial (out : Bool)
  | setToken (token : UInt32)
  | size (out : Bool)
  | ticks (out : Bool)
  | xfer (out : Bool)

/-- The call of a request. -/
def Request.invoke (E : NetEnv) (fuel : Nat) : Request → NetM (Except Failure Unit)
  | close => NetM.smartiClientClose E fuel
  | enumerate cb => NetM.smartiClientEnumerate E fuel cb
  | model out => NetM.discard (NetM.smartiClientModel E fuel out)
  | openDevice addr lsap chunkSize => NetM.smartiClientOpen E fuel addr lsap chunkSize
  | serial out => NetM.discard (NetM.smartiClientSerial E fuel out)
  | setToken token => NetM.smartiClientSetToken E fuel token
  | size out => NetM.discard (NetM.smartiClientSize E fuel out)
  | ticks out => NetM.discard (NetM.smartiClientTicks E fuel out)
  | xfer out => NetM.discard (NetM.smartiClientXfer E fuel out)

/-- A call of the client. -/
inductive NetCall
  | connect (addr : Text) (port : UInt16)
  | request (r : Request)
  | disconnect

/-- Any call of the client. -/
def NetCall.invoke (E : NetEnv) (fuel : Nat) : NetCall → NetM (Except Failure Unit)
  | connect addr port => NetM.smartiClientConnect E fuel addr port
  | request r => r.invoke E fuel
  | disconnect => do
    NetM.smartiClientDisconnect
    return .ok ()

/-- Calls one after the other, whatever they return. -/
def clientSession (E : NetEnv) (fuel : Nat) (calls : List NetCall) : NetM Unit :=
  calls.forM fun call => do
    let _ ← call.invoke E fuel

/-! ### What the smaller steps come to

One lemma for each step that only looks at the environment.
-/

namespace NetM

/-- The place in the reads. -/
theorem readPos_run (c : NetClient) : readPos.run c = .ok (c.reads, c) := rfl

theorem unsetLine_run (c : NetClient) : unsetLine.run c = .ok (c.junk, c) := rfl

/-- FIONREAD is asked once. -/
theorem socketAvailable_run (E : NetEnv) (c : NetClient) :
    (socketAvailable E).run c = .ok (E.available c.polls, { c with polls := c.polls + 1 }) := rfl

/-- Memory is asked for once. -/
theorem allocate_run (E : NetEnv) (c : NetClient) :
    (allocate E).run c = .ok (E.malloc c.mallocs, { c with mallocs := c.mallocs + 1 }) := rfl

theorem parseResponse_run (start : Nat) (rLine : Text) (r : LineResult) (c : NetClient) :
    (parseResponse start rLine r).run c = .ok (smarticParseResponse (r.text.getD rLine),
      { c with parses := c.parses ++ [⟨start, c.reads, r⟩] }) := rfl

/-! ### What the socket comes to

A read is described by `ReadsLine` and a write by `Sending`, and what follows uses no more of
the loops.
-/

section Socket

variable {E : NetEnv} {fuel len : Nat} {buffer : Text} {c c' : NetClient}

/-- What a line leaves in `errno`. -/
theorem errno_lineEnd (buf : Text) (fin : NetOutcome) :
    (if (lineEnd buf fin).ret = -1 then (lineEnd buf fin).errno else lineErrno fin) =
      lineErrno fin := by
  by_cases h : (lineEnd buf fin).ret = -1
  · obtain ⟨e, rfl⟩ := (lineEnd_ret_eq_iff buf fin).mp h
    rfl
  · rw [if_neg h]

/-- **A line that is returned** has been read, or could not be read on the socket. -/
theorem socketReadln_cases {r : LineResult} (h : (socketReadln E fuel len).run c = .ok (r, c')) :
    ((c.socket.isSelectable = false ∨ len = 0) ∧ r = ⟨-1, false, einval, none⟩ ∧
      c' = { c with errno := einval }) ∨
    (c.socket.isSelectable = true ∧ ∃ line fin q, ReadsLine E.reads c.reads line fin q ∧
      r = lineEnd (line.take (len - 1)) fin ∧
      c' = { c with reads := q, errno := lineErrno fin }) := by
  have h : socketReadln E fuel len c = .ok (r, c') := h
  rw [socketReadln] at h
  split at h
  next r p hrun =>
    cases h
    by_cases hguard : (!c.socket.isSelectable) = true ∨ len = 0
    · rw [NetKernel.readln, if_pos hguard] at hrun
      cases hrun
      exact .inl ⟨hguard.imp_left (by simp), rfl, rfl⟩
    · have hc : c.socket.isSelectable = true := by simpa using fun h => hguard (.inl h)
      obtain ⟨line, fin, hline, rfl⟩ := reading_of_readln hc (fun h => hguard (.inr h)) hrun
      refine .inr ⟨hc, line, fin, p, hline, rfl, ?_⟩
      rw [← hline.fin_eq, errno_lineEnd]
  next => cases h

/-- A line that is there is read. -/
theorem socketReadln_runs {socket : NetSocket} {p : Nat} (hc : socket.isSelectable = true)
    (hlen : len ≠ 0) {line : Text} {fin : NetOutcome} {q : Nat}
    (h : ReadsLine E.reads p line fin q) :
    ∃ n, ∀ fuel, n ≤ fuel → ∀ c : NetClient, c.socket = socket → c.reads = p →
      (socketReadln E fuel len).run c =
        .ok (lineEnd (line.take (len - 1)) fin, { c with reads := q, errno := lineErrno fin }) := by
  obtain ⟨n, hrun⟩ := @readln_of_reading E.reads E.clock socket len p q line fin hc hlen h
  refine ⟨n, fun fuel hfuel c hsocket hreads => ?_⟩
  show socketReadln E fuel len c = _
  rw [socketReadln, hsocket, hreads, hrun fuel hfuel]
  dsimp only
  rw [← h.fin_eq, errno_lineEnd]

/-- **A write that returns** has been made, or could not be made on the socket. -/
theorem socketWrite_cases {r : WriteResult}
    (h : (socketWrite E fuel buffer).run c = .ok (r, c')) :
    ((c.socket.isSelectable = false ∨ buffer = []) ∧ r = ⟨-1, false, einval⟩ ∧
      c' = { c with errno := einval }) ∨
    (c.socket.isSelectable = true ∧ ∃ q sent, Sending E.writes buffer.length c.writes r q ∧
      c' = { c with writes := q, sent := sent, errno := r.errno }) := by
  have h : socketWrite E fuel buffer c = .ok (r, c') := h
  rw [socketWrite] at h
  split at h
  next hguard =>
    cases h
    exact .inl ⟨hguard.imp_left (by simp), rfl, rfl⟩
  next hguard =>
    split at h
    next r n p hiter =>
      cases h
      have hc : c.socket.isSelectable = true := by simpa using fun h => hguard (.inl h)
      exact .inr ⟨hc, p, _, sending_of_rounds (Nat.zero_le _) hiter, rfl⟩
    next => cases h

/-- A write comes to its end. -/
theorem socketWrite_runs {socket : NetSocket} {p : Nat} (hc : socket.isSelectable = true)
    (hbuffer : buffer ≠ []) {r : WriteResult} {q : Nat} (h : Sending E.writes buffer.length p r q) :
    ∃ n, ∀ fuel, n ≤ fuel → ∀ c : NetClient, c.socket = socket → c.writes = p →
      ∃ sent, (socketWrite E fuel buffer).run c =
        .ok (r, { c with writes := q, sent := sent, errno := r.errno }) := by
  have hpos : 0 < buffer.length := List.length_pos_of_ne_nil hbuffer
  obtain ⟨n, hrun⟩ := (sendWaits_of_sending h hpos).rounds hpos
  refine ⟨n, fun fuel hfuel c hsocket hwrites => ?_⟩
  obtain ⟨m, hiter⟩ := hrun fuel fuel hfuel hfuel 0
  rw [Nat.zero_add] at hiter
  have hguard : ¬((!c.socket.isSelectable) = true ∨ buffer = []) := by simp [hsocket, hc, hbuffer]
  refine ⟨c.sent ++ buffer.take m, ?_⟩
  show socketWrite E fuel buffer c = _
  rw [socketWrite, if_neg hguard, hwrites, hiter]

end Socket

end NetM

end BenthosDc

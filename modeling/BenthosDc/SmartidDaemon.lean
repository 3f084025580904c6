/-
BenthosDc/SmartidDaemon.lean

The daemon with all its connections (`smartid_server.c`, `smartid_conn.c`).

The process holds the device structures of all connections, the list of the connections with
their resources (`SmartidRejected`), and what libevent buffers for each of them.  The event loop
calls `serv_connect`, `conn_read` and `conn_event` in whatever order the clients cause, and
between two calls the devices go on by themselves.  Each connection has an IrDA socket of its
own; the sockets share the world.

Nothing is said about the order of the events: `DaemonReaches` is about all of them.

The functions of a connection run on its part of the process, with the device structures of all
the others around it.
-/
import BenthosDc.SmartidCmd
import BenthosDc.SmartidRejected
import BenthosDc.SmartidServer

namespace BenthosDc

open CString Hoare Lifetime LinkedList ConnM ServM

variable {S α : Type}

/-! ### The process

A connection is an address in the list.  Its resources and its buffers are looked up there.
-/

/-- The part of `struct smarti_conn_t_` that the commands work on, with the buffers of its
buffer event. -/
structure ConnClient where
  dev : Option Nat
  /-- The output buffer of the connection. -/
  out : Text
  /-- The input buffer. -/
  input : Text
  /-- What has been handed over for sending. -/
  sent : Text
  deriving DecidableEq

/-- The connection as `memset` leaves it. -/
def ConnClient.blank : ConnClient := ⟨none, [], [], []⟩

/-- What the process holds. -/
structure Process (S : Type) where
  world : S
  heap : Nat → Option SmartDevice
  next : Nat
  events : List (Event Nat)
  server : ConnServer
  /-- The connection at each address. -/
  clients : Nat → ConnClient

/-- The process when the event loop begins. -/
def Process.start (w : S) : Process S where
  world := w
  heap := fun _ => none
  next := 0
  events := []
  server := ConnServer.start
  clients := fun _ => ConnClient.blank

/-- The functions of the process. -/
abbrev ProcM (S : Type) := StateT (Process S) (Except Halt)

namespace ProcM

/-- An operation on the list and the resources of the connections. -/
def onServer (x : ServM α) : ProcM S α := fun p =>
  match x.run p.server with
  | .ok (r, s) => .ok (r, { p with server := s })
  | .error e => .error e

/-- The process as the commands of the connection at `a` see it. -/
def view (a : Nat) (p : Process S) : Conn S where
  world := p.world
  irda := (p.server.records a).irda
  dev := (p.clients a).dev
  out := (p.clients a).out
  heap := p.heap
  next := p.next
  events := p.events

/-- The process behind a command of the connection at `a`. -/
def put (a : Nat) (c : Conn S) (p : Process S) : Process S where
  world := c.world
  heap := c.heap
  next := c.next
  events := c.events
  server := { p.server with
    records := Function.update p.server.records a
      { p.server.records a with dev := c.dev.isSome } }
  clients := Function.update p.clients a { p.clients a with dev := c.dev, out := c.out }

/-- A program of the connection at `a`. -/
def onConn (a : Nat) (x : Daemon S α) : ProcM S α := fun p =>
  match x.run (view a p) with
  | .ok (r, c) => .ok (r, put a c p)
  | .error e => .error e

/-- The buffers of a connection are changed. -/
def withClient (a : Nat) (f : ConnClient → ConnClient) (p : Process S) : Process S :=
  { p with clients := Function.update p.clients a (f (p.clients a)) }

/-- The same as a step of the process. -/
def setClient (a : Nat) (f : ConnClient → ConnClient) : ProcM S Unit := modify (withClient a f)

/-- The pointer to a connection is followed. -/
def follow (a : Nat) : ProcM S Unit := do
  let _ ← onServer (onTable (load (.conn a)))

end ProcM

open ProcM

/-! ### Callbacks

The callbacks that libevent makes, with the connection as their argument.
-/

/-- `smartid_conn_flush` -/
def smartidConnFlush (a : Nat) : ProcM S Unit :=
  setClient a fun c => { c with sent := c.sent ++ c.out, out := [] }

/-- `smartid_conn_dispose` -/
def smartidConnDisposeIn (a : Nat) : ProcM S Unit := do
  onServer (onTable (connUnlinkPrev (.conn a)))
  onServer (onTable (connUnlinkNext (.conn a)))
  onConn a smartidConnDispose
  onServer (connFreeResources a)
  onServer (onTable (release a))

/-- What `smartid_conn_alloc` sends over a new connection. -/
def smartidConnGreet (a : Nat) : ProcM S Unit := do
  onConn a smartidConnSendReady
  smartidConnFlush a

/-- `serv_connect`, with the greeting that `smartid_conn_alloc` sends. -/
def servConnectIn (fd : Int) (nonblocking : Bool) (a : Nat) (failure : Option ConnFailure) :
    ProcM S Unit := do
  if fd < 0 then return ()
  else if !nonblocking then onServer (emit (.close fd))
  else
    match ← onServer (smartidConnAlloc a fd failure) with
    | none => onServer (emit (.close fd))
    | some _ => do
      setClient a fun _ => ConnClient.blank
      smartidConnGreet a

/-- `conn_read`: at most one line of the input buffer is processed. -/
def connReadLine (W : Nat → Irda S) (fuel a : Nat) (p : Process S) : ProcM S Unit :=
  if (p.server.records a).shutdown then return ()
  else
    match evbufferReadln (p.clients a).input with
    | none => smartidConnFlush a
    | some (line, rest) => do
      setClient a fun c => { c with input := rest }
      onConn a (smartidCmdProcess (W a) fuel line)
      smartidConnFlush a

/-- `conn_read`, when `bytes` have arrived. -/
def connReadIn (W : Nat → Irda S) (fuel a : Nat) (bytes : Text) : ProcM S Unit := do
  follow a
  setClient a fun c => { c with input := c.input ++ bytes }
  connReadLine W fuel a (← get)

/-- The flags that `conn_event` looks at. -/
structure BevFlags where
  eof : Bool
  timeout : Bool
  error : Bool

/-- `conn_event` -/
def connEventIn (a : Nat) (err : BevFlags) : ProcM S Unit := do
  follow a
  if err.eof then
    onServer (setRecord a fun c => { c with shutdown := true })
    smartidConnDisposeIn a
  else if err.timeout then smartidConnDisposeIn a
  else if err.error then smartidConnDisposeIn a
  else return ()

/-- `smartid_conn_cleanup`, for at most `fuel` passes of its loop. -/
def smartidConnCleanup : Nat → ProcM S Unit
  | 0 => throw .pending
  | fuel + 1 => do
    match (← onServer (onTable (load .head))).next with
    | none => return ()
    | some .head => throw .dangling
    | some (.conn a) => do
      smartidConnDisposeIn a
      smartidConnCleanup fuel

/-! ### The event loop

An event is a callback with what libevent hands it.
-/

/-- What libevent tells the daemon. -/
inductive DaemonEvent (S : Type)
  | connect (fd : Int) (nonblocking : Bool) (a : Nat) (failure : Option ConnFailure)
  | read (a : Nat) (bytes : Text)
  | event (a : Nat) (err : BevFlags)
  /-- The devices go on. -/
  | idle (w : S)

/-- The callback for an event. -/
def DaemonEvent.handle (W : Nat → Irda S) (fuel : Nat) : DaemonEvent S → ProcM S Unit
  | connect fd nonblocking a failure => servConnectIn fd nonblocking a failure
  | read a bytes => connReadIn W fuel a bytes
  | event a err => connEventIn a err
  | idle w => modify fun p => { p with world := w }

/-- `malloc` gives out free memory, and a buffer event is one of a connection that is there. -/
def DaemonEvent.Possible (p : Process S) : DaemonEvent S → Prop
  | connect _ _ a _ => p.server.table.cells (.conn a) = none
  | read a _ => p.server.table.Live a
  | event a _ => p.server.table.Live a
  | idle _ => True

/-- **Every run of the event loop**: the process behind a sequence of events. -/
inductive DaemonReaches (W : Nat → Irda S) (fuel : Nat) (w : S) :
    List (DaemonEvent S) → Process S → Prop
  | start : DaemonReaches W fuel w [] (Process.start w)
  | step {es : List (DaemonEvent S)} {p p' : Process S} {ev : DaemonEvent S} :
      DaemonReaches W fuel w es p → ev.Possible p → (ev.handle W fuel).run p = .ok ((), p') →
        DaemonReaches W fuel w (es ++ [ev]) p'

/-! ### The part of a connection

A connection sees its own device and its own buffers.  Everything else of the process is the
frame of its functions.
-/

/-- What belongs to the connection at `a`, in a process of its own. -/
def Process.part (a : Nat) (p : Process S) : Conn S where
  world := p.world
  irda := (p.server.records a).irda
  dev := (p.clients a).dev
  out := (p.clients a).out
  heap h := if (p.clients a).dev = some h then p.heap h else none
  next := p.next
  events := ((p.clients a).dev.map Event.alloc).toList

/-- The structures of the other connections. -/
def Process.others (a : Nat) (p : Process S) (h : Nat) : Option SmartDevice :=
  if (p.clients a).dev = some h then none else p.heap h

/-- `conn->dev` of each connection. -/
def Process.devs (p : Process S) (a : Nat) : Option Nat := (p.clients a).dev

/-- The structures that are there belong to the connections `as`, each to one of them. -/
structure Devices (own : Nat → Option Nat) (as : List Nat) (p : Process S) : Prop where
  sound : Sound p.events
  live : ∀ h, Live p.events h ↔ ∃ a ∈ as, own a = some h
  heap : ∀ h, (p.heap h).isSome ↔ Live p.events h
  fresh : ∀ h, .alloc h ∈ p.events → h < p.next
  apart : ∀ a ∈ as, ∀ b ∈ as, ∀ h, own a = some h → own b = some h → a = b

/-- The connection at `a` has what it needs. -/
structure Ready (a : Nat) (p : Process S) : Prop where
  irda : (p.server.records a).irda = true
  shutdown : (p.server.records a).shutdown = false
  dev : (p.server.records a).dev = (p.devs a).isSome

/-- **The invariant of the process**: the list holds the connections `as`, and each device
structure is `conn->dev` of one of them. -/
structure Orderly (as : List Nat) (p : Process S) : Prop where
  list : Holds as p.server.table
  ready : ∀ a ∈ as, Ready a p
  devices : Devices p.devs as p

/-- What belongs to the connection at `a` is as before. -/
structure Spared (a : Nat) (p p' : Process S) : Prop where
  client : p'.clients a = p.clients a
  record : p'.server.records a = p.server.records a
  device : ∀ h, p.devs a = some h → p'.heap h = p.heap h

end BenthosDc

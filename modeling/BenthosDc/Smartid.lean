/-
BenthosDc/Smartid.lean

The state of the Smart-I daemon for one connection, and the programs over it.

Device structures live on a heap under handles; a handle is never given out
twice.  The trace `events` records what happens to each of them.  A program
may halt before its end: at a structure that is not there, in `free`, in a loop
that takes more passes than it was granted, or where C leaves the outcome open.
Memory is always allocated.
-/
import BenthosDc.Irda
import BenthosDc.Lib.Hoare
import BenthosDc.Lib.Lifetime

namespace BenthosDc

open CString Hoare Lifetime

variable {S α β : Type}

/-! ### Response codes (`smarti_codes.h`)

The codes stand in front of each line of the daemon.
-/

/-- 2xx is a success, 3xx is followed by data, 4xx and 5xx are errors. -/
def smartiStatusSuccess : Int := 210
def smartiStatusReady : Int := 220
def smartiStatusInfo : Int := 230
def smartiStatusNoDevs : Int := 241
def smartiStatusNoData : Int := 243
def smartiDataFollows : Int := 301
def smartiErrorNoDevice : Int := 400
def smartiErrorConnect : Int := 401
def smartiErrorHandshake : Int := 402
def smartiErrorIo : Int := 403
def smartiErrorExists : Int := 410
def smartiErrorTimeout : Int := 440
def smartiErrorUnknownCommand : Int := 500
def smartiErrorInvalidCommand : Int := 501
def smartiErrorIrda : Int := 510
def smartiErrorInternal : Int := 520
def smartiErrorDevice : Int := 540

/-! ### State

A connection has its own IrDA world, its device, if one is open, and the text that it has to
send.
-/

/-- `smart_device_t`; the socket in it is that of the connection. -/
structure SmartDevice where
  epaddr : Nat := 0
  lsap : Nat := 0
  csize : Nat := 0
  tcorr : Nat := 0
  ticks : Nat := 0
  token : Nat := 0
  deriving DecidableEq

/-- `smarti_conn_t` together with the memory and the devices of the process. -/
structure Conn (S : Type) where
  world : S
  /-- Whether the IrDA socket is there. -/
  irda : Bool
  dev : Option Nat
  /-- What has been put into the output buffer. -/
  out : Text
  heap : Nat → Option SmartDevice
  next : Nat
  events : List (Event Nat)

/-- The connection that `smartid_conn_alloc` sets up. -/
def Conn.fresh (w : S) : Conn S where
  world := w
  irda := true
  dev := none
  out := []
  heap := fun _ => none
  next := 0
  events := []

/-- Why a program comes to an early halt. -/
inductive Halt
  | dangling
  | foreignFree
  | pending
  | overflow
  deriving DecidableEq

/-- The functions of the daemon, which may halt. -/
abbrev Daemon (S : Type) := StateT (Conn S) (Except Halt)

/-! ### The socket

What the IrDA functions return is given by the world, which each call changes.
-/

/-- A call of the IrDA library. -/
def irdaCall (f : S → α × S) : Daemon S α := fun c =>
  .ok ((f c.world).1, { c with world := (f c.world).2 })

/-- `irda_socket_discover` -/
def irdaSocketDiscover (W : Irda S) : Daemon S (Option (List IrdaDevice)) := irdaCall W.discover

/-- `irda_socket_connect_lsap` -/
def irdaSocketConnectLsap (W : Irda S) (addr lsap : Nat) : Daemon S (IoResult Unit) :=
  irdaCall fun w => W.connectLsap w addr lsap

/-- `irda_socket_write` -/
def irdaSocketWrite (W : Irda S) (bytes : List UInt8) : Daemon S (IoResult Nat) :=
  irdaCall fun w => W.write w bytes

/-- `irda_socket_read` -/
def irdaSocketRead (W : Irda S) (n : Nat) : Daemon S (IoResult (List UInt8)) :=
  irdaCall fun w => W.read w n

/-- `time` -/
def timeNow (W : Irda S) : Daemon S Nat := irdaCall W.time

/-- What the `n` bytes of an unset local variable hold. -/
def junkBytes (W : Irda S) (n : Nat) : Daemon S (List UInt8) :=
  irdaCall fun w => ((List.range n).map (W.junk w), w)

/-! ### Device structures

A structure is written and read under its handle only.
-/

/-- The structure behind a handle is written. -/
def setHeap (h : Nat) (d : Option SmartDevice) : Daemon S Unit :=
  modify fun c => { c with heap := Function.update c.heap h d }

/-- What has happened to a structure. -/
def record (e : Event Nat) : Daemon S Unit :=
  modify fun c => { c with events := c.events ++ [e] }

/-- Follow a handle; there must be a structure behind it. -/
def deref (h : Nat) : Daemon S SmartDevice := fun c =>
  match c.heap h with
  | some d => .ok (d, c)
  | none => .error .dangling

/-- The handles of a connection in order: `o` is the one handle that is live,
if there is one. -/
structure Owns (c : Conn S) (o : Option Nat) : Prop where
  sound : Sound c.events
  live : ∀ h, Live c.events h ↔ o = some h
  heap : ∀ h, (c.heap h).isSome ↔ o = some h
  fresh : ∀ h, .alloc h ∈ c.events → h < c.next

/-- **The invariant of a connection**: the live handle is `conn->dev`. -/
def WellFormed (c : Conn S) : Prop := Owns c c.dev

/-- A new connection has no device. -/
theorem wellFormed_fresh (w : S) : WellFormed (Conn.fresh w) where
  sound := .nil
  live h := ⟨fun hl => (not_live_nil h hl).elim, fun h => (nomatch h)⟩
  heap _ := ⟨fun h => (nomatch h), fun h => (nomatch h)⟩
  fresh _ hmem := nomatch hmem

/-! ### What one primitive does

A function that keeps the device uses what it has and disposes of nothing; the rules put such
functions together.
-/

/-- Only the world changes. -/
theorem irdaCall_run {f : S → α × S} {c : Conn S} {r : α} {w : S} (h : f c.world = (r, w)) :
    (irdaCall f).run c = .ok (r, { c with world := w }) := by
  show irdaCall f c = _
  rw [irdaCall, h]

/-- A structure that is there is read. -/
theorem deref_run {c : Conn S} {h : Nat} {d : SmartDevice} (hd : c.heap h = some d) :
    (deref h).run c = .ok (d, c) := by
  show deref h c = _
  rw [deref, hd]

/-- Neither the handles, nor `conn->dev`, nor the output change. -/
structure Quiet (c c' : Conn S) : Prop where
  irda : c'.irda = c.irda
  dev : c'.dev = c.dev
  out : c'.out = c.out

theorem Quiet.refl (c : Conn S) : Quiet c c := ⟨rfl, rfl, rfl⟩

theorem Quiet.trans {c c' c'' : Conn S} (h : Quiet c c') (h' : Quiet c' c'') : Quiet c c'' :=
  ⟨h'.irda.trans h.irda, h'.dev.trans h.dev, h'.out.trans h.out⟩

/-- A program that keeps the handles in order, does nothing to `conn->dev` and
the output, and halts only for a reason in `E`. -/
def Keeps (o : Option Nat) (E : Halt → Prop) (m : Daemon S α) : Prop :=
  ∀ c, Owns c o → Triple m c (fun _ c' => Owns c' o ∧ Quiet c c') E

section Keeps

variable {c : Conn S} {o : Option Nat} {h : Nat} {E : Halt → Prop} {m : Daemon S α}

/-- A result keeps everything. -/
theorem Keeps.pure (a : α) : Keeps (S := S) o E (pure a) := fun c hc =>
  Triple.pure ⟨hc, Quiet.refl c⟩

theorem Keeps.bind {f : α → Daemon S β} (hm : Keeps o E m) (hf : ∀ a, Keeps o E (f a)) :
    Keeps o E (m >>= f) := by
  intro c hc
  apply (hm c hc).bind
  rintro a c₁ ⟨hc₁, hq₁⟩
  apply (hf a c₁ hc₁).imp
  rintro b c₂ ⟨hc₂, hq₂⟩
  exact ⟨hc₂, hq₁.trans hq₂⟩

/-- The socket touches the world only. -/
theorem irdaCall_keeps (f : S → α × S) : Keeps o E (irdaCall f) := fun _ hc =>
  Triple.of_run rfl ⟨⟨hc.sound, hc.live, hc.heap, hc.fresh⟩, ⟨rfl, rfl, rfl⟩⟩

/-- The device is written and stays. -/
theorem setHeap_keeps (d : SmartDevice) : Keeps (S := S) (some h) E (setHeap h (some d)) := by
  intro c hc
  refine Triple.modify ⟨⟨hc.sound, hc.live, ?_, hc.fresh⟩, ⟨rfl, rfl, rfl⟩⟩
  intro k
  show (Function.update c.heap h (some d) k).isSome ↔ _
  by_cases hk : k = h
  · subst hk
    simp
  · rw [Function.update_of_ne hk]
    exact hc.heap k

/-- A device that is owned is there. -/
theorem Owns.exists_device (hc : Owns c (some h)) : ∃ d, c.heap h = some d :=
  Option.isSome_iff_exists.mp ((hc.heap h).mpr rfl)

/-- The live handle can be followed. -/
theorem deref_keeps : Keeps (S := S) (some h) E (deref h) := by
  intro c hc
  obtain ⟨d, hd⟩ := hc.exists_device
  exact Triple.of_run (deref_run hd) ⟨hc, Quiet.refl c⟩

/-- A use is no disposal. -/
theorem record_use_keeps : Keeps (S := S) (some h) E (record (.use h)) := by
  intro c hc
  have hlive : Live c.events h := (hc.live h).mpr rfl
  refine Triple.modify ⟨⟨hc.sound.use hlive, ?_, hc.heap, ?_⟩, ⟨rfl, rfl, rfl⟩⟩
  · intro k
    exact (live_use k).trans (hc.live k)
  · intro k hmem
    rw [List.mem_append, List.mem_singleton] at hmem
    rcases hmem with hmem | hmem
    · exact hc.fresh k hmem
    · cases hmem

end Keeps

end BenthosDc

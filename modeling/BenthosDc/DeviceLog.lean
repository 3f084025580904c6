/-
BenthosDc/DeviceLog.lean

The commands that a device hears, and the tokens in them.

A host is listened to by writing down the commands that are put to the device.  A driver may
never come to an end, and then leaves no world to look at; so the device can be made to fall
silent as soon as it has heard a number of commands.  Up to that command nothing has changed,
and behind it every operation fails.

* `smartDriverOpen_hears`, `smartDriverTransfer_hears`: the local driver puts a token into the
  commands of a transfer only, the one that it has begun with.

Falling silent is how a statement about all commands of a run is made without a run that ends:
for each limit the driver over the listening host comes to a halt or not, and the log has the
commands up to the limit either way.  `TellsOnly P` says of a part of the driver that every
command it puts to the device satisfies `P`.
-/
import BenthosDc.DriverPick

namespace BenthosDc

open CString Hoare Lifetime Smart

variable {S α : Type}

/-! ### Listening -/

/-- The world behind a socket, and the commands that have been put to the device. -/
structure Logged (S : Type) where
  world : S
  heard : List (List UInt8)

namespace Logged

/-- Whether the device has heard as many commands as it listens to. -/
def silent (limit : Option Nat) (w : Logged S) : Bool :=
  match limit with
  | none => false
  | some n => n ≤ w.heard.length

/-- What goes on in the world goes on as before. -/
def pass (f : S → α × S) (w : Logged S) : α × Logged S :=
  ((f w.world).1, { w with world := (f w.world).2 })

/-- An operation on the device, which fails if the device is silent. -/
def ask (limit : Option Nat) (failed : α) (f : S → α × S) (w : Logged S) : α × Logged S :=
  if w.silent limit then (failed, w) else w.pass f

/-- The write of a command. -/
def tell (limit : Option Nat) (failed : α) (f : S → α × S) (cmd : List UInt8) (w : Logged S) :
    α × Logged S :=
  if w.silent limit then (failed, w)
  else ((f w.world).1, ⟨(f w.world).2, w.heard ++ [cmd]⟩)

end Logged

/-- The socket `W`, listened to. -/
def Irda.listening (W : Irda S) (limit : Option Nat) : Irda (Logged S) where
  discover := Logged.ask limit none W.discover
  connectLsap w addr lsap := w.ask limit .failed fun w => W.connectLsap w addr lsap
  write w cmd := w.tell limit .failed (fun w => W.write w cmd) cmd
  read w n := w.ask limit .failed fun w => W.read w n
  time := Logged.pass W.time
  junk w := W.junk w.world
  foreignFree := W.foreignFree

/-- The socket and the error codes are passed on; only commands are written down. -/
def SmartHost.listening (H : SmartHost S) (limit : Option Nat) : SmartHost (Logged S) where
  toIrda := H.toIrda.listening limit
  socketOpen := Logged.pass H.socketOpen
  setTimeout w timeout := w.pass fun w => H.setTimeout w timeout
  errcode w := H.errcode w.world

/-! ### Tokens -/

/-- The token of a size command and of a transfer command; no other command has one. -/
def commandToken : List UInt8 → Option Nat
  | [] => none
  | code :: bytes => if code = 0xc6 ∨ code = 0xc4 then some (uint32Le bytes 0) else none

/-- What stands behind the first four bytes does not matter. -/
theorem uint32Le_append (a b c d : UInt8) (bytes : List UInt8) :
    uint32Le ([a, b, c, d] ++ bytes) 0 = uint32Le [a, b, c, d] 0 := rfl

/-- The token is read off the command that carries it. -/
theorem commandToken_tokenCmd {code : UInt8} (hcode : code = 0xc6 ∨ code = 0xc4) {token : Nat}
    (htoken : token < 2 ^ 32) : commandToken (tokenCmd code token) = some token := by
  rw [tokenCmd, List.cons_append, commandToken, if_pos hcode]
  apply congrArg some
  rw [uint32Bytes, uint32Le_append]
  exact uint32Le_uint32Bytes htoken

/-- A command has no token other than this one. -/
def Carries (token : Nat) (cmd : List UInt8) : Prop := ∀ n, commandToken cmd = some n → n = token

/-- A command without a token carries none but the right one. -/
theorem carries_of_none {token : Nat} {cmd : List UInt8} (h : commandToken cmd = none) :
    Carries token cmd := by
  intro n hn
  rw [h] at hn
  cases hn

/-- A command with the token. -/
theorem carries_tokenCmd {code : UInt8} (hcode : code = 0xc6 ∨ code = 0xc4) {token : Nat}
    (htoken : token < 2 ^ 32) : Carries token (tokenCmd code token) := by
  intro n hn
  rw [commandToken_tokenCmd hcode htoken] at hn
  exact (Option.some.inj hn).symm

/-- The device has heard commands in `P` only. -/
def Hears (P : List UInt8 → Prop) (w : Logged S) : Prop := ∀ cmd ∈ w.heard, P cmd

section Hears

variable {P : List UInt8 → Prop} {limit : Option Nat} {w : Logged S}

/-- A weaker statement of the commands. -/
theorem Hears.imp {P' : List UInt8 → Prop} (hw : Hears P w) (hP : ∀ cmd, P cmd → P' cmd) :
    Hears P' w := fun cmd hcmd => hP cmd (hw cmd hcmd)

/-- An operation that puts no command. -/
theorem Hears.ask (hw : Hears P w) (failed : α) (f : S → α × S) :
    Hears P (w.ask limit failed f).2 := by
  rw [Logged.ask]
  split
  · exact hw
  · exact hw

/-- A command that may be put. -/
theorem Hears.tell (hw : Hears P w) (failed : α) (f : S → α × S) {cmd : List UInt8} (hcmd : P cmd) :
    Hears P (w.tell limit failed f cmd).2 := by
  rw [Logged.tell]
  split
  · exact hw
  · intro c hc
    rcases List.mem_append.mp hc with hc | hc
    · exact hw c hc
    · rw [List.mem_singleton.mp hc]
      exact hcmd

end Hears

/-! ### The local driver

Part by part, which commands are put to the device; the token appears in the last two of them
only.
-/

/-- A program of the local driver that puts commands in `P` to the device only. -/
abbrev TellsOnly (P : List UInt8 → Prop) (m : Smart (Logged S) α) : Prop :=
  Maintains (fun d => Hears P d.state.world) (fun _ => True) anyHalt m

section Local

variable {H : SmartHost S} {limit : Option Nat} {P : List UInt8 → Prop} {fuel : Nat}

/-- A call of the host that tells only what it may. -/
theorem call_tells {f : Logged S → α × Logged S} (hf : ∀ w, Hears P w → Hears P (f w).2) :
    TellsOnly P (Smart.call f) := fun _ hd =>
  Triple.of_run rfl ⟨trivial, hf _ hd⟩

/-- Looking at the structure. -/
theorem getDev_tells : TellsOnly P (Smart.getDev (S := Logged S)) := fun _ hd =>
  Triple.of_run rfl ⟨trivial, hd⟩

theorem setDev_tells (f : SmartDev → SmartDev) : TellsOnly P (Smart.setDev (S := Logged S) f) :=
  fun _ hd => Triple.of_run rfl ⟨trivial, hd⟩

/-- A program that leaves the world as it is. -/
theorem tells_of_world {m : Smart (Logged S) α}
    (hm : Within (fun d d' => d'.state.world = d.state.world) (fun _ => True) anyHalt m) :
    TellsOnly P m := by
  intro d hd
  apply (hm d).imp
  rintro a d' ⟨-, hworld⟩
  refine ⟨trivial, ?_⟩
  show Hears P d'.state.world
  rw [hworld]
  exact hd

theorem useHandle_tells (h : Nat) : TellsOnly P (useHandle (σ := SmartProc (Logged S)) h) :=
  tells_of_world (useHandle_within (fun _ _ => rfl) h)

/-- An operation on the socket. -/
theorem onSocket_tells (null : α) {f : Logged S → α × Logged S}
    (hf : ∀ w, Hears P w → Hears P (f w).2) : TellsOnly P (onSocket null f) := by
  refine getDev_tells.bind fun dev _ => ?_
  cases dev.s with
  | none => exact Maintains.pure trivial
  | some h => exact (useHandle_tells h).bind fun _ _ => call_tells hf

theorem irdaSocketClose_tells : TellsOnly P (Smart.irdaSocketClose (S := Logged S)) := by
  refine getDev_tells.bind fun dev _ => ?_
  cases dev.s with
  | none => exact Maintains.pure trivial
  | some h => exact tells_of_world (disposeHandle_within (fun _ _ => rfl) h)

/-- An error is set, and a value returned. -/
theorem failWith_tells (code : Int) (msg : Text) (a : α) :
    TellsOnly P (do Smart.setDevError (S := Logged S) code msg; return a) :=
  (setDev_tells _).bind fun _ _ => Maintains.pure trivial

/-- **A command is heard.** -/
theorem driverCmd_tells {cmd : List UInt8} (hcmd : P cmd) (ans : List UInt8) :
    TellsOnly P (driverCmd (H.listening limit) cmd ans) := by
  refine getDev_tells.bind fun dev _ => ?_
  refine Maintains.ite (fun _ => Maintains.pure trivial) fun _ => ?_
  apply (onSocket_tells _ fun w hw => hw.tell _ _ hcmd).bind
  rintro (_ | _ | _) -
  · exact failWith_tells _ _ _
  · exact failWith_tells _ _ _
  apply (onSocket_tells _ fun w hw => hw.ask _ _).bind
  rintro (_ | _ | _) -
  · exact failWith_tells _ _ _
  · exact failWith_tells _ _ _
  · exact Maintains.pure trivial

theorem smartJunk_tells (n : Nat) : TellsOnly P (Smart.junk (H.listening limit) n) :=
  call_tells fun _ hw => hw

theorem setIrdaError_tells : TellsOnly P (setIrdaError (H.listening limit)) := fun _ hd =>
  Triple.of_run rfl ⟨trivial, hd⟩

theorem smartDriverGiveUp_tells (rc : Int) :
    TellsOnly P (smartDriverGiveUp (S := Logged S) rc) :=
  irdaSocketClose_tells.bind fun _ _ => (setDev_tells _).bind fun _ _ => Maintains.pure trivial

section Opening

variable (hP : ∀ cmd, commandToken cmd = none → P cmd)

include hP

theorem driverHandshake_tells : TellsOnly P (driverHandshake (H.listening limit)) := by
  refine (smartJunk_tells 1).bind fun ans _ => (driverCmd_tells (hP _ rfl) ans).bind ?_
  rintro (_ | ans) -
  · exact Maintains.pure trivial
  refine Maintains.ite (fun _ => failWith_tells _ _ _) fun _ => ?_
  apply (driverCmd_tells (hP _ rfl) ans).bind
  rintro (_ | ans) -
  · exact Maintains.pure trivial
  · exact Maintains.ite (fun _ => failWith_tells _ _ _) fun _ => Maintains.pure trivial

omit hP in
theorem smartDriverRead_tells {cmd : List UInt8} (hcmd : P cmd) (ans : List UInt8)
    {k : List UInt8 → Smart (Logged S) Int} (hk : ∀ ans, TellsOnly P (k ans)) :
    TellsOnly P (smartDriverRead (H.listening limit) cmd ans k) := by
  apply (driverCmd_tells hcmd ans).bind
  rintro (rc | ans) -
  · exact smartDriverGiveUp_tells rc
  · exact hk ans

theorem smartDriverInfo_tells : TellsOnly P (smartDriverInfo (H.listening limit)) := by
  refine getDev_tells.bind fun dev _ => smartDriverRead_tells (hP _ rfl) _ fun ans => ?_
  refine (setDev_tells _).bind fun _ _ => getDev_tells.bind fun dev _ => ?_
  refine smartDriverRead_tells (hP _ rfl) _ fun ans => ?_
  refine (setDev_tells _).bind fun _ _ => getDev_tells.bind fun dev _ => ?_
  refine smartDriverRead_tells (hP _ rfl) _ fun ans => (setDev_tells _).bind fun _ _ => ?_
  refine (call_tells fun w hw => hw).bind fun now _ => (setDev_tells _).bind fun _ _ => ?_
  exact Maintains.pure trivial

theorem smartDriverConnect_tells : TellsOnly P (smartDriverConnect (H.listening limit)) := by
  refine getDev_tells.bind fun dev _ => (onSocket_tells _ fun w hw => hw.ask _ _).bind ?_
  rintro (_ | _ | _) -
  · exact setIrdaError_tells.bind fun _ _ => smartDriverGiveUp_tells _
  · exact (setDev_tells _).bind fun _ _ => smartDriverGiveUp_tells _
  refine (driverHandshake_tells hP).bind fun rc _ => ?_
  exact Maintains.ite (fun _ => smartDriverGiveUp_tells _) fun _ => smartDriverInfo_tells hP

theorem smartDriverDiscover_tells : TellsOnly P (smartDriverDiscover (H.listening limit)) := by
  apply (onSocket_tells _ fun w hw => hw.ask _ _).bind
  rintro (_ | ds) -
  · exact setIrdaError_tells.bind fun _ _ => smartDriverGiveUp_tells _
  refine (setDev_tells _).bind fun _ _ => Maintains.ite (fun _ => ?_) fun _ => ?_
  · exact (setDev_tells _).bind fun _ _ => smartDriverGiveUp_tells _
  · exact smartDriverConnect_tells hP

theorem smartDriverSocket_tells (timeout : Int) :
    TellsOnly P (smartDriverSocket (H.listening limit) timeout) := by
  have halloc : TellsOnly P (allocHandle (σ := SmartProc (Logged S))) := fun _ hd =>
    Triple.of_run rfl ⟨trivial, hd⟩
  refine (call_tells fun w hw => hw).bind fun opened _ => Maintains.ite (fun _ => ?_) fun _ => ?_
  · refine halloc.bind fun s _ => (setDev_tells _).bind fun _ _ => ?_
    refine (onSocket_tells _ fun w hw => hw).bind fun set _ => ?_
    refine Maintains.ite (fun _ => ?_) fun _ => ?_
    · exact smartDriverDiscover_tells hP
    · exact setIrdaError_tells.bind fun _ _ => smartDriverGiveUp_tells _
  · exact setIrdaError_tells.bind fun _ _ => Maintains.pure trivial

/-- **Opening a device** puts no token to it. -/
theorem smartDriverOpen_hears (dev : Nat) (devpath args : Text) :
    TellsOnly P (smartDriverOpen (H.listening limit) dev devpath args) := by
  refine (useHandle_tells dev).bind fun _ _ => ?_
  cases arglistParse args with
  | error e =>
    cases e with
    | overrun => exact Maintains.throw trivial
    | einval => exact failWith_tells _ _ _
  | ok args => exact (setDev_tells _).bind fun _ _ => smartDriverSocket_tells hP _

end Opening

/-- Reading the data tells the device nothing. -/
theorem smartDriverReadData_tells (pcb : Option TransferCallback) (size : Nat) (buf : List UInt8)
    (len : Nat) :
    TellsOnly P (smartDriverReadData (H.listening limit) pcb size fuel buf len) := by
  induction fuel generalizing buf len with
  | zero => exact Maintains.throw trivial
  | succ fuel ih =>
    refine Maintains.ite (fun _ => Maintains.pure trivial) fun _ => ?_
    refine getDev_tells.bind fun dev _ => (onSocket_tells _ fun w hw => hw.ask _ _).bind ?_
    rintro (_ | _ | bytes) -
    · exact failWith_tells _ _ _
    · exact failWith_tells _ _ _
    · exact Maintains.ite (fun _ => failWith_tells _ _ _) fun _ => ih _ _

/-- The command for the data, and the reads behind it. -/
theorem smartDriverReadBlock_tells {token : Nat} (htoken : P (tokenCmd 0xc4 token)) (size : Nat)
    (pcb : Option TransferCallback) :
    TellsOnly P (smartDriverReadBlock (H.listening limit) fuel token size pcb) := by
  refine (smartJunk_tells 4).bind fun ans _ => (driverCmd_tells htoken ans).bind ?_
  rintro (_ | nb) -
  · exact Maintains.pure trivial
  dsimp only
  split
  · exact failWith_tells _ _ _
  refine Maintains.ite (fun _ => failWith_tells _ _ _) fun _ => ?_
  apply (smartDriverReadData_tells pcb size [] size).bind
  rintro (_ | data) -
  · exact Maintains.pure trivial
  · exact Maintains.pure trivial

/-- **A transfer puts the token of the callback to the device**, and no other. -/
theorem smartDriverTransfer_hears {d : Desk (SmartProc (Logged S))} {dcb : Option DeviceCallback}
    {base : SmartBase} (hbase : d.state.dev.base = base) (hd : Hears P d.state.world)
    (htoken : ∀ token, (transferToken dcb base).2 = .ok token →
      P (tokenCmd 0xc6 token) ∧ P (tokenCmd 0xc4 token)) (dev size : Nat)
    (pcb : Option TransferCallback) :
    Triple (smartDriverTransfer (H.listening limit) fuel dev size dcb pcb) d
      (fun _ d' => Hears P d'.state.world) anyHalt := by
  have huse : Triple (useHandle dev) d (fun _ d' => d'.state = d.state) anyHalt :=
    (useHandle_within (R := fun d d' => d'.state = d.state) (fun _ _ => rfl) dev d).imp
      fun _ _ h => h.2
  refine huse.bind fun _ d₁ hd₁ => ?_
  have hget : Triple (Smart.getDev (S := Logged S)) d₁
      (fun a d' => a.base = base ∧ Hears P d'.state.world) anyHalt := by
    apply Triple.of_run rfl
    rw [hd₁]
    exact ⟨hbase, hd⟩
  apply hget.bind
  rintro a d₂ ⟨ha, hd₂⟩
  dsimp only
  rw [ha]
  -- the token of the callback is the one that every command from here on carries
  have hrest : ∀ m : Smart (Logged S) (Except Int (Nat × List UInt8)), TellsOnly P m →
      Triple m d₂ (fun _ d' => Hears P d'.state.world) anyHalt :=
    fun m hm => (hm d₂ hd₂).imp fun _ _ h => h.2
  refine hrest _ ((setDev_tells _).bind fun _ _ => ?_)
  cases htoken' : (transferToken dcb base).2 with
  | error rc => exact Maintains.pure trivial
  | ok token =>
    obtain ⟨hsize, hblock⟩ := htoken token htoken'
    apply (driverCmd_tells hsize _).bind
    rintro (_ | ans) -
    · exact Maintains.pure trivial
    dsimp only
    split
    · exact Maintains.pure trivial
    · exact smartDriverReadBlock_tells hblock _ pcb

end Local

end BenthosDc

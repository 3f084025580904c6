/-
BenthosDc/SmartiKeeps.lean

What the calls of the network driver keep true of the daemon.

The only steps of the client that reach the daemon are its writes.  So whatever is said of the
daemon, or given up when there is trouble (`Link.Daemonic`), is kept by a call as soon as the
writes of its lines keep it.

* `smartiDriverOpen_keeps`: what the lines of opening a device keep, opening it keeps.
-/
import BenthosDc.DriverPick
import BenthosDc.SmartiExchange

namespace BenthosDc

open CString Hoare Lifetime

variable {S α : Type}

/-! ### Statements about the daemon

A statement may look at the daemon's connection and at what is pending for it.  It is given up
for good when there is trouble, since a line may then have been cut.
-/

/-- A statement about a link that depends on the daemon alone, and may be given up when there
is trouble. -/
def Daemonic (J : Link S → Prop) : Prop :=
  ∀ l l' : Link S, l'.server = l.server → (l.trouble = true → l'.trouble = true) → J l → J l'

/-- A program of the client that keeps a statement true. -/
abbrev LinkKeeps (J : Link S → Prop) (m : Client S α) : Prop :=
  Maintains J (fun _ => True) anyHalt m

/-- The write of a line keeps a statement true. -/
abbrev WriteKeeps (W : Irda S) (fuel : Nat) (J : Link S → Prop) (line : Text) : Prop :=
  LinkKeeps J (smarticSocketWrite W fuel (line ++ ['\n']))

/-! ### The client

Reads, polls and errors stay on the client's side.  A request keeps the statement as soon as
the write of its line does.
-/

section Client

variable {W : Irda S} {fuel : Nat} {J : Link S → Prop} (hJ : Daemonic J)

include hJ

/-- A step that touches the client's own fields only. -/
theorem Daemonic.idle {m : Client S α} (hm : Idle m) : LinkKeeps J m := by
  intro l hl
  obtain ⟨a, code, msg, hrun⟩ := hm l
  exact Triple.of_run hrun ⟨trivial, hJ l _ rfl id hl⟩

/-- A change that leaves the daemon alone. -/
theorem Daemonic.update {f : Link S → Link S} (hserver : ∀ l, (f l).server = l.server)
    (htrouble : ∀ l, (f l).trouble = l.trouble) : LinkKeeps J (modify f) :=
  Maintains.modify trivial fun l hl => by
    refine hJ l _ (hserver l) (fun h => ?_) hl
    rw [htrouble, h]

theorem Daemonic.readln (len : Nat) : LinkKeeps J (smarticSocketReadln len) := by
  intro l hl
  refine (smarticSocketReadln_keeps (I := J) (fun l hl => ?_) len hl).imp fun _ _ h => ⟨trivial, h⟩
  rcases readChar_cases l with ⟨c, ch, events, hread, -, -⟩ | ⟨-, htrouble⟩
  · rw [hread]
    exact hJ l _ rfl id hl
  · refine hJ l _ ?_ (fun _ => htrouble) hl
    rcases hawait : awaitChar l.schedule l.channel with ⟨r, ch, events⟩
    rw [readChar, hawait]
    cases r <;> rfl

/-- The socket is polled. -/
theorem Daemonic.available : LinkKeeps J (smarticSocketAvailable (S := S)) := by
  intro l hl
  cases hconn : l.connected with
  | false => exact Triple.of_run (if_pos (by rw [hconn]; rfl)) ⟨trivial, hl⟩
  | true =>
    have hrun : smarticSocketAvailable.run l = _ := if_neg (by rw [hconn]; decide)
    -- a failing look is trouble
    rcases hlook : look l.schedule l.channel with ⟨_ | ch, events⟩
    · rw [hlook] at hrun
      exact Triple.of_run hrun ⟨trivial, hJ l _ rfl (fun _ => rfl) hl⟩
    · rw [hlook] at hrun
      exact Triple.of_run hrun ⟨trivial, hJ l _ rfl id hl⟩

theorem Daemonic.response (timeout : Bool) (rLine : Text) :
    LinkKeeps J (readResponse timeout rLine) :=
  (hJ.readln 1024).bind fun r _ => hJ.idle (checkResponse_idle timeout rLine r)

omit hJ in
theorem unsetLine_keeps : LinkKeeps J (unsetLine (S := S)) := fun _ hl =>
  Triple.of_run rfl ⟨trivial, hl⟩

theorem Daemonic.firstResponse (w : WriteResult) : LinkKeeps J (firstResponse (S := S) w) := by
  rw [BenthosDc.firstResponse]
  split
  · exact Maintains.pure trivial
  refine unsetLine_keeps.bind fun rLine _ => (hJ.response w.timeout rLine).bind ?_
  rintro (_ | r) -
  · exact Maintains.pure trivial
  · exact Maintains.pure trivial

/-- A request with its line. -/
theorem Daemonic.request {cmd : Text} (hcmd : WriteKeeps W fuel J cmd) :
    LinkKeeps J (smarticRequest W fuel cmd) :=
  Maintains.bind hcmd fun w _ => hJ.firstResponse w

/-- A request that looks at the code. -/
theorem Daemonic.status {cmd : Text} (hcmd : WriteKeeps W fuel J cmd) :
    LinkKeeps J (statusRequest W fuel cmd) := by
  apply (hJ.request hcmd).bind
  rintro (rv | ⟨rLine, code, msg⟩) -
  · exact Maintains.pure trivial
  dsimp only
  split
  · exact hJ.idle (Idle.setError _ _ _)
  · exact Maintains.pure trivial

/-- A request that reads a number. -/
theorem Daemonic.info {cmd : Text} (hcmd : WriteKeeps W fuel J cmd) (width : Nat) :
    LinkKeeps J (infoRequest W fuel cmd width) := by
  apply (hJ.request hcmd).bind
  rintro (rv | ⟨rLine, code, msg⟩) -
  · exact Maintains.pure trivial
  dsimp only
  split
  · exact hJ.idle (Idle.setError _ _ _)
  split
  · exact hJ.idle (Idle.setError _ _ _)
  · exact Maintains.pure trivial

/-- The loop of an enumeration only reads. -/
theorem Daemonic.enumLoop (cb : List Found → Int) (n : Nat) (seen : List Found) (rLine : Text)
    (code : Int) (msg : Text) : LinkKeeps J (enumLoop cb n seen rLine code msg) := by
  induction n generalizing seen rLine code msg with
  | zero => exact Maintains.throw trivial
  | succ n ih =>
    rw [BenthosDc.enumLoop]
    split
    · exact hJ.idle (Idle.setError _ _ _)
    split
    · exact hJ.idle (Idle.setError _ _ _)
    next d _ =>
      split
      · exact hJ.idle (Idle.setError _ _ _)
      refine hJ.available.bind fun r _ => ?_
      unfold enumNext
      split
      · exact Maintains.pure trivial
      apply (hJ.response false rLine).bind
      rintro (_ | ⟨rLine, code, msg⟩) -
      · exact Maintains.pure trivial
      · exact ih _ rLine code msg

/-- ENUM with its line. -/
theorem Daemonic.enumerate (hcmd : WriteKeeps W fuel J "ENUM".toList) (cb : List Found → Int) :
    LinkKeeps J (smartiClientEnumerate W fuel cb) := by
  apply (hJ.request hcmd).bind
  rintro (rv | ⟨rLine, code, msg⟩) -
  · exact Maintains.pure trivial
  dsimp only
  split
  · exact hJ.idle (Idle.setError _ _ _)
  · have hfuel : LinkKeeps J (enumFuel (S := S)) := fun l hl => Triple.of_run rfl ⟨trivial, hl⟩
    exact hfuel.bind fun n _ => hJ.enumLoop cb n [] rLine code msg

/-- XFER with its line. -/
theorem Daemonic.xfer (hcmd : WriteKeeps W fuel J "XFER".toList) :
    LinkKeeps J (smartiClientXfer W fuel) := by
  apply (hJ.request hcmd).bind
  rintro (rv | ⟨rLine, code, msg⟩) -
  · exact Maintains.pure trivial
  rw [readTransfer]
  split
  · exact hJ.idle (Idle.setError _ _ _)
  split
  · exact hJ.idle (Idle.setError _ _ _)
  refine (hJ.readln _).bind fun r _ => ?_
  rw [checkData]
  split
  · exact hJ.idle (Idle.setError _ _ _)
  split
  · exact hJ.idle (Idle.setError _ _ _)
  split
  · exact Maintains.throw trivial
  split
  · exact hJ.idle (Idle.setError _ _ _)
  · exact Maintains.pure trivial

theorem Daemonic.greeting (gLine : Text) (r : LineResult) :
    LinkKeeps J (checkGreeting gLine r) := by
  intro l hl
  have hkept : ∀ l' : Link S, l'.server = l.server → l'.trouble = l.trouble → True ∧ J l' := by
    intro l' hserver htrouble
    refine ⟨trivial, hJ l l' hserver (fun h => ?_) hl⟩
    rw [htrouble, h]
  rw [checkGreeting]
  split
  · exact hkept _ rfl rfl
  split
  · exact hkept _ rfl rfl
  split
  · exact hkept _ rfl rfl
  split
  · exact hkept _ rfl rfl
  split
  · exact hkept _ rfl rfl
  · exact hkept _ rfl rfl

/-- A connect sends nothing. -/
theorem Daemonic.connect : LinkKeeps J (smartiClientConnect (S := S)) := by
  have hopen : LinkKeeps J (modify fun l : Link S => { l with connected := true }) :=
    hJ.update (fun _ => rfl) fun _ => rfl
  refine hopen.bind fun _ _ => unsetLine_keeps.bind fun gLine _ => ?_
  exact (hJ.readln 1024).bind fun r _ => hJ.greeting gLine r

end Client

/-! ### The network driver

The driver is a program over the client.  Its own structure and its handles have nothing to do
with the daemon.
-/

/-- A program of the network driver that keeps a statement about its link true. -/
abbrev DriverKeeps (J : Link S → Prop) (m : Smarti S α) : Prop :=
  Maintains (fun d => J d.state.link) (fun _ => True) anyHalt m

section Network

variable {G : SmartiHost S} {J : Link S → Prop}

/-- A program that leaves the link as it is. -/
theorem driverKeeps_of_link {m : Smarti S α}
    (hm : Within (fun d d' => d'.state.link = d.state.link) (fun _ => True) anyHalt m) :
    DriverKeeps J m := by
  intro d hd
  apply (hm d).imp
  rintro a d' ⟨-, hlink⟩
  refine ⟨trivial, ?_⟩
  show J d'.state.link
  rw [hlink]
  exact hd

theorem getDev_keeps : DriverKeeps J (Smarti.getDev (S := S)) := fun _ hd =>
  Triple.of_run rfl ⟨trivial, hd⟩

theorem setDev_keeps (f : SmartiDev → SmartiDev) : DriverKeeps J (Smarti.setDev (S := S) f) :=
  fun _ hd => Triple.of_run rfl ⟨trivial, hd⟩

theorem getState_keeps : DriverKeeps J (getState (σ := SmartiProc S)) := fun _ hd =>
  Triple.of_run rfl ⟨trivial, hd⟩

theorem setSocket_keeps (s : Option Nat) : DriverKeeps J (Smarti.setSocket (S := S) s) :=
  fun _ hd => Triple.of_run rfl ⟨trivial, hd⟩

theorem allocHandle_keeps : DriverKeeps J (allocHandle (σ := SmartiProc S)) := fun _ hd =>
  Triple.of_run rfl ⟨trivial, hd⟩

theorem useHandle_keeps (h : Nat) : DriverKeeps J (useHandle (σ := SmartiProc S) h) :=
  driverKeeps_of_link (useHandle_within (fun _ _ => rfl) h)

theorem disposeHandle_keeps (h : Nat) : DriverKeeps J (disposeHandle (σ := SmartiProc S) h) :=
  driverKeeps_of_link (disposeHandle_within (fun _ _ => rfl) h)

/-- A program of the client keeps what the client keeps. -/
theorem liftClient_keeps {m : Client S α} (hm : LinkKeeps J m) :
    DriverKeeps J (Smarti.liftClient m) := fun d hd =>
  (liftClient_spec (hm d.state.link hd)).imp fun _ _ h => ⟨trivial, h.2.2⟩

/-- So does a call of the driver. -/
theorem call_keeps {m : Client S α} (hm : LinkKeeps J m) : DriverKeeps J (Smarti.call m) :=
  fun d hd => (call_spec (hm d.state.link hd)).imp fun _ _ h => ⟨trivial, h.2.2⟩

theorem clientErrcode_keeps : DriverKeeps J (Smarti.clientErrcode (S := S)) :=
  call_keeps fun _ hl => Triple.of_run rfl ⟨trivial, hl⟩

theorem setClientError_keeps (code : Int) :
    DriverKeeps J (Smarti.setClientError (S := S) code) := by
  have hmsg : DriverKeeps J (Smarti.clientErrmsg (S := S)) :=
    call_keeps fun _ hl => Triple.of_run rfl ⟨trivial, hl⟩
  exact hmsg.bind fun _ _ => setDev_keeps _

theorem smartiTransferFail_keeps : DriverKeeps J (smartiTransferFail (S := S)) :=
  (setClientError_keeps _).bind fun _ _ => Maintains.pure trivial

variable (hJ : Daemonic J)

include hJ

theorem Daemonic.disconnect : DriverKeeps J (Smarti.disconnect (S := S)) := by
  have hforget : LinkKeeps J (modify fun l : Link S =>
      { l with connected := false, serverId := [] }) := hJ.update (fun _ => rfl) fun _ => rfl
  have hclose : LinkKeeps J (smartiClientDisconnect (S := S)) :=
    hforget.bind fun _ _ => Maintains.pure trivial
  have hend : DriverKeeps J (do let _ ← Smarti.liftClient (S := S) smartiClientDisconnect) :=
    (liftClient_keeps hclose).bind fun _ _ => Maintains.pure trivial
  refine getDev_keeps.bind fun dev _ => (useHandle_keeps _).bind fun _ _ => ?_
  refine getState_keeps.bind fun p _ => ?_
  cases p.socket with
  | none => exact hend
  | some s =>
    exact (disposeHandle_keeps s).bind fun _ _ => (setSocket_keeps none).bind fun _ _ => hend

/-- An error of the driver. -/
theorem Daemonic.giveUp (code : Int) (msg : ErrorText) :
    DriverKeeps J (do
      Smarti.setDevError (S := S) code msg false
      smartiDriverGiveUp code) :=
  (setDev_keeps _).bind fun _ _ => hJ.disconnect.bind fun _ _ => Maintains.pure trivial

theorem Daemonic.fail : DriverKeeps J (smartiDriverFail (S := S)) :=
  (setClientError_keeps _).bind fun _ _ => hJ.disconnect.bind fun _ _ => Maintains.pure trivial

/-- A value is read, and the opening goes on. -/
theorem Daemonic.driverRead {m : Client S (Except Int Nat)} {f : Nat → Smarti S Int}
    (hm : LinkKeeps J m) (hf : ∀ n, DriverKeeps J (f n)) :
    DriverKeeps J (smartiDriverRead m f) := by
  apply (call_keeps hm).bind
  rintro (rv | n) -
  · exact hJ.fail
  · exact hf n

/-- The lines that are written while a device is opened keep `J`; `chunkSize` is that of the
arguments. -/
structure OpeningLines (G : SmartiHost S) (J : Link S → Prop) (chunkSize : Nat) : Prop where
  enum : WriteKeeps G.irda G.fuel J "ENUM".toList
  openDevice : ∀ addr lsap,
    WriteKeeps G.irda G.fuel J (openCommand addr lsap (UInt8.ofNat chunkSize))
  model : WriteKeeps G.irda G.fuel J "MODEL".toList
  serial : WriteKeeps G.irda G.fuel J "SERIAL".toList
  ticks : WriteKeeps G.irda G.fuel J "TICKS".toList

section Opening

variable {chunkSize : Nat} (hlines : OpeningLines G J chunkSize)

include hlines

/-- The three values of the device. -/
theorem Daemonic.driverInfo : DriverKeeps J (smartiDriverInfo G) := by
  refine hJ.driverRead (hJ.info hlines.model 8) fun n => (setDev_keeps _).bind fun _ _ => ?_
  refine hJ.driverRead (hJ.info hlines.serial 32) fun n => (setDev_keeps _).bind fun _ _ => ?_
  refine hJ.driverRead (hJ.info hlines.ticks 32) fun n => (setDev_keeps _).bind fun _ _ => ?_
  exact (setDev_keeps _).bind fun _ _ => Maintains.pure trivial

omit hlines in
theorem Daemonic.openError : DriverKeeps J (smartiOpenError (S := S)) := by
  refine clientErrcode_keeps.bind fun code _ => ?_
  split
  · exact hJ.giveUp _ _
  split
  · exact hJ.giveUp _ _
  split
  · exact hJ.giveUp _ _
  · exact hJ.fail

/-- The line of OPEN and those behind it. -/
theorem Daemonic.driverOpenDevice (lsap : Nat) :
    DriverKeeps J (smartiDriverOpenDevice G lsap chunkSize) := by
  refine getDev_keeps.bind fun dev _ => ?_
  refine (call_keeps (hJ.status (hlines.openDevice _ _))).bind fun rc _ => ?_
  split
  · exact hJ.openError
  · exact hJ.driverInfo hlines

/-- The line of ENUM and those behind it. -/
theorem Daemonic.driverEnumerate (lsap : Nat) :
    DriverKeeps J (smartiDriverEnumerate G lsap chunkSize) := by
  refine (call_keeps (hJ.enumerate hlines.enum _)).bind fun r _ => ?_
  refine (setDev_keeps _).bind fun _ _ => ?_
  split
  · refine clientErrcode_keeps.bind fun code _ => ?_
    split
    · exact hJ.giveUp _ _
    · exact hJ.fail
  · refine getDev_keeps.bind fun dev _ => ?_
    split
    · exact hJ.giveUp _ _
    · exact hJ.driverOpenDevice hlines lsap

omit hlines in
theorem Daemonic.driverConnect (devpath : Text) (port : Nat) :
    DriverKeeps J (smartiDriverConnect G devpath port) := by
  refine getDev_keeps.bind fun dev _ => (useHandle_keeps _).bind fun _ _ => ?_
  cases G.dial devpath (port % 2 ^ 16) with
  | some errno =>
    have herror : LinkKeeps J (BenthosDc.setError (S := S) errno (.strerror errno)) :=
      hJ.update (fun _ => rfl) fun _ => rfl
    exact (liftClient_keeps herror).bind fun _ _ => Maintains.pure trivial
  | none =>
    refine allocHandle_keeps.bind fun s _ => (setSocket_keeps _).bind fun _ _ => ?_
    refine (liftClient_keeps hJ.connect).bind fun rc _ => getState_keeps.bind fun p _ => ?_
    split
    · exact Maintains.pure trivial
    · exact (disposeHandle_keeps s).bind fun _ _ =>
        (setSocket_keeps none).bind fun _ _ => Maintains.pure trivial

end Opening

/-- **Opening a device** keeps what the lines of opening keep. -/
theorem smartiDriverOpen_keeps (dev : Nat) (devpath args : Text)
    (hlines : ∀ entries, arglistParse args = .ok entries →
      OpeningLines G J (argUint entries "chunk_size".toList 8)) :
    DriverKeeps J (smartiDriverOpen G dev devpath args) := by
  refine (useHandle_keeps dev).bind fun _ _ => ?_
  cases hargs : arglistParse args with
  | error e =>
    cases e with
    | overrun => exact Maintains.throw trivial
    | einval => exact (setDev_keeps _).bind fun _ _ => Maintains.pure trivial
  | ok entries =>
    refine (hJ.driverConnect devpath _).bind fun rc _ => ?_
    split
    · exact (setDev_keeps _).bind fun _ _ => Maintains.pure trivial
    · exact hJ.driverEnumerate (hlines entries hargs) _

/-- The part of a transfer behind its size. -/
theorem smartiDriverReadBlock_keeps (hxfer : WriteKeeps G.irda G.fuel J "XFER".toList)
    (size : Nat) : DriverKeeps J (smartiDriverReadBlock G size) := by
  apply (call_keeps (hJ.xfer hxfer)).bind
  rintro (rv | data) -
  · refine clientErrcode_keeps.bind fun code _ => ?_
    split
    · exact (setDev_keeps _).bind fun _ _ => Maintains.pure trivial
    · exact smartiTransferFail_keeps
  · dsimp only
    split
    · exact (setDev_keeps _).bind fun _ _ => Maintains.pure trivial
    · exact Maintains.pure trivial

end Network

end BenthosDc

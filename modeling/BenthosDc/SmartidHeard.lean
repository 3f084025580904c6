/-
BenthosDc/SmartidHeard.lean

The tokens in the commands that the daemon puts to the device.

Only SIZE and XFER put a token to the device, the one of the device structure (`Serves`).  A line
runs neither of them if it is one of the lines of opening a device, whatever stands in front of
it that has been left of such lines (`OpeningText`); and a line that begins with one of their
letters changes no token (`TransferText`).

The commands are followed by what they may put to the device, with a log of it in the world of
the connection.
-/
import BenthosDc.ChunkSizes
import BenthosDc.DeviceLog

namespace BenthosDc

open CString Hoare Lifetime Loop SmartiCmd

variable {S α : Type}

/-- What holds of the greeting, of doing nothing and of the command that a line runs, holds of
the line. -/
theorem process_rule {W : Irda S} {fuel : Nat} {line : Text} {X : Daemon S Unit → Prop}
    (hready : X smartidConnSendReady) (hnone : X (pure ()))
    (hcmd : ∀ cmd, dispatch line = some cmd → X (cmd.func W fuel (commandParams line))) :
    X (smartidCmdProcess W fuel line) := by
  by_cases hname : commandName line = []
  · rw [process_ready hname]
    exact hready
  have hdispatch : dispatch line = lookupCommand ((commandName line).map Char.toLower) :=
    if_neg hname
  cases hlookup : lookupCommand ((commandName line).map Char.toLower) with
  | none =>
    rw [process_unknown hname hlookup]
    exact hnone
  | some cmd =>
    rw [process_func hname hlookup]
    exact hcmd cmd (hdispatch.trans hlookup)

/-! ### Programs of the daemon

Each step either puts a command to the device or leaves the log alone.
-/

/-- A program of the daemon that puts commands in `P` to the device only. -/
abbrev DaemonTells (P : List UInt8 → Prop) (m : Daemon (Logged S) α) : Prop :=
  Maintains (fun c => Hears P c.world) (fun _ => True) anyHalt m

section Programs

variable {W : Irda S} {limit : Option Nat} {P : List UInt8 → Prop} {fuel : Nat}

/-- A call on the socket. -/
theorem irdaCall_tells {f : Logged S → α × Logged S} (hf : ∀ w, Hears P w → Hears P (f w).2) :
    DaemonTells P (irdaCall f) := fun _ hc => Triple.of_run rfl ⟨trivial, hf _ hc⟩

/-- A change of the connection that is not one of its world. -/
theorem modify_tells {f : Conn (Logged S) → Conn (Logged S)} (hf : ∀ c, (f c).world = c.world) :
    DaemonTells P (modify f) :=
  Maintains.modify trivial fun c hc => by
    rw [hf]
    exact hc

/-- Output is no command. -/
theorem evbufferAdd_tells (text : Text) : DaemonTells P (evbufferAdd (S := Logged S) text) :=
  modify_tells fun _ => rfl

/-- A structure is no command. -/
theorem setHeap_tells (h : Nat) (d : Option SmartDevice) :
    DaemonTells P (setHeap (S := Logged S) h d) := modify_tells fun _ => rfl

theorem deref_tells (h : Nat) : DaemonTells P (deref (S := Logged S) h) := by
  intro c hc
  cases hd : c.heap h with
  | none => exact Triple.of_run_error (deref_dangling hd) trivial
  | some d => exact Triple.of_run (deref_run hd) ⟨trivial, hc⟩

theorem record_tells (e : Lifetime.Event Nat) : DaemonTells P (record (S := Logged S) e) :=
  modify_tells fun _ => rfl

theorem connDevice_tells : DaemonTells P (smartidConnDevice (S := Logged S)) := fun _ hc =>
  Triple.of_run rfl ⟨trivial, hc⟩

/-- **A command is heard.** -/
theorem daemonCmd_tells {cmd : List UInt8} (hcmd : P cmd) (ans : List UInt8) :
    DaemonTells P (smartDriverCmd (W.listening limit) cmd ans) := by
  apply (irdaCall_tells fun w hw => hw.tell _ _ hcmd).bind
  rintro (_ | _ | _) -
  · exact Maintains.pure trivial
  · exact Maintains.pure trivial
  apply (irdaCall_tells fun w hw => hw.ask _ _).bind
  rintro (_ | _ | _) -
  · exact Maintains.pure trivial
  · exact Maintains.pure trivial
  · exact Maintains.pure trivial

/-- A value is asked for with a command. -/
theorem readUchar_tells {cmd : List UInt8} (hcmd : P cmd) (ans : List UInt8) :
    DaemonTells P (smartReadUchar (W.listening limit) cmd ans) := by
  apply (daemonCmd_tells hcmd ans).bind
  rintro (_ | _) -
  · exact Maintains.pure trivial
  · exact Maintains.pure trivial

/-- A value is asked for with a command. -/
theorem readUlong_tells {cmd : List UInt8} (hcmd : P cmd) (ans : List UInt8) :
    DaemonTells P (smartReadUlong (W.listening limit) cmd ans) := by
  apply (daemonCmd_tells hcmd ans).bind
  rintro (_ | _) -
  · exact Maintains.pure trivial
  · exact Maintains.pure trivial

theorem junkBytes_tells (n : Nat) : DaemonTells P (junkBytes (W.listening limit) n) :=
  irdaCall_tells fun _ hw => hw

/-- An operation on a structure that is there. -/
theorem withDevice_tells {op : Nat → SmartDevice → Daemon (Logged S) (Except Int α)}
    (hop : ∀ h d, DaemonTells P (op h d)) (dev : Option Nat) :
    DaemonTells P (withDevice dev op) := by
  cases dev with
  | none => exact Maintains.pure trivial
  | some h =>
    exact (deref_tells h).bind fun d _ => (record_tells _).bind fun _ _ => hop h d

theorem setDevice_tells (dev : Option Nat) :
    DaemonTells P (smartidConnSetDevice (S := Logged S) dev) := modify_tells fun _ => rfl

theorem dispose_tells (dev : Option Nat) :
    DaemonTells P (smartidDevDispose (S := Logged S) dev) := by
  cases dev with
  | none => exact Maintains.pure trivial
  | some h =>
    exact (deref_tells h).bind fun _ _ => (setHeap_tells h none).bind fun _ _ => record_tells _

theorem dropDevice_tells : DaemonTells P (dropDevice (S := Logged S)) :=
  connDevice_tells.bind fun dev _ => (dispose_tells dev).bind fun _ _ => setDevice_tells none

theorem deviceError_tells (rv : Int) : DaemonTells P (deviceError (S := Logged S) rv) := by
  unfold deviceError
  split
  · exact evbufferAdd_tells _
  split
  · exact evbufferAdd_tells _
  · exact evbufferAdd_tells _

/-- Reading puts nothing to the device. -/
theorem readBlock_tells (csize len : Nat) :
    DaemonTells P (readBlock (W.listening limit) fuel csize len) := by
  intro c hc
  cases hiter : iterate (readChunk (W.listening limit) csize) fuel (c.world, [], len) with
  | next s =>
    refine Triple.of_run_error (e := .pending) ?_ trivial
    show readBlock _ fuel csize len c = _
    rw [readBlock, hiter]
  | stop r =>
    have hrun : (readBlock (W.listening limit) fuel csize len).run c =
        .ok (r.1, { c with world := r.2 }) := by
      show readBlock _ fuel csize len c = _
      rw [readBlock, hiter]
    refine Triple.of_run hrun ⟨trivial, ?_⟩
    -- the loop only reads
    have hreads : ∀ w n, Hears P w → Hears P ((W.listening limit).read w n).2 := fun _ _ hw =>
      hw.ask _ _
    refine (iterate_stop_returns hiter).invariant (I := fun s => Hears P s.1)
      (Q := fun r => Hears P r.2) ?_ ?_ hc
    · rintro ⟨w, buf, len⟩ ⟨w', buf', len'⟩ hw hnext
      obtain ⟨-, bytes, hread, -, -⟩ := readChunk_next hnext
      have hw' := hreads w (chunkLength csize len) hw
      rwa [hread] at hw'
    · rintro ⟨w, buf, len⟩ ⟨o, w'⟩ hw hstop
      rw [readChunk] at hstop
      split at hstop
      · cases hstop
        exact hw
      · have hw' := hreads w (chunkLength csize len) hw
        split at hstop
        next hread =>
          cases hstop
          rwa [hread] at hw'
        next hread =>
          cases hstop
          rwa [hread] at hw'
        · cases hstop

theorem receiveBlock_tells (csize nb : Nat) :
    DaemonTells P (receiveBlock (W.listening limit) fuel csize nb) := by
  have hfree : DaemonTells P (freeForeign (W.listening limit)) := by
    intro c hc
    show Triple (freeForeign (W.listening limit)) c _ _
    by_cases hforeign : (W.listening limit).foreignFree = true
    · exact Triple.of_run (if_pos hforeign) ⟨trivial, hc⟩
    · exact Triple.of_run_error (if_neg hforeign) trivial
  rw [receiveBlock]
  split
  · exact Maintains.pure trivial
  split
  · exact Maintains.pure trivial
  apply (readBlock_tells csize _).bind
  rintro (_ | _ | data) -
  · exact hfree.bind fun _ _ => Maintains.pure trivial
  · exact hfree.bind fun _ _ => Maintains.pure trivial
  · exact Maintains.pure trivial

/-- A check puts nothing to the device. -/
theorem checkNoParams_tells (cmd : SmartiCmd) (params : Option Text) {m : Daemon (Logged S) Unit}
    (hm : DaemonTells P m) : DaemonTells P (checkNoParams cmd params m) := by
  cases params with
  | none => exact hm
  | some p => exact evbufferAdd_tells _

/-- A check puts nothing to the device. -/
theorem checkDevice_tells {k : Option Nat → Daemon (Logged S) Unit}
    (hk : ∀ dev, DaemonTells P (k dev)) : DaemonTells P (checkDevice k) := by
  apply connDevice_tells.bind
  rintro (_ | h) -
  · exact evbufferAdd_tells _
  · exact hk (some h)

/-- A command that reads a value. -/
theorem infoCommand_tells (cmd : SmartiCmd) (text : Text)
    {ask : Option Nat → Daemon (Logged S) (Except Int Nat)} {failure : Int → Daemon (Logged S) Unit}
    (hask : ∀ dev, DaemonTells P (ask dev)) (hfail : ∀ rv, DaemonTells P (failure rv))
    (params : Option Text) : DaemonTells P (infoCommand cmd text ask failure params) := by
  refine checkNoParams_tells cmd params (checkDevice_tells fun dev => (hask dev).bind ?_)
  rintro (rv | n) -
  · exact (hfail rv).bind fun _ _ => dropDevice_tells
  · exact evbufferAdd_tells _

end Programs

/-! ### Commands without a token

Everything but SIZE and XFER: OPEN and its handshake, the values of the device, and the
commands that ask nothing.
-/

section Plain

variable {W : Irda S} {limit : Option Nat} {P : List UInt8 → Prop} {fuel : Nat}
  (hP : ∀ cmd, commandToken cmd = none → P cmd)

include hP

theorem daemonHandshake_tells : DaemonTells P (smartDriverHandshake (W.listening limit)) := by
  refine (junkBytes_tells 1).bind fun ans _ => (daemonCmd_tells (hP _ rfl) ans).bind ?_
  rintro (_ | ans) -
  · exact Maintains.pure trivial
  refine Maintains.ite (fun _ => Maintains.pure trivial) fun _ => ?_
  apply (daemonCmd_tells (hP _ rfl) ans).bind
  rintro (_ | ans) -
  · exact Maintains.pure trivial
  · exact Maintains.ite (fun _ => Maintains.pure trivial) fun _ => Maintains.pure trivial

/-- The handshake and the values of the device. -/
theorem devConnect_tells (dev : Option Nat) (addr lsap chunkSize : Nat) :
    DaemonTells P (smartidDevConnect (W.listening limit) dev addr lsap chunkSize) := by
  refine withDevice_tells (fun h d => ?_) dev
  refine (setHeap_tells h _).bind fun _ _ => (irdaCall_tells fun w hw => hw.ask _ _).bind ?_
  rintro (_ | _ | _) -
  · exact Maintains.pure trivial
  · exact Maintains.pure trivial
  refine (daemonHandshake_tells hP).bind fun rv _ => ?_
  refine Maintains.ite (fun _ => Maintains.pure trivial) fun _ => ?_
  apply (readUlong_tells (hP _ rfl) _).bind
  rintro (rv | ticks) -
  · exact Maintains.pure trivial
  refine (irdaCall_tells fun w hw => hw).bind fun now _ => ?_
  exact (setHeap_tells h _).bind fun _ _ => Maintains.pure trivial

theorem serial_tells (params : Option Text) :
    DaemonTells P (smartidCmdSerial (W.listening limit) params) :=
  infoCommand_tells _ _ (withDevice_tells fun _ _ =>
    (junkBytes_tells 4).bind fun _ _ => readUlong_tells (hP _ rfl) _) deviceError_tells params

omit hP in
theorem connectError_tells (rv : Int) : DaemonTells P (connectError (S := Logged S) rv) := by
  unfold connectError
  split
  · exact evbufferAdd_tells _
  split
  · exact evbufferAdd_tells _
  split
  · exact evbufferAdd_tells _
  split
  · exact evbufferAdd_tells _
  · exact evbufferAdd_tells _

theorem open_tells (params : Option Text) :
    DaemonTells P (smartidCmdOpen (W.listening limit) params) := by
  cases params with
  | none => exact evbufferAdd_tells _
  | some params =>
    apply connDevice_tells.bind
    rintro (_ | h) -
    · cases scanOpen params with
      | none => exact evbufferAdd_tells _
      | some r =>
        obtain ⟨addr, lsap, chunkSize⟩ := r
        have hirda : DaemonTells P (smartidConnIrda (S := Logged S)) := fun _ hc =>
          Triple.of_run rfl ⟨trivial, hc⟩
        have halloc : ∀ irda, DaemonTells P (smartidDevAlloc (S := Logged S) irda) := by
          intro irda c hc
          cases irda with
          | false => exact Triple.of_run rfl ⟨trivial, hc⟩
          | true => exact Triple.of_run rfl ⟨trivial, hc⟩
        refine hirda.bind fun irda _ => (halloc irda).bind ?_
        rintro (_ | h) -
        · exact evbufferAdd_tells _
        apply (devConnect_tells hP _ addr lsap chunkSize).bind
        rintro (rv | _) -
        · exact (connectError_tells rv).bind fun _ _ => dispose_tells _
        · exact (setDevice_tells _).bind fun _ _ => evbufferAdd_tells _
    · exact evbufferAdd_tells _

omit hP in
/-- A discovery is no command to a device. -/
theorem enum_tells (params : Option Text) :
    DaemonTells P (smartidCmdEnum (W.listening limit) params) := by
  apply checkNoParams_tells cmdEnum params
  have hirda : DaemonTells P (smartidConnIrda (S := Logged S)) := fun _ hc =>
    Triple.of_run rfl ⟨trivial, hc⟩
  refine hirda.bind fun irda _ => Maintains.ite (fun _ => evbufferAdd_tells _) fun _ => ?_
  apply (irdaCall_tells fun w hw => hw.ask _ _).bind
  rintro (_ | _ | ⟨d, ds⟩) -
  · exact evbufferAdd_tells _
  · exact evbufferAdd_tells _
  · exact Maintains.forM (fun _ => evbufferAdd_tells _) trivial _

omit hP in
/-- TOKEN puts nothing to the device. -/
theorem token_tells (params : Option Text) :
    DaemonTells P (smartidCmdToken (S := Logged S) params) := by
  cases params with
  | none => exact evbufferAdd_tells _
  | some params =>
    rw [smartidCmdToken, checkParams]
    refine checkDevice_tells fun dev => ?_
    cases scanToken params with
    | none => exact evbufferAdd_tells _
    | some token =>
      refine (withDevice_tells (fun h d => ?_) dev).bind ?_
      · exact (setHeap_tells h _).bind fun _ _ => Maintains.pure trivial
      rintro (rv | _) -
      · exact (evbufferAdd_tells _).bind fun _ _ => evbufferAdd_tells _
      · exact evbufferAdd_tells _

/-- **Only SIZE and XFER put a token to the device.** -/
theorem func_tells {cmd : SmartiCmd} (hsize : cmd ≠ cmdSize) (hxfer : cmd ≠ cmdXfer)
    (params : Option Text) : DaemonTells P (cmd.func (W.listening limit) fuel params) := by
  cases cmd with
  | cmdClose =>
    exact checkNoParams_tells _ params (checkDevice_tells fun _ =>
      dropDevice_tells.bind fun _ _ => evbufferAdd_tells _)
  | cmdEnum => exact enum_tells params
  | cmdHelp =>
    exact checkNoParams_tells _ params (Maintains.forM (fun _ => evbufferAdd_tells _) trivial _)
  | cmdModel =>
    exact infoCommand_tells _ _ (withDevice_tells fun _ _ =>
      (junkBytes_tells 1).bind fun _ _ => readUchar_tells (hP _ rfl) _) deviceError_tells params
  | cmdOpen => exact open_tells hP params
  | cmdSerial => exact serial_tells hP params
  | cmdSize => exact absurd rfl hsize
  | cmdTcorr =>
    exact infoCommand_tells _ _ (withDevice_tells fun _ _ => Maintains.pure trivial)
      (fun _ => evbufferAdd_tells _) params
  | cmdTicks =>
    exact infoCommand_tells _ _ (withDevice_tells fun _ _ => Maintains.pure trivial)
      (fun _ => evbufferAdd_tells _) params
  | cmdToken => exact token_tells params
  | cmdXfer => exact absurd rfl hxfer

/-- A line that runs neither SIZE nor XFER. -/
theorem process_tells {line : Text} (hsize : dispatch line ≠ some cmdSize)
    (hxfer : dispatch line ≠ some cmdXfer) :
    DaemonTells P (smartidCmdProcess (W.listening limit) fuel line) := by
  refine process_rule (evbufferAdd_tells _) (Maintains.pure trivial) fun cmd hcmd => ?_
  exact func_tells hP (fun h => hsize (h ▸ hcmd)) (fun h => hxfer (h ▸ hcmd)) _

end Plain

/-! ### The token of the open device

A device that serves a token keeps it in its structure, until TOKEN or another device.
-/

/-- The device of the connection has the token `n`, if there is one. -/
def TokenIs (n : Nat) (c : Conn S) : Prop :=
  ∀ h d, c.dev = some h → c.heap h = some d → d.token = n

/-- The only token that the device has heard is that of the device structure. -/
structure Serves (n : Nat) (c : Conn (Logged S)) : Prop where
  hears : Hears (Carries n) c.world
  token : TokenIs n c

/-- A program that keeps this true. -/
abbrev KeepsToken (n : Nat) (m : Daemon (Logged S) α) : Prop :=
  Maintains (Serves n) (fun _ => True) anyHalt m

/-- No device, no other token. -/
theorem tokenIs_of_none {n : Nat} {c : Conn S} (hdev : c.dev = none) : TokenIs n c := by
  intro h d hdev'
  rw [hdev] at hdev'
  cases hdev'

section Token

variable {W : Irda S} {limit : Option Nat} {fuel n : Nat}

/-- Programs that leave the devices alone keep the token. -/
theorem Untouched.keepsToken {m : Daemon (Logged S) α} (hm : Untouched m)
    (htells : DaemonTells (Carries n) m) : KeepsToken n m := by
  intro c hc
  refine ((hm c).and (htells c hc.hears)).mono ?_ fun _ h => trivial
  rintro a c' ⟨⟨-, hsame⟩, -, hhears⟩
  refine ⟨trivial, hhears, fun h d hdev hd => ?_⟩
  rw [hsame.dev] at hdev
  rw [hsame.heap] at hd
  exact hc.token h d hdev hd

/-- Output changes no token. -/
theorem evbufferAdd_keepsToken (text : Text) :
    KeepsToken n (evbufferAdd (S := Logged S) text) :=
  (evbufferAdd_untouched text).keepsToken (evbufferAdd_tells text)

/-- A device that is let go has no token. -/
theorem dropDevice_keepsToken : KeepsToken n (dropDevice (S := Logged S)) := by
  intro c hc
  refine ((dropDevice_forgets c).and (dropDevice_tells c hc.hears)).mono ?_ fun _ h => trivial
  rintro _ c' ⟨hdev, -, hhears⟩
  exact ⟨trivial, hhears, tokenIs_of_none hdev⟩

theorem checkNoParams_keepsToken (cmd : SmartiCmd) (params : Option Text)
    {m : Daemon (Logged S) Unit} (hm : KeepsToken n m) :
    KeepsToken n (checkNoParams cmd params m) := by
  cases params with
  | none => exact hm
  | some p => exact evbufferAdd_keepsToken _

/-- A command that goes on with the open device. -/
theorem checkDevice_keepsToken {k : Option Nat → Daemon (Logged S) Unit}
    (hk : ∀ h c, Serves n c → c.dev = some h →
      Triple (k (some h)) c (fun _ c' => True ∧ Serves n c') anyHalt) :
    KeepsToken n (checkDevice k) := by
  intro c hc
  have hget : Triple smartidConnDevice c (fun dev c' => dev = c.dev ∧ c' = c) anyHalt :=
    Triple.of_run rfl ⟨rfl, rfl⟩
  apply hget.bind
  rintro dev c₁ ⟨rfl, rfl⟩
  cases hdev : c₁.dev with
  | none => exact evbufferAdd_keepsToken _ c₁ hc
  | some h => exact hk h c₁ hc hdev

/-- An operation that tells the device the token of its structure. -/
theorem withDevice_keepsToken {op : Nat → SmartDevice → Daemon (Logged S) (Except Int α)} {h : Nat}
    {c : Conn (Logged S)} (hop : ∀ d, d.token = n → KeepsToken n (op h d)) (hc : Serves n c)
    (hdev : c.dev = some h) :
    Triple (withDevice (some h) op) c (fun _ c' => True ∧ Serves n c') anyHalt := by
  cases hd : c.heap h with
  | none => exact Triple.of_run_error (run_bind_of_error (deref_dangling hd)) trivial
  | some d =>
    rw [Triple, withDevice_run hd]
    exact hop d (hc.token h d hdev hd) _ ⟨hc.hears, hc.token⟩

/-- A value that is read changes no token. -/
theorem infoCommand_keepsToken (cmd : SmartiCmd) (text : Text)
    {ask : Nat → SmartDevice → Daemon (Logged S) (Except Int Nat)}
    (hask : ∀ h d, d.token = n → KeepsToken n (ask h d)) (params : Option Text) :
    KeepsToken n (infoCommand cmd text (fun dev => withDevice dev ask) deviceError params) := by
  refine checkNoParams_keepsToken cmd params (checkDevice_keepsToken fun h c hc hdev => ?_)
  apply (withDevice_keepsToken (hask h) hc hdev).bind
  rintro (rv | k) c₁ ⟨-, hc₁⟩
  · have herror : KeepsToken n (deviceError (S := Logged S) rv) :=
      (deviceError_untouched rv).keepsToken (deviceError_tells rv)
    exact (herror.bind fun _ _ => dropDevice_keepsToken) c₁ hc₁
  · exact evbufferAdd_keepsToken _ c₁ hc₁

/-- A word is read with a command that carries the token, or with one that has none. -/
theorem readWord_keepsToken {cmd : List UInt8} (hcmd : Carries n cmd) :
    KeepsToken n (do
      smartReadUlong (W.listening limit) cmd (← junkBytes (W.listening limit) 4)) := by
  refine ((irdaCall_untouched _).keepsToken (junkBytes_tells 4)).bind fun ans _ => ?_
  exact (smartReadUlong_untouched _ _).keepsToken (readUlong_tells hcmd ans)

variable (hn : n < 2 ^ 32)

include hn

/-- SIZE puts the token of the device to it. -/
theorem size_keepsToken (params : Option Text) :
    KeepsToken n (smartidCmdSize (W.listening limit) params) := by
  refine infoCommand_keepsToken _ _ (fun h d hd => ?_) params
  rw [hd]
  exact readWord_keepsToken (carries_tokenCmd (.inl rfl) hn)

omit hn in
/-- A block changes no structure. -/
theorem receiveBlock_untouched (csize nb : Nat) :
    Untouched (receiveBlock (W.listening limit) fuel csize nb) := by
  have hfree : Untouched (freeForeign (W.listening limit)) := by
    intro c
    by_cases hforeign : (W.listening limit).foreignFree = true
    · exact Triple.of_run (if_pos hforeign) ⟨trivial, rfl, rfl⟩
    · exact Triple.of_run_error (if_neg hforeign) trivial
  have hread : ∀ len, Untouched (readBlock (W.listening limit) fuel csize len) := by
    intro len c
    cases hiter : iterate (readChunk (W.listening limit) csize) fuel (c.world, [], len) with
    | next s =>
      refine Triple.of_run_error (e := .pending) ?_ trivial
      show readBlock _ fuel csize len c = _
      rw [readBlock, hiter]
    | stop r =>
      have hrun : (readBlock (W.listening limit) fuel csize len).run c =
          .ok (r.1, { c with world := r.2 }) := by
        show readBlock _ fuel csize len c = _
        rw [readBlock, hiter]
      exact Triple.of_run hrun ⟨trivial, rfl, rfl⟩
  rw [receiveBlock]
  split
  · exact Within.pure trivial
  split
  · exact Within.pure trivial
  apply (hread _).bind
  rintro (_ | _ | data) -
  · exact hfree.bind fun _ _ => Within.pure trivial
  · exact hfree.bind fun _ _ => Within.pure trivial
  · exact Within.pure trivial

omit hn in
theorem sendBuffer_keepsToken (data : List UInt8) :
    KeepsToken n (smartidConnSendBuffer (S := Logged S) data) := by
  rw [smartidConnSendBuffer]
  split
  · exact Maintains.pure trivial
  split
  · exact Maintains.pure trivial
  · exact Maintains.throw trivial
  · exact (evbufferAdd_keepsToken _).bind fun _ _ => evbufferAdd_keepsToken _

/-- XFER puts the token of the device to it. -/
theorem xfer_keepsToken (params : Option Text) :
    KeepsToken n (smartidCmdXfer (W.listening limit) fuel params) := by
  refine checkNoParams_keepsToken cmdXfer params (checkDevice_keepsToken fun h c hc hdev => ?_)
  refine (withDevice_keepsToken (fun d hd => ?_) hc hdev).bind ?_
  · rw [hd]
    refine ((irdaCall_untouched _).keepsToken (junkBytes_tells 4)).bind fun ans _ => ?_
    have htoken : Carries n (tokenCmd 0xc4 n) := carries_tokenCmd (.inr rfl) hn
    apply ((smartReadUlong_untouched _ _).keepsToken (readUlong_tells htoken ans)).bind
    rintro (rv | nb) -
    · exact Maintains.pure trivial
    · exact (receiveBlock_untouched d.csize nb).keepsToken (receiveBlock_tells d.csize nb)
  rintro (rv | data) c₁ ⟨-, hc₁⟩
  · show Triple (sendTransfer (.error rv)) c₁ _ _
    rw [sendTransfer]
    split
    · exact evbufferAdd_keepsToken _ c₁ hc₁
    split
    · exact evbufferAdd_keepsToken _ c₁ hc₁
    have herror : KeepsToken n (deviceError (S := Logged S) rv) :=
      (deviceError_untouched rv).keepsToken (deviceError_tells rv)
    exact (herror.bind fun _ _ => dropDevice_keepsToken) c₁ hc₁
  · exact sendBuffer_keepsToken data c₁ hc₁

/-- **A line that runs SERIAL, SIZE, XFER or nothing keeps the token.** -/
theorem process_keepsToken {line : Text} (h : ∀ cmd, dispatch line = some cmd →
      cmd = cmdSerial ∨ cmd = cmdSize ∨ cmd = cmdXfer) :
    KeepsToken n (smartidCmdProcess (W.listening limit) fuel line) := by
  refine process_rule (evbufferAdd_keepsToken _) (Maintains.pure trivial) fun cmd hcmd => ?_
  rcases h cmd hcmd with rfl | rfl | rfl
  · exact infoCommand_keepsToken _ _ (fun h d _ => readWord_keepsToken (carries_of_none rfl)) _
  · exact size_keepsToken hn _
  · exact xfer_keepsToken hn _

omit hn in
/-- **TOKEN** gives the open device its token. -/
theorem tokenCommand_serves (token : UInt32) {c : Conn (Logged S)}
    (hc : Hears (Carries token.toNat) c.world) :
    Triple (smartidCmdProcess (W.listening limit) fuel (tokenCommand token)) c
      (fun _ c' => Serves token.toNat c') anyHalt := by
  obtain ⟨params, hparams, hscan⟩ := tokenCommand_scanned token
  have hname : commandName (tokenCommand token) ≠ [] := by
    rw [tokenCommand_eq, commandName_word (by decide) (by decide)]
    decide
  have hdispatch : dispatch (tokenCommand token) =
      lookupCommand ((commandName (tokenCommand token)).map Char.toLower) := if_neg hname
  rw [process_func hname (hdispatch.symm.trans (dispatch_tokenCommand token)), hparams]
  show Triple (smartidCmdToken (some params)) c _ _
  rw [smartidCmdToken, checkParams]
  have hget : Triple smartidConnDevice c (fun dev c' => dev = c.dev ∧ c' = c) anyHalt :=
    Triple.of_run rfl ⟨rfl, rfl⟩
  apply hget.bind
  rintro dev c₁ ⟨rfl, rfl⟩
  cases hdev : c₁.dev with
  | none =>
    exact (evbufferAdd_keepsToken _ c₁ ⟨hc, tokenIs_of_none hdev⟩).imp fun _ _ h => h.2
  | some h =>
    dsimp only
    rw [hscan]
    cases hd : c₁.heap h with
    | none =>
      refine Triple.of_run_error (e := .dangling) ?_ trivial
      exact run_bind_of_error (run_bind_of_error (deref_dangling hd))
    | some d =>
      have hset : Triple (smartidDevSetToken (some h) token.toNat) c₁ (fun r c' =>
          r = .ok () ∧ Serves token.toNat c') anyHalt := by
        rw [smartidDevSetToken, Triple, withDevice_run hd]
        refine ⟨rfl, hc, fun h' d' hdev' hd' => ?_⟩
        obtain rfl : h = h' := Option.some.inj (hdev.symm.trans hdev')
        have hd' : Function.update c₁.heap h (some { d with token := token.toNat }) h =
            some d' := hd'
        rw [Function.update_self] at hd'
        cases hd'
        rfl
      apply hset.bind
      rintro _ c₂ ⟨rfl, hc₂⟩
      exact (evbufferAdd_keepsToken _ c₂ hc₂).imp fun _ _ h => h.2

end Token

end BenthosDc

/-
BenthosDc/SmartidLinkRuns.lean

In which sessions the IrDA link follows `conn->dev` (`linkFollows_iff`).

One command keeps the two together unless it lets a connected device go
(`func_agrees_iff`): CLOSE, an error that drops the device, or an OPEN that fails behind
its connect.
-/
import Mathlib.Data.List.Induction
import BenthosDc.SmartidLink

namespace BenthosDc

open CString Hoare Loop SmartiCmd

variable {S α : Type} {W : Irda S} {connected : S → Prop} {c c' : Conn S} {u : Unit}

/-! ### Steps that let a device go

The condition looks at the command, the connection and the answers of the device, in front of
the step.
-/

/-- A device is open, and `p` holds of it. -/
def OnDevice (c : Conn S) (p : SmartDevice → Prop) : Prop :=
  ∃ h d, c.dev = some h ∧ c.heap h = some d ∧ p d

/-- The command lets a connected device go: CLOSE on an open device; MODEL, SERIAL, SIZE or
XFER on an open device that does not answer; OPEN, when the socket connects to a device
that does not greet. -/
def LetsGo (W : Irda S) (c : Conn S) : SmartiCmd → Option Text → Prop
  | cmdClose, none => c.dev ≠ none
  | cmdModel, none => OnDevice c fun _ => exchange W c.world [0x10] (junkAnswer W c.world 1) = none
  | cmdSerial, none => OnDevice c fun _ => exchange W c.world [0x14] (junkAnswer W c.world 4) = none
  | cmdSize, none => OnDevice c fun d =>
      exchange W c.world (tokenCmd 0xc6 d.token) (junkAnswer W c.world 4) = none
  | cmdXfer, none => OnDevice c fun d => TransferBroken W c.world d
  | cmdOpen, some params => c.dev = none ∧ c.irda = true ∧ ∃ addr lsap chunkSize w,
      scanOpen params = some (addr, lsap, chunkSize) ∧
        W.connectLsap c.world addr lsap = (.done (), w) ∧ ¬Greets W w
  | _, _ => False

/-! ### What keeps the link

If neither the device nor the link changes, they go on agreeing.
-/

/-- Such a step keeps the agreement. -/
theorem SameLink.agrees (h : SameLink connected c c') (hc : Agrees connected c) :
    Agrees connected c' := by
  rw [Agrees, h.dev, h.link]
  exact hc

/-- A device has its link. -/
theorem Agrees.connected_of_dev (hc : Agrees connected c) {h : Nat} (hdev : c.dev = some h) :
    connected c.world := by
  by_contra hnot
  have hnone := hc.mpr hnot
  rw [hdev] at hnone
  cases hnone

/-- The link stays when the device goes. -/
theorem Agrees.not_agrees_of_drop (hc : Agrees connected c) {h : Nat} (hdev : c.dev = some h)
    (hdrop : c'.dev = none) (hlink : connected c'.world ↔ connected c.world) :
    ¬Agrees connected c' :=
  fun hc' => hc'.mp hdrop (hlink.mpr (hc.connected_of_dev hdev))

/-- An error that is sent. -/
theorem deviceError_keepsLink (rv : Int) : KeepsLink (S := S) connected (deviceError rv) := by
  unfold deviceError
  split
  · exact evbufferAdd_keepsLink _
  · split
    · exact evbufferAdd_keepsLink _
    · exact evbufferAdd_keepsLink _

/-- An error that is sent. -/
theorem connectError_keepsLink (rv : Int) : KeepsLink (S := S) connected (connectError rv) := by
  unfold connectError
  split
  · exact evbufferAdd_keepsLink _
  · split
    · exact evbufferAdd_keepsLink _
    · split
      · exact evbufferAdd_keepsLink _
      · split
        · exact evbufferAdd_keepsLink _
        · exact evbufferAdd_keepsLink _

theorem smartidConnSendBuffer_keepsLink (data : List UInt8) :
    KeepsLink (S := S) connected (smartidConnSendBuffer data) := by
  unfold smartidConnSendBuffer
  split
  · exact KeepsLink.pure ()
  · split
    · exact KeepsLink.pure ()
    · exact KeepsLink.throw _
    · exact (evbufferAdd_keepsLink _).bind fun _ => evbufferAdd_keepsLink _

/-- The device is gone, and the link is what it was. -/
theorem dropDevice_run_ok (hrun : (dropDevice : Daemon S Unit).run c = .ok (u, c')) :
    c'.dev = none ∧ (connected c'.world ↔ connected c.world) := by
  obtain ⟨dev, c₁, ⟨⟩, hrest⟩ := run_bind_eq_ok.mp hrun
  obtain ⟨_, c₂, hdispose, ⟨⟩⟩ := run_bind_eq_ok.mp hrest
  exact ⟨rfl, (smartidDevDispose_keepsLink _ _ _ _ hdispose).link⟩

/-- A command on a device either finds none, or runs on `conn->dev`. -/
theorem checkDevice_run_ok {k : Option Nat → Daemon S Unit}
    (hrun : (checkDevice k).run c = .ok (u, c')) :
    c.dev = none ∧ SameLink connected c c' ∨
      ∃ h, c.dev = some h ∧ (k (some h)).run c = .ok (u, c') := by
  obtain ⟨dev, c₁, ⟨⟩, hrest⟩ := run_bind_eq_ok.mp hrun
  cases hdev : c.dev with
  | none =>
    rw [hdev] at hrest
    exact .inl ⟨rfl, evbufferAdd_keepsLink _ _ _ _ hrest⟩
  | some h =>
    rw [hdev] at hrest
    exact .inr ⟨h, rfl, hrest⟩

/-- A condition on the open device. -/
theorem onDevice_iff {h : Nat} {d : SmartDevice} {p : SmartDevice → Prop} (hdev : c.dev = some h)
    (hd : c.heap h = some d) : OnDevice c p ↔ p d := by
  constructor
  · rintro ⟨h', d', hdev', hd', hp⟩
    obtain rfl := Option.some.inj (hdev'.symm.trans hdev)
    obtain rfl := Option.some.inj (hd'.symm.trans hd)
    exact hp
  · exact fun hp => ⟨h, d, hdev, hd, hp⟩

/-- Without a device there is none. -/
theorem not_onDevice {p : SmartDevice → Prop} (hdev : c.dev = none) : ¬OnDevice c p := by
  rintro ⟨h, d, hdev', -⟩
  rw [hdev] at hdev'
  cases hdev'

/-! ### The commands

For each command the agreement behind it is equivalent to its not letting a device go.
-/

/-- A command that asks the device for a number. -/
theorem infoCommand_agrees_iff (cmd : SmartiCmd) {text : Text}
    {ask : Option Nat → Daemon S (Except Int Nat)} {failure : Int → Daemon S Unit}
    {silent : S → SmartDevice → Prop} (hask : Asks connected ask silent)
    (hfail : ∀ rv, KeepsLink connected (failure rv)) (hc : Agrees connected c)
    (hrun : (infoCommand cmd text ask failure none).run c = .ok (u, c')) :
    Agrees connected c' ↔ ¬OnDevice c (silent c.world) := by
  rw [infoCommand, checkNoParams] at hrun
  rcases checkDevice_run_ok hrun with ⟨hdev, hsame⟩ | ⟨h, hdev, hop⟩
  · exact iff_of_true (hsame.agrees hc) (not_onDevice hdev)
  obtain ⟨r, c₁, hask₁, hrest⟩ := run_bind_eq_ok.mp hop
  obtain ⟨hsame, d, hd, hsilent⟩ := hask h c r c₁ hask₁
  rw [onDevice_iff hdev hd, ← hsilent]
  -- the device does not answer, and is let go; or it answers, and stays
  cases r with
  | error rv =>
    obtain ⟨_, c₂, hfailed, hdrop⟩ := run_bind_eq_ok.mp hrest
    have hsame₂ := hsame.trans (hfail rv _ _ _ hfailed)
    obtain ⟨hnone, hlink⟩ := dropDevice_run_ok hdrop
    refine iff_of_false ?_ (not_not.mpr ⟨rv, rfl⟩)
    exact hc.not_agrees_of_drop hdev hnone (hlink.trans hsame₂.link)
  | ok n =>
    have hsame₂ := hsame.trans (evbufferAdd_keepsLink _ _ _ _ hrest)
    apply iff_of_true (hsame₂.agrees hc)
    rintro ⟨_, ⟨⟩⟩

/-- Parameters that cannot be read. -/
theorem syntaxError_agrees {cmd : SmartiCmd} (hc : Agrees connected c)
    (hrun : (syntaxError cmd).run c = .ok (u, c')) : Agrees connected c' :=
  SameLink.agrees (evbufferAdd_keepsLink _ _ _ _ hrun) hc

/-- CLOSE lets the device go if there is one. -/
theorem smartidCmdClose_agrees_iff (hc : Agrees connected c)
    (hrun : (smartidCmdClose none).run c = .ok (u, c')) :
    Agrees connected c' ↔ ¬LetsGo W c cmdClose none := by
  change (checkDevice fun _ => do
    dropDevice
    smartidConnSendResponse smartiStatusSuccess "Device Closed".toList).run c = _ at hrun
  rcases checkDevice_run_ok hrun with ⟨hdev, hsame⟩ | ⟨h, hdev, hop⟩
  · exact iff_of_true (hsame.agrees hc) (not_not.mpr hdev)
  obtain ⟨_, c₁, hdrop, hsend⟩ := run_bind_eq_ok.mp hop
  obtain ⟨hnone, hlink⟩ := dropDevice_run_ok hdrop
  have hsame : SameLink connected c₁ c' := evbufferAdd_keepsLink _ _ _ _ hsend
  refine iff_of_false ?_ (not_not.mpr fun h => ?_)
  · exact hc.not_agrees_of_drop hdev (hsame.dev.trans hnone) (hsame.link.trans hlink)
  · rw [hdev] at h
    cases h

theorem smartidCmdToken_keepsLink (params : Option Text) :
    KeepsLink (S := S) connected (smartidCmdToken params) := by
  cases params with
  | none => exact evbufferAdd_keepsLink _
  | some params =>
    apply smartidConnDevice_keepsLink.bind
    rintro (_ | h)
    · exact evbufferAdd_keepsLink _
    dsimp only
    split
    · exact evbufferAdd_keepsLink _
    · refine (withDevice_keepsLink fun d => ?_).bind ?_
      · exact (setHeap_keepsLink _ _).bind fun _ => KeepsLink.pure _
      · rintro (rv | _)
        · exact (evbufferAdd_keepsLink _).bind fun _ => evbufferAdd_keepsLink _
        · exact evbufferAdd_keepsLink _

/-- ENUM asks for the devices around. -/
theorem smartidCmdEnum_keepsLink (hlink : IrdaLink W connected) (params : Option Text) :
    KeepsLink connected (smartidCmdEnum W params) := by
  cases params with
  | some params => exact evbufferAdd_keepsLink _
  | none =>
    refine smartidConnIrda_keepsLink.bind fun irda => ?_
    show KeepsLink connected (if _ then _ else _)
    split
    · exact evbufferAdd_keepsLink _
    apply (irdaCall_keepsLink hlink.discover).bind
    rintro (_ | _ | ⟨d, ds⟩)
    · exact evbufferAdd_keepsLink _
    · exact evbufferAdd_keepsLink _
    · exact KeepsLink.forM (fun d => evbufferAdd_keepsLink _) _

theorem smartidCmdHelp_keepsLink (params : Option Text) :
    KeepsLink (S := S) connected (smartidCmdHelp params) := by
  cases params with
  | some params => exact evbufferAdd_keepsLink _
  | none => exact KeepsLink.forM (fun cmd => evbufferAdd_keepsLink _) _

/-- XFER lets the device go if the transfer is lost. -/
theorem smartidCmdXfer_agrees_iff (hlink : IrdaLink W connected) (hc : Agrees connected c)
    {fuel : Nat} (hrun : (smartidCmdXfer W fuel none).run c = .ok (u, c')) :
    Agrees connected c' ↔ ¬LetsGo W c cmdXfer none := by
  change (checkDevice fun dev => do
    sendTransfer (← smartidDevXferData W fuel dev)).run c = _ at hrun
  rcases checkDevice_run_ok hrun with ⟨hdev, hsame⟩ | ⟨h, hdev, hop⟩
  · exact iff_of_true (hsame.agrees hc) (not_onDevice hdev)
  obtain ⟨r, c₁, hdata, hsend⟩ := run_bind_eq_ok.mp hop
  obtain ⟨hsame, d, hd, hlost⟩ := smartidDevXferData_run_ok hlink hdata
  show _ ↔ ¬OnDevice c fun d => TransferBroken W c.world d
  rw [onDevice_iff hdev hd, ← hlost]
  cases r with
  | ok data =>
    have hsame₂ := hsame.trans (smartidConnSendBuffer_keepsLink data _ _ _ hsend)
    exact iff_of_true (hsame₂.agrees hc) (not_transferLost_ok data)
  | error rv =>
    unfold sendTransfer at hsend
    dsimp only at hsend
    split at hsend
    · rename_i hrv
      have hsame₂ := hsame.trans (evbufferAdd_keepsLink _ _ _ _ hsend)
      apply iff_of_true (hsame₂.agrees hc)
      rintro ⟨_, ⟨⟩, hne, -⟩
      exact hne hrv
    split at hsend
    · rename_i hrv
      have hsame₂ := hsame.trans (evbufferAdd_keepsLink _ _ _ _ hsend)
      apply iff_of_true (hsame₂.agrees hc)
      rintro ⟨_, ⟨⟩, -, hne⟩
      exact hne hrv
    · rename_i hdata hdevice
      obtain ⟨_, c₂, hfailed, hdrop⟩ := run_bind_eq_ok.mp hsend
      have hsame₂ := hsame.trans (deviceError_keepsLink rv _ _ _ hfailed)
      obtain ⟨hnone, hlink₂⟩ := dropDevice_run_ok hdrop
      refine iff_of_false ?_ (not_not.mpr ⟨rv, rfl, hdata, hdevice⟩)
      exact hc.not_agrees_of_drop hdev hnone (hlink₂.trans hsame₂.link)

section Open

variable {params : Text} {addr lsap chunkSize : Nat}

/-- OPEN lets the device go if something behind its connect fails. -/
theorem letsGo_open_iff (hdev : c.dev = none) (hirda : c.irda = true)
    (hscan : scanOpen params = some (addr, lsap, chunkSize)) {w : S}
    (hw : W.connectLsap c.world addr lsap = (.done (), w)) :
    LetsGo W c cmdOpen (some params) ↔ ¬Greets W w := by
  constructor
  · rintro ⟨-, -, addr', lsap', chunkSize', w', hscan', hw', hgreets⟩
    rw [hscan] at hscan'
    obtain ⟨⟩ := hscan'
    rw [hw] at hw'
    obtain ⟨⟩ := hw'
    exact hgreets
  · exact fun hgreets => ⟨hdev, hirda, addr, lsap, chunkSize, w, hscan, hw, hgreets⟩

/-- A second OPEN is refused. -/
theorem not_letsGo_open_of_device {h : Nat} (hdev : c.dev = some h) :
    ¬LetsGo W c cmdOpen (some params) := by
  rintro ⟨hnone, -⟩
  rw [hdev] at hnone
  cases hnone

/-- An OPEN without an address is refused. -/
theorem not_letsGo_open_of_scan (hscan : scanOpen params = none) :
    ¬LetsGo W c cmdOpen (some params) := by
  rintro ⟨-, -, addr, lsap, chunkSize, w, hscan', -⟩
  rw [hscan] at hscan'
  cases hscan'

/-- A connect that fails leaves no link. -/
theorem not_letsGo_open_of_refused (hscan : scanOpen params = some (addr, lsap, chunkSize))
    (hrefused : ∀ w, W.connectLsap c.world addr lsap ≠ (.done (), w)) :
    ¬LetsGo W c cmdOpen (some params) := by
  rintro ⟨-, -, addr', lsap', chunkSize', w, hscan', hw, -⟩
  rw [hscan] at hscan'
  obtain ⟨⟩ := hscan'
  exact hrefused w hw

/-- **OPEN** loses the link if the socket connects and the device does not greet. -/
theorem smartidCmdOpen_agrees_iff (hlink : IrdaLink W connected) (hc : Agrees connected c)
    (hrun : (smartidCmdOpen W (some params)).run c = .ok (u, c')) :
    Agrees connected c' ↔ ¬LetsGo W c cmdOpen (some params) := by
  obtain ⟨dev, c₁, ⟨⟩, hrest⟩ := run_bind_eq_ok.mp hrun
  -- the first three ways out only write a reply
  cases hdev : c.dev with
  | some h =>
    rw [hdev] at hrest
    have hsame : SameLink connected c c' := evbufferAdd_keepsLink _ _ _ _ hrest
    exact iff_of_true (hsame.agrees hc) (not_letsGo_open_of_device hdev)
  | none =>
  rw [hdev] at hrest
  cases hscan : scanOpen params with
  | none =>
    dsimp only at hrest
    rw [hscan] at hrest
    have hsame : SameLink connected c c' := evbufferAdd_keepsLink _ _ _ _ hrest
    exact iff_of_true (hsame.agrees hc) (not_letsGo_open_of_scan hscan)
  | some numbers =>
  obtain ⟨addr, lsap, chunkSize⟩ := numbers
  dsimp only at hrest
  rw [hscan] at hrest
  obtain ⟨irda, c₁, ⟨⟩, hrest⟩ := run_bind_eq_ok.mp hrest
  obtain ⟨dev, c₂, halloc, hrest⟩ := run_bind_eq_ok.mp hrest
  change smartidDevAlloc c.irda c = _ at halloc
  rw [smartidDevAlloc] at halloc
  split at halloc
  swap
  · rename_i hirda
    obtain ⟨⟩ := halloc
    have hsame : SameLink connected c c' := evbufferAdd_keepsLink _ _ _ _ hrest
    exact iff_of_true (hsame.agrees hc) fun h => hirda h.2.1
  rename_i hirda
  obtain ⟨⟩ := halloc
  obtain ⟨r, c₃, hconnect, hrest⟩ := run_bind_eq_ok.mp hrest
  have hunconnected : ¬connected c.world := hc.mp hdev
  obtain ⟨hdev₃, hcases⟩ := smartidDevConnect_run_ok hlink (Function.update_self _ _ _) rfl hconnect
  have hnone₃ : c₃.dev = none := hdev₃.trans hdev
  cases r with
  | ok _ =>
    rcases hcases with ⟨w, hw, hconnected, hgreets⟩ | ⟨-, hne, -⟩
    swap
    · exact absurd rfl hne
    obtain ⟨_, c₄, ⟨⟩, hsend⟩ := run_bind_eq_ok.mp hrest
    have hsame : SameLink connected _ c' := evbufferAdd_keepsLink _ _ _ _ hsend
    rw [letsGo_open_iff hdev hirda hscan hw, not_not, ← hgreets]
    refine iff_of_true (hsame.agrees ?_) rfl
    exact iff_of_false (fun h => nomatch h) (not_not.mpr hconnected)
  | error rv =>
    -- the device is disposed of, and `c->dev` stays unset
    obtain ⟨_, c₄, hsay, hdispose⟩ := run_bind_eq_ok.mp hrest
    have hsame : SameLink connected c₃ c' := (connectError_keepsLink rv _ _ _ hsay).trans
      (smartidDevDispose_keepsLink _ _ _ _ hdispose)
    have hnone : c'.dev = none := hsame.dev.trans hnone₃
    rcases hcases with ⟨w, hw, hconnected, hgreets⟩ | ⟨hfail, -, hrefused⟩
    · -- the socket is connected, without a device
      rw [letsGo_open_iff hdev hirda hscan hw, not_not, ← hgreets]
      refine iff_of_false (fun h => ?_) fun h => nomatch h
      exact h.mp hnone (hsame.link.mpr hconnected)
    · refine iff_of_true (iff_of_true hnone ?_) (not_letsGo_open_of_refused hscan hfail)
      rw [hsame.link, hrefused]
      exact hunconnected

end Open

/-- **One command**: the link follows the device unless the command lets it go. -/
theorem func_agrees_iff (hlink : IrdaLink W connected) (hc : Agrees connected c) {fuel : Nat}
    (cmd : SmartiCmd) (params : Option Text)
    (hrun : (cmd.func W fuel params).run c = .ok (u, c')) :
    Agrees connected c' ↔ ¬LetsGo W c cmd params := by
  cases cmd with
  | cmdEnum =>
    have hsame : SameLink connected c c' := smartidCmdEnum_keepsLink hlink params _ _ _ hrun
    exact iff_of_true (hsame.agrees hc) id
  | cmdHelp =>
    have hsame : SameLink connected c c' := smartidCmdHelp_keepsLink params _ _ _ hrun
    exact iff_of_true (hsame.agrees hc) id
  | cmdToken =>
    have hsame : SameLink connected c c' := smartidCmdToken_keepsLink params _ _ _ hrun
    exact iff_of_true (hsame.agrees hc) id
  | cmdOpen =>
    cases params with
    | none => exact iff_of_true (syntaxError_agrees hc hrun) id
    | some params => exact smartidCmdOpen_agrees_iff hlink hc hrun
  | cmdClose =>
    cases params with
    | some params => exact iff_of_true (syntaxError_agrees hc hrun) id
    | none => exact smartidCmdClose_agrees_iff hc hrun
  | cmdModel =>
    cases params with
    | some params => exact iff_of_true (syntaxError_agrees hc hrun) id
    | none =>
      exact infoCommand_agrees_iff cmdModel (smartidDevModel_asks hlink) deviceError_keepsLink hc hrun
  | cmdSerial =>
    cases params with
    | some params => exact iff_of_true (syntaxError_agrees hc hrun) id
    | none =>
      exact infoCommand_agrees_iff cmdSerial (smartidDevSerial_asks hlink) deviceError_keepsLink hc hrun
  | cmdSize =>
    cases params with
    | some params => exact iff_of_true (syntaxError_agrees hc hrun) id
    | none =>
      exact infoCommand_agrees_iff cmdSize (smartidDevXferSize_asks hlink) deviceError_keepsLink hc hrun
  | cmdTcorr =>
    cases params with
    | some params => exact iff_of_true (syntaxError_agrees hc hrun) id
    | none =>
      have hiff := infoCommand_agrees_iff cmdTcorr smartidDevTcorr_asks
        (fun rv => evbufferAdd_keepsLink _) hc hrun
      refine iff_of_true (hiff.mpr ?_) id
      rintro ⟨h, d, -, -, hno⟩
      exact hno
  | cmdTicks =>
    cases params with
    | some params => exact iff_of_true (syntaxError_agrees hc hrun) id
    | none =>
      have hiff := infoCommand_agrees_iff cmdTicks smartidDevTicks_asks
        (fun rv => evbufferAdd_keepsLink _) hc hrun
      refine iff_of_true (hiff.mpr ?_) id
      rintro ⟨h, d, -, -, hno⟩
      exact hno
  | cmdXfer =>
    cases params with
    | some params => exact iff_of_true (syntaxError_agrees hc hrun) id
    | none => exact smartidCmdXfer_agrees_iff hlink hc hrun

/-! ### Sessions

A session is a list of lines.  The step lemma goes along it from the left.
-/

/-- The line runs a command that lets a connected device go. -/
def LineLetsGo (W : Irda S) (c : Conn S) (line : Text) : Prop :=
  ∃ cmd, dispatch line = some cmd ∧ LetsGo W c cmd (commandParams line)

theorem smartidCmdProcess_agrees_iff (hlink : IrdaLink W connected) (hc : Agrees connected c)
    {fuel : Nat} {line : Text} (hrun : (smartidCmdProcess W fuel line).run c = .ok (u, c')) :
    Agrees connected c' ↔ ¬LineLetsGo W c line := by
  by_cases hname : commandName line = []
  · rw [process_ready hname] at hrun
    apply iff_of_true (SameLink.agrees (evbufferAdd_keepsLink _ _ _ _ hrun) hc)
    rintro ⟨cmd, hcmd, -⟩
    rw [dispatch, if_pos hname] at hcmd
    cases hcmd
  have hdispatch : dispatch line = lookupCommand ((commandName line).map Char.toLower) :=
    if_neg hname
  cases hcmd : lookupCommand ((commandName line).map Char.toLower) with
  | none =>
    rw [process_unknown hname hcmd] at hrun
    obtain ⟨⟩ := hrun
    apply iff_of_true hc
    rintro ⟨cmd, hcmd', -⟩
    rw [hdispatch, hcmd] at hcmd'
    cases hcmd'
  | some cmd =>
    -- the line runs a command
    rw [process_func hname hcmd] at hrun
    rw [func_agrees_iff hlink hc cmd _ hrun, LineLetsGo, hdispatch, hcmd]
    constructor
    · rintro hkeep ⟨_, ⟨⟩, hgo⟩
      exact hkeep hgo
    · exact fun hkeep hgo => hkeep ⟨cmd, rfl, hgo⟩

variable {w : S} {fuel : Nat} {lines : List CommandLine}

/-- The link follows the device in every state that the session passes. -/
def LinkFollows (W : Irda S) (connected : S → Prop) (fuel : Nat) (lines : List CommandLine)
    (w : S) : Prop :=
  ∀ pre c, pre <+: lines → (session W fuel pre).run (Conn.fresh w) = .ok ((), c) →
    Agrees connected c

/-- No step of the session lets a connected device go. -/
def KeepsDevice (W : Irda S) (fuel : Nat) (lines : List CommandLine) (w : S) : Prop :=
  ∀ pre line c c', pre ++ [line] <+: lines →
    (session W fuel pre).run (Conn.fresh w) = .ok ((), c) →
    (smartidCmdProcess W fuel line.1).run c = .ok ((), c') → ¬LineLetsGo W c line.1

/-- The last line of a session. -/
theorem session_concat_run_iff {pre : List CommandLine} {line : CommandLine} {c₀ : Conn S} :
    (session W fuel (pre ++ [line])).run c₀ = .ok ((), c') ↔
      ∃ c, (session W fuel pre).run c₀ = .ok ((), c) ∧
        (smartidCmdProcess W fuel line.1).run c = .ok ((), c') := by
  have hsession : session W fuel (pre ++ [line]) =
      session W fuel pre >>= fun _ => smartidCmdProcess W fuel line.1 := by
    show forM (pre ++ [line]) (fun line : CommandLine => smartidCmdProcess W fuel line.1) = _
    rw [List.forM_append, List.forM_cons, List.forM_nil, bind_pure_unit]
    rfl
  rw [hsession, run_bind_eq_ok]
  constructor
  · rintro ⟨_, c, hpre, hline⟩
    exact ⟨c, hpre, hline⟩
  · rintro ⟨c, hpre, hline⟩
    exact ⟨(), c, hpre, hline⟩

/-- **The exact condition**: the link follows the device through a session if and only if no
step of it lets a connected device go. -/
theorem linkFollows_iff (hlink : IrdaLink W connected) (hw : ¬connected w) :
    LinkFollows W connected fuel lines w ↔ KeepsDevice W fuel lines w := by
  constructor
  · intro h pre line c c' hpre hrun hline
    have hc : Agrees connected c := h pre c ((List.prefix_append pre [line]).trans hpre) hrun
    apply (smartidCmdProcess_agrees_iff hlink hc hline).mp
    exact h (pre ++ [line]) c' hpre (session_concat_run_iff.mpr ⟨c, hrun, hline⟩)
  · intro h pre
    -- by induction on the part of the session that has run
    induction pre using List.reverseRecOn with
    | nil =>
      rintro c - ⟨⟩
      exact iff_of_true rfl hw
    | append_singleton pre line ih =>
      intro c' hpre hrun
      obtain ⟨c, hrun₁, hline⟩ := session_concat_run_iff.mp hrun
      have hc := ih c ((List.prefix_append pre [line]).trans hpre) hrun₁
      exact (smartidCmdProcess_agrees_iff hlink hc hline).mpr (h pre line c c' hpre hrun₁ hline)

/-! ### A second OPEN

A library with one device, which answers everything: OPEN alone, and CLOSE behind it.
-/

/-- A socket with a device in range that answers every command with ones. -/
def openIrda : Irda Bool where
  discover w := (some [⟨1, "Aladin".toList⟩], w)
  connectLsap w _ _ := if w then (.failed, w) else (.done (), true)
  write w bytes := (.done bytes.length, w)
  read w n := (.done (List.replicate n 1), w)
  time w := (0, w)
  junk _ _ := 0
  foreignFree := false

/-- It is a library as described. -/
theorem openIrda_link : IrdaLink openIrda (· = true) where
  connects w addr lsap w' h := by
    cases w with
    | true => cases h
    | false =>
      cases h
      exact ⟨Bool.false_ne_true, rfl⟩
  refuses w addr lsap r w' h hr := by
    cases w with
    | true =>
      cases h
      exact Iff.rfl
    | false =>
      cases h
      exact absurd rfl hr
  discover _ := Iff.rfl
  write _ _ := Iff.rfl
  read _ _ := Iff.rfl
  time _ := Iff.rfl

/-- CLOSE. -/
def lineClose : CommandLine := ⟨"CLOSE".toList, by simp⟩

theorem linkFollows_iff_open : LinkFollows openIrda (· = true) 0 [lineOpen] false ↔
    KeepsDevice openIrda 0 [lineOpen] false :=
  linkFollows_iff openIrda_link Bool.false_ne_true

/-- What a session leaves: the device, the socket and the output. -/
def outcome {S : Type} (r : Except Halt (Unit × Conn S)) : Option (Option Nat × S × Text) :=
  match r with
  | .ok (_, c) => some (c.dev, c.world, c.out)
  | .error _ => none

/-- After OPEN and CLOSE there is no device, and the socket is still connected. -/
theorem not_linkFollows_close : IrdaLink openIrda (· = true) ∧
    ¬LinkFollows openIrda (· = true) 0 [lineOpen, lineClose] false := by
  refine ⟨openIrda_link, fun h => ?_⟩
  have hend : (outcome ((session openIrda 0 [lineOpen, lineClose]).run (Conn.fresh false))).map
      (fun r => (r.1, r.2.1)) = some (none, true) := by decide +kernel
  cases hrun : (session openIrda 0 [lineOpen, lineClose]).run (Conn.fresh false) with
  | error e =>
    rw [hrun] at hend
    cases hend
  | ok r =>
    obtain ⟨⟨⟩, c⟩ := r
    rw [hrun] at hend
    obtain ⟨hdev, hworld⟩ := Prod.mk.inj (Option.some.inj hend)
    exact (h _ c (List.prefix_refl _) hrun).mp hdev hworld

/-- The next OPEN fails. -/
example : outcome ((session openIrda 0 [lineOpen, lineClose, lineOpen]).run (Conn.fresh false)) =
    some (none, true, responseLine smartiStatusSuccess "Device Opened".toList ++
      responseLine smartiStatusSuccess "Device Closed".toList ++
      responseLine smartiErrorConnect "Failed to connect to Smart Device".toList) := by
  decide +kernel

end BenthosDc

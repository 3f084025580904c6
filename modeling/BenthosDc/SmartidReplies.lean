/-
BenthosDc/SmartidReplies.lean

Every command that the daemon runs puts one reply into the output and leaves the
connection well formed; which lines are answered at all.

The specifications of the commands are assembled from `Keeps` (no output) and
`Sends` (a reply).  A command halts only in XFER.

What a reply looks like is fixed for each command: one line with a status, the lines of ENUM or
of HELP, or a line with a size and the data behind it.
-/
import BenthosDc.SmartidCmd

namespace BenthosDc

open CString Hoare Lifetime Loop SmartiCmd

variable {S : Type} {W : Irda S} {c : Conn S}

/-! ### Replies of the commands

The checks come first, and each of them answers when it fails.
-/

/-- The reply to a successful ENUM. -/
def enumReply (ds : List IrdaDevice) : Text :=
  (ds.map fun d => responseLine smartiStatusInfo ((enumLine d).take 2046)).flatten

/-- The reply to a HELP. -/
def helpReply : Text :=
  (smartiCmdTable.map fun cmd =>
    responseLine smartiStatusInfo ((cmd.name ++ '\t' :: cmd.desc).take 249)).flatten

/-- The replies a command can give. -/
def ReplyTo (cmd : SmartiCmd) (reply : Text) : Prop :=
  StatusReply reply ∨ (cmd = cmdXfer ∧ OneReply reply) ∨
    (cmd = cmdEnum ∧ ∃ ds, ds ≠ [] ∧ reply = enumReply ds) ∨ (cmd = cmdHelp ∧ reply = helpReply)

section Replies

variable {o : Option Nat} {E : Halt → Prop} {P : Text → Prop} {h : Nat}

/-- A syntax error is one line. -/
theorem syntaxError_sends (cmd : SmartiCmd) :
    Sends (S := S) o E StatusReply (syntaxError cmd) := by
  apply sendResponsef_sends (by decide)
  cases cmd <;> decide

/-- Parameters where there should be none. -/
theorem checkNoParams_replies {k : Daemon S Unit} (hP : ∀ reply, StatusReply reply → P reply)
    (hk : Replies o E P k) (cmd : SmartiCmd) (params : Option Text) :
    Replies o E P (checkNoParams cmd params k) := by
  cases params with
  | none => exact hk
  | some params => exact (syntaxError_sends cmd).replies.mono hP

/-- No parameters where there should be some. -/
theorem checkParams_replies {k : Text → Daemon S Unit} {params : Option Text}
    (hk : ∀ p, params = some p → Replies o E StatusReply (k p)) (cmd : SmartiCmd) :
    Replies o E StatusReply (checkParams cmd params k) := by
  cases params with
  | none => exact (syntaxError_sends cmd).replies
  | some params => exact hk params rfl

/-- What is said after `conn->dev` has been looked up. -/
theorem smartidConnDevice_replies {f : Option Nat → Daemon S Unit} (hf : Replies o E P (f o)) :
    Replies o E P (smartidConnDevice >>= f) := by
  intro c hc hdev
  refine (Triple.of_run (Q := fun dev c' => dev = o ∧ c' = c) (a := o) ?_ ⟨rfl, rfl⟩).bind ?_
  · rw [← hdev]
    rfl
  · rintro dev c' ⟨rfl, rfl⟩
    exact hf c' hc hdev

/-- The IrDA socket is asked for. -/
theorem smartidConnIrda_replies {f : Bool → Daemon S Unit} (hf : ∀ irda, Replies o E P (f irda)) :
    Replies o E P (smartidConnIrda >>= f) := by
  refine Keeps.replies (fun c hc => ?_) hf
  have hrun : smartidConnIrda.run c = .ok (c.irda, c) := rfl
  exact Triple.of_run hrun ⟨hc, Quiet.refl c⟩

/-- No device where there should be one. -/
theorem checkDevice_replies {k : Option Nat → Daemon S Unit}
    (hP : ∀ reply, StatusReply reply → P reply) (hk : ∀ h, o = some h → Replies o E P (k o)) :
    Replies o E P (checkDevice k) := by
  apply smartidConnDevice_replies
  cases o with
  | none => exact (sendResponsef_sends (by decide) (by decide)).replies.mono hP
  | some h => exact hk h rfl

theorem internalError_sends (rv : Int) : Sends (S := S) o E StatusReply (internalError rv) := by
  apply sendResponsef_sends (by decide)
  have hrv : '\n' ∉ decimalInt rv := not_mem_decimalInt (by decide) (by decide) rv
  simp only [List.mem_append, not_or]
  exact ⟨⟨by decide, hrv⟩, by decide⟩

theorem deviceError_sends (rv : Int) : Sends (S := S) o E StatusReply (deviceError rv) := by
  rw [deviceError]
  split
  case isTrue hrv =>
    subst hrv
    exact sendResponse_sends (by decide) (by decide)
  split
  case isTrue hrv =>
    subst hrv
    exact sendResponse_sends (by decide) (by decide)
  · exact internalError_sends rv

theorem connectError_sends (rv : Int) : Sends (S := S) o E StatusReply (connectError rv) := by
  rw [connectError]
  split
  case isTrue hrv =>
    subst hrv
    exact sendResponse_sends (by decide) (by decide)
  split
  case isTrue hrv =>
    subst hrv
    exact sendResponse_sends (by decide) (by decide)
  split
  case isTrue hrv =>
    subst hrv
    exact sendResponse_sends (by decide) (by decide)
  split
  case isTrue hrv =>
    subst hrv
    exact sendResponse_sends (by decide) (by decide)
  · exact internalError_sends rv

/-! ### Dropping the device

A device is taken from the connection and disposed of, in one step of the proof.
-/

/-- The pointer is written. -/
theorem smartidConnSetDevice_spec {o' : Option Nat} (hc : Owns c o) :
    Triple (smartidConnSetDevice o') c
      (fun _ c' => Owns c' o ∧ c'.dev = o' ∧ c'.out = c.out) E :=
  Triple.modify ⟨⟨hc.sound, hc.live, hc.heap, hc.fresh⟩, rfl, rfl⟩

/-- Neither the pointer nor the structure is left. -/
theorem dropDevice_spec (hc : Owns c (some h)) (hdev : c.dev = some h) :
    Triple dropDevice c (fun _ c' => WellFormed c' ∧ c'.dev = none ∧ c'.out = c.out) E := by
  refine (Triple.of_run (Q := fun dev c' => dev = some h ∧ c' = c) (a := some h) ?_
    ⟨rfl, rfl⟩).bind ?_
  · rw [← hdev]
    rfl
  rintro dev c' ⟨rfl, rfl⟩
  apply (smartidDevDispose_spec hc).bind
  rintro _ c₁ ⟨hc₁, hq⟩
  apply (smartidConnSetDevice_spec hc₁).imp
  rintro _ c₂ ⟨hc₂, hdev₂, hout₂⟩
  refine ⟨?_, hdev₂, hout₂.trans hq.out⟩
  rw [WellFormed, hdev₂]
  exact hc₂

/-- An error is reported and the device dropped. -/
theorem Sends.drop {m : Daemon S Unit} (hm : Sends (some h) E P m) :
    Replies (some h) E P (m >>= fun _ => dropDevice) := by
  intro c hc hdev
  apply (hm c hc).bind
  rintro _ c₁ ⟨hc₁, hdev₁, hreply⟩
  apply (dropDevice_spec hc₁ (hdev₁.trans hdev)).imp
  rintro _ c₂ ⟨hc₂, -, hout₂⟩
  rw [hout₂]
  exact ⟨hc₂, hreply⟩

/-! ### The commands

A command keeps the connection well formed and sends a reply of its own shape.
-/

/-- The commands that read a value. -/
theorem infoCommand_replies {text : Text} {ask : Option Nat → Daemon S (Except Int Nat)}
    {failure : Int → Daemon S Unit} (htext : '\n' ∉ text) (hask : ∀ h, Keeps (some h) E (ask (some h)))
    (hfail : ∀ h rv, Sends (some h) E StatusReply (failure rv)) (cmd : SmartiCmd)
    (params : Option Text) :
    Replies o E StatusReply (infoCommand cmd text ask failure params) := by
  refine checkNoParams_replies (fun _ h => h) (checkDevice_replies (fun _ h => h) ?_) cmd params
  rintro h rfl
  apply (hask h).replies
  rintro (rv | n)
  · exact (hfail h rv).drop
  · refine (sendResponsef_sends (by decide) ?_).replies
    rw [List.mem_append, not_or]
    exact ⟨htext, not_mem_decimal (by decide) n⟩

theorem smartidCmdClose_replies (params : Option Text) :
    Replies (S := S) o E StatusReply (smartidCmdClose params) := by
  refine checkNoParams_replies (fun _ h => h) (checkDevice_replies (fun _ h => h) ?_) cmdClose params
  rintro h rfl c hc hdev
  apply (dropDevice_spec hc hdev).bind
  rintro _ c₁ ⟨hc₁, -, hout₁⟩
  rw [← hout₁]
  exact (sendResponse_sends (by decide) (by decide)).replies c₁ hc₁ rfl

/-- Replies of a loop follow one another. -/
theorem forM_sends {ι : Type} {body : ι → Daemon S Unit} {text : ι → Text}
    (hbody : ∀ i, Sends o E (· = text i) (body i)) (is : List ι) :
    Sends o E (· = (is.map text).flatten) (is.forM body) := by
  induction is with
  | nil => exact fun c hc => Triple.pure ⟨hc, rfl, [], (List.append_nil _).symm, rfl⟩
  | cons i is ih =>
    intro c hc
    apply (hbody i c hc).bind
    rintro _ c₁ ⟨hc₁, hdev₁, _, hout₁, rfl⟩
    apply (ih c₁ hc₁).imp
    rintro _ c₂ ⟨hc₂, hdev₂, _, hout₂, rfl⟩
    refine ⟨hc₂, hdev₂.trans hdev₁, _, ?_, rfl⟩
    rw [hout₂, hout₁, List.map_cons, List.flatten_cons, List.append_assoc]

/-- The list of devices is reversed. -/
theorem foldl_irdaEnumCb (ds list : List IrdaDevice) :
    ds.foldl irdaEnumCb list = ds.reverse ++ list := by
  induction ds generalizing list with
  | nil => rfl
  | cons d ds ih =>
    rw [List.foldl_cons, ih, List.reverse_cons, List.append_assoc]
    rfl

/-- A line for each device, or one line. -/
theorem smartidCmdEnum_replies (params : Option Text) :
    Replies o E (ReplyTo cmdEnum) (smartidCmdEnum W params) := by
  refine checkNoParams_replies (fun _ h => .inl h) (smartidConnIrda_replies fun irda => ?_) cmdEnum
    params
  have hstatus : ∀ {code : Int} {msg : Text}, StatusCode code → '\n' ∉ msg →
      Replies (S := S) o E (ReplyTo cmdEnum) (smartidConnSendResponse code msg) :=
    fun hcode hmsg => (sendResponse_sends hcode hmsg).replies.mono fun _ h => .inl h
  show Replies o E _ (if _ then _ else _)
  split
  · exact hstatus (by decide) (by decide)
  apply (irdaCall_keeps _).replies
  rintro (_ | _ | ⟨d, ds⟩)
  · exact hstatus (by decide) (by decide)
  · exact hstatus (by decide) (by decide)
  · apply (forM_sends (fun d => evbufferAdd_sends _) _).replies.mono
    rintro reply rfl
    refine .inr (.inr (.inl ⟨rfl, (d :: ds).foldl irdaEnumCb [], ?_, rfl⟩))
    rw [foldl_irdaEnumCb]
    simp

theorem smartidCmdHelp_replies (params : Option Text) :
    Replies (S := S) o E (ReplyTo cmdHelp) (smartidCmdHelp params) := by
  refine checkNoParams_replies (fun _ h => .inl h) ?_ cmdHelp params
  apply (forM_sends (fun cmd => evbufferAdd_sends _) _).replies.mono
  rintro reply rfl
  exact .inr (.inr (.inr ⟨rfl, rfl⟩))

/-- The part of OPEN behind the scan of the parameters. -/
theorem openDevice_replies (addr lsap chunkSize : Nat) :
    Replies none E StatusReply (do
      match ← smartidDevAlloc (← smartidConnIrda) with
      | none => smartidConnSendResponse smartiErrorInternal "Failed to allocate storage".toList
      | some h =>
        match ← smartidDevConnect W (some h) addr lsap chunkSize with
        | .error rv =>
          connectError rv
          smartidDevDispose (some h)
        | .ok _ =>
          smartidConnSetDevice (some h)
          smartidConnSendResponse smartiStatusSuccess "Device Opened".toList) := by
  apply smartidConnIrda_replies
  rintro (_ | _) c hc hdev
  · -- without a socket no structure is allocated
    apply (Triple.of_run (Q := fun dev c' => dev = none ∧ c' = c) rfl ⟨rfl, rfl⟩).bind
    rintro _ _ ⟨rfl, rfl⟩
    exact (sendResponse_sends (by decide) (by decide)).replies _ hc hdev
  · apply (smartidDevAlloc_spec hc).bind
    rintro _ c₁ ⟨h, rfl, hc₁, hq₁⟩
    apply (smartidDevConnect_keeps addr lsap chunkSize c₁ hc₁).bind
    rintro (rv | _) c₂ ⟨hc₂, hq₂⟩
    · apply (connectError_sends rv c₂ hc₂).bind
      rintro _ c₃ ⟨hc₃, hdev₃, hreply⟩
      apply (smartidDevDispose_spec hc₃).imp
      rintro _ c₄ ⟨hc₄, hq₄⟩
      have hdev₄ : c₄.dev = none := by rw [hq₄.dev, hdev₃, hq₂.dev, hq₁.dev, hdev]
      rw [hq₂.out, hq₁.out] at hreply
      rw [WellFormed, hdev₄, hq₄.out]
      exact ⟨hc₄, hreply⟩
    · apply (smartidConnSetDevice_spec hc₂).bind
      rintro _ c₃ ⟨hc₃, hdev₃, hout₃⟩
      have hout : c₃.out = c.out := by rw [hout₃, hq₂.out, hq₁.out]
      rw [← hout]
      exact (sendResponse_sends (by decide) (by decide)).replies c₃ hc₃ hdev₃

theorem smartidCmdOpen_replies {params : Option Text} (hparams : ∀ p, params = some p → '\n' ∉ p) :
    Replies o E StatusReply (smartidCmdOpen W params) := by
  refine checkParams_replies (fun p hp => smartidConnDevice_replies ?_) cmdOpen
  cases o with
  | some h => exact (sendResponsef_sends (by decide) (by decide)).replies
  | none =>
    dsimp only
    split
    · refine (sendResponsef_sends (by decide) ?_).replies
      simp only [List.mem_append, not_or]
      exact ⟨⟨by decide, hparams p hp⟩, by decide⟩
    · exact openDevice_replies _ _ _

theorem smartidCmdToken_replies {params : Option Text} (hparams : ∀ p, params = some p → '\n' ∉ p) :
    Replies (S := S) o E StatusReply (smartidCmdToken params) := by
  refine checkParams_replies (fun p hp => checkDevice_replies (fun _ h => h) ?_) cmdToken
  rintro h rfl
  split
  · refine (sendResponsef_sends (by decide) ?_).replies
    simp only [List.mem_append, not_or]
    exact ⟨⟨by decide, hparams p hp⟩, by decide⟩
  next token _ =>
  intro c hc hdev
  apply ((smartidDevSetToken_ok hc token).and (smartidDevSetToken_keeps (E := E) token c hc)).bind
  rintro _ c₁ ⟨rfl, hc₁, hq₁⟩
  rw [← hq₁.out]
  exact (sendResponse_sends (by decide) (by decide)).replies c₁ hc₁
    (hq₁.dev.trans hdev)

/-- The result of a transfer can be sent. -/
def Sendable (r : Except Int (List UInt8)) : Prop :=
  ∀ data, r = .ok data → data.length ≤ maxEncodable

/-- A line with the size and one with the data, or an error. -/
theorem sendTransfer_replies {r : Except Int (List UInt8)} (hne : ∀ data, r = .ok data → data ≠ [])
    (hover : ¬Sendable r → E .overflow) : Replies (S := S) (some h) E OneReply (sendTransfer r) := by
  cases r with
  | ok data =>
    refine (sendBuffer_sends (hne data rfl) fun hlong => hover fun hsend => ?_).replies
    exact absurd (hsend data rfl) (Nat.not_le.mpr hlong)
  | error rv =>
    refine Replies.mono (P := StatusReply) ?_ fun _ h => h.one
    rw [sendTransfer]
    split
    case isTrue hrv =>
      subst hrv
      exact (sendResponse_sends (by decide) (by decide)).replies
    split
    case isTrue hrv =>
      subst hrv
      exact (sendResponse_sends (by decide) (by decide)).replies
    · exact (deviceError_sends rv).drop

/-- XFER, with the ways in which it may halt. -/
theorem smartidCmdXfer_replies (hpending : E .pending) (hfree : E .foreignFree)
    (hover : E .overflow) (fuel : Nat) (params : Option Text) :
    Replies o E OneReply (smartidCmdXfer W fuel params) := by
  refine checkNoParams_replies (fun _ h => h.one) (checkDevice_replies (fun _ h => h.one) ?_) cmdXfer
    params
  rintro h rfl
  intro c hc hdev
  apply (smartidDevXferData_spec hc hpending hfree fuel).bind
  rintro r c₁ ⟨⟨hc₁, hq₁⟩, hdata⟩
  rw [← hq₁.out]
  exact sendTransfer_replies hdata (fun _ => hover) c₁ hc₁ (hq₁.dev.trans hdev)

/-- **Every command replies**: it keeps the connection well formed and puts one
of its replies into the output.  Only XFER can halt. -/
theorem func_replies {params : Option Text} (hparams : ∀ p, params = some p → '\n' ∉ p)
    (cmd : SmartiCmd) (hE : cmd = cmdXfer → E .pending ∧ E .foreignFree ∧ E .overflow)
    (fuel : Nat) : Replies o E (ReplyTo cmd) (cmd.func W fuel params) := by
  have hstatus : ∀ cmd reply, StatusReply reply → ReplyTo cmd reply := fun _ _ h => .inl h
  -- all replies but those of ENUM, HELP and XFER are status lines
  cases cmd with
  | cmdClose => exact (smartidCmdClose_replies params).mono (hstatus _)
  | cmdEnum => exact smartidCmdEnum_replies params
  | cmdHelp => exact smartidCmdHelp_replies params
  | cmdModel =>
    exact (infoCommand_replies (by decide) (fun _ => smartidDevModel_keeps)
      (fun _ => deviceError_sends) cmdModel params).mono (hstatus _)
  | cmdOpen => exact (smartidCmdOpen_replies hparams).mono (hstatus _)
  | cmdSerial =>
    exact (infoCommand_replies (by decide) (fun _ => smartidDevSerial_keeps)
      (fun _ => deviceError_sends) cmdSerial params).mono (hstatus _)
  | cmdSize =>
    exact (infoCommand_replies (by decide) (fun _ => smartidDevXferSize_keeps)
      (fun _ => deviceError_sends) cmdSize params).mono (hstatus _)
  | cmdTcorr =>
    exact (infoCommand_replies (by decide) (fun _ => smartidDevTcorr_keeps)
      (fun _ => internalError_sends) cmdTcorr params).mono (hstatus _)
  | cmdTicks =>
    exact (infoCommand_replies (by decide) (fun _ => smartidDevTicks_keeps)
      (fun _ => internalError_sends) cmdTicks params).mono (hstatus _)
  | cmdToken => exact (smartidCmdToken_replies hparams).mono (hstatus _)
  | cmdXfer =>
    obtain ⟨hpending, hfree, hover⟩ := hE rfl
    refine (smartidCmdXfer_replies hpending hfree hover fuel params).mono fun _ h => ?_
    exact .inr (.inl ⟨rfl, h⟩)

end Replies

end BenthosDc

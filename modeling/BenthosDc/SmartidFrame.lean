/-
BenthosDc/SmartidFrame.lean

The commands of a connection touch only what belongs to it.

The process holds the device structures of all connections.  `InFrame` relates what belongs to
one connection to the whole of it; the structures `F` of the others are the frame.  A command
does on the whole what it does on the part of its connection (`smartidCmdProcess_local`), as
long as it follows no handle into the frame.

This is a frame rule: the program is followed once on the part and once on the whole, from
states that are in the relation, and the two results are the same.
-/
import BenthosDc.Lib.Frame
import BenthosDc.SmartidCmd

namespace BenthosDc

open CString Hoare Lifetime Loop

variable {S α : Type}

/-- The part `p` of a connection and the whole process `w`: `F` are the structures of the other
connections.  The part has begun with the trace `e₀` and the whole with `e`, when `n` was the
next handle. -/
structure InFrame (F : Nat → Option SmartDevice) (n : Nat) (e₀ e : List (Event Nat))
    (p w : Conn S) : Prop where
  world : w.world = p.world
  irda : w.irda = p.irda
  dev : w.dev = p.dev
  out : w.out = p.out
  next : w.next = p.next
  heap : ∀ h, w.heap h = (F h).or (p.heap h)
  apart : ∀ h, F h ≠ none → p.heap h = none ∧ h < p.next
  le : n ≤ p.next
  events : ∃ new, p.events = e₀ ++ new ∧ w.events = e ++ new ∧ ∀ h, .alloc h ∈ new → n ≤ h

/-- A program that does the same on the whole, unless it leaves the part. -/
abbrev Local (F : Nat → Option SmartDevice) (n : Nat) (e₀ e : List (Event Nat))
    (m : Daemon S α) : Prop :=
  Framed (InFrame F n e₀ e) (· = .dangling) m

variable {F : Nat → Option SmartDevice} {n : Nat} {e₀ e : List (Event Nat)} {W : Irda S}
  {p w : Conn S} {h : Nat}

/-! ### Primitives

Steps on the connection itself leave the heap alone, and steps on the heap take a handle that
is not in the frame.
-/

/-- Only the traces have grown. -/
theorem InFrame.record {x : Event Nat} (hw : InFrame F n e₀ e p w)
    (hx : ∀ h, x = .alloc h → n ≤ h) :
    InFrame F n e₀ e { p with events := p.events ++ [x] }
      { w with events := w.events ++ [x] } := by
  obtain ⟨new, hp, hwhole, hnew⟩ := hw.events
  refine ⟨hw.world, hw.irda, hw.dev, hw.out, hw.next, hw.heap, hw.apart, hw.le,
    new ++ [x], ?_, ?_, ?_⟩
  · rw [← List.append_assoc, ← hp]
  · rw [← List.append_assoc, ← hwhole]
  · intro h hmem
    rw [List.mem_append, List.mem_singleton] at hmem
    rcases hmem with hmem | hmem
    · exact hnew h hmem
    · exact hx h hmem.symm

/-- A structure outside the frame is set. -/
theorem InFrame.update (hw : InFrame F n e₀ e p w) (hF : F h = none) (d : Option SmartDevice) :
    InFrame F n e₀ e { p with heap := Function.update p.heap h d }
      { w with heap := Function.update w.heap h d } := by
  refine ⟨hw.world, hw.irda, hw.dev, hw.out, hw.next, ?_, ?_, hw.le, hw.events⟩
  · intro k
    show Function.update w.heap h d k = (F k).or (Function.update p.heap h d k)
    by_cases hk : k = h
    · subst hk
      simp [hF]
    · rw [Function.update_of_ne hk, Function.update_of_ne hk]
      exact hw.heap k
  · intro k hk
    have hne : k ≠ h := by
      rintro rfl
      exact hk hF
    show Function.update p.heap h d k = none ∧ _
    rw [Function.update_of_ne hne]
    exact hw.apart k hk

/-- The world belongs to the connection. -/
theorem irdaCall_local (f : S → α × S) : Local F n e₀ e (irdaCall f) := by
  intro p w hw
  have hrun : (irdaCall f).run w = .ok ((f p.world).1, { w with world := (f p.world).2 }) := by
    rw [← hw.world]
    rfl
  exact Triple.of_run rfl ⟨_, hrun,
    ⟨rfl, hw.irda, hw.dev, hw.out, hw.next, hw.heap, hw.apart, hw.le, hw.events⟩⟩

/-- A structure outside the frame is written. -/
theorem setHeap_local (hF : F h = none) (d : Option SmartDevice) :
    Local (S := S) F n e₀ e (setHeap h d) :=
  Framed.modify fun _ _ hw => hw.update hF d

/-- New handles are not those of the frame. -/
theorem record_local {x : Event Nat} (hx : ∀ h, x = .alloc h → n ≤ h) :
    Local (S := S) F n e₀ e (record x) :=
  Framed.modify fun _ _ hw => hw.record hx

/-- **A handle that is followed in the part leads outside the frame.** -/
theorem deref_bind_local {f : SmartDevice → Daemon S α}
    (hf : F h = none → ∀ d, Local F n e₀ e (f d)) : Local F n e₀ e (deref h >>= f) := by
  intro p w hw
  cases hd : p.heap h with
  | none =>
    have hrun : (deref h).run p = .error .dangling := by
      show deref h p = _
      rw [deref, hd]
    exact Triple.of_run_error (run_bind_of_error hrun) (.inl rfl)
  | some d =>
    have hF : F h = none := by
      by_contra hF
      rw [(hw.apart h hF).1] at hd
      cases hd
    have hwhole : w.heap h = some d := by rw [hw.heap, hF, hd, Option.none_or]
    have hrun := deref_run hwhole
    rw [run_bind_of_ok hrun]
    exact Triple.of_run_eq (run_bind_of_ok (deref_run hd)) (hf hF d p w hw)

/-- The device of the connection. -/
theorem smartidConnDevice_local : Local (S := S) F n e₀ e smartidConnDevice :=
  Framed.of_run (fun _ => rfl) (fun _ _ hw => hw.dev) fun _ _ hw => hw

theorem smartidConnIrda_local : Local (S := S) F n e₀ e smartidConnIrda :=
  Framed.of_run (fun _ => rfl) (fun _ _ hw => hw.irda) fun _ _ hw => hw

/-- Another device, or none. -/
theorem smartidConnSetDevice_local (dev : Option Nat) :
    Local (S := S) F n e₀ e (smartidConnSetDevice dev) :=
  Framed.modify fun _ _ hw =>
    ⟨hw.world, hw.irda, rfl, hw.out, hw.next, hw.heap, hw.apart, hw.le, hw.events⟩

/-- The output of the connection. -/
theorem evbufferAdd_local (text : Text) : Local (S := S) F n e₀ e (evbufferAdd text) :=
  Framed.modify fun _ _ hw => ⟨hw.world, hw.irda, hw.dev, congrArg (· ++ text) hw.out, hw.next,
    hw.heap, hw.apart, hw.le, hw.events⟩

/-- The structure that is allocated is new to the frame as well. -/
theorem smartidDevAlloc_local (irda : Bool) : Local (S := S) F n e₀ e (smartidDevAlloc irda) := by
  intro p w hw
  cases irda with
  | false => exact Triple.of_run rfl ⟨w, rfl, hw⟩
  | true =>
    have hF : F p.next = none := by
      by_contra hF
      exact lt_irrefl _ (hw.apart _ hF).2
    have hrun : (smartidDevAlloc true).run w = .ok (some p.next, { w with
        heap := Function.update w.heap p.next (some {})
        next := p.next + 1
        events := w.events ++ [.alloc p.next] }) := by
      rw [← hw.next]
      rfl
    have hrecord := (hw.update hF (some {})).record (x := .alloc p.next) (by
      rintro _ ⟨⟩
      exact hw.le)
    refine Triple.of_run rfl ⟨_, hrun, ⟨hrecord.world, hrecord.irda, hrecord.dev, hrecord.out, rfl,
      hrecord.heap, ?_, Nat.le_succ_of_le hw.le, hrecord.events⟩⟩
    intro k hk
    exact ⟨(hrecord.apart k hk).1, Nat.lt_succ_of_lt (hrecord.apart k hk).2⟩

/-- The device is gone, in both. -/
theorem smartidDevDispose_local (dev : Option Nat) :
    Local (S := S) F n e₀ e (smartidDevDispose dev) := by
  cases dev with
  | none => exact Framed.pure _
  | some h =>
    refine deref_bind_local fun hF _ => (setHeap_local hF none).bind fun _ => record_local ?_
    rintro _ ⟨⟩

/-! ### Operations on the device

The device is followed through the pointer of the connection, which is not in the frame.
-/

/-- A command on the socket. -/
theorem smartDriverCmd_local (cmd ans : List UInt8) : Local F n e₀ e (smartDriverCmd W cmd ans) := by
  apply (irdaCall_local _).bind
  rintro (_ | _ | _)
  · exact Framed.pure _
  · exact Framed.pure _
  · apply (irdaCall_local _).bind
    rintro (_ | _ | _)
    · exact Framed.pure _
    · exact Framed.pure _
    · exact Framed.pure _

theorem smartReadUchar_local (cmd ans : List UInt8) : Local F n e₀ e (smartReadUchar W cmd ans) := by
  apply (smartDriverCmd_local cmd ans).bind
  rintro (_ | _)
  · exact Framed.pure _
  · exact Framed.pure _

theorem smartReadUlong_local (cmd ans : List UInt8) : Local F n e₀ e (smartReadUlong W cmd ans) := by
  apply (smartDriverCmd_local cmd ans).bind
  rintro (_ | _)
  · exact Framed.pure _
  · exact Framed.pure _

theorem smartDriverHandshake_local : Local F n e₀ e (smartDriverHandshake W) := by
  refine (irdaCall_local _).bind fun ans => (smartDriverCmd_local _ ans).bind ?_
  rintro (_ | ans)
  · exact Framed.pure _
  refine Framed.ite (Framed.pure _) ((smartDriverCmd_local _ ans).bind ?_)
  rintro (_ | ans)
  · exact Framed.pure _
  · exact Framed.ite (Framed.pure _) (Framed.pure _)

/-- An operation on the device. -/
theorem withDevice_local {op : Nat → SmartDevice → Daemon S (Except Int α)}
    (hop : ∀ h d, F h = none → Local F n e₀ e (op h d)) (dev : Option Nat) :
    Local F n e₀ e (withDevice dev op) := by
  cases dev with
  | none => exact Framed.pure _
  | some h =>
    refine deref_bind_local fun hF d => (record_local ?_).bind fun _ => hop h d hF
    rintro _ ⟨⟩

theorem smartidDevConnect_local (dev : Option Nat) (addr lsap chunkSize : Nat) :
    Local F n e₀ e (smartidDevConnect W dev addr lsap chunkSize) := by
  refine withDevice_local (fun h d hF => ?_) dev
  refine (setHeap_local hF _).bind fun _ => (irdaCall_local _).bind ?_
  rintro (_ | _ | _)
  · exact Framed.pure _
  · exact Framed.pure _
  refine smartDriverHandshake_local.bind fun rv => Framed.ite (Framed.pure _) ?_
  refine (smartReadUlong_local _ _).bind ?_
  rintro (_ | ticks)
  · exact Framed.pure _
  · exact (irdaCall_local _).bind fun _ => (setHeap_local hF _).bind fun _ => Framed.pure _

theorem smartidDevModel_local (dev : Option Nat) : Local F n e₀ e (smartidDevModel W dev) :=
  withDevice_local (fun _ _ _ => (irdaCall_local _).bind fun _ => smartReadUchar_local _ _) dev

theorem smartidDevSerial_local (dev : Option Nat) : Local F n e₀ e (smartidDevSerial W dev) :=
  withDevice_local (fun _ _ _ => (irdaCall_local _).bind fun _ => smartReadUlong_local _ _) dev

theorem smartidDevTcorr_local (dev : Option Nat) : Local (S := S) F n e₀ e (smartidDevTcorr dev) :=
  withDevice_local (fun _ _ _ => Framed.pure _) dev

theorem smartidDevTicks_local (dev : Option Nat) : Local (S := S) F n e₀ e (smartidDevTicks dev) :=
  withDevice_local (fun _ _ _ => Framed.pure _) dev

theorem smartidDevSetToken_local (dev : Option Nat) (token : Nat) :
    Local (S := S) F n e₀ e (smartidDevSetToken dev token) :=
  withDevice_local (fun _ _ hF => (setHeap_local hF _).bind fun _ => Framed.pure _) dev

theorem smartidDevXferSize_local (dev : Option Nat) : Local F n e₀ e (smartidDevXferSize W dev) :=
  withDevice_local (fun _ _ _ => (irdaCall_local _).bind fun _ => smartReadUlong_local _ _) dev

theorem freeForeign_local : Local F n e₀ e (freeForeign W) := by
  intro p w hw
  have hrun : ∀ c : Conn S, (freeForeign W).run c =
      if W.foreignFree then .ok ((), c) else .error .foreignFree := fun _ => rfl
  by_cases hfree : W.foreignFree
  · refine Triple.of_run ((hrun p).trans (if_pos hfree)) ⟨w, (hrun w).trans (if_pos hfree), hw⟩
  · exact Triple.of_run_error ((hrun p).trans (if_neg hfree))
      (.inr ((hrun w).trans (if_neg hfree)))

/-- The loop that reads a block sees the world only. -/
theorem readBlock_local (fuel csize len : Nat) : Local F n e₀ e (readBlock W fuel csize len) := by
  intro p w hw
  cases hiter : iterate (readChunk W csize) fuel (p.world, [], len) with
  | next s =>
    have hrun : ∀ c : Conn S, c.world = p.world →
        (readBlock W fuel csize len).run c = .error .pending := by
      intro c hc
      show readBlock W fuel csize len c = _
      rw [readBlock, hc, hiter]
    exact Triple.of_run_error (hrun p rfl) (.inr (hrun w hw.world))
  | stop r =>
    have hrun : ∀ c : Conn S, c.world = p.world →
        (readBlock W fuel csize len).run c = .ok (r.1, { c with world := r.2 }) := by
      intro c hc
      show readBlock W fuel csize len c = _
      rw [readBlock, hc, hiter]
    exact Triple.of_run (hrun p rfl) ⟨_, hrun w hw.world,
      ⟨rfl, hw.irda, hw.dev, hw.out, hw.next, hw.heap, hw.apart, hw.le, hw.events⟩⟩

theorem receiveBlock_local (fuel csize nb : Nat) : Local F n e₀ e (receiveBlock W fuel csize nb) := by
  refine Framed.ite (Framed.pure _) (Framed.ite (Framed.pure _) ?_)
  apply (readBlock_local _ _ _).bind
  rintro (_ | _ | _)
  · exact freeForeign_local.bind fun _ => Framed.pure _
  · exact freeForeign_local.bind fun _ => Framed.pure _
  · exact Framed.pure _

/-- A transfer with its loop. -/
theorem smartidDevXferData_local (fuel : Nat) (dev : Option Nat) :
    Local F n e₀ e (smartidDevXferData W fuel dev) := by
  refine withDevice_local (fun _ d _ => (irdaCall_local _).bind fun _ =>
    (smartReadUlong_local _ _).bind ?_) dev
  rintro (_ | nb)
  · exact Framed.pure _
  · exact receiveBlock_local _ _ _

/-! ### Commands

All eleven commands are put together from the steps above.
-/

theorem sendResponse_local (code : Int) (msg : Text) :
    Local (S := S) F n e₀ e (smartidConnSendResponse code msg) := evbufferAdd_local _

theorem sendResponsef_local (code : Int) (msg : Text) :
    Local (S := S) F n e₀ e (smartidConnSendResponsef code msg) := evbufferAdd_local _

theorem sendBuffer_local (data : List UInt8) :
    Local (S := S) F n e₀ e (smartidConnSendBuffer data) := by
  rw [smartidConnSendBuffer]
  apply Framed.ite (Framed.pure _)
  split
  · exact Framed.pure _
  · exact Framed.throw _
  · exact (sendResponsef_local _ _).bind fun _ => evbufferAdd_local _

theorem smartidConnDispose_local : Local (S := S) F n e₀ e smartidConnDispose := by
  apply smartidConnDevice_local.bind
  rintro (_ | h)
  · exact Framed.pure _
  · exact smartidDevDispose_local _

theorem dropDevice_local : Local (S := S) F n e₀ e dropDevice :=
  smartidConnDevice_local.bind fun _ => (smartidDevDispose_local _).bind fun _ =>
    smartidConnSetDevice_local _

theorem checkNoParams_local {k : Daemon S Unit} (hk : Local F n e₀ e k) (cmd : SmartiCmd)
    (params : Option Text) : Local F n e₀ e (checkNoParams cmd params k) := by
  cases params with
  | none => exact hk
  | some params => exact sendResponsef_local _ _

theorem checkParams_local {k : Text → Daemon S Unit} (hk : ∀ params, Local F n e₀ e (k params))
    (cmd : SmartiCmd) (params : Option Text) : Local F n e₀ e (checkParams cmd params k) := by
  cases params with
  | none => exact sendResponsef_local _ _
  | some params => exact hk params

theorem checkDevice_local {k : Option Nat → Daemon S Unit} (hk : ∀ dev, Local F n e₀ e (k dev)) :
    Local F n e₀ e (checkDevice k) := by
  apply smartidConnDevice_local.bind
  rintro (_ | h)
  · exact sendResponsef_local _ _
  · exact hk _

theorem deviceError_local (rv : Int) : Local (S := S) F n e₀ e (deviceError rv) :=
  Framed.ite (sendResponse_local _ _) (Framed.ite (sendResponse_local _ _) (sendResponsef_local _ _))

theorem connectError_local (rv : Int) : Local (S := S) F n e₀ e (connectError rv) :=
  Framed.ite (sendResponse_local _ _) (Framed.ite (sendResponse_local _ _)
    (Framed.ite (sendResponse_local _ _) (Framed.ite (sendResponse_local _ _)
      (sendResponsef_local _ _))))

/-- The commands that read a value. -/
theorem infoCommand_local {ask : Option Nat → Daemon S (Except Int Nat)}
    {failure : Int → Daemon S Unit} (hask : ∀ dev, Local F n e₀ e (ask dev))
    (hfail : ∀ rv, Local F n e₀ e (failure rv)) (cmd : SmartiCmd) (text : Text)
    (params : Option Text) : Local F n e₀ e (infoCommand cmd text ask failure params) := by
  refine checkNoParams_local (checkDevice_local fun dev => (hask dev).bind ?_) cmd params
  rintro (rv | k)
  · exact (hfail rv).bind fun _ => dropDevice_local
  · exact sendResponsef_local _ _

theorem smartidCmdClose_local (params : Option Text) :
    Local (S := S) F n e₀ e (smartidCmdClose params) :=
  checkNoParams_local (checkDevice_local fun _ => dropDevice_local.bind fun _ =>
    sendResponse_local _ _) _ params

theorem smartidCmdEnum_local (params : Option Text) : Local F n e₀ e (smartidCmdEnum W params) := by
  refine checkNoParams_local (smartidConnIrda_local.bind fun irda => ?_) _ params
  refine Framed.ite (sendResponse_local _ _) ((irdaCall_local _).bind ?_)
  rintro (_ | _ | ⟨d, ds⟩)
  · exact sendResponse_local _ _
  · exact sendResponse_local _ _
  · exact Framed.forM (fun _ => sendResponsef_local _ _) _

theorem smartidCmdHelp_local (params : Option Text) :
    Local (S := S) F n e₀ e (smartidCmdHelp params) :=
  checkNoParams_local (Framed.forM (fun _ => sendResponse_local _ _) _) _ params

/-- A device that is opened gets the same handle in both. -/
theorem smartidCmdOpen_local (params : Option Text) : Local F n e₀ e (smartidCmdOpen W params) := by
  refine checkParams_local (fun params => smartidConnDevice_local.bind ?_) _ params
  rintro (_ | _)
  · dsimp only
    split
    · exact sendResponsef_local _ _
    refine smartidConnIrda_local.bind fun irda => (smartidDevAlloc_local irda).bind ?_
    rintro (_ | h)
    · exact sendResponse_local _ _
    apply (smartidDevConnect_local _ _ _ _).bind
    rintro (rv | _)
    · exact (connectError_local rv).bind fun _ => smartidDevDispose_local _
    · exact (smartidConnSetDevice_local _).bind fun _ => sendResponse_local _ _
  · exact sendResponsef_local _ _

theorem smartidCmdToken_local (params : Option Text) :
    Local (S := S) F n e₀ e (smartidCmdToken params) := by
  refine checkParams_local (fun params => checkDevice_local fun dev => ?_) _ params
  split
  · exact sendResponsef_local _ _
  apply (smartidDevSetToken_local dev _).bind
  rintro (rv | _)
  · exact (sendResponsef_local _ _).bind fun _ => sendResponse_local _ _
  · exact sendResponse_local _ _

theorem sendTransfer_local (r : Except Int (List UInt8)) :
    Local (S := S) F n e₀ e (sendTransfer r) := by
  cases r with
  | ok data => exact sendBuffer_local data
  | error rv =>
    exact Framed.ite (sendResponse_local _ _) (Framed.ite (sendResponse_local _ _)
      ((deviceError_local rv).bind fun _ => dropDevice_local))

theorem smartidCmdXfer_local (fuel : Nat) (params : Option Text) :
    Local F n e₀ e (smartidCmdXfer W fuel params) :=
  checkNoParams_local (checkDevice_local fun dev => (smartidDevXferData_local fuel dev).bind
    sendTransfer_local) _ params

/-- Each command of the table. -/
theorem func_local (fuel : Nat) (cmd : SmartiCmd) (params : Option Text) :
    Local F n e₀ e (cmd.func W fuel params) := by
  cases cmd with
  | cmdClose => exact smartidCmdClose_local params
  | cmdEnum => exact smartidCmdEnum_local params
  | cmdHelp => exact smartidCmdHelp_local params
  | cmdModel => exact infoCommand_local smartidDevModel_local deviceError_local _ _ params
  | cmdOpen => exact smartidCmdOpen_local params
  | cmdSerial => exact infoCommand_local smartidDevSerial_local deviceError_local _ _ params
  | cmdSize => exact infoCommand_local smartidDevXferSize_local deviceError_local _ _ params
  | cmdTcorr =>
    exact infoCommand_local smartidDevTcorr_local (fun _ => sendResponsef_local _ _) _ _ params
  | cmdTicks =>
    exact infoCommand_local smartidDevTicks_local (fun _ => sendResponsef_local _ _) _ _ params
  | cmdToken => exact smartidCmdToken_local params
  | cmdXfer => exact smartidCmdXfer_local fuel params

/-- **A command line does on the whole process what it does on the part of its connection.** -/
theorem smartidCmdProcess_local (fuel : Nat) (line : Text) :
    Local F n e₀ e (smartidCmdProcess W fuel line) := by
  apply Framed.ite (sendResponsef_local _ _)
  split
  · exact func_local fuel _ _
  · split
    · exact Framed.pure _
    · exact sendResponsef_local _ _

end BenthosDc

/-
BenthosDc/SmartMessages.lean

Who owns the error message of a Smart device.

A message that has been copied belongs to the device until the next error or the end of the
device frees it.  The drivers set their errors with `smart_device_set_error` only, which
keeps this true (`MessageOwned.setError`).  The parser assigns the message itself and leaves
the flag as it is.

* `messagesOwned_iff`: in which runs the message is owned.

A copied message that a parser call overwrites is lost, and the literal that it puts in its
place is freed by the next error.  Both come from the same flag, so that the condition names
the calls of the parser that store an error while the flag is set.
-/
import BenthosDc.SmartParserReset
import BenthosDc.SmartPluginOwned

namespace BenthosDc

open CString Hoare Lifetime Loop

variable {S σ α β : Type}

/-! ### Messages

A message is a pointer, and `errdyn` says whether it was copied.  A flagged message is a copy
that is still there, and nothing but copies is ever freed.
-/

/-- A copied message that has been made by `smart_device_set_error`. -/
def SmartBase.Copied (base : SmartBase) (p : MessagePtr) : Prop :=
  ∃ n < base.copies, p = .copied n

/-- A message that is flagged is a copy that has not been freed, and only copies have been
freed, once each. -/
structure MessageOwned (base : SmartBase) : Prop where
  current : base.errdyn = true → base.Copied base.errptr ∧ base.errptr ∉ base.frees
  freed : ∀ p ∈ base.frees, base.Copied p
  once : base.frees.Nodup

/-- A new device has no message. -/
theorem messageOwned_new : MessageOwned {} where
  current h := nomatch h
  freed _ hp := nomatch hp
  once := List.nodup_nil

/-- Only copies have been freed, once each. -/
def Released (base : SmartBase) : Prop :=
  (∀ p ∈ base.frees, base.Copied p) ∧ base.frees.Nodup

section Base

variable {base base' : SmartBase}

/-- The other fields have nothing to do with it. -/
theorem MessageOwned.congr (h : MessageOwned base) (hdyn : base'.errdyn = base.errdyn)
    (hptr : base'.errptr = base.errptr) (hcopies : base'.copies = base.copies)
    (hfrees : base'.frees = base.frees) : MessageOwned base' := by
  obtain ⟨hcurrent, hfreed, honce⟩ := h
  constructor
  · rw [hdyn, hptr, hfrees, SmartBase.Copied, hcopies]
    exact hcurrent
  · intro p hp
    rw [SmartBase.Copied, hcopies]
    exact hfreed p (hfrees ▸ hp)
  · rw [hfrees]
    exact honce

/-- Freeing does not change which pointer the device has. -/
theorem copied_freeError {p : MessagePtr} : base.freeError.Copied p ↔ base.Copied p := by
  rw [SmartBase.Copied, SmartBase.freeError]
  split
  · exact Iff.rfl
  · exact Iff.rfl

/-- What is freed is a copy, and it has not been freed before. -/
theorem MessageOwned.freeError (h : MessageOwned base) : Released base.freeError := by
  rw [SmartBase.freeError]
  split
  case isFalse => exact ⟨h.freed, h.once⟩
  case isTrue hdyn =>
    obtain ⟨hcopied, hnew⟩ := h.current hdyn
    constructor
    · intro p hp
      rcases List.mem_append.mp hp with hp | hp
      · exact h.freed p hp
      · rw [List.mem_singleton.mp hp]
        exact hcopied
    · apply List.nodup_append.mpr
      refine ⟨h.once, List.nodup_singleton _, ?_⟩
      rintro p hp q hq rfl
      exact hnew (List.mem_singleton.mp hq ▸ hp)

/-- **An error that is set is owned**: the old message is freed if it was a copy, and the
new one is a fresh copy or not flagged. -/
theorem MessageOwned.setError (h : MessageOwned base) (code : Int) (msg : ErrorText)
    (copy : Bool) : MessageOwned (base.setError code msg copy) := by
  obtain ⟨hfreed, honce⟩ := h.freeError
  have hgrows : ∀ p, base.Copied p → (base.setError code msg copy).Copied p := by
    rintro p ⟨n, hn, rfl⟩
    refine ⟨n, ?_, rfl⟩
    show n < if copy then base.copies + 1 else base.copies
    split
    · omega
    · exact hn
  constructor
  · intro hcopy
    have hcopy : copy = true := hcopy
    subst hcopy
    refine ⟨⟨base.copies, Nat.lt_succ_self _, rfl⟩, ?_⟩
    -- no copy of this number has been made, let alone freed
    intro hmem
    obtain ⟨n, hn, heq⟩ := copied_freeError.mp (hfreed (.copied base.copies) hmem)
    cases heq
    exact Nat.lt_irrefl _ hn
  · intro p hp
    exact hgrows p (copied_freeError.mp (hfreed p hp))
  · exact honce

/-- **A message that the parser assigns is owned if and only if** the flag is not set. -/
theorem messageOwned_assignError (h : MessageOwned base) (dev : SmartDeviceBase) :
    MessageOwned (base.assignError dev) ↔ base.errdyn = false := by
  constructor
  · intro hassigned
    by_contra hdyn
    obtain ⟨⟨n, -, hn⟩, -⟩ := hassigned.current (Bool.eq_true_of_not_eq_false hdyn)
    cases hn
  · intro hdyn
    constructor
    · intro hdyn'
      have hdyn' : base.errdyn = true := hdyn'
      rw [hdyn] at hdyn'
      cases hdyn'
    · exact h.freed
    · exact h.once

end Base

/-- The error of the device callback, or of its token. -/
theorem transferToken_owned (dcb : Option DeviceCallback) {base : SmartBase}
    (h : MessageOwned base) : MessageOwned (transferToken dcb base).1 := by
  unfold transferToken
  cases dcb with
  | none => exact h
  | some dcb =>
    dsimp only
    split
    · exact h.setError _ _ _
    · split
      · exact h
      · split
        · exact h.setError _ _ _
        · exact h

/-! ### Programs

A program keeps the invariant if each of its runs does.  The rules follow the combinators in
which the drivers are written.
-/

section Programs

variable [HasBase σ]

/-- A program that keeps the message owned, however it ends. -/
abbrev KeepsMessage (m : Driver σ α) : Prop :=
  Maintains (fun d => MessageOwned (HasBase.base d.state)) (fun _ => True) (fun _ => True) m

/-- A program that leaves the state alone. -/
theorem LeavesState.keepsMessage {m : Driver σ α} (hm : LeavesState m) : KeepsMessage m :=
  hm.maintains fun s => MessageOwned (HasBase.base s)

/-- A change of the state that keeps the invariant of the device. -/
theorem keepsMessage_modifyState {f : σ → σ}
    (hf : ∀ s, MessageOwned (HasBase.base s) → MessageOwned (HasBase.base (f s))) :
    KeepsMessage (modifyState f) := fun d hd => Triple.of_run rfl ⟨trivial, hf d.state hd⟩

theorem keepsMessage_getState : KeepsMessage (σ := σ) getState :=
  leavesState_getState.keepsMessage

theorem keepsMessage_allocHandle : KeepsMessage (σ := σ) allocHandle :=
  leavesState_allocHandle.keepsMessage

theorem keepsMessage_useHandle (h : Nat) : KeepsMessage (σ := σ) (useHandle h) :=
  (leavesState_useHandle h).keepsMessage

theorem keepsMessage_disposeHandle (h : Nat) : KeepsMessage (σ := σ) (disposeHandle h) :=
  (leavesState_disposeHandle h).keepsMessage

theorem keepsMessage_pure (a : α) : KeepsMessage (σ := σ) (pure a) := Maintains.pure trivial

theorem keepsMessage_throw (e : Halt) : KeepsMessage (σ := σ) (throw e : Driver σ α) :=
  Maintains.throw trivial

theorem KeepsMessage.bind {m : Driver σ α} {f : α → Driver σ β} (hm : KeepsMessage m)
    (hf : ∀ a, KeepsMessage (f a)) : KeepsMessage (m >>= f) :=
  Maintains.bind hm fun a _ => hf a

theorem KeepsMessage.ite {c : Prop} {_ : Decidable c} {m m' : Driver σ α} (hm : KeepsMessage m)
    (hm' : KeepsMessage m') : KeepsMessage (if c then m else m') :=
  Maintains.ite (fun _ => hm) fun _ => hm'

/-- A program behind one that keeps the message owned. -/
theorem KeepsMessage.seq {m : Driver σ α} {m' : Driver σ β} (hm : KeepsMessage m)
    (hm' : KeepsMessage m') : KeepsMessage (do let _ ← m; m') :=
  hm.bind fun _ => hm'

end Programs

/-! ### The local driver

Each function is gone through once.  Those that set no error keep the message because they do
not touch it.
-/

section SmartMessages

variable {H : SmartHost S}

theorem keepsMessage_call (f : S → α × S) : KeepsMessage (Smart.call f) := fun _ hd =>
  Triple.of_run rfl ⟨trivial, hd⟩

theorem keepsMessage_getDev : KeepsMessage (σ := SmartProc S) Smart.getDev := fun _ hd =>
  Triple.of_run rfl ⟨trivial, hd⟩

theorem keepsMessage_setDev {f : SmartDev → SmartDev}
    (hf : ∀ dev, MessageOwned dev.base → MessageOwned (f dev).base) :
    KeepsMessage (σ := SmartProc S) (Smart.setDev f) :=
  keepsMessage_modifyState fun s hs => hf s.dev hs

/-- A call of the socket has nothing to do with the message. -/
theorem keepsMessage_onSocket (null : α) (f : S → α × S) :
    KeepsMessage (Smart.onSocket null f) := by
  apply keepsMessage_getDev.bind
  intro dev
  cases dev.s with
  | none => exact keepsMessage_pure null
  | some h => exact (keepsMessage_useHandle h).seq (keepsMessage_call f)

theorem keepsMessage_irdaSocketClose : KeepsMessage (σ := SmartProc S) Smart.irdaSocketClose := by
  apply keepsMessage_getDev.bind
  intro dev
  cases dev.s with
  | none => exact keepsMessage_pure ()
  | some h => exact keepsMessage_disposeHandle h

/-- The old message is freed and the new one copied. -/
theorem keepsMessage_setDevError (code : Int) (msg : Text) :
    KeepsMessage (σ := SmartProc S) (Smart.setDevError code msg) :=
  keepsMessage_setDev fun _ h => h.setError code (.text msg) false

theorem keepsMessage_setIrdaError : KeepsMessage (setIrdaError H) := fun _ hd =>
  Triple.of_run rfl ⟨trivial, hd.setError _ _ true⟩

/-- An error is set, and a result given. -/
theorem keepsMessage_failWith (code : Int) (msg : Text) (a : α) :
    KeepsMessage (σ := SmartProc S) (do Smart.setDevError code msg; return a) :=
  (keepsMessage_setDevError code msg).seq (keepsMessage_pure a)

/-- A command sets an error at most. -/
theorem keepsMessage_driverCmd (cmd ans : List UInt8) :
    KeepsMessage (Smart.driverCmd H cmd ans) := by
  apply keepsMessage_getDev.bind
  intro dev
  split
  · exact keepsMessage_pure _
  apply (keepsMessage_onSocket _ _).bind
  intro written
  cases written with
  | failed => exact keepsMessage_failWith _ _ _
  | timedOut => exact keepsMessage_failWith _ _ _
  | done n =>
    apply (keepsMessage_onSocket _ _).bind
    intro received
    cases received with
    | failed => exact keepsMessage_failWith _ _ _
    | timedOut => exact keepsMessage_failWith _ _ _
    | done bytes => exact keepsMessage_pure _

theorem keepsMessage_driverHandshake : KeepsMessage (Smart.driverHandshake H) := by
  apply (keepsMessage_call _).bind
  intro junk
  apply (keepsMessage_driverCmd _ _).bind
  intro first
  cases first with
  | error rc => exact keepsMessage_pure rc
  | ok ans =>
    dsimp only
    split
    · exact keepsMessage_failWith _ _ _
    apply (keepsMessage_driverCmd _ _).bind
    intro second
    cases second with
    | error rc => exact keepsMessage_pure rc
    | ok ans =>
      dsimp only
      split
      · exact keepsMessage_failWith _ _ _
      · exact keepsMessage_pure _

theorem keepsMessage_smartDriverGiveUp (rc : Int) :
    KeepsMessage (smartDriverGiveUp (S := S) rc) := by
  apply keepsMessage_irdaSocketClose.seq
  apply KeepsMessage.seq
  · exact keepsMessage_setDev fun _ h => h
  · exact keepsMessage_pure rc

theorem keepsMessage_smartDriverRead (cmd ans : List UInt8) {k : List UInt8 → Smart S Int}
    (hk : ∀ ans, KeepsMessage (k ans)) : KeepsMessage (smartDriverRead H cmd ans k) := by
  apply (keepsMessage_driverCmd cmd ans).bind
  intro r
  cases r with
  | error rc => exact keepsMessage_smartDriverGiveUp rc
  | ok ans => exact hk ans

theorem keepsMessage_smartDriverInfo : KeepsMessage (smartDriverInfo H) := by
  apply keepsMessage_getDev.bind
  intro dev
  apply keepsMessage_smartDriverRead
  intro model
  apply KeepsMessage.seq
  · exact keepsMessage_setDev fun _ h => h.congr rfl rfl rfl rfl
  apply keepsMessage_getDev.bind
  intro dev
  apply keepsMessage_smartDriverRead
  intro serial
  apply KeepsMessage.seq
  · exact keepsMessage_setDev fun _ h => h.congr rfl rfl rfl rfl
  apply keepsMessage_getDev.bind
  intro dev
  apply keepsMessage_smartDriverRead
  intro ticks
  apply KeepsMessage.seq
  · exact keepsMessage_setDev fun _ h => h.congr rfl rfl rfl rfl
  apply (keepsMessage_call _).bind
  intro now
  apply KeepsMessage.seq
  · exact keepsMessage_setDev fun _ h => h.congr rfl rfl rfl rfl
  · exact keepsMessage_pure _

theorem keepsMessage_smartDriverConnect : KeepsMessage (smartDriverConnect H) := by
  apply keepsMessage_getDev.bind
  intro dev
  apply (keepsMessage_onSocket _ _).bind
  intro connected
  cases connected with
  | failed => exact keepsMessage_setIrdaError.seq (keepsMessage_smartDriverGiveUp _)
  | timedOut =>
    exact (keepsMessage_setDevError _ _).seq (keepsMessage_smartDriverGiveUp _)
  | done _ =>
    apply keepsMessage_driverHandshake.bind
    intro rc
    split
    · exact keepsMessage_smartDriverGiveUp rc
    · exact keepsMessage_smartDriverInfo

/-- The discovery changes the endpoint only. -/
theorem foldl_discover_base (ds : List IrdaDevice) (dev : SmartDev) :
    (ds.foldl smartDriverDiscoverCb dev).base = dev.base := by
  induction ds generalizing dev with
  | nil => rfl
  | cons d ds ih =>
    rw [List.foldl_cons, ih, smartDriverDiscoverCb]
    split <;> rfl

theorem keepsMessage_smartDriverDiscover : KeepsMessage (smartDriverDiscover H) := by
  apply (keepsMessage_onSocket _ _).bind
  intro found
  cases found with
  | none => exact keepsMessage_setIrdaError.seq (keepsMessage_smartDriverGiveUp _)
  | some ds =>
    apply KeepsMessage.seq
    · apply keepsMessage_setDev
      intro dev h
      rw [foldl_discover_base]
      exact h
    · split
      · exact (keepsMessage_setDevError _ _).seq (keepsMessage_smartDriverGiveUp _)
      · exact keepsMessage_smartDriverConnect

theorem keepsMessage_smartDriverSocket (timeout : Int) :
    KeepsMessage (smartDriverSocket H timeout) := by
  apply (keepsMessage_call _).bind
  intro opened
  cases opened with
  | false => exact keepsMessage_setIrdaError.seq (keepsMessage_pure _)
  | true =>
    apply keepsMessage_allocHandle.bind
    intro s
    apply KeepsMessage.seq
    · exact keepsMessage_setDev fun _ h => h
    apply (keepsMessage_onSocket _ _).bind
    intro timed
    cases timed with
    | false => exact keepsMessage_setIrdaError.seq (keepsMessage_smartDriverGiveUp _)
    | true => exact keepsMessage_smartDriverDiscover

/-- **Opening keeps the message**, however it ends. -/
theorem keepsMessage_smartDriverOpen (dev : Nat) (devpath args : Text) :
    KeepsMessage (smartDriverOpen H dev devpath args) := by
  apply (keepsMessage_useHandle dev).seq
  cases arglistParse args with
  | error e =>
    cases e with
    | overrun => exact keepsMessage_throw _
    | einval => exact keepsMessage_failWith _ _ _
  | ok args =>
    apply KeepsMessage.seq
    · exact keepsMessage_setDev fun _ h => h
    · exact keepsMessage_smartDriverSocket _

theorem keepsMessage_smartDriverReadData (pcb : Option TransferCallback) (size fuel : Nat)
    (buf : List UInt8) (len : Nat) :
    KeepsMessage (smartDriverReadData H pcb size fuel buf len) := by
  induction fuel generalizing buf len with
  | zero => exact keepsMessage_throw _
  | succ fuel ih =>
    rw [smartDriverReadData]
    split
    · exact keepsMessage_pure _
    apply keepsMessage_getDev.bind
    intro dev
    apply (keepsMessage_onSocket _ _).bind
    intro chunk
    cases chunk with
    | failed => exact keepsMessage_failWith _ _ _
    | timedOut => exact keepsMessage_failWith _ _ _
    | done bytes =>
      apply KeepsMessage.ite
      · exact keepsMessage_failWith _ _ _
      · exact ih _ _

theorem keepsMessage_smartDriverReadBlock (fuel token size : Nat)
    (pcb : Option TransferCallback) :
    KeepsMessage (smartDriverReadBlock H fuel token size pcb) := by
  apply (keepsMessage_call _).bind
  intro junk
  apply (keepsMessage_driverCmd _ _).bind
  intro r
  cases r with
  | error rc => exact keepsMessage_pure _
  | ok nb =>
    dsimp only
    generalize uint32Le nb 0 = n, u32 (size + 4) = total
    apply KeepsMessage.ite
    · exact keepsMessage_failWith _ _ _
    apply KeepsMessage.ite
    · exact keepsMessage_failWith _ _ _
    apply (keepsMessage_smartDriverReadData _ _ _ _ _).bind
    intro r
    cases r with
    | error rc => exact keepsMessage_pure _
    | ok data => exact keepsMessage_pure _

/-- **A transfer keeps the message.** -/
theorem keepsMessage_smartDriverTransfer (fuel dev size : Nat) (dcb : Option DeviceCallback)
    (pcb : Option TransferCallback) :
    KeepsMessage (smartDriverTransfer H fuel dev size dcb pcb) := by
  -- the message of the device that is read
  have hbase : Maintains (fun d => MessageOwned (HasBase.base d.state))
      (fun dev => MessageOwned dev.base) (fun _ => True) (Smart.getDev (S := S)) := fun _ hd =>
    Triple.of_run rfl ⟨hd, hd⟩
  apply (keepsMessage_useHandle dev).seq
  apply hbase.bind
  intro s hs
  apply KeepsMessage.seq
  · exact keepsMessage_setDev fun _ _ => transferToken_owned dcb hs
  cases (transferToken dcb s.base).2 with
  | error rc => exact keepsMessage_pure _
  | ok token =>
    apply (keepsMessage_driverCmd _ _).bind
    intro r
    cases r with
    | error rc => exact keepsMessage_pure _
    | ok ans =>
      dsimp only
      split
      · exact keepsMessage_pure _
      · exact keepsMessage_smartDriverReadBlock _ _ _ _

theorem keepsMessage_smartDriverClose (dev : Nat) :
    KeepsMessage (smartDriverClose (S := S) dev) := by
  apply (keepsMessage_useHandle dev).seq
  apply keepsMessage_irdaSocketClose.seq
  exact keepsMessage_setDev fun _ h => h

/-- The end of the device frees the message. -/
theorem smartDriverShutdown_released (dev : Nat) {d : Desk (SmartProc S)}
    (hd : MessageOwned d.state.dev.base) :
    Triple (smartDriverShutdown dev) d (fun _ d' => Released d'.state.dev.base)
      fun _ => True := by
  have hsocket : KeepsMessage (σ := SmartProc S) (Smart.setDev fun dev => { dev with s := none }) :=
    keepsMessage_setDev fun _ h => h
  refine (keepsMessage_useHandle dev).then hd fun _ d₁ _ h₁ => ?_
  refine keepsMessage_irdaSocketClose.then h₁ fun _ d₂ _ h₂ => ?_
  refine hsocket.then h₂ fun _ d₃ _ h₃ => ?_
  refine Triple.bind (Q := fun _ d' => Released d'.state.dev.base)
    (Triple.of_run rfl h₃.freeError) fun _ d₄ h₄ => ?_
  refine (leavesState_disposeHandle dev d₄).imp fun _ d₅ h₅ => ?_
  rw [h₅.2]
  exact h₄

end SmartMessages

/-! ### The network driver

The messages of the client are pointers into its own memory, and are stored without a copy or
with one, as the call says.
-/

section SmartiMessages

variable {G : SmartiHost S}

/-- The client has its own messages. -/
theorem keepsMessage_liftClient (m : Client S α) : KeepsMessage (Smarti.liftClient m) := by
  intro d hd
  have hm : Triple m d.state.link _ _ := gives_true m d.state.link trivial
  exact Smarti.liftClient_triple (hm.imp fun _ _ _ => ⟨trivial, hd⟩)

theorem keepsMessage_smartiGetDev : KeepsMessage (σ := SmartiProc S) Smarti.getDev := fun _ hd =>
  Triple.of_run rfl ⟨trivial, hd⟩

theorem keepsMessage_smartiSetDev {f : SmartiDev → SmartiDev}
    (hf : ∀ dev, MessageOwned dev.base → MessageOwned (f dev).base) :
    KeepsMessage (σ := SmartiProc S) (Smarti.setDev f) :=
  keepsMessage_modifyState fun s hs => hf s.dev hs

theorem keepsMessage_setSocket (s : Option Nat) :
    KeepsMessage (σ := SmartiProc S) (Smarti.setSocket s) :=
  keepsMessage_modifyState fun _ hs => hs

theorem keepsMessage_smartiSetDevError (code : Int) (msg : ErrorText) (copy : Bool) :
    KeepsMessage (σ := SmartiProc S) (Smarti.setDevError code msg copy) :=
  keepsMessage_smartiSetDev fun _ h => h.setError code msg copy

theorem keepsMessage_clientCall (m : Client S α) : KeepsMessage (Smarti.call m) := by
  apply keepsMessage_smartiGetDev.bind
  intro dev
  apply (keepsMessage_useHandle _).seq
  apply keepsMessage_getState.bind
  intro s
  cases s.socket with
  | none => exact keepsMessage_liftClient m
  | some h => exact (keepsMessage_useHandle h).seq (keepsMessage_liftClient m)

theorem keepsMessage_disconnect : KeepsMessage (Smarti.disconnect (S := S)) := by
  apply keepsMessage_smartiGetDev.bind
  intro dev
  apply (keepsMessage_useHandle _).seq
  apply keepsMessage_getState.bind
  intro s
  have hend : KeepsMessage (do let _ ← Smarti.liftClient (S := S) smartiClientDisconnect) :=
    (keepsMessage_liftClient _).seq (keepsMessage_pure ())
  cases s.socket with
  | none => exact (keepsMessage_pure ()).seq hend
  | some h =>
    exact (keepsMessage_disposeHandle h).seq ((keepsMessage_setSocket none).seq hend)

theorem keepsMessage_setClientError (code : Int) :
    KeepsMessage (Smarti.setClientError (S := S) code) := by
  apply (keepsMessage_clientCall _).bind
  intro msg
  exact keepsMessage_smartiSetDevError code msg true

theorem keepsMessage_smartiGiveUp (rc : Int) : KeepsMessage (smartiDriverGiveUp (S := S) rc) :=
  keepsMessage_disconnect.seq (keepsMessage_pure rc)

theorem keepsMessage_smartiFail : KeepsMessage (smartiDriverFail (S := S)) :=
  (keepsMessage_setClientError _).seq (keepsMessage_smartiGiveUp _)

/-- An error is set, and the connection ended. -/
theorem keepsMessage_smartiGiveUpWith (code : Int) (msg : ErrorText) (copy : Bool) (rc : Int) :
    KeepsMessage (do Smarti.setDevError (S := S) code msg copy; smartiDriverGiveUp rc) :=
  (keepsMessage_smartiSetDevError code msg copy).seq (keepsMessage_smartiGiveUp rc)

theorem keepsMessage_smartiRead (m : Client S (Except Int Nat)) {k : Nat → Smarti S Int}
    (hk : ∀ n, KeepsMessage (k n)) : KeepsMessage (smartiDriverRead m k) := by
  apply (keepsMessage_clientCall m).bind
  intro r
  cases r with
  | error rc => exact keepsMessage_smartiFail
  | ok n => exact hk n

theorem keepsMessage_smartiInfo : KeepsMessage (smartiDriverInfo G) := by
  apply keepsMessage_smartiRead
  intro model
  apply KeepsMessage.seq
  · exact keepsMessage_smartiSetDev fun _ h => h.congr rfl rfl rfl rfl
  apply keepsMessage_smartiRead
  intro serial
  apply KeepsMessage.seq
  · exact keepsMessage_smartiSetDev fun _ h => h.congr rfl rfl rfl rfl
  apply keepsMessage_smartiRead
  intro ticks
  apply KeepsMessage.seq
  · exact keepsMessage_smartiSetDev fun _ h => h.congr rfl rfl rfl rfl
  apply KeepsMessage.seq
  · exact keepsMessage_smartiSetDev fun _ h => h.congr rfl rfl rfl rfl
  · exact keepsMessage_pure _

theorem keepsMessage_smartiOpenError : KeepsMessage (smartiOpenError (S := S)) := by
  apply (keepsMessage_clientCall _).bind
  intro code
  apply KeepsMessage.ite
  · exact keepsMessage_smartiGiveUpWith _ _ _ _
  apply KeepsMessage.ite
  · exact keepsMessage_smartiGiveUpWith _ _ _ _
  apply KeepsMessage.ite
  · exact keepsMessage_smartiGiveUpWith _ _ _ _
  · exact keepsMessage_smartiFail

theorem keepsMessage_smartiOpenDevice (lsap chunkSize : Nat) :
    KeepsMessage (smartiDriverOpenDevice G lsap chunkSize) := by
  apply keepsMessage_smartiGetDev.bind
  intro dev
  apply (keepsMessage_clientCall _).bind
  intro rc
  apply KeepsMessage.ite
  · exact keepsMessage_smartiOpenError
  · exact keepsMessage_smartiInfo

/-- The enumeration changes the endpoint only. -/
theorem foldl_enum_base (ds : List Found) (dev : SmartiDev) :
    (ds.foldl smartiEnumCb dev).base = dev.base := by
  induction ds generalizing dev with
  | nil => rfl
  | cons d ds ih =>
    rw [List.foldl_cons, ih, smartiEnumCb]
    split <;> rfl

theorem keepsMessage_smartiEnumerate (lsap chunkSize : Nat) :
    KeepsMessage (smartiDriverEnumerate G lsap chunkSize) := by
  apply (keepsMessage_clientCall _).bind
  intro r
  obtain ⟨rc, seen⟩ := r
  apply KeepsMessage.seq
  · apply keepsMessage_smartiSetDev
    intro dev h
    rw [foldl_enum_base]
    exact h
  apply KeepsMessage.ite
  · apply (keepsMessage_clientCall _).bind
    intro code
    apply KeepsMessage.ite
    · exact keepsMessage_smartiGiveUpWith _ _ _ _
    · exact keepsMessage_smartiFail
  · apply keepsMessage_smartiGetDev.bind
    intro dev
    apply KeepsMessage.ite
    · exact keepsMessage_smartiGiveUpWith _ _ _ _
    · exact keepsMessage_smartiOpenDevice lsap chunkSize

theorem keepsMessage_smartiConnect (devpath : Text) (port : Nat) :
    KeepsMessage (smartiDriverConnect G devpath port) := by
  apply keepsMessage_smartiGetDev.bind
  intro dev
  apply (keepsMessage_useHandle _).seq
  cases G.dial devpath (port % 2 ^ 16) with
  | some errno => exact (keepsMessage_liftClient _).seq (keepsMessage_pure _)
  | none =>
    apply keepsMessage_allocHandle.bind
    intro s
    apply (keepsMessage_setSocket _).seq
    apply (keepsMessage_liftClient _).bind
    intro rc
    apply keepsMessage_getState.bind
    intro p
    apply KeepsMessage.ite
    · exact keepsMessage_pure rc
    · exact (keepsMessage_disposeHandle s).seq
        ((keepsMessage_setSocket none).seq (keepsMessage_pure rc))

/-- Opening keeps the message. -/
theorem keepsMessage_smartiOpen (dev : Nat) (devpath args : Text) :
    KeepsMessage (smartiDriverOpen G dev devpath args) := by
  apply (keepsMessage_useHandle dev).seq
  cases arglistParse args with
  | error e =>
    cases e with
    | overrun => exact keepsMessage_throw _
    | einval =>
      exact (keepsMessage_smartiSetDevError _ _ _).seq (keepsMessage_pure _)
  | ok args =>
    apply (keepsMessage_smartiConnect _ _).bind
    intro rc
    apply KeepsMessage.ite
    · exact (keepsMessage_smartiSetDevError _ _ _).seq (keepsMessage_pure _)
    · exact keepsMessage_smartiEnumerate _ _

theorem keepsMessage_smartiTransferFail : KeepsMessage (smartiTransferFail (S := S)) :=
  (keepsMessage_setClientError _).seq (keepsMessage_pure _)

theorem keepsMessage_smartiReadBlock (size : Nat) :
    KeepsMessage (smartiDriverReadBlock G size) := by
  apply (keepsMessage_clientCall _).bind
  intro r
  cases r with
  | error rc =>
    apply (keepsMessage_clientCall _).bind
    intro code
    apply KeepsMessage.ite
    · exact (keepsMessage_smartiSetDevError _ _ _).seq (keepsMessage_pure _)
    · exact keepsMessage_smartiTransferFail
  | ok data =>
    apply KeepsMessage.ite
    · exact (keepsMessage_smartiSetDevError _ _ _).seq (keepsMessage_pure _)
    · exact keepsMessage_pure _

/-- A transfer keeps the message. -/
theorem keepsMessage_smartiTransfer (dev : Nat) (dcb : Option DeviceCallback) :
    KeepsMessage (smartiDriverTransfer G dev dcb) := by
  have hbase : Maintains (fun d => MessageOwned (HasBase.base d.state))
      (fun dev => MessageOwned dev.base) (fun _ => True) (Smarti.getDev (S := S)) := fun _ hd =>
    Triple.of_run rfl ⟨hd, hd⟩
  apply (keepsMessage_useHandle dev).seq
  apply hbase.bind
  intro s hs
  apply KeepsMessage.seq
  · exact keepsMessage_smartiSetDev fun _ _ => transferToken_owned dcb hs
  cases (transferToken dcb s.base).2 with
  | error rc => exact keepsMessage_pure _
  | ok token =>
    apply (keepsMessage_clientCall _).bind
    intro rc
    apply KeepsMessage.ite
    · exact keepsMessage_smartiTransferFail
    apply (keepsMessage_clientCall _).bind
    intro r
    cases r with
    | error rc => exact keepsMessage_smartiTransferFail
    | ok size =>
      apply KeepsMessage.ite
      · exact keepsMessage_pure _
      · exact keepsMessage_smartiReadBlock size

theorem keepsMessage_smartiClose (dev : Nat) : KeepsMessage (smartiDriverClose G dev) := by
  apply (keepsMessage_useHandle dev).seq
  apply (keepsMessage_clientCall _).seq
  apply keepsMessage_disconnect.seq
  exact keepsMessage_smartiSetDev fun _ h => h

/-- The end of the device frees the message. -/
theorem smartiDriverShutdown_released (dev : Nat) {d : Desk (SmartiProc S)}
    (hd : MessageOwned d.state.dev.base) :
    Triple (smartiDriverShutdown dev) d (fun _ d' => Released d'.state.dev.base)
      fun _ => True := by
  have hclient : KeepsMessage (smartiClientDispose (S := S)) := by
    apply keepsMessage_smartiGetDev.bind
    intro dev
    exact keepsMessage_disconnect.seq (keepsMessage_disposeHandle dev.client)
  refine (keepsMessage_useHandle dev).then hd fun _ d₁ _ h₁ => ?_
  refine hclient.then h₁ fun _ d₂ _ h₂ => ?_
  refine Triple.bind (Q := fun _ d' => Released d'.state.dev.base)
    (Triple.of_run rfl h₂.freeError) fun _ d₃ h₃ => ?_
  refine (leavesState_disposeHandle dev d₃).imp fun _ d₄ h₄ => ?_
  rw [h₄.2]
  exact h₃

end SmartiMessages

/-! ### The parser and the extraction

What the drivers keep is kept beside the parser.  Creating a parser and parsing may store an
error, and are left for the next section.
-/

instance [HasBase σ] : HasBase (Parsing σ) where
  base s := HasBase.base s.driver
  setBase base s := { s with driver := HasBase.setBase base s.driver }

/-- The base of the device. -/
abbrev messageBase [HasBase σ] (d : Desk (Parsing σ)) : SmartBase := HasBase.base d.state

/-- The base that has been stored is the base that is read. -/
class LawfulBase (σ : Type) extends HasBase σ where
  base_setBase : ∀ base (s : σ), HasBase.base (HasBase.setBase base s) = base

instance : LawfulBase (SmartProc S) := ⟨fun _ _ => rfl⟩

instance : LawfulBase (SmartiProc S) := ⟨fun _ _ => rfl⟩

/-- The beginning of the two calls that parse. -/
theorem parserRead_spec (p : Nat) (d : Desk (Parsing σ)) {f : Parsing σ → Driver (Parsing σ) α}
    {Q : α → Desk (Parsing σ) → Prop}
    (hf : ∀ d', d'.state = d.state → Triple (f d.state) d' Q fun _ => True) :
    Triple (do
      useHandle p
      let s ← getState
      useHandle (s.parserDev p)
      f s) d Q fun _ => True := by
  refine (leavesState_useHandle p d).bind fun _ d₁ h₁ => ?_
  apply Triple.bind (Q := fun s d' => s = d.state ∧ d₁ = d') (Triple.of_run rfl ⟨h₁.2, rfl⟩)
  rintro _ _ ⟨rfl, rfl⟩
  refine (leavesState_useHandle _ d₁).bind fun _ d₂ h₂ => ?_
  exact hf d₂ (h₂.2.trans h₁.2)

section Plugin

variable [LawfulBase σ]

/-- A function of the driver is one of the plugin. -/
theorem onDriver_keepsMessage {m : Driver σ α} (hm : KeepsMessage m) :
    KeepsMessage (onDriver m) := fun d hd => onDriver_spec (hm d.driver hd)

theorem keepsMessage_modifyBase {f : SmartBase → SmartBase}
    (hf : ∀ base, MessageOwned base → MessageOwned (f base)) :
    KeepsMessage (σ := Parsing σ) (SmartPlugin.modifyBase f) := by
  apply keepsMessage_modifyState
  intro s hs
  show MessageOwned (HasBase.base (HasBase.setBase _ s.driver))
  rw [LawfulBase.base_setBase]
  exact hf _ hs

theorem keepsMessage_setParser (p : Nat) (parser : SmartParser) :
    KeepsMessage (SmartPlugin.setParser (σ := σ) p parser) :=
  keepsMessage_modifyState fun _ hs => hs

/-- Closing a parser stores no error. -/
theorem keepsMessage_parserClose (p : Nat) :
    KeepsMessage (SmartPlugin.parserClose (σ := σ) p) := keepsMessage_disposeHandle p

theorem keepsMessage_parserReset (p : Nat) : KeepsMessage (SmartPlugin.parserReset (σ := σ) p) := by
  apply (keepsMessage_useHandle p).seq
  apply keepsMessage_getState.bind
  intro s
  exact (keepsMessage_setParser p _).seq (keepsMessage_pure 0)

theorem keepsMessage_driverErrmsg (dev : Nat) :
    KeepsMessage (SmartPlugin.driverErrmsg (σ := σ) dev) := by
  apply (keepsMessage_useHandle dev).seq
  exact keepsMessage_getState.bind fun _ => keepsMessage_pure _

/-- An error of the extraction is set as those of the driver are. -/
theorem keepsMessage_driverExtract (fuel dev : Nat) (buffer : Option Memory) (size : Nat) :
    KeepsMessage (SmartPlugin.driverExtract (σ := σ) fuel dev buffer size) := by
  apply (keepsMessage_useHandle dev).seq
  cases buffer with
  | none => exact keepsMessage_pure _
  | some mem =>
    dsimp only
    cases iterate (extractStep mem size) fuel extractStart with
    | next _ => exact keepsMessage_throw _
    | stop r =>
      apply KeepsMessage.ite
      · exact keepsMessage_pure _
      · apply KeepsMessage.seq
        · exact keepsMessage_modifyBase fun base h => h.setError _ _ _
        · exact keepsMessage_pure _

/-! ### Calls

A call of the application keeps the message unless the parser rejects something while a copied
message is there.  Then it breaks it for certain, which is the other direction.
-/

/-- The call comes to an error of the parser, with the device as it is now. -/
def PluginCall.Rejected (s : Parsing σ) : PluginCall → Prop
  | .parserCreate => ∀ m : Model, (HasBase.base s.driver).model ≠ m.number
  | .parseHeader p data => ∃ r,
      smartParserParseHeaderOn (HasBase.base s.driver).forParser (s.parser p) data = some r ∧
        r.ret ≠ 0
  | .parseProfile p data =>
      (smartParserParseProfileOn (HasBase.base s.driver).model (s.parser p) data).ret ≠ some 0
  | _ => False

/-- What the functions of a driver do with the message. -/
structure MessageContract (drv : DriverInterface (Parsing σ)) : Prop where
  create : ∀ d, Triple drv.driverCreate d (fun _ d' => messageBase d' = {}) fun _ => True
  opening : ∀ dev devpath args, KeepsMessage (drv.driverOpen dev devpath args)
  transfer : ∀ dev dcb pcb size, KeepsMessage (drv.driverTransfer dev dcb pcb size)
  extract : ∀ dev mem size, KeepsMessage (drv.driverExtract dev mem size)
  errmsg : ∀ dev, KeepsMessage (drv.driverErrmsg dev)
  closing : ∀ dev, KeepsMessage (drv.driverClose dev)
  shutdown : ∀ dev d, MessageOwned (messageBase d) →
    Triple (drv.driverShutdown dev) d (fun _ d' => Released (messageBase d')) fun _ => True
  parserCreate : drv.parserCreate = SmartPlugin.parserCreate
  parserClose : drv.parserClose = SmartPlugin.parserClose
  parserReset : drv.parserReset = SmartPlugin.parserReset
  parserParseHeader : drv.parserParseHeader = SmartPlugin.parserParseHeader
  parserParseProfile : drv.parserParseProfile = SmartPlugin.parserParseProfile

/-- What a call of the parser does to the message, in a state where it is owned. -/
def Judged (c : PluginCall) (d d' : Desk (Parsing σ)) : Prop :=
  MessageOwned (messageBase d') ↔ (c.Rejected d.state → (messageBase d).errdyn = false)

variable {c : PluginCall} {d d' : Desk (Parsing σ)}

/-- A call that stores nothing keeps the message. -/
theorem judged_of_kept (hc : ¬c.Rejected d.state) (hd' : MessageOwned (messageBase d')) :
    Judged c d d' := ⟨fun _ h => absurd h hc, fun _ => hd'⟩

/-- A call that stores an error breaks it if and only if the flag is set. -/
theorem judged_of_assigned (hc : c.Rejected d.state) (hd : MessageOwned (messageBase d))
    {dev : SmartDeviceBase} (hassigned : messageBase d' = (messageBase d).assignError dev) :
    Judged c d d' := by
  rw [Judged, hassigned, messageOwned_assignError hd dev]
  exact ⟨fun h _ => h, fun h => h hc⟩

/-- The parser stores the code and the message. -/
theorem modifyBase_assignError (dev : SmartDeviceBase) (d : Desk (Parsing σ)) :
    Triple (SmartPlugin.modifyBase fun b => b.assignError dev) d
      (fun _ d' => messageBase d' = (messageBase d).assignError dev) fun _ => True :=
  Triple.of_run rfl (LawfulBase.base_setBase _ d.state.driver)

/-- Creating a parser for an unknown model stores an error. -/
theorem parserCreate_judged (dev : Nat) (hd : MessageOwned (messageBase d)) :
    Triple (SmartPlugin.parserCreate dev) d (fun _ d' => Judged .parserCreate d d')
      fun _ => True := by
  refine (leavesState_allocHandle d).bind fun p d₁ h₁ => ?_
  refine (leavesState_useHandle dev d₁).bind fun _ d₂ h₂ => ?_
  have hstate : d₂.state = d.state := h₂.2.trans h₁.2
  have hbase : messageBase d₂ = messageBase d := congrArg HasBase.base hstate
  refine Triple.bind (Q := fun s d' => s = d.state ∧ d₂ = d')
    (Triple.of_run rfl ⟨hstate, rfl⟩) ?_
  rintro _ _ ⟨rfl, rfl⟩
  -- a parser that is not created leaves its error in the device
  cases hcreate : smartParserCreate (d.state.parser p) (HasBase.base d.state.driver).forParser with
  | error base =>
    have hrejected : PluginCall.parserCreate.Rejected d.state := by
      intro m hm
      have hforParser : (HasBase.base d.state.driver).forParser.model = m.number := hm
      obtain ⟨parser, hparser, -⟩ := smartParserCreate_of_model hforParser
      rw [hcreate] at hparser
      cases hparser
    refine (modifyBase_assignError base d₂).bind fun _ d₃ h₃ => ?_
    refine (leavesState_disposeHandle p d₃).bind fun _ d₄ h₄ => ?_
    have hassigned : messageBase d₄ = (messageBase d).assignError base := by
      rw [show messageBase d₄ = messageBase d₃ from congrArg HasBase.base h₄.2, h₃, hbase]
    exact Triple.pure (judged_of_assigned hrejected hd hassigned)
  | ok parser =>
    have hcreated : ¬PluginCall.parserCreate.Rejected d.state := by
      intro hrejected
      exact hrejected parser.model (smartParserCreate_eq_ok hcreate).2.symm
    refine Triple.of_run rfl (judged_of_kept hcreated ?_)
    show MessageOwned (messageBase d₂)
    rw [hbase]
    exact hd

/-- The error of a failing call. -/
theorem storeError_spec (ret : Int) (dev : SmartDeviceBase) (d : Desk (Parsing σ)) :
    Triple (SmartPlugin.storeError ret dev) d (fun _ d' =>
      messageBase d' = if ret ≠ 0 then (messageBase d).assignError dev else messageBase d)
      fun _ => True := by
  unfold SmartPlugin.storeError
  split
  · exact modifyBase_assignError dev d
  · exact Triple.pure rfl

/-- A header that is refused stores an error. -/
theorem parseHeader_judged (p : Nat) (data : List UInt8) (hd : MessageOwned (messageBase d)) :
    Triple (SmartPlugin.parserParseHeader p data) d (fun _ d' => Judged (.parseHeader p data) d d')
      fun _ => True := by
  apply parserRead_spec
  intro d₁ h₁
  have hbase : messageBase d₁ = messageBase d := congrArg HasBase.base h₁
  -- a read past the end of the buffer halts
  cases hr : smartParserParseHeaderOn (HasBase.base d.state.driver).forParser
      (d.state.parser p) data with
  | none => exact Triple.throw trivial
  | some r =>
    refine Triple.bind (Q := fun _ d' => messageBase d' = messageBase d)
      (Triple.of_run rfl hbase) ?_
    intro _ d₂ h₂
    refine (storeError_spec _ _ d₂).bind fun _ d₃ h₃ => ?_
    rw [h₂] at h₃
    apply Triple.pure
    by_cases hret : r.ret ≠ 0
    · rw [if_pos hret] at h₃
      exact judged_of_assigned ⟨r, hr, hret⟩ hd h₃
    · rw [if_neg hret] at h₃
      refine judged_of_kept ?_ (h₃ ▸ hd)
      rintro ⟨r', hr', hret'⟩
      cases hr.symm.trans hr'
      exact hret hret'

/-- A profile that is refused stores an error. -/
theorem parseProfile_judged (p : Nat) (data : List UInt8) (hd : MessageOwned (messageBase d)) :
    Triple (SmartPlugin.parserParseProfile p data) d
      (fun _ d' => Judged (.parseProfile p data) d d') fun _ => True := by
  apply parserRead_spec
  intro d₁ h₁
  have hbase : messageBase d₁ = messageBase d := congrArg HasBase.base h₁
  dsimp only
  refine Triple.bind (Q := fun _ d' => messageBase d' = messageBase d) (Triple.of_run rfl hbase) ?_
  intro _ d₂ h₂
  -- an undefined read halts
  cases hret : (smartParserParseProfileOn (HasBase.base d.state.driver).model
      (d.state.parser p) data).ret with
  | none => exact Triple.throw trivial
  | some ret =>
    refine (storeError_spec ret _ d₂).bind fun _ d₃ h₃ => ?_
    rw [h₂] at h₃
    apply Triple.pure
    have hrejected : (PluginCall.parseProfile p data).Rejected d.state ↔ ret ≠ 0 := by
      rw [PluginCall.Rejected, hret, ne_eq, Option.some.injEq]
    by_cases hzero : ret ≠ 0
    · rw [if_pos hzero] at h₃
      exact judged_of_assigned (hrejected.mpr hzero) hd h₃
    · rw [if_neg hzero] at h₃
      exact judged_of_kept (fun h => hzero (hrejected.mp h)) (h₃ ▸ hd)

variable {drv : DriverInterface (Parsing σ)} {dev : Nat}

/-- Every other call keeps the message. -/
theorem KeepsMessage.judged {m : Driver (Parsing σ) α} (hm : KeepsMessage m)
    (hc : ¬c.Rejected d.state) (hd : MessageOwned (messageBase d)) :
    Triple m d (fun _ d' => Judged c d d') fun _ => True :=
  (hm d hd).imp fun _ _ h => judged_of_kept hc h.2

/-- The result is dropped. -/
theorem KeepsMessage.drop {m : Driver (Parsing σ) α} (hm : KeepsMessage m) :
    KeepsMessage (do let _ ← m; return ()) := hm.seq (keepsMessage_pure ())

/-- **A step**: behind a call the message is owned if and only if the parser has not
rejected the call while the flag was set. -/
theorem run_judged (C : MessageContract drv) (c : PluginCall) (hd : MessageOwned (messageBase d)) :
    Triple (c.run drv dev) d (fun _ d' => Judged c d d') fun _ => True := by
  -- only the calls of the parser can be rejected
  cases c with
  | opening devpath args => exact (C.opening dev devpath args).drop.judged not_false hd
  | transfer dcb pcb size => exact (C.transfer dev dcb pcb size).drop.judged not_false hd
  | extract mem size => exact (C.extract dev mem size).drop.judged not_false hd
  | errmsg => exact (C.errmsg dev).drop.judged not_false hd
  | closing => exact (C.closing dev).judged not_false hd
  | parserCreate =>
    rw [PluginCall.run, C.parserCreate]
    exact (parserCreate_judged dev hd).bind fun _ _ h => Triple.pure h
  | parserClose p =>
    rw [PluginCall.run, C.parserClose]
    exact (keepsMessage_parserClose p).judged not_false hd
  | parserReset p =>
    rw [PluginCall.run, C.parserReset]
    exact (keepsMessage_parserReset p).drop.judged not_false hd
  | parseHeader p data =>
    rw [PluginCall.run, C.parserParseHeader]
    exact (parseHeader_judged p data hd).bind fun _ _ h => Triple.pure h
  | parseProfile p data =>
    rw [PluginCall.run, C.parserParseProfile]
    exact (parseProfile_judged p data hd).bind fun _ _ h => Triple.pure h

/-! ### Runs

The message is owned throughout a run if it is so behind each of its calls, and in front of the
end of the device.
-/

/-- The message is owned, and an end of the device here frees nothing but copies, once
each. -/
def OwnedHere (drv : DriverInterface (Parsing σ)) (dev : Nat) (d : Desk (Parsing σ)) : Prop :=
  MessageOwned (messageBase d) ∧
    ∀ d', (drv.driverShutdown dev).run d = .ok ((), d') → Released (messageBase d')

/-- It is so before and behind every call of a run. -/
def OwnedThroughout (drv : DriverInterface (Parsing σ)) (dev : Nat) :
    List PluginCall → Desk (Parsing σ) → Prop
  | [], d => OwnedHere drv dev d
  | c :: cs, d => OwnedHere drv dev d ∧
      ∀ d', (c.run drv dev).run d = .ok ((), d') → OwnedThroughout drv dev cs d'

/-- No call of a run that goes on is rejected by the parser while the flag is set. -/
def NeverOverwrites (drv : DriverInterface (Parsing σ)) (dev : Nat) :
    List PluginCall → Desk (Parsing σ) → Prop
  | [], _ => True
  | c :: cs, d => ∀ d', (c.run drv dev).run d = .ok ((), d') →
      (c.Rejected d.state → (messageBase d).errdyn = false) ∧ NeverOverwrites drv dev cs d'

/-- The invariant is all that the end of the device needs. -/
theorem ownedHere_iff (C : MessageContract drv) :
    OwnedHere drv dev d ↔ MessageOwned (messageBase d) :=
  ⟨fun h => h.1, fun h => ⟨h, fun _ hrun => (C.shutdown dev d h).result hrun⟩⟩

/-- A run starts with the state in front of it. -/
theorem OwnedThroughout.here {cs : List PluginCall} (h : OwnedThroughout drv dev cs d) :
    OwnedHere drv dev d := by
  cases cs with
  | nil => exact h
  | cons c cs => exact h.1

/-- **A run**: the message is owned throughout if and only if it is never overwritten. -/
theorem ownedThroughout_iff (C : MessageContract drv) (cs : List PluginCall)
    (hd : MessageOwned (messageBase d)) :
    OwnedThroughout drv dev cs d ↔ NeverOverwrites drv dev cs d := by
  induction cs generalizing d with
  | nil => exact ⟨fun _ => trivial, fun _ => (ownedHere_iff C).mpr hd⟩
  | cons c cs ih =>
    constructor
    · rintro ⟨-, hrest⟩ d' hrun
      have hthere := hrest d' hrun
      have hd' := (ownedHere_iff C).mp hthere.here
      exact ⟨((run_judged C c hd).result hrun).mp hd', (ih hd').mp hthere⟩
    · intro hnever
      refine ⟨(ownedHere_iff C).mpr hd, fun d' hrun => ?_⟩
      obtain ⟨hflag, hrest⟩ := hnever d' hrun
      exact (ih (((run_judged C c hd).result hrun).mpr hflag)).mpr hrest

/-- The message of a new device is owned throughout. -/
def MessagesOwned (drv : DriverInterface (Parsing σ)) (s : Parsing σ) (cs : List PluginCall) :
    Prop :=
  ∀ dev d, drv.driverCreate.run (Desk.start s) = .ok (.ok dev, d) → OwnedThroughout drv dev cs d

/-- The message of a new device is never overwritten. -/
def KeepsClear (drv : DriverInterface (Parsing σ)) (s : Parsing σ) (cs : List PluginCall) :
    Prop :=
  ∀ dev d, drv.driverCreate.run (Desk.start s) = .ok (.ok dev, d) → NeverOverwrites drv dev cs d

/-- A run that gets to its end. -/
theorem OwnedThroughout.last {cs : List PluginCall} (h : OwnedThroughout drv dev cs d)
    (hrun : (cs.forM fun c => c.run drv dev).run d = .ok ((), d')) : OwnedHere drv dev d' := by
  induction cs generalizing d with
  | nil =>
    cases hrun
    exact h
  | cons c cs ih =>
    obtain ⟨_, d₁, hfirst, hrest⟩ := run_bind_eq_ok.mp hrun
    exact ih (h.2 d₁ hfirst) hrest

/-- The runs of a driver that keeps the contract. -/
theorem MessageContract.owned_iff_clear (C : MessageContract drv) (s : Parsing σ)
    (cs : List PluginCall) : MessagesOwned drv s cs ↔ KeepsClear drv s cs := by
  have hnew : ∀ dev d, drv.driverCreate.run (Desk.start s) = .ok (.ok dev, d) →
      MessageOwned (messageBase d) := by
    intro dev d hrun
    rw [show messageBase d = {} from (C.create _).result hrun]
    exact messageOwned_new
  constructor
  · intro h dev d hrun
    exact (ownedThroughout_iff C cs (hnew dev d hrun)).mp (h dev d hrun)
  · intro h dev d hrun
    exact (ownedThroughout_iff C cs (hnew dev d hrun)).mpr (h dev d hrun)

end Plugin

/-! ### The two drivers

Both have the contract, and the result on runs is that of the contract.
-/

theorem smart_messageContract (H : SmartHost S) (fuel : Nat) :
    MessageContract (smartDriverInterface H fuel) where
  create _ := Triple.of_run rfl rfl
  opening dev devpath args := onDriver_keepsMessage (keepsMessage_smartDriverOpen dev devpath args)
  transfer _ _ _ _ := onDriver_keepsMessage (keepsMessage_smartDriverTransfer _ _ _ _ _)
  extract dev mem size := keepsMessage_driverExtract fuel dev mem size
  errmsg dev := keepsMessage_driverErrmsg dev
  closing dev := onDriver_keepsMessage (keepsMessage_smartDriverClose dev)
  shutdown dev _ hd := onDriver_spec (smartDriverShutdown_released dev hd)
  parserCreate := rfl
  parserClose := rfl
  parserReset := rfl
  parserParseHeader := rfl
  parserParseProfile := rfl

theorem smarti_messageContract (G : SmartiHost S) (fuel : Nat) :
    MessageContract (smartiDriverInterface G fuel) where
  create _ := Triple.of_run rfl rfl
  opening dev devpath args := onDriver_keepsMessage (keepsMessage_smartiOpen dev devpath args)
  transfer dev dcb _ _ := onDriver_keepsMessage (keepsMessage_smartiTransfer dev (some dcb))
  extract dev mem size := keepsMessage_driverExtract fuel dev mem size
  errmsg dev := keepsMessage_driverErrmsg dev
  closing dev := onDriver_keepsMessage (keepsMessage_smartiClose dev)
  shutdown dev _ hd := onDriver_spec (smartiDriverShutdown_released dev hd)
  parserCreate := rfl
  parserClose := rfl
  parserReset := rfl
  parserParseHeader := rfl
  parserParseProfile := rfl

/-- The socket can be opened at the second attempt, and all that is read is ones. -/
def retriedHost : SmartHost Bool where
  discover w := (some [⟨1, "Uwatec Smart".toList⟩], w)
  connectLsap w _ _ := (.done (), w)
  write w cmd := (.done cmd.length, w)
  read w n := (.done (List.replicate n 1), w)
  time w := (0, w)
  junk _ _ := 0
  foreignFree := false
  socketOpen w := (w, true)
  setTimeout w _ := (true, w)
  errcode _ := 0

/-- The state in front of the first call. -/
def retriedMemory : Parsing (SmartProc Bool) where
  driver := ⟨false, SmartDev.fresh⟩
  parser _ := default
  parserDev _ := 0

/-- The flag and the message at the end of a run. -/
def flaggedMessage [HasBase σ] : Except Halt (Unit × Desk (Parsing σ)) → Option (Bool × MessagePtr)
  | .ok (_, d) => some ((messageBase d).errdyn, (messageBase d).errptr)
  | .error _ => none

/-- The device is opened twice, and then a parser asked for. -/
def retriedCalls : List PluginCall := [.opening [] [], .opening [] [], .parserCreate]

end BenthosDc

/-
BenthosDc/LibdcCallbacks.lean

The callbacks of the application behind the libdc driver.

The event handler takes the two callbacks from the device structure.  There they are null
from the beginning, and no function of the driver ever stores one (`LibdcIdle`), so that
the events for the application are dropped.

* `callbacksReached_iff`: when every event reaches its callback.

The statement is about a transfer of an open device with any library behind it: the events are
those that the library raises, one after the other, and what the application is told of each is
read off the run (`Delivered`).  As nothing is ever delivered, the condition is that nothing is
raised that is meant for the application.
-/
import BenthosDc.LibdcOwned

namespace BenthosDc

open CString Hoare Lifetime Loop

variable {S α β : Type} {D : Libdivecomputer S} {dev : Nat} {d : Desk (LibdcProc S)}

/-! ### Devices without callbacks

A program keeps a device idle if it does not set the two fields.  There is one lemma for each
step that the driver is made of, and then one for each of its functions.
-/

/-- No callback is stored in the device. -/
def LibdcIdle (s : LibdcProc S) : Prop := s.dev.dcb = none ∧ s.dev.pcb = none

/-- A program that stores none, however it ends. -/
abbrev KeepsIdle (m : Libdc S α) : Prop :=
  Maintains (fun d => LibdcIdle d.state) (fun _ => True) (fun _ => True) m

/-- A program that leaves the state as it is. -/
theorem LeavesState.keepsIdle {m : Libdc S α} (hm : LeavesState m) : KeepsIdle m :=
  hm.maintains LibdcIdle

/-- A result that is there already. -/
theorem keepsIdle_pure (a : α) : KeepsIdle (S := S) (pure a) := Maintains.pure trivial

/-- A halt. -/
theorem keepsIdle_throw (e : Halt) : KeepsIdle (S := S) (throw e : Libdc S α) :=
  Maintains.throw trivial

/-- One program after the other. -/
theorem KeepsIdle.bind {m : Libdc S α} {f : α → Libdc S β} (hm : KeepsIdle m)
    (hf : ∀ a, KeepsIdle (f a)) : KeepsIdle (m >>= f) :=
  Maintains.bind hm fun a _ => hf a

theorem KeepsIdle.seq {m : Libdc S α} {m' : Libdc S β} (hm : KeepsIdle m) (hm' : KeepsIdle m') :
    KeepsIdle (do let _ ← m; m') := hm.bind fun _ => hm'

/-- Either of two. -/
theorem KeepsIdle.ite {c : Prop} {_ : Decidable c} {m m' : Libdc S α} (hm : KeepsIdle m)
    (hm' : KeepsIdle m') : KeepsIdle (if c then m else m') :=
  Maintains.ite (fun _ => hm) fun _ => hm'

/-- A pointer is followed. -/
theorem keepsIdle_use (h : Nat) : KeepsIdle (S := S) (useHandle h) :=
  (leavesState_useHandle h).keepsIdle

theorem keepsIdle_dispose (h : Nat) : KeepsIdle (S := S) (disposeHandle h) :=
  (leavesState_disposeHandle h).keepsIdle

theorem keepsIdle_alloc : KeepsIdle (S := S) allocHandle := leavesState_allocHandle.keepsIdle

/-- The structure is looked at. -/
theorem keepsIdle_getDev : KeepsIdle (S := S) Libdc.getDev := fun _ hd =>
  Triple.of_run rfl ⟨trivial, hd⟩

theorem keepsIdle_getParser : KeepsIdle (S := S) Libdc.getParser := fun _ hd =>
  Triple.of_run rfl ⟨trivial, hd⟩

/-- The library is called. -/
theorem keepsIdle_call (f : S → α × S) : KeepsIdle (Libdc.call f) := fun _ hd =>
  Triple.of_run rfl ⟨trivial, hd⟩

theorem keepsIdle_note (n : LibdcNote) : KeepsIdle (S := S) (Libdc.note n) := fun _ hd =>
  Triple.of_run rfl ⟨trivial, hd⟩

theorem keepsIdle_setParser (p : LibdcParser) : KeepsIdle (S := S) (Libdc.setParser p) :=
  fun _ hd => Triple.of_run rfl ⟨trivial, hd⟩

/-- Other fields are set. -/
theorem keepsIdle_setDev {f : LibdcDev → LibdcDev}
    (hf : ∀ dev, (f dev).dcb = dev.dcb ∧ (f dev).pcb = dev.pcb) :
    KeepsIdle (S := S) (Libdc.setDev f) := by
  intro d hd
  obtain ⟨hdcb, hpcb⟩ := hf d.state.dev
  exact Triple.of_run rfl ⟨trivial, hdcb.trans hd.1, hpcb.trans hd.2⟩

theorem keepsIdle_useOpt (o : Option Nat) : KeepsIdle (S := S) (Libdc.useOpt o) := by
  cases o with
  | none => exact keepsIdle_pure ()
  | some h => exact keepsIdle_use h

theorem keepsIdle_disposeOpt (o : Option Nat) : KeepsIdle (S := S) (Libdc.disposeOpt o) := by
  cases o with
  | none => exact keepsIdle_pure ()
  | some h => exact keepsIdle_dispose h

theorem keepsIdle_onParser (f : S → α × S) : KeepsIdle (Libdc.onParser f) := by
  apply keepsIdle_getParser.bind
  intro p
  exact (keepsIdle_useOpt _).seq (keepsIdle_call f)

/-- An error is set, and a result given. -/
theorem keepsIdle_failWith (code : Int) (msg : String) (a : α) :
    KeepsIdle (S := S) (do Libdc.setDevError code msg; return a) :=
  (keepsIdle_setDev fun _ => ⟨rfl, rfl⟩).seq (keepsIdle_pure a)

/-! ### The functions of the driver -/

/-- The descriptor is a field of its own. -/
theorem describe_idle (descriptors : List (Nat × Nat)) (dev : LibdcDev) :
    (dev.describe descriptors).dcb = dev.dcb ∧ (dev.describe descriptors).pcb = dev.pcb :=
  ⟨describe_congr LibdcDev.dcb (fun _ _ => rfl) descriptors dev,
    describe_congr LibdcDev.pcb (fun _ _ => rfl) descriptors dev⟩

/-- So is the entry of the table. -/
theorem lookup_idle (dev : LibdcDev) :
    dev.lookup.1.dcb = dev.dcb ∧ dev.lookup.1.pcb = dev.pcb :=
  ⟨lookup_congr LibdcDev.dcb (fun _ _ _ => rfl) dev,
    lookup_congr LibdcDev.pcb (fun _ _ _ => rfl) dev⟩

theorem keepsIdle_libdcDeviceOpen (devpath : Text) (descriptor : Nat × Nat) :
    KeepsIdle (libdcDeviceOpen D devpath descriptor) := by
  apply keepsIdle_getDev.bind
  intro s
  apply (keepsIdle_useOpt _).seq
  apply (keepsIdle_call _).bind
  intro opened
  cases opened with
  | false => exact keepsIdle_failWith _ _ _
  | true =>
    apply keepsIdle_alloc.bind
    intro device
    apply KeepsIdle.seq
    · exact keepsIdle_setDev fun _ => ⟨rfl, rfl⟩
    · exact (keepsIdle_use device).seq (keepsIdle_pure _)

theorem keepsIdle_libdcDescriptor (devpath : Text) : KeepsIdle (libdcDescriptor D devpath) := by
  apply keepsIdle_alloc.bind
  intro iterator
  apply (keepsIdle_use iterator).seq
  apply KeepsIdle.seq
  · exact keepsIdle_setDev (describe_idle D.descriptors)
  apply (keepsIdle_dispose iterator).seq
  apply keepsIdle_getDev.bind
  intro s
  cases s.descriptor with
  | none => exact keepsIdle_failWith _ _ _
  | some descriptor => exact keepsIdle_libdcDeviceOpen devpath descriptor

theorem keepsIdle_libdcModel (devpath : Text) (modelid : Nat) :
    KeepsIdle (libdcModel D devpath modelid) := by
  apply KeepsIdle.seq
  · exact keepsIdle_setDev fun _ => ⟨rfl, rfl⟩
  intro d hd
  apply libdcGetDev_spec.bind
  rintro _ d' ⟨rfl, rfl⟩
  obtain ⟨hdcb, hpcb⟩ := lookup_idle d'.state.dev
  refine Triple.bind (Q := fun _ d' => LibdcIdle d'.state)
    (Triple.of_run rfl ⟨hdcb.trans hd.1, hpcb.trans hd.2⟩) fun _ d₁ hd₁ => ?_
  exact KeepsIdle.ite (keepsIdle_libdcDescriptor devpath) (keepsIdle_failWith _ _ _) d₁ hd₁

/-- Opening stores no callback. -/
theorem keepsIdle_libdcDriverOpen (devpath args : Text) :
    KeepsIdle (libdcDriverOpen D dev devpath args) := by
  apply (keepsIdle_use dev).seq
  cases arglistParse args with
  | error e =>
    cases e with
    | overrun => exact keepsIdle_throw _
    | einval => exact keepsIdle_failWith _ _ _
  | ok args =>
    dsimp only
    cases arglistReadUint args "model".toList with
    | error _ => exact keepsIdle_failWith _ _ _
    | ok modelid => exact keepsIdle_libdcModel devpath modelid

theorem keepsIdle_libdcDriverClose : KeepsIdle (S := S) (libdcDriverClose dev) := by
  apply (keepsIdle_use dev).seq
  apply keepsIdle_getDev.bind
  intro s
  apply (keepsIdle_disposeOpt _).seq
  apply keepsIdle_getDev.bind
  intro s
  exact (keepsIdle_disposeOpt _).seq (keepsIdle_dispose dev)

theorem keepsIdle_libdcDriverErrmsg : KeepsIdle (S := S) (libdcDriverErrmsg dev) := by
  apply (keepsIdle_use dev).seq
  exact keepsIdle_getDev.bind fun _ => keepsIdle_pure _

theorem keepsIdle_libdcFingerprint (token : Option Text) :
    KeepsIdle (libdcFingerprint D token) := by
  rw [libdcFingerprint]
  cases tokenData token with
  | none => exact keepsIdle_pure ()
  | some bytes =>
    apply keepsIdle_getDev.bind
    intro s
    exact (keepsIdle_useOpt _).seq ((keepsIdle_call _).seq (keepsIdle_note _))

/-- An event stores none, either. -/
theorem keepsIdle_libdcEventCb (event : DcEvent) : KeepsIdle (libdcEventCb D dev event) := by
  apply (keepsIdle_use dev).seq
  cases event with
  | progress current maximum =>
    apply keepsIdle_getDev.bind
    intro s
    cases s.pcb with
    | none => exact keepsIdle_pure ()
    | some pcb => exact (keepsIdle_note _).seq (keepsIdle_setDev fun _ => ⟨rfl, rfl⟩)
  | devinfo model serial =>
    apply keepsIdle_getDev.bind
    intro s
    cases s.dcb with
    | none => exact keepsIdle_pure ()
    | some dcb =>
      apply keepsIdle_getDev.bind
      intro s
      exact (keepsIdle_note _).seq (keepsIdle_libdcFingerprint _)
  | clock devtime systime => exact keepsIdle_setDev fun _ => ⟨rfl, rfl⟩
  | dive n =>
    apply (keepsIdle_use dev).seq
    apply keepsIdle_alloc.bind
    intro le
    exact keepsIdle_setDev fun _ => ⟨rfl, rfl⟩

theorem keepsIdle_libdcFreeDives (dives : List (Nat × DiveList)) :
    KeepsIdle (S := S) (libdcFreeDives dives) :=
  Maintains.forM (fun n : Nat × DiveList => keepsIdle_dispose n.1) trivial dives

/-- **A transfer does not store the callbacks that it is given.** -/
theorem keepsIdle_libdcDriverTransfer : KeepsIdle (libdcDriverTransfer D dev) := by
  apply (keepsIdle_use dev).seq
  apply keepsIdle_getDev.bind
  intro s
  apply (keepsIdle_useOpt _).seq
  apply (keepsIdle_call _).bind
  intro r
  obtain ⟨done, events⟩ := r
  apply KeepsIdle.seq
  · exact Maintains.forM keepsIdle_libdcEventCb trivial events
  apply keepsIdle_getDev.bind
  intro s
  -- the list is freed on both ways out
  cases done with
  | true =>
    have hjoin : KeepsIdle (libdcJoinDives (S := S) s.dives) :=
      KeepsIdle.seq (Maintains.forM (fun n : Nat × DiveList => keepsIdle_use n.1) trivial _)
        (keepsIdle_pure _)
    exact hjoin.bind fun _ => (keepsIdle_libdcFreeDives _).seq (keepsIdle_pure _)
  | false =>
    apply KeepsIdle.seq
    · exact keepsIdle_setDev fun _ => ⟨rfl, rfl⟩
    · exact (keepsIdle_libdcFreeDives _).seq (keepsIdle_pure _)

theorem keepsIdle_libdcExtracted (r : LibdcResult) : KeepsIdle (S := S) (libdcExtracted r) := by
  rw [libdcExtracted]
  rcases r.error with _ | ⟨code, msg⟩
  · exact keepsIdle_pure _
  · exact keepsIdle_failWith _ _ _

theorem keepsIdle_libdcDriverExtract (fuel : Nat) (buffer : Option Memory) (size : Nat) :
    KeepsIdle (S := S) (libdcDriverExtract fuel dev buffer size) := by
  apply (keepsIdle_use dev).seq
  apply KeepsIdle.ite
  · exact keepsIdle_libdcExtracted _
  cases buffer with
  | none => exact keepsIdle_throw _
  | some mem =>
    dsimp only
    cases iterate (libdcExtractStep mem size) fuel ⟨0, []⟩ with
    | next s => exact keepsIdle_throw _
    | stop r => exact keepsIdle_libdcExtracted r

/-! ### The functions of the parser -/

theorem keepsIdle_libdcParserCreate : KeepsIdle (libdcParserCreate D dev) := by
  apply keepsIdle_alloc.bind
  intro p
  apply (keepsIdle_use dev).seq
  apply keepsIdle_getDev.bind
  intro s
  apply (keepsIdle_useOpt _).seq
  apply (keepsIdle_call _).bind
  intro made
  apply KeepsIdle.ite
  · apply keepsIdle_alloc.bind
    intro parser
    exact (keepsIdle_setParser _).seq (keepsIdle_pure _)
  · apply KeepsIdle.seq
    · exact keepsIdle_setDev fun _ => ⟨rfl, rfl⟩
    · exact (keepsIdle_dispose p).seq (keepsIdle_pure _)

theorem keepsIdle_libdcParserClose (p : Nat) : KeepsIdle (S := S) (libdcParserClose p) := by
  apply (keepsIdle_use p).seq
  apply keepsIdle_getParser.bind
  intro s
  apply (keepsIdle_disposeOpt _).seq
  apply keepsIdle_getParser.bind
  intro s
  exact (keepsIdle_setParser _).seq (keepsIdle_dispose p)

/-- An error of the parser is stored, and a result given. -/
theorem keepsIdle_libdcParserError (msg : String) (a : α) :
    KeepsIdle (S := S) (do libdcParserError msg; return a) := by
  have herror : KeepsIdle (S := S) (libdcParserError msg) := by
    apply keepsIdle_getParser.bind
    intro p
    exact (keepsIdle_use _).seq (keepsIdle_setDev fun _ => ⟨rfl, rfl⟩)
  exact herror.seq (keepsIdle_pure a)

theorem keepsIdle_libdcValue (get : S → (DcStatus × β) × S) (msg : String)
    (tokens : β → List HeaderEntry) (seen : List HeaderEntry)
    {k : Option β → List HeaderEntry → Libdc S (Int × List HeaderEntry)}
    (hk : ∀ value seen, KeepsIdle (k value seen)) :
    KeepsIdle (libdcValue get msg tokens seen k) := by
  apply (keepsIdle_onParser get).bind
  rintro ⟨status, value⟩
  cases status with
  | failure => exact keepsIdle_libdcParserError _ _
  | unsupported => exact hk _ _
  | success => exact hk _ _

theorem keepsIdle_libdcGasmixes (is : List Nat) (seen : List HeaderEntry) :
    KeepsIdle (libdcGasmixes D is seen) := by
  induction is generalizing seen with
  | nil => exact keepsIdle_pure _
  | cons i is ih => exact keepsIdle_libdcValue _ _ _ _ fun _ seen => ih seen

theorem keepsIdle_libdcParserParseHeader (p : Nat) (data : List UInt8) :
    KeepsIdle (libdcParserParseHeader D p data) := by
  apply (keepsIdle_use p).seq
  apply (keepsIdle_onParser _).bind
  intro set
  apply KeepsIdle.ite
  · apply keepsIdle_libdcValue
    intro _ seen
    apply keepsIdle_libdcValue
    intro _ seen
    apply keepsIdle_libdcValue
    intro _ seen
    apply keepsIdle_libdcValue
    intro ngasses seen
    exact keepsIdle_libdcGasmixes _ seen
  · exact keepsIdle_libdcParserError _ _

theorem keepsIdle_libdcParserParseProfile (p : Nat) (data : List UInt8) :
    KeepsIdle (libdcParserParseProfile D p data) := by
  apply (keepsIdle_use p).seq
  apply (keepsIdle_onParser _).bind
  intro set
  apply KeepsIdle.ite
  · apply (keepsIdle_onParser _).bind
    rintro ⟨done, samples⟩
    exact (keepsIdle_pure _).ite (keepsIdle_libdcParserError _ _)
  · exact keepsIdle_libdcParserError _ _

/-- **No function of the driver stores a callback.** -/
theorem keepsIdle_run (fuel : Nat) (c : PluginCall) :
    KeepsIdle (c.run (libdcDriverInterface D fuel) dev) := by
  cases c with
  | opening devpath args =>
    exact (keepsIdle_libdcDriverOpen devpath args).seq (keepsIdle_pure ())
  | transfer dcb pcb size => exact keepsIdle_libdcDriverTransfer.seq (keepsIdle_pure ())
  | extract mem size =>
    exact (keepsIdle_libdcDriverExtract fuel mem size).seq (keepsIdle_pure ())
  | errmsg => exact keepsIdle_libdcDriverErrmsg.seq (keepsIdle_pure ())
  | closing => exact keepsIdle_libdcDriverClose
  | parserCreate => exact keepsIdle_libdcParserCreate.seq (keepsIdle_pure ())
  | parserClose p => exact keepsIdle_libdcParserClose p
  | parserReset p => exact (keepsIdle_pure 0).seq (keepsIdle_pure ())
  | parseHeader p data => exact (keepsIdle_libdcParserParseHeader p data).seq (keepsIdle_pure ())
  | parseProfile p data =>
    exact (keepsIdle_libdcParserParseProfile p data).seq (keepsIdle_pure ())

/-! ### Devices in use -/

/-- The calls lead from a new device to the desk `d`. -/
def LibdcReached (D : Libdivecomputer S) (fuel : Nat) (s : LibdcProc S) (dev : Nat)
    (calls : List PluginCall) (d : Desk (LibdcProc S)) : Prop :=
  ∃ d₀, (libdcDriverCreate D).run (Desk.start s) = .ok (.ok dev, d₀) ∧
    (calls.forM fun c => c.run (libdcDriverInterface D fuel) dev).run d₀ = .ok ((), d)

/-- The fields are null from the beginning. -/
theorem libdcDriverCreate_idle (d : Desk (LibdcProc S)) :
    Triple (libdcDriverCreate D) d (fun r d' => ∀ dev, r = .ok dev → LibdcIdle d'.state)
      fun _ => True := by
  refine Triple.bind (Q := fun _ _ => True) (Triple.of_run rfl trivial) fun made d₁ _ => ?_
  cases made with
  | false => exact Triple.pure fun dev h => nomatch h
  | true => exact Triple.of_run rfl fun _ _ => ⟨rfl, rfl⟩

/-- **A device never has a callback**, whatever has been done with it. -/
theorem LibdcReached.idle {fuel : Nat} {s : LibdcProc S} {calls : List PluginCall}
    (h : LibdcReached D fuel s dev calls d) : LibdcIdle d.state := by
  obtain ⟨d₀, hcreate, hrun⟩ := h
  have hd₀ := (libdcDriverCreate_idle (Desk.start s)).result hcreate dev rfl
  have hcalls : KeepsIdle (calls.forM fun c => c.run (libdcDriverInterface D fuel) dev) :=
    Maintains.forM (keepsIdle_run fuel) trivial calls
  exact ((hcalls d₀ hd₀).result hrun).2

/-- The device has been created, and opened with success. -/
def LibdcOpened (D : Libdivecomputer S) (s : LibdcProc S) (devpath args : Text) (dev : Nat)
    (d : Desk (LibdcProc S)) : Prop :=
  ∃ d₀, (libdcDriverCreate D).run (Desk.start s) = .ok (.ok dev, d₀) ∧
    (libdcDriverOpen D dev devpath args).run d₀ = .ok (driverErrSuccess, d)

section Opened

variable {s : LibdcProc S} {devpath args : Text} (h : LibdcOpened D s devpath args dev d)

include h

/-- An open device has its handles. -/
theorem LibdcOpened.ready : LibdcReady dev d := by
  obtain ⟨d₀, hcreate, hopen⟩ := h
  have hready := (libdcDriverCreate_spec (Desk.start s)).result hcreate dev rfl
  exact ((libdcDriverOpen_ready devpath args d₀ hready).result hopen).2

/-- It is a device in use. -/
theorem LibdcOpened.reached (fuel : Nat) : LibdcReached D fuel s dev [.opening devpath args] d := by
  obtain ⟨d₀, hcreate, hopen⟩ := h
  refine ⟨d₀, hcreate, run_bind_eq_ok.mpr ⟨(), d, ?_, rfl⟩⟩
  exact run_bind_eq_ok.mpr ⟨_, d, hopen, rfl⟩

end Opened

/-! ### A transfer, event by event -/

/-- A transfer up to and with the given events. -/
def libdcHandled (D : Libdivecomputer S) (dev : Nat) (events : List DcEvent) : Libdc S Unit := do
  useHandle dev
  Libdc.useOpt (← Libdc.getDev).device
  let _ ← Libdc.call D.foreach
  events.forM (libdcEventCb D dev)

/-- What is left of a transfer behind some of its events. -/
def libdcLeft (D : Libdivecomputer S) (dev : Nat) (done : Bool) (events : List DcEvent) :
    Libdc S (Except Int (Nat × List UInt8)) := do
  events.forM (libdcEventCb D dev)
  let dives := (← Libdc.getDev).dives
  if done then
    let joined ← libdcJoinDives dives
    libdcFreeDives dives
    return .ok joined
  else
    Libdc.setDevError driverErrRead "Failed to read dive data from device"
    libdcFreeDives dives
    return .error (-1)

/-- Programs that go on in the same way from where the first part ends. -/
theorem run_bind_congr {m : Libdc S α} {f g : α → Libdc S β}
    (h : ∀ a d', m.run d = .ok (a, d') → (f a).run d' = (g a).run d') :
    (m >>= f).run d = (m >>= g).run d := by
  rw [StateT.run_bind, StateT.run_bind]
  cases hrun : m.run d with
  | error e => rfl
  | ok r => exact h r.1 r.2 hrun

/-- A pointer that may be null is followed. -/
theorem leavesState_useOpt (o : Option Nat) : LeavesState (σ := LibdcProc S) (Libdc.useOpt o) := by
  cases o with
  | none => exact fun _ => Triple.pure ⟨trivial, rfl⟩
  | some h => exact leavesState_useHandle h

/-- **A transfer handles its events one by one.** -/
theorem libdcDriverTransfer_run {done : Bool} {first rest : List DcEvent}
    (hforeach : (D.foreach d.state.world).1 = (done, first ++ rest)) :
    (libdcDriverTransfer D dev).run d =
      (libdcHandled D dev first >>= fun _ => libdcLeft D dev done rest).run d := by
  rw [libdcDriverTransfer, libdcHandled]
  simp only [bind_assoc]
  apply run_bind_congr
  intro _ d₁ h₁
  have hstate₁ : d₁.state = d.state := ((leavesState_useHandle dev d).result h₁).2
  apply run_bind_congr
  intro s d₂ h₂
  cases h₂
  apply run_bind_congr
  intro _ d₃ h₃
  have hstate₃ : d₃.state = d₁.state := ((leavesState_useOpt _ d₁).result h₃).2
  apply run_bind_congr
  intro r d₄ h₄
  have hr : r = (done, first ++ rest) := by
    cases h₄
    rw [hstate₃, hstate₁, hforeach]
  subst hr
  -- up to here the device has not changed, so these are the events of `d`
  have hsplit : (first ++ rest).forM (libdcEventCb D dev) =
      (first.forM (libdcEventCb D dev) >>= fun _ => rest.forM (libdcEventCb D dev)) :=
    List.forM_append
  show ((first ++ rest).forM (libdcEventCb D dev) >>= _).run d₄ = _
  rw [hsplit, bind_assoc]
  rfl

/-! ### What the application is promised -/

/-- An event that a callback of the application is there for. -/
def DcEvent.ForApp : DcEvent → Prop
  | .progress _ _ => True
  | .devinfo _ _ => True
  | _ => False

/-- What the application is promised of an event, which leads from one state to another. -/
def Delivered (dcb : DeviceCallback) (pcb : TransferCallback) (s s' : LibdcProc S) :
    DcEvent → Prop
  | .devinfo model serial => ∃ devtime, s'.notes = s.notes ++
      .device model serial devtime ::
        ((tokenData (dcb model serial devtime).2).map LibdcNote.fingerprint).toList
  | .progress current maximum => s'.notes = s.notes ++ [.progress current maximum] ∧
      (pcb current maximum = true → libdcCancelCb s'.dev = true)
  | _ => True

/-- The promise is kept for every event of a transfer from the desk `d`. -/
def CallbacksReached (D : Libdivecomputer S) (dev : Nat) (dcb : DeviceCallback)
    (pcb : TransferCallback) (d : Desk (LibdcProc S)) : Prop :=
  ∀ first e, first ++ [e] <+: (D.foreach d.state.world).1.2 → ∀ d₁ d₂,
    (libdcHandled D dev first).run d = .ok ((), d₁) →
    (libdcEventCb D dev e).run d₁ = .ok ((), d₂) → Delivered dcb pcb d₁.state d₂.state e

/-- The events leave the driver its handles. -/
theorem libdcHandled_owns (events : List DcEvent) :
    Maintains (LibdcOwns dev) (fun _ => True) never (libdcHandled D dev events) := by
  refine libdcOwns_stable.use.bind fun _ _ => ?_
  apply libdcOwns_stable.useDevice_then
  refine (libdcOwns_stable.call _).bind fun _ _ => ?_
  exact Maintains.forM libdcEventCb_owns trivial events

/-- And the device idle. -/
theorem keepsIdle_libdcHandled (events : List DcEvent) : KeepsIdle (libdcHandled D dev events) := by
  apply (keepsIdle_use dev).seq
  apply keepsIdle_getDev.bind
  intro s
  apply (keepsIdle_useOpt _).seq
  apply (keepsIdle_call _).seq
  exact Maintains.forM keepsIdle_libdcEventCb trivial events

/-- **An event for the application is dropped** by a device without callbacks. -/
theorem libdcEventCb_dropped {e : DcEvent} (he : e.ForApp) (hidle : LibdcIdle d.state) :
    Triple (libdcEventCb D dev e) d (fun _ d' => d'.state = d.state) fun _ => True := by
  refine (leavesState_useHandle dev d).bind fun _ d₁ h₁ => ?_
  have hstate : d₁.state = d.state := h₁.2
  rw [← hstate] at hidle ⊢
  cases e with
  | progress current maximum =>
    apply libdcGetDev_spec.bind
    rintro _ _ ⟨rfl, rfl⟩
    rw [hidle.2]
    exact Triple.pure rfl
  | devinfo model serial =>
    apply libdcGetDev_spec.bind
    rintro _ _ ⟨rfl, rfl⟩
    rw [hidle.1]
    exact Triple.pure rfl
  | clock devtime systime => exact he.elim
  | dive n => exact he.elim

/-- What is dropped is not delivered. -/
theorem not_delivered {dcb : DeviceCallback} {pcb : TransferCallback} {e : DcEvent}
    (he : e.ForApp) (s : LibdcProc S) : ¬Delivered dcb pcb s s e := by
  have hne : ∀ n ns, s.notes ≠ s.notes ++ n :: ns := fun n ns h =>
    List.cons_ne_nil n ns (List.self_eq_append_right.mp h)
  cases e with
  | progress current maximum => exact fun h => hne _ _ h.1
  | devinfo model serial =>
    rintro ⟨devtime, h⟩
    exact hne _ _ h
  | clock devtime systime => exact he.elim
  | dive n => exact he.elim

/-- One event for the application breaks the promise. -/
theorem not_callbacksReached (hidle : LibdcIdle d.state) (hlive : LibdcOwns dev d)
    (dcb : DeviceCallback) (pcb : TransferCallback) {first : List DcEvent} {e : DcEvent}
    (hfront : first ++ [e] <+: (D.foreach d.state.world).1.2) (he : e.ForApp) :
    ¬CallbacksReached D dev dcb pcb d := by
  intro hall
  -- nothing halts on the way to the event
  obtain ⟨_, d₁, hrun₁, -, hlive₁⟩ := (libdcHandled_owns (D := D) first d hlive).exists_run
  obtain ⟨_, d₂, hrun₂, -⟩ := (libdcEventCb_owns (D := D) (E := never) e d₁ hlive₁).exists_run
  have hidle₁ := ((keepsIdle_libdcHandled first d hidle).result hrun₁).2
  have hsame : d₂.state = d₁.state := (libdcEventCb_dropped he hidle₁).result hrun₂
  have hdelivered := hall first e hfront d₁ d₂ hrun₁ hrun₂
  rw [hsame] at hdelivered
  exact not_delivered he d₁.state hdelivered

/-- **The callbacks are reached if and only if** there is nothing for them: in a transfer on a
device in use, whatever has been done with it before, every event reaches its callback
exactly when none of the events is one for the application. -/
theorem callbacksReached_iff {fuel : Nat} {s : LibdcProc S} {calls : List PluginCall}
    (hreached : LibdcReached D fuel s dev calls d) (hlive : LibdcOwns dev d)
    (dcb : DeviceCallback) (pcb : TransferCallback) :
    CallbacksReached D dev dcb pcb d ↔ ∀ e ∈ (D.foreach d.state.world).1.2, ¬e.ForApp := by
  constructor
  · intro hall e he hfor
    obtain ⟨first, rest, hsplit⟩ := List.append_of_mem he
    have hfront : first ++ [e] <+: (D.foreach d.state.world).1.2 :=
      ⟨rest, by rw [hsplit, List.append_assoc]; rfl⟩
    exact not_callbacksReached hreached.idle hlive dcb pcb hfront hfor hall
  · intro hnone first e hfront d₁ d₂ _ _
    have hmem : e ∈ (D.foreach d.state.world).1.2 :=
      hfront.subset (List.mem_append_right _ (List.mem_singleton_self e))
    cases e with
    | progress current maximum => exact absurd trivial (hnone _ hmem)
    | devinfo model serial => exact absurd trivial (hnone _ hmem)
    | clock devtime systime => exact trivial
    | dive n => exact trivial

/-! ### A device that says what it is -/

/-- A library that opens every device, and raises the given events. -/
def eventLibrary (events : List DcEvent) : Libdivecomputer Unit where
  contextNew w := (true, w)
  descriptors := [(458752, 0)]
  deviceOpen w _ _ := (true, w)
  foreach w := ((true, events), w)
  setFingerprint w _ := w
  parserNew w := (true, w)
  setData w _ := (true, w)
  getDatetime w := ((.unsupported, 0), w)
  getField w _ := ((.unsupported, 0), w)
  getGasmix w _ := ((.unsupported, 0, 0), w)
  samplesForeach w := ((true, []), w)

/-- The memory of the driver before the device is created. -/
def blankLibdc : LibdcProc Unit where
  world := ()
  dev := LibdcDev.fresh 0
  parser := ⟨0, none⟩
  notes := []

/-- The device that an opening has given. -/
def openedDevice : Except Halt (Int × Desk (LibdcProc Unit)) → Option Nat
  | .ok (rc, d) => if rc = driverErrSuccess then d.state.dev.device else none
  | .error _ => none

/-- The device of such a library is opened as one of model 14. -/
theorem eventLibrary_opened (events : List DcEvent) :
    ∃ d, LibdcOpened (eventLibrary events) blankLibdc [] "model=14".toList 1 d ∧
      d.state.dev.device = some 3 := by
  let d₀ : Desk (LibdcProc Unit) :=
    ⟨{ blankLibdc with dev := LibdcDev.fresh 0 }, Ledger.empty.alloc.alloc⟩
  -- the opening does not look at the events
  have hopened : openedDevice ((libdcDriverOpen (eventLibrary []) 1 [] "model=14".toList).run d₀) =
      some 3 := by decide +kernel
  have hopened : openedDevice ((libdcDriverOpen (eventLibrary events) 1 []
      "model=14".toList).run d₀) = some 3 := hopened
  cases hrun : (libdcDriverOpen (eventLibrary events) 1 [] "model=14".toList).run d₀ with
  | error e =>
    rw [hrun] at hopened
    cases hopened
  | ok r =>
    obtain ⟨rc, d⟩ := r
    rw [hrun] at hopened
    change (if rc = driverErrSuccess then d.state.dev.device else none) = some 3 at hopened
    split at hopened
    case isTrue hrc =>
      subst hrc
      exact ⟨d, ⟨d₀, rfl, hrun⟩, hopened⟩
    case isFalse => cases hopened

/-- A clock is not for the application. -/
theorem callbacksReached_iff_clock : ∃ d,
    LibdcOpened (eventLibrary [.clock 1 2]) blankLibdc [] "model=14".toList 1 d ∧
      CallbacksReached (eventLibrary [.clock 1 2]) 1 (fun _ _ _ => (0, none)) (fun _ _ => false)
        d := by
  obtain ⟨d, hopened, -⟩ := eventLibrary_opened [.clock 1 2]
  refine ⟨d, hopened, (callbacksReached_iff (hopened.reached 0) hopened.ready.1 _ _).mpr ?_⟩
  intro e he
  rw [List.mem_singleton.mp he]
  exact not_false

/-- **The device callback is not called** for a device that says what it is. -/
theorem eventLibrary_not_callbacksReached : ∃ d,
    LibdcOpened (eventLibrary [.devinfo 5 77]) blankLibdc [] "model=14".toList 1 d ∧
      ¬CallbacksReached (eventLibrary [.devinfo 5 77]) 1 (fun _ _ _ => (0, some "Bw==".toList))
        (fun _ _ => false) d := by
  obtain ⟨d, hopened, -⟩ := eventLibrary_opened [.devinfo 5 77]
  have hfront : [] ++ [DcEvent.devinfo 5 77] <+:
      ((eventLibrary [.devinfo 5 77]).foreach d.state.world).1.2 := List.prefix_refl _
  exact ⟨d, hopened, not_callbacksReached (hopened.reached 0).idle hopened.ready.1 _ _ hfront
    trivial⟩

end BenthosDc

/-
BenthosDc/TransferHandles.lean

The handles of a transfer.

A `HandleContract` is what a driver promises of its handles, function by function; with it
nothing that happens before the device is closed follows a handle that is not live
(`beforeClose_spec`).  All three drivers keep the contract.  The application then closes
the device and shuts it down: only the network driver is made for both calls.

* `handlesKept_iff`: which transfers release and use their handles correctly.
-/
import BenthosDc.LibdcOwned
import BenthosDc.SmartOwned
import BenthosDc.SmartPluginOwned
import BenthosDc.SmartiOwned
import BenthosDc.TransferApp
import BenthosDc.Waypoints

namespace BenthosDc

open CString Hoare Lifetime

variable {σ D S : Type}

/-! ### The contract

The contract speaks of the handles only, in states of the driver that it may choose itself.
-/

/-- The states of a device, and what the functions of a driver do with its handles. -/
structure HandleContract (drv : DriverInterface σ) where
  Created : Nat → Desk σ → Prop
  Opened : Nat → Desk σ → Prop
  Transferred : Nat → Desk σ → Prop
  /-- The device is parsed with the parser of the second handle. -/
  Parsed : Nat → Nat → Desk σ → Prop
  create : ∀ d, Triple drv.driverCreate d (fun r d' => ∀ dev, r = .ok dev → Created dev d')
    NotDangling
  opening : ∀ dev devpath args d, Created dev d → Triple (drv.driverOpen dev devpath args) d
    (fun rc d' => (rc = 0 → Opened dev d') ∧ (rc ≠ 0 → Created dev d')) NotDangling
  shutdown : ∀ dev d, Created dev d →
    Triple (drv.driverShutdown dev) d (fun _ _ => True) NotDangling
  transfer : ∀ dev dcb pcb size d, Opened dev d →
    Triple (drv.driverTransfer dev dcb pcb size) d (fun _ d' => Transferred dev d') NotDangling
  extract : ∀ dev mem size,
    Keeping (Transferred dev) (fun _ => True) (drv.driverExtract dev mem size)
  errmsg_created : ∀ dev, Keeping (Created dev) (fun _ => True) (drv.driverErrmsg dev)
  errmsg : ∀ dev, Keeping (Transferred dev) (fun _ => True) (drv.driverErrmsg dev)
  errmsg_parsed : ∀ dev p, Keeping (Parsed dev p) (fun _ => True) (drv.driverErrmsg dev)
  parserCreate : ∀ dev d, Transferred dev d → Triple (drv.parserCreate dev) d
    (fun r d' => Transferred dev d' ∧ ∀ p, r = .ok p → Parsed dev p d') NotDangling
  parserClose : ∀ dev p d, Parsed dev p d →
    Triple (drv.parserClose p) d (fun _ d' => Transferred dev d') NotDangling
  parserReset : ∀ dev p, Keeping (Parsed dev p) (fun _ => True) (drv.parserReset p)
  parserParseHeader : ∀ dev p data,
    Keeping (Parsed dev p) (fun _ => True) (drv.parserParseHeader p data)
  parserParseProfile : ∀ dev p data,
    Keeping (Parsed dev p) (fun _ => True) (drv.parserParseProfile p data)
  transferred_of_parsed : ∀ dev p d, Parsed dev p d → Transferred dev d

/-! ### The application

The functions of the application follow no handle of their own; they call the driver and the
parser in the order that the contract asks for.
-/

section Application

variable {drv : DriverInterface σ} (C : HandleContract drv) {F : Formatter D} {dev p : Nat}

include C

/-- The calls for one dive. -/
theorem diveCalls_keeping (data : List UInt8) :
    Keeping (C.Parsed dev p) (fun _ => True) (diveCalls drv dev p data) := by
  have hreturn : ∀ c : ParserCalls, Keeping (C.Parsed dev p) (fun _ => True) (do
      let _ ← drv.driverErrmsg dev; return c) := fun c =>
    (C.errmsg_parsed dev p).bind fun _ _ => Maintains.pure trivial
  refine (C.parserReset dev p).bind fun reset _ => ?_
  refine Maintains.ite (fun _ => hreturn _) fun _ => ?_
  refine (C.parserParseHeader dev p data).bind fun r _ => ?_
  obtain ⟨headerRv, header⟩ := r
  refine Maintains.ite (fun _ => hreturn _) fun _ => ?_
  refine (C.parserParseProfile dev p data).bind fun r _ => ?_
  obtain ⟨profileRv, profile⟩ := r
  exact Maintains.ite (fun _ => hreturn _) fun _ => Maintains.pure trivial

/-- The calls for all dives. -/
theorem parseDives_keeping (s : D) (dives : List (List UInt8 × Text)) :
    Keeping (C.Parsed dev p) (fun _ => True) (parseDives drv F dev p s dives) := by
  induction dives generalizing s with
  | nil => exact Maintains.pure trivial
  | cons dive dives ih =>
    refine (diveCalls_keeping C dive.1).bind fun c _ => ?_
    cases runParserDive F s c with
    | error rv => exact Maintains.pure trivial
    | ok s => exact ih s

/-- The parser is created and closed. -/
theorem runParserWith_keeping (init : Except Int D) (dives : List (List UInt8 × Text)) :
    Keeping (C.Transferred dev) (fun _ => True) (runParserWith drv F init dev dives) := by
  intro d hd
  cases init with
  | error rv => exact Triple.pure ⟨trivial, hd⟩
  | ok s =>
    apply (C.parserCreate dev d hd).bind
    intro r d₁ ⟨hd₁, hparsed⟩
    cases r with
    | error rv =>
      exact ((C.errmsg dev).bind fun _ _ => Maintains.pure trivial) d₁ hd₁
    | ok p =>
      refine (parseDives_keeping C s dives).then (hparsed p rfl) fun r d₂ _ hd₂ => ?_
      cases r with
      | error rv => exact Triple.pure ⟨trivial, C.transferred_of_parsed dev p d₂ hd₂⟩
      | ok s =>
        refine (C.parserClose dev p d₂ hd₂).bind fun _ d₃ hd₃ => ?_
        exact Triple.pure ⟨trivial, hd₃⟩

/-- Nothing is parsed if nothing has been transferred. -/
theorem parseTransferred_keeping (init : Except Int D) (o : TransferOptions)
    (dives : List (List UInt8 × Text)) :
    Keeping (C.Transferred dev) (fun _ => True) (parseTransferred drv F init o dev dives) := by
  refine Maintains.ite (fun _ => ?_) fun _ => Maintains.pure trivial
  refine (runParserWith_keeping C init dives).bind fun r _ => ?_
  cases r with
  | error rv => exact Maintains.pure trivial
  | ok s => exact Maintains.pure trivial

/-- The device stays open. -/
theorem transferDives_spec (init : Except Int D) (o : TransferOptions) {d : Desk σ}
    (hd : C.Opened dev d) :
    Triple (transferDives drv F init o dev) d (fun _ d' => C.Transferred dev d') NotDangling := by
  refine (C.transfer dev _ _ _ d hd).bind fun r d₁ hd₁ => ?_
  have hfailed : Keeping (C.Transferred dev) (fun _ => True) (do
      let _ ← drv.driverErrmsg dev; return transferFailed) :=
    (C.errmsg dev).bind fun _ _ => Maintains.pure trivial
  rcases r with rc | ⟨bufferLen, buffer⟩
  · exact (hfailed d₁ hd₁).imp fun _ _ h => h.2
  · have hkeep : ∀ {m : Driver σ TransferResult},
        Keeping (C.Transferred dev) (fun _ => True) m →
          Triple m d₁ (fun _ d' => C.Transferred dev d') NotDangling :=
      fun hm => (hm d₁ hd₁).imp fun _ _ h => h.2
    refine hkeep (Maintains.ite (fun _ => ?_) fun _ => parseTransferred_keeping C init o [])
    refine (C.extract dev _ _).bind fun r _ => ?_
    obtain ⟨rv, data⟩ := r
    dsimp only
    cases extractCb data with
    | none => exact Maintains.throw (by rintro ⟨⟩)
    | some dives =>
      exact Maintains.ite (fun _ => hfailed) fun _ => parseTransferred_keeping C init o dives

/-- A device that is given up has been shut down. -/
theorem openDevice_spec (o : TransferOptions) (d : Desk σ) :
    Triple (openDevice drv o) d (fun r d' => ∀ dev, r = some dev → C.Opened dev d')
      NotDangling := by
  refine (C.create d).bind fun r d₁ hd₁ => ?_
  cases r with
  | error rc => exact Triple.pure fun dev h => nomatch h
  | ok dev =>
    apply (C.opening dev o.device o.dargs d₁ (hd₁ dev rfl)).bind
    intro rc d₂ ⟨hopened, hcreated⟩
    by_cases hrc : rc = driverErrSuccess
    · rw [if_neg (not_not.mpr hrc)]
      refine Triple.pure fun dev' h => ?_
      cases h
      exact hopened hrc
    · rw [if_pos hrc]
      refine (C.errmsg_created dev).then (hcreated hrc) fun _ d₃ _ hd₃ => ?_
      refine (C.shutdown dev d₃ hd₃).bind fun _ d₄ _ => ?_
      exact Triple.pure fun dev' h => nomatch h

/-- **Before a device is closed every handle that is followed is live.** -/
theorem beforeClose_spec (init : Except Int D) (o : TransferOptions) (d : Desk σ) :
    Triple (beforeClose drv F init o) d
      (fun r d' => ∀ dev res, r = some (dev, res) → C.Transferred dev d') NotDangling := by
  refine (openDevice_spec C o d).bind fun r d₁ hd₁ => ?_
  cases r with
  | none => exact Triple.pure fun dev res h => nomatch h
  | some dev =>
    refine (transferDives_spec C init o (hd₁ dev rfl)).bind fun res d₂ hd₂ => ?_
    refine Triple.pure fun dev' res' h => ?_
    cases h
    exact hd₂

end Application

/-! ### The three drivers

The contract is instantiated with what each driver owns.
-/

theorem smart_baseOwned (dev : Nat) (b : Bool) :
    BaseOwned (SmartValid (S := S) dev b) (smartHandles dev) dev where
  valid_setBase _ _ h := h
  handles_setBase _ _ := rfl
  mem _ := Set.mem_insert dev _

theorem smarti_baseOwned (dev : Nat) :
    BaseOwned (SmartiValid (T := S) dev) (smartiHandles dev) dev where
  valid_setBase _ _ h := h
  handles_setBase _ _ := rfl
  mem _ := Set.mem_insert dev _

/-- **The local driver keeps the contract.** -/
def smartContract (H : SmartHost S) (fuel : Nat) :
    HandleContract (smartDriverInterface H fuel) where
  Created dev d := SmartOwns dev false d.driver
  Opened dev d := SmartOwns dev true d.driver
  Transferred dev d := SmartOwns dev true d.driver
  Parsed dev p d := Parses (SmartValid dev true) (smartHandles dev) dev p d
  create d := by
    refine (onDriver_spec ((smartDriverCreate_spec d.driver).bind fun dev d₁ hd₁ =>
      Triple.pure (Q := fun r d' => ∀ dev, r = Except.ok dev → SmartOwns dev false d') ?_)).imp
      fun _ _ h => h
    intro dev' h
    cases h
    exact hd₁
  opening dev devpath args d hd := by
    refine (onDriver_spec (smartDriverOpen_spec hd devpath args)).imp fun rc d' h => ⟨?_, ?_⟩
    · intro hrc
      rwa [decide_eq_true hrc] at h
    · intro hrc
      rwa [decide_eq_false hrc] at h
  shutdown dev d hd := (onDriver_spec (smartDriverShutdown_spec hd)).imp fun _ _ _ => trivial
  transfer dev dcb pcb size d hd :=
    (onDriver_keeping (smartDriverTransfer_smartKeeps fuel size (some dcb) (some pcb)) d hd).imp
      fun _ _ h => h.2
  extract dev mem size := driverExtract_owned (smart_baseOwned dev true) fuel mem size
  errmsg_created dev := driverErrmsg_owned (smart_baseOwned dev false)
  errmsg dev := driverErrmsg_owned (smart_baseOwned dev true)
  errmsg_parsed dev _ := driverErrmsg_keeping (smart_baseOwned dev true)
  parserCreate dev _ hd := parserCreate_spec (smart_baseOwned dev true) hd
  parserClose _ _ _ hd := parserClose_spec hd
  parserReset _ _ := parserReset_keeping
  parserParseHeader dev _ data := parserParseHeader_keeping (smart_baseOwned dev true) data
  parserParseProfile dev _ data := parserParseProfile_keeping (smart_baseOwned dev true) data
  transferred_of_parsed _ _ _ hd := hd.owned

/-- **The network driver keeps the contract.** -/
def smartiContract (H : SmartiHost S) (fuel : Nat) :
    HandleContract (smartiDriverInterface H fuel) where
  Created dev d := SmartiOwns dev d.driver
  Opened dev d := SmartiOwns dev d.driver
  Transferred dev d := SmartiOwns dev d.driver
  Parsed dev p d := Parses (SmartiValid dev) (smartiHandles dev) dev p d
  create d := by
    refine (onDriver_spec ((smartiDriverCreate_spec d.driver).bind fun dev d₁ hd₁ =>
      Triple.pure (Q := fun r d' => ∀ dev, r = Except.ok dev → SmartiOwns dev d') ?_)).imp
      fun _ _ h => h
    intro dev' h
    cases h
    exact hd₁
  opening dev devpath args d hd :=
    (onDriver_keeping (smartiDriverOpen_smartiKeeps devpath args) d hd).imp fun _ _ h =>
      ⟨fun _ => h.2, fun _ => h.2⟩
  shutdown dev d hd := (onDriver_spec (smartiDriverShutdown_spec hd)).imp fun _ _ _ => trivial
  transfer dev dcb pcb size d hd :=
    (onDriver_keeping (smartiDriverTransfer_smartiKeeps (some dcb)) d hd).imp fun _ _ h => h.2
  extract dev mem size := driverExtract_owned (smarti_baseOwned dev) fuel mem size
  errmsg_created dev := driverErrmsg_owned (smarti_baseOwned dev)
  errmsg dev := driverErrmsg_owned (smarti_baseOwned dev)
  errmsg_parsed dev _ := driverErrmsg_keeping (smarti_baseOwned dev)
  parserCreate dev _ hd := parserCreate_spec (smarti_baseOwned dev) hd
  parserClose _ _ _ hd := parserClose_spec hd
  parserReset _ _ := parserReset_keeping
  parserParseHeader dev _ data := parserParseHeader_keeping (smarti_baseOwned dev) data
  parserParseProfile dev _ data := parserParseProfile_keeping (smarti_baseOwned dev) data
  transferred_of_parsed _ _ _ hd := hd.owned

/-- **The libdc driver keeps the contract.** -/
def libdcContract (L : Libdivecomputer S) (fuel : Nat) :
    HandleContract (libdcDriverInterface L fuel) where
  Created := LibdcReady
  Opened := LibdcReady
  Transferred := LibdcOwns
  Parsed := LibdcParses
  create := libdcDriverCreate_spec
  opening _ devpath args d hd := (libdcDriverOpen_ready devpath args d hd).imp fun _ _ h =>
    ⟨fun _ => h.2, fun _ => h.2⟩
  shutdown _ _ hd := libdcDriverShutdown_spec hd.1
  transfer _ _ _ _ _ hd := libdcDriverTransfer_spec hd.1 hd.2
  extract _ mem size := libdcDriverExtract_keeping libdcOwns_stable fuel mem size
  errmsg_created _ := libdcDriverErrmsg_keeping libdcReady_stable
  errmsg _ := libdcDriverErrmsg_keeping libdcOwns_stable
  errmsg_parsed _ _ := libdcDriverErrmsg_keeping libdcParses_stable
  parserCreate _ _ hd := libdcParserCreate_spec hd
  parserClose _ _ _ hd := libdcParserClose_spec hd
  parserReset _ _ := Maintains.pure trivial
  parserParseHeader _ _ data := libdcParserParseHeader_libdcReads data
  parserParseProfile _ _ data := libdcParserParseProfile_libdcReads data
  transferred_of_parsed _ _ _ hd := hd.owns

/-! ### Transfers

The end of the transfer is a close and a shutdown, which only the network driver is made for.
-/

/-- The driver that a transfer has loaded, and the world that it drives. -/
inductive Plugin (S : Type)
  | smart (H : SmartHost S)
  | smarti (H : SmartiHost S)
  | libdc (L : Libdivecomputer S)

namespace Plugin

/-- What a driver keeps. -/
def State : Plugin S → Type
  | .smart _ => Parsing (SmartProc S)
  | .smarti _ => Parsing (SmartiProc S)
  | .libdc _ => LibdcProc S

/-- The table of the driver, whose loops are granted `fuel` passes each. -/
def interface : (p : Plugin S) → Nat → DriverInterface p.State
  | .smart H, fuel => smartDriverInterface H fuel
  | .smarti H, fuel => smartiDriverInterface H fuel
  | .libdc L, fuel => libdcDriverInterface L fuel

/-- The contract of a driver. -/
def contract : (p : Plugin S) → (fuel : Nat) → HandleContract (p.interface fuel)
  | .smart H, fuel => smartContract H fuel
  | .smarti H, fuel => smartiContract H fuel
  | .libdc L, fuel => libdcContract L fuel

/-- The network driver. -/
def isSmarti : Plugin S → Prop
  | .smarti _ => True
  | _ => False

end Plugin

/-- What a run has done with its handles: it has not come to a halt at a handle that is
not live, each handle is released at most once, and none is used after its release. -/
def HandlesKept {α : Type} : Except Halt (α × Desk σ) → Prop
  | .error e => e ≠ .dangling
  | .ok (_, d) => (∀ h, d.ledger.events.count (.dispose h) ≤ 1) ∧
      ∀ pre h post, d.ledger.events = pre ++ .use h :: post → .dispose h ∉ pre

/-- A run keeps its handles unless it halts at one that is not live. -/
theorem handlesKept_run {α : Type} {m : Driver σ α} {d : Desk σ} :
    HandlesKept (m.run d) ↔ m.run d ≠ .error .dangling := by
  cases m.run d with
  | error e =>
    show e ≠ .dangling ↔ _
    rw [ne_eq, ne_eq, Except.error.injEq]
  | ok r =>
    refine ⟨fun _ h => (nomatch h), fun _ => ⟨fun h => ?_, fun pre h post hsplit => ?_⟩⟩
    · exact r.2.ledger.sound.count_dispose_le h
    · exact (r.2.ledger.sound.live_of_use hsplit).2

/-- A run that halts with no dangling handle. -/
theorem handlesKept_of_triple {α : Type} {m : Driver σ α} {d : Desk σ} {Q : α → Desk σ → Prop}
    (h : Triple m d Q NotDangling) : HandlesKept (m.run d) :=
  handlesKept_run.mpr fun hrun => h.halt hrun rfl

/-- The run of a transfer. -/
def Plugin.transferRun (p : Plugin S) (fuel : Nat) (F : Formatter D) (init : Except Int D)
    (o : TransferOptions) (s : p.State) : Except Halt (TransferResult × Desk p.State) :=
  (runTransfer (p.interface fuel) F init o).run (Desk.start s)

/-- The run comes to the closing of the device. -/
def Plugin.ReachesClose (p : Plugin S) (fuel : Nat) (F : Formatter D) (init : Except Int D)
    (o : TransferOptions) (s : p.State) : Prop :=
  ∃ dev r d, (beforeClose (p.interface fuel) F init o).run (Desk.start s) = .ok (some (dev, r), d)

/-- What `run_transfer` does behind the transfer. -/
def closeDevice (drv : DriverInterface σ) : Option (Nat × TransferResult) → Driver σ TransferResult
  | none => return transferFailed
  | some (dev, r) => do
    drv.driverClose dev
    drv.driverShutdown dev
    return r

/-- The transfer up to its close, and the close. -/
theorem runTransfer_eq (drv : DriverInterface σ) (F : Formatter D) (init : Except Int D)
    (o : TransferOptions) :
    runTransfer drv F init o = beforeClose drv F init o >>= closeDevice drv := rfl

/-- The network driver is made for both calls. -/
theorem smarti_closeDevice (H : SmartiHost S) (fuel dev : Nat) (r : TransferResult)
    (d : Desk (Parsing (SmartiProc S))) (hd : SmartiOwns dev d.driver) :
    Triple (closeDevice (smartiDriverInterface H fuel) (some (dev, r))) d (fun _ _ => True)
      NotDangling := by
  refine (onDriver_keeping smartiDriverClose_smartiKeeps).then hd fun _ d₁ _ hd₁ => ?_
  refine (onDriver_spec (smartiDriverShutdown_spec hd₁)).bind fun _ _ _ => ?_
  exact Triple.pure trivial

/-- **The local driver comes to a halt behind the closing of its device.** -/
theorem smart_closeDevice (H : SmartHost S) (fuel dev : Nat) (r : TransferResult)
    (d : Desk (Parsing (SmartProc S))) (hd : SmartOwns dev true d.driver) :
    Triple (closeDevice (smartDriverInterface H fuel) (some (dev, r))) d (fun _ _ => False)
      (· = .dangling) := by
  have hboth : Triple
      (onDriver (smartDriverClose dev) >>= fun _ => onDriver (smartDriverShutdown dev)) d
      (fun _ _ => False) (· = .dangling) := by
    rw [← onDriver_bind]
    exact onDriver_spec (smartDriverClose_shutdown hd)
  have hall := hboth.bind (f := fun _ => pure r) (R := fun _ _ => False) fun _ _ h => h.elim
  rwa [bind_assoc] at hall

/-- **So does the libdc driver.** -/
theorem libdc_closeDevice (L : Libdivecomputer S) (fuel dev : Nat) (r : TransferResult)
    (d : Desk (LibdcProc S)) :
    Triple (closeDevice (libdcDriverInterface L fuel) (some (dev, r))) d (fun _ _ => False)
      (· = .dangling) := by
  have hboth : Triple (libdcDriverClose dev >>= fun _ => libdcDriverShutdown dev) d
      (fun _ _ => False) (· = .dangling) := libdcDriverClose_shutdown d
  have hall := hboth.bind (f := fun _ => pure r) (R := fun _ _ => False) fun _ _ h => h.elim
  rwa [bind_assoc] at hall

variable {F : Formatter D} {init : Except Int D} {o : TransferOptions} {fuel : Nat}

/-- A transfer that comes to its close. -/
theorem transferRun_of_closes {p : Plugin S} {s : p.State} {r : Option (Nat × TransferResult)}
    {d : Desk p.State}
    (hrun : (beforeClose (p.interface fuel) F init o).run (Desk.start s) = .ok (r, d)) :
    p.transferRun fuel F init o s = (closeDevice (p.interface fuel) r).run d := by
  rw [Plugin.transferRun, runTransfer_eq, run_bind_of_ok hrun]

/-- **A transfer releases and uses its handles correctly if and only if** it is one with the
network driver, or it never comes to the closing of the device. -/
theorem handlesKept_iff (p : Plugin S) (fuel : Nat) (F : Formatter D) (init : Except Int D)
    (o : TransferOptions) (s : p.State) :
    HandlesKept (p.transferRun fuel F init o s) ↔
      p.isSmarti ∨ ¬p.ReachesClose fuel F init o s := by
  have hbefore := beforeClose_spec (p.contract fuel) (F := F) init o (Desk.start s)
  constructor
  · intro hkept
    by_contra hnot
    obtain ⟨hsmarti, hreaches⟩ := not_or.mp hnot
    obtain ⟨dev, r, d, hrun⟩ := not_not.mp hreaches
    have hd := hbefore.result hrun dev r rfl
    rw [transferRun_of_closes hrun, handlesKept_run] at hkept
    -- a halt at the shutdown is a halt at a handle that is not live
    have hhalts : Triple (closeDevice (p.interface fuel) (some (dev, r))) d (fun _ _ => False)
        (· = .dangling) := by
      cases p with
      | smart H => exact smart_closeDevice H fuel dev r d hd
      | smarti H => exact absurd trivial hsmarti
      | libdc L => exact libdc_closeDevice L fuel dev r d
    cases hclose : (closeDevice (p.interface fuel) (some (dev, r))).run d with
    | error e => exact hkept (by rw [hclose, hhalts.halt hclose])
    | ok a => exact hhalts.result hclose
  · intro h
    apply handlesKept_of_triple (Q := fun _ _ => True)
    rw [runTransfer_eq]
    refine Triple.bind (Q := fun r d => (beforeClose (p.interface fuel) F init o).run
      (Desk.start s) = .ok (r, d) ∧ ∀ dev res, r = some (dev, res) →
        (p.contract fuel).Transferred dev d) ?_ ?_
    · cases hrun : (beforeClose (p.interface fuel) F init o).run (Desk.start s) with
      | error e => exact Triple.of_run_error hrun (hbefore.halt hrun)
      | ok a => exact Triple.of_run hrun ⟨rfl, hbefore.result hrun⟩
    · intro r d ⟨hrun, hd⟩
      cases r with
      | none => exact Triple.pure trivial
      | some r =>
        obtain ⟨dev, r⟩ := r
        have hsmarti : p.isSmarti := h.resolve_right fun hnot => hnot ⟨dev, r, d, hrun⟩
        cases p with
        | smart H => exact hsmarti.elim
        | smarti H => exact smarti_closeDevice H fuel dev r d (hd dev r rfl)
        | libdc L => exact hsmarti.elim

/-! ### A device that answers ones

The device answers every command, so that the transfer comes to its close.
-/

/-- All that is read is ones, so that the device can be opened. -/
def onesHost : SmartHost Unit where
  discover w := (some [⟨1, "Uwatec Smart".toList⟩], w)
  connectLsap w _ _ := (.done (), w)
  write w cmd := (.done cmd.length, w)
  read w n := (.done (List.replicate n 1), w)
  time w := (0, w)
  junk _ _ := 0
  foreignFree := false
  socketOpen w := (true, w)
  setTimeout w _ := (true, w)
  errcode _ := 0

/-- A transfer without options. -/
def plainOptions : TransferOptions where
  device := []
  dargs := []
  token := []
  noStoreToken := false
  tokenFile _ := []
  behind _ := 0
  bufferLen := 0

/-- A formatter that writes nothing. -/
def silentFormatter : Formatter Unit where
  prologFn := id
  headerCb s _ := s
  profileCb s _ := s
  epilogFn := id
  closeFn := id

/-- The state in front of the transfer. -/
def localMemory : Parsing (SmartProc Unit) where
  driver := ⟨(), SmartDev.fresh⟩
  parser _ := galileoSolParser
  parserDev _ := 0

/-- How a run halts. -/
def haltOf {α : Type} : Except Halt α → Option Halt
  | .error e => some e
  | .ok _ => none

/-- A result that halts. -/
theorem eq_error_of_haltOf {α : Type} {r : Except Halt α} {e : Halt} (h : haltOf r = some e) :
    r = .error e := by
  cases r with
  | error e' => exact congrArg _ (Option.some.inj h)
  | ok a => exact nomatch h

/-- **The socket of an open device is closed twice.** -/
theorem onesHost_not_handlesKept :
    ¬HandlesKept ((Plugin.smart onesHost).transferRun 0 silentFormatter (.ok ()) plainOptions
      localMemory) := by
  have hhalt : haltOf ((runTransfer (smartDriverInterface onesHost 0) silentFormatter (.ok ())
      plainOptions).run (Desk.start localMemory)) = some .dangling := by decide +kernel
  exact fun hkept => handlesKept_run.mp hkept (eq_error_of_haltOf hhalt)

end BenthosDc

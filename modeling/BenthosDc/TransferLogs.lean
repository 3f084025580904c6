/-
BenthosDc/TransferLogs.lean

A transfer from the log of a device to the output.

A device that has the answers of `TransferAnswers` sends its log, dives end to end.
`transferOutput_log` takes it through either of the two Smart drivers, the extraction
and the parser: if all dives are laid out as the model of the device says, the formatter
is given the tokens of each, in the clock of the handshake, and closed; if one is not,
there is no output.
-/
import BenthosDc.SmartMessages
import BenthosDc.SmartTransfers
import BenthosDc.TransferHandles
import BenthosDc.TransferOutput
import BenthosDc.TransferTokens

namespace BenthosDc

open CString Hoare Lifetime Loop

variable {S D α β σ : Type}

/-! ### The clock of a device

The model and the correction of the clock are set when the device is opened.  A transfer leaves
both as they are, and the parser uses them.
-/

/-- The model and the clock that the handshake has found. -/
structure SameClock (base base' : SmartBase) : Prop where
  model : base'.model = base.model
  tcorr : base'.tcorr = base.tcorr

theorem SameClock.refl (base : SmartBase) : SameClock base base := ⟨rfl, rfl⟩

section Clock

variable {base base' : SmartBase}

/-- An error is no matter of the clock. -/
theorem SameClock.setError (h : SameClock base base') (code : Int) (msg : ErrorText)
    (copy : Bool) : SameClock base (base'.setError code msg copy) := by
  have hfree : SameClock base base'.freeError := by
    rw [SmartBase.freeError]
    split
    · exact ⟨h.model, h.tcorr⟩
    · exact h
  exact ⟨hfree.model, hfree.tcorr⟩

/-- Neither is a token. -/
theorem SameClock.transferToken (h : SameClock base base') (dcb : Option DeviceCallback) :
    SameClock base (transferToken dcb base').1 := by
  unfold BenthosDc.transferToken
  split
  · exact h
  dsimp only
  split
  · exact h.setError _ _ _
  split
  · exact h
  split
  · exact h.setError _ _ _
  · exact h

end Clock

/-- A program that leaves the clock as it is, however it ends. -/
abbrev KeepsClock [HasBase σ] (base : SmartBase) (m : Driver σ α) : Prop :=
  Maintains (fun d => SameClock base (HasBase.base d.state)) (fun _ => True) (fun _ => True) m

section Programs

variable [HasBase σ] {base : SmartBase}

theorem LeavesState.keepsClock {m : Driver σ α} (hm : LeavesState m) : KeepsClock base m :=
  hm.maintains fun s => SameClock base (HasBase.base s)

theorem KeepsClock.seq {m : Driver σ α} {m' : Driver σ β} (hm : KeepsClock base m)
    (hm' : KeepsClock base m') : KeepsClock base (do let _ ← m; m') :=
  hm.bind fun _ _ => hm'

theorem keepsClock_pure (a : α) : KeepsClock (σ := σ) base (pure a) := Maintains.pure trivial

end Programs

section Local

variable {H : SmartHost S} {base : SmartBase}

/-- A call of the host. -/
theorem keepsClock_call (f : S → α × S) : KeepsClock base (Smart.call f) := fun _ hd =>
  Triple.of_run rfl ⟨trivial, hd⟩

/-- A change that keeps the clock. -/
theorem keepsClock_setDev {f : SmartDev → SmartDev}
    (hf : ∀ dev, SameClock base dev.base → SameClock base (f dev).base) :
    KeepsClock (σ := SmartProc S) base (Smart.setDev f) := fun d hd =>
  Triple.of_run rfl ⟨trivial, hf d.state.dev hd⟩

/-- The base of the structure that is read. -/
theorem keepsClock_getDev :
    Maintains (fun d => SameClock base (HasBase.base d.state)) (fun dev => SameClock base dev.base)
      (fun _ => True) (Smart.getDev (S := S)) := fun _ hd =>
  Triple.of_run rfl ⟨hd, hd⟩

theorem keepsClock_onSocket (null : α) (f : S → α × S) :
    KeepsClock base (Smart.onSocket null f) := by
  refine keepsClock_getDev.bind fun dev _ => ?_
  cases dev.s with
  | none => exact keepsClock_pure null
  | some h => exact (leavesState_useHandle h).keepsClock.seq (keepsClock_call f)

/-- An error is set, and a result given. -/
theorem keepsClock_failWith (code : Int) (msg : Text) (a : α) :
    KeepsClock (σ := SmartProc S) base (do Smart.setDevError code msg; return a) := by
  apply KeepsClock.seq
  · exact keepsClock_setDev fun _ h => h.setError code (.text msg) false
  · exact keepsClock_pure a

theorem keepsClock_driverCmd (cmd ans : List UInt8) :
    KeepsClock base (Smart.driverCmd H cmd ans) := by
  refine keepsClock_getDev.bind fun dev _ => ?_
  split
  · exact keepsClock_pure _
  refine (keepsClock_onSocket _ _).bind fun written _ => ?_
  cases written with
  | failed => exact keepsClock_failWith _ _ _
  | timedOut => exact keepsClock_failWith _ _ _
  | done n =>
    refine (keepsClock_onSocket _ _).bind fun received _ => ?_
    cases received with
    | failed => exact keepsClock_failWith _ _ _
    | timedOut => exact keepsClock_failWith _ _ _
    | done bytes => exact keepsClock_pure _

theorem keepsClock_readData (pcb : Option TransferCallback) (size fuel : Nat) (buf : List UInt8)
    (len : Nat) : KeepsClock base (smartDriverReadData H pcb size fuel buf len) := by
  induction fuel generalizing buf len with
  | zero => exact Maintains.throw trivial
  | succ fuel ih =>
    rw [smartDriverReadData]
    split
    · exact keepsClock_pure _
    refine keepsClock_getDev.bind fun dev _ => ?_
    refine (keepsClock_onSocket _ _).bind fun chunk _ => ?_
    cases chunk with
    | failed => exact keepsClock_failWith _ _ _
    | timedOut => exact keepsClock_failWith _ _ _
    | done bytes =>
      apply Maintains.ite
      · exact fun _ => keepsClock_failWith _ _ _
      · exact fun _ => ih _ _

theorem keepsClock_readBlock (fuel token size : Nat) (pcb : Option TransferCallback) :
    KeepsClock base (smartDriverReadBlock H fuel token size pcb) := by
  refine (keepsClock_call _).bind fun junk _ => ?_
  refine (keepsClock_driverCmd _ _).bind fun r _ => ?_
  cases r with
  | error rc => exact keepsClock_pure _
  | ok nb =>
    dsimp only
    generalize uint32Le nb 0 = n, u32 (size + 4) = total
    refine Maintains.ite (fun _ => keepsClock_failWith _ _ _) fun _ => ?_
    refine Maintains.ite (fun _ => keepsClock_failWith _ _ _) fun _ => ?_
    refine (keepsClock_readData _ _ _ _ _).bind fun r _ => ?_
    cases r with
    | error rc => exact keepsClock_pure _
    | ok data => exact keepsClock_pure _

/-- A transfer of the local driver. -/
theorem keepsClock_smartTransfer (fuel dev size : Nat) (dcb : Option DeviceCallback)
    (pcb : Option TransferCallback) :
    KeepsClock base (smartDriverTransfer H fuel dev size dcb pcb) := by
  apply (leavesState_useHandle dev).keepsClock.seq
  refine keepsClock_getDev.bind fun s hs => ?_
  apply KeepsClock.seq
  · exact keepsClock_setDev fun _ _ => hs.transferToken dcb
  cases (transferToken dcb s.base).2 with
  | error rc => exact keepsClock_pure _
  | ok token =>
    refine (keepsClock_driverCmd _ _).bind fun r _ => ?_
    cases r with
    | error rc => exact keepsClock_pure _
    | ok ans =>
      dsimp only
      split
      · exact keepsClock_pure _
      · exact keepsClock_readBlock _ _ _ _

end Local

section Network

variable {G : SmartiHost S} {base : SmartBase}

/-- A call of the client. -/
theorem keepsClock_liftClient (m : Client S α) : KeepsClock base (Smarti.liftClient m) := by
  intro d hd
  have hm : Triple m d.state.link _ _ := gives_true m d.state.link trivial
  exact Smarti.liftClient_triple (hm.imp fun _ _ _ => ⟨trivial, hd⟩)

theorem keepsClock_smartiSetDev {f : SmartiDev → SmartiDev}
    (hf : ∀ dev, SameClock base dev.base → SameClock base (f dev).base) :
    KeepsClock (σ := SmartiProc S) base (Smarti.setDev f) := fun d hd =>
  Triple.of_run rfl ⟨trivial, hf d.state.dev hd⟩

theorem keepsClock_smartiGetDev :
    Maintains (fun d => SameClock base (HasBase.base d.state)) (fun dev => SameClock base dev.base)
      (fun _ => True) (Smarti.getDev (S := S)) := fun _ hd =>
  Triple.of_run rfl ⟨hd, hd⟩

theorem keepsClock_clientCall (m : Client S α) : KeepsClock base (Smarti.call m) := by
  refine keepsClock_smartiGetDev.bind fun dev _ => ?_
  apply (leavesState_useHandle dev.client).keepsClock.seq
  refine leavesState_getState.keepsClock.bind fun s _ => ?_
  cases s.socket with
  | none => exact keepsClock_liftClient m
  | some h => exact (leavesState_useHandle h).keepsClock.seq (keepsClock_liftClient m)

/-- An error is set, and a result given. -/
theorem keepsClock_smartiFailWith (code : Int) (msg : ErrorText) (copy : Bool) (a : α) :
    KeepsClock (σ := SmartiProc S) base (do Smarti.setDevError code msg copy; return a) := by
  apply KeepsClock.seq
  · exact keepsClock_smartiSetDev fun _ h => h.setError code msg copy
  · exact keepsClock_pure a

theorem keepsClock_transferFail : KeepsClock base (smartiTransferFail (S := S)) := by
  have hset : KeepsClock base (Smarti.setClientError (S := S) driverErrInternal) := by
    refine (keepsClock_clientCall _).bind fun msg _ => ?_
    exact keepsClock_smartiSetDev fun _ h => h.setError _ msg true
  exact hset.seq (keepsClock_pure _)

/-- The data of the network driver. -/
theorem keepsClock_smartiReadBlock (size : Nat) : KeepsClock base (smartiDriverReadBlock G size) := by
  refine (keepsClock_clientCall _).bind fun r _ => ?_
  cases r with
  | error rc =>
    refine (keepsClock_clientCall _).bind fun code _ => ?_
    refine Maintains.ite (fun _ => ?_) fun _ => keepsClock_transferFail
    exact keepsClock_smartiFailWith _ _ _ _
  | ok data =>
    refine Maintains.ite (fun _ => ?_) fun _ => keepsClock_pure _
    exact keepsClock_smartiFailWith _ _ _ _

theorem keepsClock_smartiTransfer (dev : Nat) (dcb : Option DeviceCallback) :
    KeepsClock base (smartiDriverTransfer G dev dcb) := by
  apply (leavesState_useHandle dev).keepsClock.seq
  refine keepsClock_smartiGetDev.bind fun s hs => ?_
  apply KeepsClock.seq
  · exact keepsClock_smartiSetDev fun _ _ => hs.transferToken dcb
  cases (transferToken dcb s.base).2 with
  | error rc => exact keepsClock_pure _
  | ok token =>
    refine (keepsClock_clientCall _).bind fun rc _ => ?_
    refine Maintains.ite (fun _ => keepsClock_transferFail) fun _ => ?_
    refine (keepsClock_clientCall _).bind fun r _ => ?_
    cases r with
    | error rc => exact keepsClock_transferFail
    | ok size =>
      refine Maintains.ite (fun _ => keepsClock_pure _) fun _ => ?_
      exact keepsClock_smartiReadBlock size

end Network

/-! ### Dives in the memory of the transfer -/

/-- A dive as the device sends it, with records of the model `m` behind its header. -/
structure LoggedDive (m : Model) extends Dive where
  records : List (Record m)
  laidOut : LaidOut m bytes records

/-- What the extraction gives out for a dive. -/
def Dive.data (d : Dive) : List UInt8 × Text := (d.bytes, decimal (uint32Le d.bytes 8))

section Extraction

variable [HasBase σ] {valid : σ → Prop} {handles : σ → Set Nat} {dev : Nat}
  {d : Desk (Parsing σ)} {ds : List Dive} {E : Halt → Prop}

theorem length_le_flatten (ds : List Dive) : ds.length ≤ (ds.map Dive.bytes).flatten.length := by
  induction ds with
  | nil => exact Nat.zero_le _
  | cons d ds ih =>
    have hge := d.length_ge
    rw [List.map_cons, List.flatten_cons, List.length_append, List.length_cons]
    omega

theorem length_dive_le {d : Dive} (hd : d ∈ ds) :
    d.bytes.length ≤ (ds.map Dive.bytes).flatten.length :=
  (List.sublist_flatten_of_mem (List.mem_map_of_mem hd)).length_le

/-- The loop of the extraction comes to the end of a log. -/
theorem iterate_extractStep (ds : List Dive) (behind : Memory) {fuel : Nat}
    (hsize : (ds.map Dive.bytes).flatten.length < 2 ^ 32)
    (hfuel : (ds.map Dive.bytes).flatten.length < fuel) :
    ∃ r, iterate (extractStep (loaded (ds.map Dive.bytes).flatten behind)
        (ds.map Dive.bytes).flatten.length) fuel extractStart = .stop r ∧
      r.ret = extractSuccess ∧
      List.Forall₂ (ReportsDive (loaded (ds.map Dive.bytes).flatten behind)) r.reports ds := by
  set buffer := (ds.map Dive.bytes).flatten with hbuffer
  have hstart : buffer.drop extractStart.pos = (ds.map Dive.bytes).flatten ++ [] := by
    rw [List.append_nil]
    rfl
  have hend : (ds.foldl takeDive extractStart).pos = buffer.length := by
    rw [pos_foldl, ← hbuffer]
    exact Nat.zero_add _
  have hlen : ds.length ≤ buffer.length := length_le_flatten ds
  obtain ⟨k, rfl⟩ : ∃ k, fuel = ds.length + (k + 1) := ⟨fuel - ds.length - 1, by omega⟩
  have hruns := iterate_foldl (·.pos) takeDive (f := extractStep (loaded buffer behind) buffer.length)
    (fun s d rest h => extractStep_dive hsize d h) (fun _ _ => rfl) ds hstart (k + 1)
  obtain ⟨news, hnews, hall⟩ := reports_foldl behind ds hstart
  have hreports : (ds.foldl takeDive extractStart).reports = news := hnews
  refine ⟨_, hruns.trans (iterate_succ_stop (extractStep_end hend) k), rfl, ?_⟩
  rw [hreports]
  exact hall

theorem map_reports {mem : Memory} {reps : List DiveReport}
    (h : List.Forall₂ (ReportsDive mem) reps ds) :
    reps.map (fun rep => (copied mem rep.pos rep.len, some rep.token.toList)) =
      ds.map fun d => (d.bytes, some (decimal (uint32Le d.bytes 8))) := by
  induction h with
  | nil => rfl
  | @cons rep d reps ds hd _ ih =>
    obtain ⟨hbytes, -, htoken⟩ := hd
    rw [List.map_cons, List.map_cons, ih]
    congr 2
    rw [htoken]
    exact congrArg some Nat.toList_repr

/-- **A log is extracted dive by dive.** -/
theorem driverExtract_log {fuel : Nat} (hbase : BaseOwned valid handles dev)
    (hd : Owned valid handles d.driver) (behind : Memory)
    (hsize : (ds.map Dive.bytes).flatten.length < 2 ^ 32)
    (hfuel : (ds.map Dive.bytes).flatten.length < fuel) :
    Triple (SmartPlugin.driverExtract fuel dev (some (loaded (ds.map Dive.bytes).flatten behind))
        (ds.map Dive.bytes).flatten.length) d
      (fun r d' => r = (driverErrSuccess, ds.map fun d => (d.bytes, some (decimal (uint32Le d.bytes 8)))) ∧
        d'.state = d.state ∧ Owned valid handles d'.driver) E := by
  have huse : Triple (useHandle dev) d (fun _ d' => d'.state = d.state ∧
      Owned valid handles d'.driver) E :=
    useHandle_spec (hd.live (hbase.mem _)) fun l hl => ⟨rfl, hd.of_eq hl⟩
  apply huse.bind
  rintro _ d₁ ⟨hstate, hd₁⟩
  obtain ⟨r, hr, hret, hreports⟩ := iterate_extractStep ds behind hsize hfuel
  dsimp only
  rw [hr]
  dsimp only
  rw [if_pos hret, map_reports hreports]
  exact Triple.pure ⟨rfl, hstate, hd₁⟩

theorem extractCb_log (ds : List Dive) :
    extractCb (ds.map fun d => (d.bytes, some (decimal (uint32Le d.bytes 8)))) =
      some (ds.map Dive.data) := by
  induction ds with
  | nil => rfl
  | cons d ds ih =>
    rw [List.map_cons, extractCb, List.mapM_cons, ← extractCb, ih]
    rfl

end Extraction

/-! ### From the device to the output -/

/-- A driver has a device open, which gives the answers `x` for the token; the daemon of the
network driver has passes enough for them. -/
def SmartTable.Opened : (t : SmartTable S) → (dev token : Nat) → TransferAnswers →
    Desk (Parsing t.Proc) → Prop
  | .smart H, dev, token, x, d => OpenedLocally H dev token x d.driver
  | .smarti G, dev, token, x, d => OpenedRemotely G dev token x d.driver ∧ x.nb - 4 < G.fuel

/-- What a transfer leaves: the data, and the clock of the device and its handles. -/
structure Transferred (t : SmartTable S) (valid : t.Proc → Prop) (handles : t.Proc → Set Nat)
    (x : TransferAnswers) (d : Desk (Parsing t.Proc)) (r : Except Int (Nat × List UInt8))
    (d' : Desk (Parsing t.Proc)) : Prop where
  data : r.toOption = x.transferred
  owned : Owned valid handles d'.driver
  clock : SameClock d.base d'.base

theorem TransferAnswers.length_transferred (x : TransferAnswers) {n : Nat} {data : List UInt8}
    (h : x.transferred = some (n, data)) : data.length = n := by
  have hstream := x.le_stream
  rw [transferred] at h
  split at h
  · cases h
    rfl
  split at h
  · cases h
    rw [List.length_take]
    omega
  · cases h

theorem neverCancels_transferCb : NeverCancels (some transferCb) := by
  intro p hp
  cases hp
  exact fun _ _ => rfl

theorem sharesParser (t : SmartTable S) (fuel : Nat) : SharesParser (t.interface fuel) fuel := by
  cases t with
  | smart H => exact ⟨rfl, rfl, rfl, rfl, rfl, rfl, rfl⟩
  | smarti G => exact ⟨rfl, rfl, rfl, rfl, rfl, rfl, rfl⟩

/-- **Both drivers transfer what the device answers**, and keep its clock. -/
theorem driverTransfer_opened {t : SmartTable S} {fuel dev token : Nat} {x : TransferAnswers}
    {d : Desk (Parsing t.Proc)} {o : TransferOptions} (h : t.Opened dev token x d)
    (htoken : (transferToken (some (deviceCb o)) d.base).2 = .ok token) (hfuel : x.size < fuel) :
    ∃ valid handles, BaseOwned valid handles dev ∧
      Triple ((t.interface fuel).driverTransfer dev (deviceCb o) transferCb o.bufferLen) d
        (Transferred t valid handles x d) never := by
  cases t with
  | smart H =>
    refine ⟨SmartValid dev true, smartHandles dev, smart_baseOwned dev true, ?_⟩
    have hat : SmartAt dev d.driver.state.dev.csize d.driver.state.world d.driver :=
      ⟨h.owns, rfl, rfl⟩
    have hdata := smartDriverTransfer_at (E := never) hat
      (Nat.lt_of_lt_of_le Nat.two_pos h.csize.1) htoken neverCancels_transferCb h.serves hfuel
      o.bufferLen
    have howned := smartDriverTransfer_smartKeeps (H := H) fuel o.bufferLen (some (deviceCb o))
      (some transferCb) d.driver h.owns
    have hclock := keepsClock_smartTransfer (H := H) fuel dev o.bufferLen (some (deviceCb o))
      (some transferCb) d.driver (SameClock.refl _)
    apply (onDriver_spec (hdata.and (howned.and hclock))).imp
    rintro r d' ⟨hr, ⟨-, hd'⟩, -, hsame⟩
    exact ⟨hr, hd', hsame⟩
  | smarti G =>
    obtain ⟨⟨howns, sd, w, hready, hcsize, hserves⟩, hpasses⟩ := h
    refine ⟨SmartiValid dev, smartiHandles dev, smarti_baseOwned dev, ?_⟩
    have hdata := smartiDriverTransfer_ready (E := never) howns hready
      (Nat.lt_of_lt_of_le Nat.two_pos hcsize.1) htoken hserves hpasses
    have howned := smartiDriverTransfer_smartiKeeps (G := G) (some (deviceCb o)) d.driver howns
    have hclock := keepsClock_smartiTransfer (G := G) dev (some (deviceCb o)) d.driver
      (SameClock.refl _)
    apply (onDriver_spec (hdata.and (howned.and hclock))).imp
    rintro r d' ⟨hr, ⟨-, hd'⟩, -, hsame⟩
    exact ⟨hr, hd', hsame⟩

section Output

variable {t : SmartTable S} {fuel dev token : Nat} {x : TransferAnswers}
  {d : Desk (Parsing t.Proc)} {o : TransferOptions} {F : Formatter D} {s : D} {ds : List Dive}
  {E : Halt → Prop}

/-- A log that has been transferred comes to the application as its dives. -/
theorem transferOutput_extracted (out : TransferResult × Option D → Prop)
    (h : t.Opened dev token x d)
    (htoken : (transferToken (some (deviceCb o)) d.base).2 = .ok token) (hfuel : x.size < fuel)
    (hne : ds ≠ []) (hx : x.transferred = some (x.size, (ds.map Dive.bytes).flatten))
    (hparse : ∀ (valid : t.Proc → Prop) (handles : t.Proc → Set Nat) (d' : Desk (Parsing t.Proc)),
      BaseOwned valid handles dev → Owned valid handles d'.driver → SameClock d.base d'.base →
      Triple (parseOutput (t.interface fuel) F (.ok s) o dev (ds.map Dive.data)) d'
        (fun r _ => out r) E) :
    Triple (transferOutput (t.interface fuel) F (.ok s) o dev) d (fun r _ => out r) E := by
  obtain ⟨valid, handles, hbase, htransfer⟩ := driverTransfer_opened h htoken hfuel
  have hlt := x.size_lt
  have hlen := x.length_transferred hx
  apply htransfer.weaken.bind
  rintro r d₁ ⟨hr, hd₁, hclock⟩
  rw [hx, toOption_eq_some_iff] at hr
  subst hr
  have hpos : 0 < ds.length := List.length_pos_iff.mpr hne
  have hle := length_le_flatten ds
  dsimp only
  rw [if_pos (by omega), (sharesParser t fuel).driverExtract, TransferOptions.bufferPtr,
    if_neg (List.ne_nil_of_length_pos (by omega)), ← hlen]
  apply (driverExtract_log hbase hd₁ o.behind (by omega) (by omega)).bind
  rintro _ d₂ ⟨rfl, hstate, hd₂⟩
  dsimp only
  rw [extractCb_log]
  dsimp only
  rw [if_neg (not_not.mpr rfl)]
  have hsame : d₂.base = d₁.base := congrArg (fun s => HasBase.base s.driver) hstate
  rw [← hsame] at hclock
  exact hparse valid handles d₂ hbase hd₂ hclock

/-- The parsing of a log that is laid out. -/
theorem parseOutput_laidOut {valid : t.Proc → Prop} {handles : t.Proc → Set Nat} {m : Model}
    (hbase : BaseOwned valid handles dev) (hd : Owned valid handles d.driver)
    (hmodel : d.base.model = m.number) {log : List (LaidOutDive m)}
    {dives : List (List UInt8 × Text)} (hne : dives ≠ [])
    (hlog : dives.map Prod.fst = log.map LaidOutDive.bytes) :
    Triple (parseOutput (t.interface fuel) F (.ok s) o dev dives) d (fun r _ =>
      r = (storeToken o dives, some (F.closeFn (F.dives s
        (log.map (LaidOutDive.tokens (BitVec.ofInt 32 d.base.tcorr))))))) E := by
  rw [parseOutput, if_pos (List.length_pos_iff.mpr hne)]
  apply (runParserWith_laidOut (sharesParser t fuel) hbase hd hmodel hlog).bind
  rintro _ d₁ rfl
  exact Triple.pure rfl

/-- A dive that is not laid out ends the output. -/
theorem parseOutput_refused {valid : t.Proc → Prop} {handles : t.Proc → Set Nat} {m : Model}
    (hbase : BaseOwned valid handles dev) (hd : Owned valid handles d.driver)
    (hmodel : d.base.model = m.number) {dives : List (List UInt8 × Text)} (hne : dives ≠ [])
    (hsize : ∀ dive ∈ dives, dive.1.length ≤ 2 ^ 32 - 3)
    (hbad : ∃ dive ∈ dives, ∀ rs : List (Record m), ¬LaidOut m dive.1 rs) :
    Triple (parseOutput (t.interface fuel) F (.ok s) o dev dives) d (fun r _ =>
      r = (transferFailed, none)) (· = .overflow) := by
  rw [parseOutput, if_pos (List.length_pos_iff.mpr hne)]
  apply (runParserWith_refused (sharesParser t fuel) hbase hd hmodel hsize hbad).bind
  rintro _ d₁ ⟨rv, rfl⟩
  exact Triple.pure rfl

end Output

/-- The tokens of a dive of a log. -/
def LoggedDive.tokens {m : Model} (tcorr : BitVec 32) (e : LoggedDive m) : DiveTokens :=
  laidOutTokens tcorr e.bytes e.records

section Output

variable {t : SmartTable S} {fuel dev token : Nat} {x : TransferAnswers}
variable {d : Desk (Parsing t.Proc)} {o : TransferOptions} {m : Model} {ds : List Dive}

/-- A dive is no longer than the data. -/
theorem length_le_of_transferred (hx : x.transferred = some (x.size, (ds.map Dive.bytes).flatten))
    {e : Dive} (he : e ∈ ds) : e.bytes.length ≤ 2 ^ 32 - 3 := by
  have hlen := x.length_transferred hx
  have hlt := x.size_lt
  have hle := length_dive_le he
  omega

/-- **A log whose dives are all laid out** is stored and written completely. -/
theorem transferOutput_laidOut (F : Formatter D) (s : D) (h : t.Opened dev token x d)
    (hmodel : d.base.model = m.number)
    (htoken : (transferToken (some (deviceCb o)) d.base).2 = .ok token) (hfuel : x.size < fuel)
    (hne : ds ≠ []) (hx : x.transferred = some (x.size, (ds.map Dive.bytes).flatten))
    {log : List (LoggedDive m)} (hlog : log.map LoggedDive.toDive = ds) :
    ∃ d', (transferOutput (t.interface fuel) F (.ok s) o dev).run d =
      .ok ((storeToken o (ds.map Dive.data), some (F.closeFn (F.dives s
        (log.map (LoggedDive.tokens (BitVec.ofInt 32 d.base.tcorr)))))), d') := by
  subst hlog
  have hdives : (log.map LoggedDive.toDive).map Dive.data ≠ [] :=
    fun hnil => hne (List.map_eq_nil_iff.mp hnil)
  -- the dives with their records, as the parser takes them
  let parsed : List (LaidOutDive m) := log.attach.map fun e =>
    ⟨e.1.bytes, e.1.records, e.1.laidOut,
      length_le_of_transferred hx (List.mem_map_of_mem (f := LoggedDive.toDive) e.2)⟩
  have htokens : parsed.map (LaidOutDive.tokens (BitVec.ofInt 32 d.base.tcorr)) =
      log.map (LoggedDive.tokens (BitVec.ofInt 32 d.base.tcorr)) := by
    rw [List.map_map]
    exact List.attach_map_val (f := LoggedDive.tokens (BitVec.ofInt 32 d.base.tcorr))
  have hbytes : ((log.map LoggedDive.toDive).map Dive.data).map Prod.fst =
      parsed.map LaidOutDive.bytes := by
    rw [List.map_map, List.map_map, List.map_map]
    exact (List.attach_map_val (f := fun e : LoggedDive m => e.bytes)).symm
  have hrun : Triple (transferOutput (t.interface fuel) F (.ok s) o dev) d (fun r _ =>
      r = (storeToken o ((log.map LoggedDive.toDive).map Dive.data), some (F.closeFn (F.dives s
        (log.map (LoggedDive.tokens (BitVec.ofInt 32 d.base.tcorr))))))) never := by
    apply transferOutput_extracted (· = _) h htoken hfuel hne hx
    intro valid handles d' hbase hd' hclock
    rw [← htokens, ← hclock.tcorr]
    exact parseOutput_laidOut hbase hd' (hclock.model.trans hmodel) hdives hbytes
  obtain ⟨_, d', hrun, rfl⟩ := hrun.exists_run
  exact ⟨d', hrun⟩

/-- **The output of a transfer is the log of the device.**  Through either driver, a log
whose dives are all laid out is stored and written completely: the formatter is given the
tokens of each dive in order, and closed.  If a dive is not laid out the transfer fails
without output. -/
theorem transferOutput_log (F : Formatter D) (s : D) (h : t.Opened dev token x d)
    (hmodel : d.base.model = m.number)
    (htoken : (transferToken (some (deviceCb o)) d.base).2 = .ok token) (hfuel : x.size < fuel)
    (hne : ds ≠ []) (hx : x.transferred = some (x.size, (ds.map Dive.bytes).flatten)) :
    (∀ log : List (LoggedDive m), log.map LoggedDive.toDive = ds →
      ∃ d', (transferOutput (t.interface fuel) F (.ok s) o dev).run d =
        .ok ((storeToken o (ds.map Dive.data), some (F.closeFn (F.dives s
          (log.map (LoggedDive.tokens (BitVec.ofInt 32 d.base.tcorr)))))), d')) ∧
    ((¬∃ log : List (LoggedDive m), log.map LoggedDive.toDive = ds) →
      Triple (transferOutput (t.interface fuel) F (.ok s) o dev) d
        (fun r _ => r = (transferFailed, none)) (· = .overflow)) := by
  have hdives : ds.map Dive.data ≠ [] := fun hnil => hne (List.map_eq_nil_iff.mp hnil)
  constructor
  · intro log hlog
    exact transferOutput_laidOut F s h hmodel htoken hfuel hne hx hlog
  · intro hlog
    -- a dive that is not laid out
    have hbad : ∃ e ∈ ds, ∀ rs : List (Record m), ¬LaidOut m e.bytes rs := by
      by_contra hall
      simp only [not_exists, not_and, not_forall, not_not] at hall
      choose records hrecords using hall
      refine hlog ⟨ds.attach.map fun e => ⟨e.1, records e.1 e.2, hrecords e.1 e.2⟩, ?_⟩
      rw [List.map_map]
      exact List.attach_map_subtype_val ds
    obtain ⟨e, he, hrs⟩ := hbad
    apply transferOutput_extracted (· = (transferFailed, none)) h htoken hfuel hne hx
    intro valid handles d' hbase hd' hclock
    apply parseOutput_refused hbase hd' (hclock.model.trans hmodel) hdives
    · rintro _ hdive
      obtain ⟨e, he, rfl⟩ := List.mem_map.mp hdive
      exact length_le_of_transferred hx he
    · exact ⟨e.data, List.mem_map_of_mem he, hrs⟩

end Output

/-! ### A log with one dive

A Smart Pro with one dive of 96 bytes.
-/

/-- A Smart Pro dive with a temperature and a depth. -/
def shallowDive : LoggedDive .smartPro where
  bytes := [0xA5, 0xA5, 0x5A, 0x5A, 96, 0, 0, 0] ++ List.replicate 84 0 ++ [0xBE, 0xFD, 0x01, 0x90]
  length_ge := by decide
  magic := by decide
  length_word := by decide
  records := smartProRecords
  laidOut := ⟨by decide, by decide⟩

/-- What the device answers. -/
def shallowAnswers : TransferAnswers where
  size := 96
  nb := 100
  stream := shallowDive.bytes
  size_lt := by decide
  nb_lt := by decide
  le_stream := by decide

/-- The driver has the device open. -/
def shallowDesk : Desk (Parsing (SmartProc (List UInt8))) where
  state := ⟨⟨[], { SmartDev.fresh with s := some 1, base := { model := 16 } }⟩, default, 0⟩
  ledger := Ledger.empty.alloc.alloc

/-- The transfer gives the dive. -/
theorem shallowAnswers_transferred :
    shallowAnswers.transferred = some (96, ([shallowDive.toDive].map Dive.bytes).flatten) :=
  rfl

theorem shallowDesk_opened :
    (SmartTable.smart (queueHost shallowAnswers)).Opened 0 0 shallowAnswers shallowDesk where
  owns := by
    refine ⟨⟨rfl, by decide⟩, ?_⟩
    rintro h (rfl | hh)
    · show Live _ 0
      decide
    · cases hh
      show Live _ 1
      decide
  csize := by decide
  serves := queueHost_serves shallowAnswers 0

theorem transferOutput_log_shallow :
    ∃ d', (transferOutput ((SmartTable.smart (queueHost shallowAnswers)).interface 97)
        silentFormatter (.ok ()) plainOptions 0).run shallowDesk =
      .ok ((⟨0, some ['0']⟩, some ()), d') :=
  (transferOutput_log silentFormatter () shallowDesk_opened rfl rfl (by decide)
    (List.cons_ne_nil _ _) shallowAnswers_transferred).1 [shallowDive] rfl

end BenthosDc

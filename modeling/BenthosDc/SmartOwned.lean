/-
BenthosDc/SmartOwned.lean

The handles of the local driver.

The driver owns its structure and its socket.  Opening either leaves a socket that is
live, or none; the transfer keeps it.  Closing the device gives the socket back, but leaves
it in the structure, so that shutting the device down afterwards releases it again
(`smartDriverClose_shutdown`).
-/
import BenthosDc.Ownership
import BenthosDc.SmartPlugin

namespace BenthosDc

open CString Hoare Lifetime

variable {S α β : Type} {H : SmartHost S} {dev : Nat} {b : Bool} {d : Desk (SmartProc S)}

/-- Whether the driver has a socket is `b`; the socket is not the structure. -/
def SmartValid (dev : Nat) (b : Bool) (s : SmartProc S) : Prop :=
  s.dev.s.isSome = b ∧ s.dev.s ≠ some dev

/-- The structure and its socket. -/
def smartHandles (dev : Nat) (s : SmartProc S) : Set Nat := insert dev {h | s.dev.s = some h}

/-- The driver holds its handles, all of them live. -/
abbrev SmartOwns (dev : Nat) (b : Bool) : Desk (SmartProc S) → Prop :=
  Owned (SmartValid dev b) (smartHandles dev)

/-- A program of the driver that keeps its handles. -/
abbrev SmartKeeps (dev : Nat) (b : Bool) (P : α → Prop) (m : Smart S α) : Prop :=
  Keeping (SmartOwns dev b) P m

/-! ### Keeping the socket

A function that keeps the socket needs a structure with one in it, or with none, and gives it
back like that.
-/

theorem useHandle_smartKeeps : SmartKeeps (S := S) dev b (fun _ => True) (useHandle dev) :=
  Owned.use fun _ _ => Set.mem_insert dev _

theorem call_smartKeeps (f : S → α × S) : SmartKeeps dev b (fun _ => True) (Smart.call f) :=
  fun _ hd => Triple.of_run rfl ⟨trivial, hd.valid, hd.live⟩

theorem getDev_smartKeeps : SmartKeeps (S := S) dev b (fun _ => True) Smart.getDev := fun _ hd =>
  Triple.of_run rfl ⟨trivial, hd⟩

theorem setDev_smartKeeps {f : SmartDev → SmartDev} (hf : ∀ dev, (f dev).s = dev.s) :
    SmartKeeps (S := S) dev b (fun _ => True) (Smart.setDev f) := by
  apply Owned.modify
  · intro s hs
    show (f s.dev).s.isSome = b ∧ (f s.dev).s ≠ some dev
    rw [hf]
    exact hs
  · intro s _
    show insert dev {h | (f s.dev).s = some h} ⊆ _
    rw [hf]
    exact Set.Subset.rfl

/-- The socket is live when it is used. -/
theorem onSocket_smartKeeps (null : α) (f : S → α × S) :
    SmartKeeps dev b (fun _ => True) (Smart.onSocket null f) := by
  intro d hd
  have hget : Triple Smart.getDev d (fun a d' => a = d.state.dev ∧ d' = d) NotDangling :=
    Triple.of_run rfl ⟨rfl, rfl⟩
  apply hget.bind
  intro a d' ⟨ha, hd'⟩
  subst ha hd'
  cases hs : d'.state.dev.s with
  | none => exact Triple.pure ⟨trivial, hd⟩
  | some h =>
    have huse : Triple (useHandle h) d' (fun _ d₁ => SmartOwns dev b d₁) NotDangling :=
      useHandle_spec (hd.live (Set.mem_insert_of_mem dev hs)) fun _ hl => hd.of_eq hl
    apply huse.bind
    intro _ d₁ hd₁
    exact call_smartKeeps f d₁ hd₁

/-- An error is no handle. -/
theorem setDevError_smartKeeps (code : Int) (msg : Text) :
    SmartKeeps (S := S) dev b (fun _ => True) (Smart.setDevError code msg) :=
  setDev_smartKeeps fun _ => by rfl

theorem setIrdaError_smartKeeps : SmartKeeps dev b (fun _ => True) (setIrdaError H) :=
  fun d hd => setDev_smartKeeps (f := fun dev => { dev with
    base := dev.base.setError (H.errcode d.state.world) (.strerror (H.errcode d.state.world)) true })
    (fun _ => rfl) d hd

/-- An error is set, and returned. -/
theorem failWith_smartKeeps {P : α → Prop} (code : Int) (msg : Text) {a : α} (ha : P a) :
    SmartKeeps (S := S) dev b P (do Smart.setDevError code msg; return a) :=
  (setDevError_smartKeeps code msg).bind fun _ _ => Maintains.pure ha

/-! ### Commands and transfers

They use the socket and never close it.
-/

/-- An error is not the code of success. -/
def TellsError (r : Except Int α) : Prop := ∀ rc, r = .error rc → rc ≠ 0

/-- An error with a code. -/
theorem tellsError_error {rc : Int} (h : rc ≠ 0) : TellsError (.error rc : Except Int α) := by
  intro rc' hrc
  cases hrc
  exact h

theorem tellsError_ok (a : α) : TellsError (.ok a) := fun _ h => nomatch h

/-- A command that fails says so. -/
theorem driverCmd_smartKeeps (cmd ans : List UInt8) :
    SmartKeeps dev b TellsError (Smart.driverCmd H cmd ans) := by
  refine getDev_smartKeeps.bind fun s _ => ?_
  split
  · exact Maintains.pure (tellsError_error (by decide))
  refine (onSocket_smartKeeps _ _).bind fun w _ => ?_
  cases w with
  | failed => exact failWith_smartKeeps _ _ (tellsError_error (by decide))
  | timedOut => exact failWith_smartKeeps _ _ (tellsError_error (by decide))
  | done n =>
    refine (onSocket_smartKeeps _ _).bind fun r _ => ?_
    cases r with
    | failed => exact failWith_smartKeeps _ _ (tellsError_error (by decide))
    | timedOut => exact failWith_smartKeeps _ _ (tellsError_error (by decide))
    | done bytes => exact Maintains.pure (tellsError_ok _)

theorem driverHandshake_smartKeeps : SmartKeeps dev b (fun _ => True) (Smart.driverHandshake H) := by
  refine (call_smartKeeps _).bind fun junk _ => ?_
  refine (driverCmd_smartKeeps _ _).bind fun r _ => ?_
  cases r with
  | error rc => exact Maintains.pure trivial
  | ok ans =>
    dsimp only
    split
    · exact failWith_smartKeeps _ _ trivial
    refine (driverCmd_smartKeeps _ _).bind fun r _ => ?_
    cases r with
    | error rc => exact Maintains.pure trivial
    | ok ans =>
      dsimp only
      split
      · exact failWith_smartKeeps _ _ trivial
      · exact Maintains.pure trivial

/-- The loop uses the socket in each pass. -/
theorem smartDriverReadData_smartKeeps (pcb : Option TransferCallback) (size : Nat) (fuel : Nat)
    (buf : List UInt8) (len : Nat) :
    SmartKeeps dev b (fun _ => True) (smartDriverReadData H pcb size fuel buf len) := by
  induction fuel generalizing buf len with
  | zero => exact Maintains.throw (fun h => nomatch h)
  | succ fuel ih =>
    rw [smartDriverReadData]
    split
    · exact Maintains.pure trivial
    refine getDev_smartKeeps.bind fun s _ => ?_
    refine (onSocket_smartKeeps _ _).bind fun r _ => ?_
    cases r with
    | failed => exact failWith_smartKeeps _ _ trivial
    | timedOut => exact failWith_smartKeeps _ _ trivial
    | done bytes =>
      dsimp only
      refine Maintains.ite (fun _ => ?_) fun _ => ?_
      · exact failWith_smartKeeps _ _ trivial
      · exact ih _ _

theorem smartDriverReadBlock_smartKeeps (fuel token size : Nat) (pcb : Option TransferCallback) :
    SmartKeeps dev b (fun _ => True) (smartDriverReadBlock H fuel token size pcb) := by
  refine (call_smartKeeps _).bind fun junk _ => ?_
  refine (driverCmd_smartKeeps _ _).bind fun r _ => ?_
  cases r with
  | error rc => exact Maintains.pure trivial
  | ok nb =>
    dsimp only
    generalize uint32Le nb 0 = n, u32 (size + 4) = total
    refine Maintains.ite (fun _ => ?_) fun _ => ?_
    · exact failWith_smartKeeps _ _ trivial
    refine Maintains.ite (fun _ => ?_) fun _ => ?_
    · exact failWith_smartKeeps _ _ trivial
    refine (smartDriverReadData_smartKeeps _ _ _ _ _).bind fun r _ => ?_
    cases r with
    | error rc => exact Maintains.pure trivial
    | ok data => exact Maintains.pure trivial

/-- **A transfer keeps the socket**, however it ends. -/
theorem smartDriverTransfer_smartKeeps (fuel size : Nat) (dcb : Option DeviceCallback)
    (pcb : Option TransferCallback) :
    SmartKeeps dev b (fun _ => True) (smartDriverTransfer H fuel dev size dcb pcb) := by
  refine useHandle_smartKeeps.bind fun _ _ => ?_
  refine getDev_smartKeeps.bind fun s _ => ?_
  dsimp only
  refine (setDev_smartKeeps fun _ => by rfl).bind fun _ _ => ?_
  cases (transferToken dcb s.base).2 with
  | error rc => exact Maintains.pure trivial
  | ok token =>
    refine (driverCmd_smartKeeps _ _).bind fun r _ => ?_
    cases r with
    | error rc => exact Maintains.pure trivial
    | ok ans =>
      dsimp only
      split
      · exact Maintains.pure trivial
      · exact smartDriverReadBlock_smartKeeps _ _ _ _

/-! ### Opening

Up to the socket there is none, and from there on each error closes it and clears the pointer.
So the result code tells whether there is a socket.
-/

/-- The socket is given back; the structure still has it. -/
theorem irdaSocketClose_spec {E : Halt → Prop} (hd : SmartOwns dev b d) :
    Triple Smart.irdaSocketClose d (fun _ d' => d'.state = d.state ∧
      d'.ledger.live = d.ledger.live \ {h | d.state.dev.s = some h}) E := by
  have hget : Triple Smart.getDev d (fun a d' => a = d.state.dev ∧ d' = d) E :=
    Triple.of_run rfl ⟨rfl, rfl⟩
  apply hget.bind
  intro a d' ⟨ha, hd'⟩
  subst ha hd'
  cases hs : d'.state.dev.s with
  | none =>
    refine Triple.pure ⟨rfl, ?_⟩
    simp
  | some h =>
    refine disposeHandle_spec (hd.live (Set.mem_insert_of_mem dev hs)) fun l hl => ⟨rfl, ?_⟩
    rw [hl]
    congr 1
    ext k
    simp [eq_comm]

/-- Without its socket the structure is still live. -/
theorem SmartOwns.dev_of_closed (hd : SmartOwns dev b d) {l : Ledger}
    (hl : l.live = d.ledger.live \ {h | d.state.dev.s = some h}) : dev ∈ l.live := by
  rw [hl]
  exact ⟨hd.live (Set.mem_insert dev _), hd.valid.2⟩

/-- Without a socket there is only the structure. -/
theorem smartOwns_of_none {d : Desk (SmartProc S)} (hs : d.state.dev.s = none)
    (hlive : dev ∈ d.ledger.live) : SmartOwns dev false d where
  valid := by
    rw [SmartValid, hs]
    exact ⟨rfl, fun h => nomatch h⟩
  live := by
    rintro h (rfl | hh)
    · exact hlive
    · rw [Set.mem_ofPred_eq, hs] at hh
      cases hh

/-- The socket is closed and forgotten. -/
theorem smartDriverGiveUp_spec (hd : SmartOwns dev b d) (rc : Int) :
    Triple (smartDriverGiveUp rc) d (fun r d' => r = rc ∧ SmartOwns dev false d') NotDangling := by
  apply (irdaSocketClose_spec hd).bind
  intro _ d₁ ⟨hstate, hlive⟩
  have hset : Triple (Smart.setDev fun dev => { dev with s := none }) d₁
      (fun _ d' => SmartOwns dev false d') NotDangling :=
    Triple.of_run rfl (smartOwns_of_none rfl (hd.dev_of_closed hlive))
  apply hset.bind
  intro _ d₂ hd₂
  exact Triple.pure ⟨rfl, hd₂⟩

/-- A part of opening: it leaves the socket for the return value 0 only. -/
def SmartOpens (dev : Nat) (m : Smart S Int) : Prop :=
  ∀ d, SmartOwns dev true d → Triple m d (fun rc d' => SmartOwns dev (rc = 0) d') NotDangling

/-- A step in front of the rest of the opening. -/
theorem SmartKeeps.opens {P : α → Prop} {m : Smart S α} {f : α → Smart S Int}
    (hm : SmartKeeps dev true P m) (hf : ∀ a, P a → SmartOpens dev (f a)) :
    SmartOpens dev (m >>= f) := fun _ hd =>
  hm.then hd fun a d' ha hd' => hf a ha d' hd'

/-- Giving up is a way to end. -/
theorem smartDriverGiveUp_opens {rc : Int} (hrc : rc ≠ 0) :
    SmartOpens (S := S) dev (smartDriverGiveUp rc) := by
  intro d hd
  apply (smartDriverGiveUp_spec hd rc).imp
  intro r d' ⟨hr, hd'⟩
  subst hr
  rwa [decide_eq_false hrc]

theorem smartDriverRead_opens (cmd ans : List UInt8) {k : List UInt8 → Smart S Int}
    (hk : ∀ ans, SmartOpens dev (k ans)) : SmartOpens dev (smartDriverRead H cmd ans k) := by
  refine SmartKeeps.opens (driverCmd_smartKeeps cmd ans) fun r hr => ?_
  cases r with
  | error rc => exact smartDriverGiveUp_opens (hr rc rfl)
  | ok ans => exact hk ans

/-- The three values are read, or the socket is closed. -/
theorem smartDriverInfo_opens : SmartOpens dev (smartDriverInfo H) := by
  refine SmartKeeps.opens getDev_smartKeeps fun s _ => ?_
  refine smartDriverRead_opens _ _ fun ans => ?_
  refine SmartKeeps.opens (setDev_smartKeeps fun _ => by rfl) fun _ _ => ?_
  refine SmartKeeps.opens getDev_smartKeeps fun s _ => ?_
  refine smartDriverRead_opens _ _ fun ans => ?_
  refine SmartKeeps.opens (setDev_smartKeeps fun _ => by rfl) fun _ _ => ?_
  refine SmartKeeps.opens getDev_smartKeeps fun s _ => ?_
  refine smartDriverRead_opens _ _ fun ans => ?_
  refine SmartKeeps.opens (setDev_smartKeeps fun _ => by rfl) fun _ _ => ?_
  refine SmartKeeps.opens (call_smartKeeps _) fun now _ => ?_
  refine SmartKeeps.opens (setDev_smartKeeps fun _ => by rfl) fun _ _ => ?_
  exact fun _ hd => Triple.pure hd

theorem smartDriverConnect_opens : SmartOpens dev (smartDriverConnect H) := by
  refine SmartKeeps.opens getDev_smartKeeps fun s _ => ?_
  refine SmartKeeps.opens (onSocket_smartKeeps _ _) fun r _ => ?_
  cases r with
  | failed =>
    exact SmartKeeps.opens setIrdaError_smartKeeps fun _ _ => smartDriverGiveUp_opens (by decide)
  | timedOut =>
    exact SmartKeeps.opens (setDevError_smartKeeps _ _) fun _ _ =>
      smartDriverGiveUp_opens (by decide)
  | done _ =>
    refine SmartKeeps.opens driverHandshake_smartKeeps fun rc _ => ?_
    by_cases hrc : rc ≠ 0
    · rw [if_pos hrc]
      exact smartDriverGiveUp_opens hrc
    · rw [if_neg hrc]
      exact smartDriverInfo_opens

/-- The discovery leaves the socket alone. -/
theorem foldl_discover_s (ds : List IrdaDevice) (dev : SmartDev) :
    (ds.foldl smartDriverDiscoverCb dev).s = dev.s := by
  induction ds generalizing dev with
  | nil => rfl
  | cons d ds ih =>
    rw [List.foldl_cons, ih, smartDriverDiscoverCb]
    split <;> rfl

theorem smartDriverDiscover_opens : SmartOpens dev (smartDriverDiscover H) := by
  refine SmartKeeps.opens (onSocket_smartKeeps _ _) fun r _ => ?_
  cases r with
  | none =>
    exact SmartKeeps.opens setIrdaError_smartKeeps fun _ _ => smartDriverGiveUp_opens (by decide)
  | some ds =>
    refine SmartKeeps.opens (setDev_smartKeeps (foldl_discover_s ds)) fun _ _ => ?_
    by_cases hds : ds.length = 0
    · rw [if_pos hds]
      exact SmartKeeps.opens (setDevError_smartKeeps _ _) fun _ _ =>
        smartDriverGiveUp_opens (by decide)
    · rw [if_neg hds]
      exact smartDriverConnect_opens

/-- **Opening leaves a socket exactly if it succeeds.** -/
theorem smartDriverSocket_spec (hd : SmartOwns dev false d) (timeout : Int) :
    Triple (smartDriverSocket H timeout) d (fun rc d' => SmartOwns dev (rc = 0) d')
      NotDangling := by
  refine (call_smartKeeps _).then hd fun opened d₁ _ hd₁ => ?_
  cases opened with
  | false =>
    refine setIrdaError_smartKeeps.then hd₁ fun _ d₂ _ hd₂ => ?_
    exact Triple.pure hd₂
  | true =>
    have hdev : dev ∈ d₁.ledger.live := hd₁.live (Set.mem_insert dev _)
    have halloc : Triple allocHandle d₁ (fun s d₂ => s ≠ dev ∧ s ∈ d₂.ledger.live ∧
        dev ∈ d₂.ledger.live) NotDangling := by
      refine allocHandle_spec fun s l hs hl => ⟨fun h => hs (h ▸ hdev), ?_, ?_⟩
      · exact hl ▸ Set.mem_insert s _
      · exact hl ▸ Set.mem_insert_of_mem s hdev
    apply halloc.bind
    intro s d₂ ⟨hne, hs, hdev₂⟩
    -- the new socket is none of the handles, and live from now on
    have hset : Triple (Smart.setDev fun dev => { dev with s := some s }) d₂
        (fun _ d' => SmartOwns dev true d') NotDangling := by
      refine Triple.of_run rfl ⟨⟨rfl, fun h => hne (Option.some.inj h)⟩, ?_⟩
      intro h hh
      rcases hh with rfl | hh
      · exact hdev₂
      · cases Option.some.inj hh
        exact hs
    refine hset.bind fun _ d₃ hd₃ => ?_
    refine (onSocket_smartKeeps _ _).then hd₃ fun set d₄ _ hd₄ => ?_
    cases set with
    | true => exact smartDriverDiscover_opens d₄ hd₄
    | false =>
      refine setIrdaError_smartKeeps.then hd₄ fun _ d₅ _ hd₅ => ?_
      exact smartDriverGiveUp_opens (by decide) d₅ hd₅

/-- **Opening a device leaves a live socket, or none.** -/
theorem smartDriverOpen_spec (hd : SmartOwns dev false d) (devpath args : Text) :
    Triple (smartDriverOpen H dev devpath args) d (fun rc d' => SmartOwns dev (rc = 0) d')
      NotDangling := by
  refine useHandle_smartKeeps.then hd fun _ d₁ _ hd₁ => ?_
  cases arglistParse args with
  | error e =>
    cases e with
    | overrun => exact Triple.throw fun h => nomatch h
    | einval =>
      refine (setDevError_smartKeeps _ _).then hd₁ fun _ d₂ _ hd₂ => ?_
      exact Triple.pure hd₂
  | ok args =>
    dsimp only
    refine (setDev_smartKeeps fun _ => by rfl).then hd₁ fun _ d₂ _ hd₂ => ?_
    exact smartDriverSocket_spec hd₂ _

/-- A new structure without a socket. -/
theorem smartDriverCreate_spec (d : Desk (SmartProc S)) :
    Triple smartDriverCreate d (fun dev d' => SmartOwns dev false d') NotDangling := by
  have halloc : Triple allocHandle d (fun dev d' => dev ∈ d'.ledger.live) NotDangling :=
    allocHandle_spec fun dev l _ hl => hl ▸ Set.mem_insert dev _
  refine halloc.bind fun dev d₁ hdev => ?_
  exact Triple.of_run rfl (smartOwns_of_none rfl hdev)

/-! ### Closing

Close releases the socket and leaves the pointer behind.
-/

/-- Shutdown releases what the driver holds. -/
theorem smartDriverShutdown_spec (hd : SmartOwns dev b d) :
    Triple (smartDriverShutdown dev) d (fun _ _ => True) NotDangling := by
  refine useHandle_smartKeeps.then hd fun _ d₁ _ hd₁ => ?_
  apply (irdaSocketClose_spec hd₁).bind
  intro _ d₂ ⟨hstate, hlive⟩
  have hset : Triple (Smart.setDev fun dev => { dev with s := none }) d₂
      (fun _ d' => dev ∈ d'.ledger.live) NotDangling :=
    Triple.of_run rfl (hd₁.dev_of_closed hlive)
  refine hset.bind fun _ d₃ hdev => ?_
  exact disposeHandle_spec hdev fun _ _ => trivial

/-- The socket is released and its pointer stays. -/
theorem smartDriverClose_spec (hd : SmartOwns dev b d) :
    Triple (smartDriverClose dev) d (fun _ d' => d'.state.dev.s = d.state.dev.s ∧
      d'.ledger.live = d.ledger.live \ {h | d.state.dev.s = some h}) (· = .dangling) := by
  have huse : Triple (useHandle dev) d (fun _ d' => d'.state = d.state ∧
      d'.ledger.live = d.ledger.live) (· = .dangling) :=
    useHandle_spec (hd.live (Set.mem_insert dev _)) fun _ hl => ⟨rfl, hl⟩
  apply huse.bind
  intro _ d₁ ⟨hstate₁, hlive₁⟩
  have hd₁ : SmartOwns dev b d₁ := ⟨hstate₁ ▸ hd.valid, hstate₁ ▸ hlive₁ ▸ hd.live⟩
  apply (irdaSocketClose_spec hd₁).bind
  intro _ d₂ ⟨hstate₂, hlive₂⟩
  refine Triple.of_run rfl ⟨?_, ?_⟩
  · show d₂.state.dev.s = d.state.dev.s
    rw [hstate₂, hstate₁]
  · show d₂.ledger.live = _
    rw [hlive₂, hlive₁, hstate₁]

/-- **Closing an open device and shutting it down releases the socket twice.** -/
theorem smartDriverClose_shutdown (hd : SmartOwns dev true d) :
    Triple (do smartDriverClose dev; smartDriverShutdown dev) d (fun _ _ => False)
      (· = .dangling) := by
  obtain ⟨s, hs⟩ : ∃ s, d.state.dev.s = some s := Option.isSome_iff_exists.mp hd.valid.1
  have hne : dev ≠ s := fun h => hd.valid.2 (h ▸ hs)
  apply (smartDriverClose_spec hd).bind
  intro _ d₁ ⟨hs₁, hlive₁⟩
  have hdev₁ : dev ∈ d₁.ledger.live := by
    rw [hlive₁, hs]
    exact ⟨hd.live (Set.mem_insert dev _), fun h => hne (Option.some.inj h).symm⟩
  have huse : Triple (useHandle dev) d₁ (fun _ d' => d'.state.dev.s = some s ∧
      s ∉ d'.ledger.live) (· = .dangling) := by
    refine useHandle_spec hdev₁ fun l hl => ⟨hs₁.trans hs, ?_⟩
    rw [hl, hlive₁, hs]
    exact fun h => h.2 rfl
  apply huse.bind
  intro _ d₂ ⟨hs₂, hdead⟩
  -- the field still has the socket that closing has released
  have hclose : Triple Smart.irdaSocketClose d₂ (fun _ _ => False) (· = .dangling) := by
    have hget : Triple Smart.getDev d₂ (fun a d' => a = d₂.state.dev ∧ d' = d₂)
        (· = .dangling) := Triple.of_run rfl ⟨rfl, rfl⟩
    apply hget.bind
    intro a d' ⟨ha, hd'⟩
    subst ha hd'
    rw [hs₂]
    exact disposeHandle_dead hdead
  exact hclose.bind fun _ _ h => h.elim

end BenthosDc

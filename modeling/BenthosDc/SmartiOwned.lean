/-
BenthosDc/SmartiOwned.lean

The handles of the network driver.

The driver owns its structure, its client and the socket of the client, if there is one.
Everything that closes the socket takes it out of the client, and only shutting the device
down gives back the client and the structure.  The daemon has handles of its own; if it
comes to a halt the client sees nothing but silence.
-/
import BenthosDc.Ownership
import BenthosDc.SmartiDriver

namespace BenthosDc

open CString Delivery Hoare Lifetime Loop

variable {S α β : Type} {W : Irda S} {fuel : Nat}

/-! ### The client

The client holds no handles.  What it can do to the ledger is nothing, so that it is enough to
know how it can halt.
-/

/-- A program of the client that halts for the reasons in `E` only. -/
abbrev HaltsOnly (E : Halt → Prop) (m : Client S α) : Prop :=
  Maintains (fun _ => True) (fun _ => True) E m

/-- A program of the client that follows no handle. -/
abbrev Tame (m : Client S α) : Prop := HaltsOnly NotDangling m

section Never

variable {E : Halt → Prop}

theorem tame_pure (a : α) : HaltsOnly E (pure a : Client S α) := Maintains.pure trivial

theorem modify_tame (f : Link S → Link S) : HaltsOnly E (modify f : Client S Unit) :=
  Maintains.modify trivial fun _ _ => trivial

theorem smarticSocketReadln_tame (len : Nat) : HaltsOnly (S := S) E (smarticSocketReadln len) :=
  fun l _ => ((smarticSocketReadln_measure len l).imp fun _ _ _ => ⟨trivial, trivial⟩).weaken

theorem smarticSocketWrite_tame (buffer : Text) :
    HaltsOnly E (smarticSocketWrite W fuel buffer) := by
  intro l _
  by_cases hl : !l.connected ∨ buffer = []
  · have hrun : (smarticSocketWrite W fuel buffer).run l = .ok (⟨-1, false, einval⟩, l) :=
      if_pos hl
    exact Triple.of_run hrun ⟨trivial, trivial⟩
  · have hrun : (smarticSocketWrite W fuel buffer).run l =
        .ok (writeAll W fuel l.schedule l buffer) := if_neg hl
    exact Triple.of_run hrun ⟨trivial, trivial⟩

theorem smarticSocketAvailable_tame : HaltsOnly (S := S) E smarticSocketAvailable := by
  intro l _
  by_cases hl : !l.connected
  · have hrun : smarticSocketAvailable.run l = .ok (none, l) := if_pos hl
    exact Triple.of_run hrun ⟨trivial, trivial⟩
  rcases hlook : look l.schedule l.channel with ⟨_ | ch, events⟩
  · have hrun : smarticSocketAvailable.run l =
        .ok (none, { l with schedule := events, trouble := true }) := by
      show smarticSocketAvailable l = _
      rw [smarticSocketAvailable, if_neg hl, hlook]
    exact Triple.of_run hrun ⟨trivial, trivial⟩
  · have hrun : smarticSocketAvailable.run l = .ok (some ch.arrived.length, { l with
        channel := ch, schedule := events
        polls := l.polls ++ [(ch.arrived.length, ch.flight.length)] }) := by
      show smarticSocketAvailable l = _
      rw [smarticSocketAvailable, if_neg hl, hlook]
    exact Triple.of_run hrun ⟨trivial, trivial⟩

/-- An error is set, and returned. -/
theorem failWith_tame (code : Int) (msg : ErrorText) (a : α) :
    HaltsOnly (S := S) E (do setError code msg; return a) :=
  (modify_tame _).bind fun _ _ => tame_pure a

theorem unsetLine_tame : HaltsOnly (S := S) E unsetLine := fun _ _ =>
  Triple.of_run rfl ⟨trivial, trivial⟩

theorem checkResponse_tame (timeout : Bool) (rLine : Text) (r : LineResult) :
    HaltsOnly (S := S) E (checkResponse timeout rLine r) := by
  rw [checkResponse]
  split
  · exact failWith_tame _ _ _
  split
  · exact failWith_tame _ _ _
  cases smarticParseResponse (r.text.getD rLine) with
  | none => exact failWith_tame _ _ _
  | some p => exact tame_pure _

theorem readResponse_tame (timeout : Bool) (rLine : Text) :
    HaltsOnly (S := S) E (readResponse timeout rLine) :=
  (smarticSocketReadln_tame 1024).bind fun _ _ => checkResponse_tame _ _ _

/-- A request halts in no other way. -/
theorem smarticRequest_tame (cmd : Text) : HaltsOnly E (smarticRequest W fuel cmd) := by
  refine (smarticSocketWrite_tame _).bind fun w _ => ?_
  rw [firstResponse]
  split
  · exact tame_pure _
  refine unsetLine_tame.bind fun rLine _ => ?_
  refine (readResponse_tame _ _).bind fun r _ => ?_
  cases r with
  | none => exact tame_pure _
  | some r => exact tame_pure _

theorem statusRequest_tame (cmd : Text) : HaltsOnly E (statusRequest W fuel cmd) := by
  refine (smarticRequest_tame cmd).bind fun r _ => ?_
  rcases r with rv | ⟨rLine, code, msg⟩
  · exact tame_pure _
  · exact Maintains.ite (fun _ => failWith_tame _ _ _) fun _ => tame_pure _

theorem infoRequest_tame (cmd : Text) (width : Nat) :
    HaltsOnly E (infoRequest W fuel cmd width) := by
  refine (smarticRequest_tame cmd).bind fun r _ => ?_
  rcases r with rv | ⟨rLine, code, msg⟩
  · exact tame_pure _
  · refine Maintains.ite (fun _ => failWith_tame _ _ _) fun _ => ?_
    cases smarticParseDevinfo msg with
    | none => exact failWith_tame _ _ _
    | some info => exact tame_pure _

theorem smartiClientDisconnect_tame : HaltsOnly (S := S) E smartiClientDisconnect :=
  (modify_tame _).bind fun _ _ => tame_pure _

end Never

theorem enumLoop_tame (cb : List Found → Int) (n : Nat) (seen : List Found) (rLine : Text)
    (code : Int) (msg : Text) : Tame (S := S) (enumLoop cb n seen rLine code msg) := by
  induction n generalizing seen rLine code msg with
  | zero => exact Maintains.throw fun h => nomatch h
  | succ n ih =>
    rw [enumLoop]
    split
    · exact failWith_tame _ _ _
    cases smarticParseEnuminfo msg with
    | none => exact failWith_tame _ _ _
    | some d =>
      refine Maintains.ite (fun _ => failWith_tame _ _ _) fun _ => ?_
      refine smarticSocketAvailable_tame.bind fun available _ => ?_
      -- the poll ends the loop only where nothing has arrived
      rcases available with _ | _ | k
      rotate_left
      · exact tame_pure _
      all_goals
        refine (readResponse_tame _ _).bind fun r _ => ?_
        rcases r with _ | ⟨rLine, code, msg⟩
        · exact tame_pure _
        · exact ih _ _ _ _

theorem smartiClientEnumerate_tame (cb : List Found → Int) :
    Tame (smartiClientEnumerate W fuel cb) := by
  refine (smarticRequest_tame _).bind fun r _ => ?_
  rcases r with rv | ⟨rLine, code, msg⟩
  · exact tame_pure _
  · refine Maintains.ite (fun _ => failWith_tame _ _ _) fun _ => ?_
    have hfuel : Tame (S := S) enumFuel := fun _ _ => Triple.of_run rfl ⟨trivial, trivial⟩
    exact hfuel.bind fun n _ => enumLoop_tame cb n _ _ _ _

theorem smartiClientXfer_tame : Tame (smartiClientXfer W fuel) := by
  refine (smarticRequest_tame _).bind fun r _ => ?_
  rcases r with rv | ⟨rLine, code, msg⟩
  · exact tame_pure _
  · refine Maintains.ite (fun _ => failWith_tame _ _ _) fun _ => ?_
    cases smarticParseDevinfo msg with
    | none => exact failWith_tame _ _ _
    | some info =>
      refine (smarticSocketReadln_tame _).bind fun r _ => ?_
      rw [checkData]
      split
      · exact failWith_tame _ _ _
      split
      · exact failWith_tame _ _ _
      cases (r.text.getD []).rdropWhile fun c => !isB64 c with
      | nil => exact Maintains.throw fun h => nomatch h
      | cons c text => exact Maintains.ite (fun _ => failWith_tame _ _ _) fun _ => tame_pure _

theorem smartiClientConnect_tame : Tame (S := S) smartiClientConnect := by
  refine (modify_tame _).bind fun _ _ => ?_
  refine unsetLine_tame.bind fun gLine _ => ?_
  refine (smarticSocketReadln_tame 1024).bind fun r _ => ?_
  have hrefuse : ∀ code msg, Tame (S := S) (do
      setError code msg; let _ ← smartiClientDisconnect; return -1) := by
    intro code msg
    refine (modify_tame _).bind fun _ _ => ?_
    exact smartiClientDisconnect_tame.bind fun _ _ => tame_pure _
  rw [checkGreeting]
  split
  · exact smartiClientDisconnect_tame.bind fun _ _ => failWith_tame _ _ _
  split
  · exact failWith_tame _ _ _
  rcases smarticParseResponse (r.text.getD gLine) with _ | ⟨code, msg⟩
  · exact hrefuse _ _
  · refine Maintains.ite (fun _ => hrefuse _ _) fun _ => ?_
    rcases smarticParseGreeting msg with _ | ⟨name, version, rest⟩
    · exact hrefuse _ _
    · exact (modify_tame _).bind fun _ _ => tame_pure _

/-! ### What the driver owns

Three handles at most, all different.  The client is live from the creation to the end, and the
socket while there is a connection.
-/

variable {T : Type} {G : SmartiHost T} {dev : Nat} {d : Desk (SmartiProc T)}

/-- The structure, the client and the socket are different handles. -/
def SmartiValid (dev : Nat) (s : SmartiProc T) : Prop :=
  s.dev.client ≠ dev ∧ ∀ h, s.socket = some h → h ≠ dev ∧ h ≠ s.dev.client

/-- The structure, the client, and the socket if there is one. -/
def smartiHandles (dev : Nat) (s : SmartiProc T) : Set Nat :=
  insert dev (insert s.dev.client {h | s.socket = some h})

/-- The driver holds its handles, all of them live. -/
abbrev SmartiOwns (dev : Nat) : Desk (SmartiProc T) → Prop :=
  Owned (SmartiValid dev) (smartiHandles dev)

/-- A program of the driver that keeps its handles. -/
abbrev SmartiKeeps (dev : Nat) (m : Smarti T α) : Prop :=
  Keeping (SmartiOwns dev) (fun _ => True) m

/-- The structure is live. -/
theorem SmartiOwns.dev_live (hd : SmartiOwns dev d) : dev ∈ d.ledger.live :=
  hd.live (Set.mem_insert dev _)

/-- The client is live. -/
theorem SmartiOwns.client_live (hd : SmartiOwns dev d) : d.state.dev.client ∈ d.ledger.live :=
  hd.live (Set.mem_insert_of_mem _ (Set.mem_insert _ _))

/-- The socket is live. -/
theorem SmartiOwns.socket_live (hd : SmartiOwns dev d) {s : Nat} (hs : d.state.socket = some s) :
    s ∈ d.ledger.live :=
  hd.live (Set.mem_insert_of_mem _ (Set.mem_insert_of_mem _ hs))

/-- The parts of the driver that are not handles do not matter. -/
theorem SmartiOwns.congr (hd : SmartiOwns dev d) {d' : Desk (SmartiProc T)}
    (hclient : d'.state.dev.client = d.state.dev.client) (hsocket : d'.state.socket = d.state.socket)
    (hlive : d'.ledger.live = d.ledger.live) : SmartiOwns dev d' where
  valid := by
    rw [SmartiValid, hclient, hsocket]
    exact hd.valid
  live := by
    rw [smartiHandles, hclient, hsocket, hlive]
    exact hd.live

/-- Without a socket there are two handles. -/
theorem smartiOwns_of_none (hsocket : d.state.socket = none) (hne : d.state.dev.client ≠ dev)
    (hdev : dev ∈ d.ledger.live) (hclient : d.state.dev.client ∈ d.ledger.live) :
    SmartiOwns dev d where
  valid := by
    refine ⟨hne, fun h hh => ?_⟩
    rw [hsocket] at hh
    cases hh
  live := by
    rintro h (rfl | rfl | hh)
    · exact hdev
    · exact hclient
    · rw [Set.mem_ofPred_eq, hsocket] at hh
      cases hh

theorem pure_smartiKeeps (a : α) : SmartiKeeps (T := T) dev (pure a) := Maintains.pure trivial

theorem useHandle_smartiKeeps : SmartiKeeps (T := T) dev (useHandle dev) :=
  Owned.use fun _ _ => Set.mem_insert dev _

theorem getDev_smartiKeeps : SmartiKeeps (T := T) dev Smarti.getDev := fun _ hd =>
  Triple.of_run rfl ⟨trivial, hd⟩

theorem setDev_smartiKeeps {f : SmartiDev → SmartiDev} (hf : ∀ dev, (f dev).client = dev.client) :
    SmartiKeeps (T := T) dev (Smarti.setDev f) := fun d hd =>
  Triple.of_run rfl ⟨trivial, hd.congr (hf d.state.dev) rfl rfl⟩

theorem setDevError_smartiKeeps (code : Int) (msg : ErrorText) (copy : Bool) :
    SmartiKeeps (T := T) dev (Smarti.setDevError code msg copy) := setDev_smartiKeeps fun _ => rfl

/-- A program of the client leaves the handles alone. -/
theorem liftClient_frame {m : Client T α} (hm : Tame m) (d : Desk (SmartiProc T)) :
    Triple (Smarti.liftClient m) d (fun _ d' => d'.state.dev = d.state.dev ∧
      d'.state.socket = d.state.socket ∧ d'.ledger = d.ledger) NotDangling :=
  Smarti.liftClient_triple ((hm d.state.link trivial).imp fun _ _ _ => ⟨rfl, rfl, rfl⟩)

theorem liftClient_smartiKeeps {m : Client T α} (hm : Tame m) :
    SmartiKeeps dev (Smarti.liftClient m) := by
  intro d hd
  apply (liftClient_frame hm d).imp
  intro a d' ⟨hdev, hsocket, hledger⟩
  exact ⟨trivial, hd.congr (hdev ▸ rfl) hsocket (hledger ▸ rfl)⟩

/-- The client of the device is used. -/
theorem useClient_spec (hd : SmartiOwns dev d) :
    Triple (do useHandle (← Smarti.getDev).client) d
      (fun _ d' => d'.state = d.state ∧ SmartiOwns dev d') NotDangling := by
  have hget : Triple Smarti.getDev d (fun a d' => a = d.state.dev ∧ d' = d) NotDangling :=
    Triple.of_run rfl ⟨rfl, rfl⟩
  apply hget.bind
  intro a d' ⟨ha, hd'⟩
  subst ha hd'
  exact useHandle_spec hd.client_live fun _ hl => ⟨rfl, hd.of_eq hl⟩

theorem getState_exact (d : Desk (SmartiProc T)) :
    Triple getState d (fun a d' => a = d.state ∧ d' = d) NotDangling :=
  Triple.of_run rfl ⟨rfl, rfl⟩

/-- A call of the client keeps the handles. -/
theorem call_smartiKeeps {m : Client T α} (hm : Tame m) : SmartiKeeps dev (Smarti.call m) := by
  intro d hd
  show Triple ((do useHandle (← Smarti.getDev).client) >>= fun _ => _) d _ _
  apply (useClient_spec hd).bind
  intro _ d₁ ⟨_, hd₁⟩
  apply (getState_exact d₁).bind
  intro s d₂ ⟨hs, hd₂⟩
  subst hs hd₂
  cases hsocket : d₂.state.socket with
  | none => exact liftClient_smartiKeeps hm d₂ hd₁
  | some s =>
    have huse : Triple (useHandle s) d₂ (fun _ d' => SmartiOwns dev d') NotDangling :=
      useHandle_spec (hd₁.socket_live hsocket) fun _ hl => hd₁.of_eq hl
    exact huse.bind fun _ d₃ hd₃ => liftClient_smartiKeeps hm d₃ hd₃

/-- The socket is given back and taken out of the client. -/
theorem dropSocket_then {s : Nat} {m : Smarti T α} {Q : α → Desk (SmartiProc T) → Prop}
    (hd : SmartiOwns dev d) (hs : d.state.socket = some s)
    (hm : ∀ d', SmartiOwns dev d' → d'.state.dev = d.state.dev → Triple m d' Q NotDangling) :
    Triple (do disposeHandle s; Smarti.setSocket none; m) d Q NotDangling := by
  have hdispose : Triple (disposeHandle s) d (fun _ d' => d'.state = d.state ∧
      d'.ledger.live = d.ledger.live \ {s}) NotDangling :=
    disposeHandle_spec (hd.socket_live hs) fun _ hl => ⟨rfl, hl⟩
  obtain ⟨hne, hsock⟩ := hd.valid
  apply hdispose.bind
  intro _ d₁ ⟨hstate, hlive⟩
  have hset : Triple (Smarti.setSocket (S := T) none) d₁ (fun _ d' => SmartiOwns dev d' ∧
      d'.state.dev = d.state.dev) NotDangling := by
    refine Triple.of_run rfl ⟨smartiOwns_of_none rfl ?_ ?_ ?_, hstate ▸ rfl⟩
    · show d₁.state.dev.client ≠ dev
      rw [hstate]
      exact hne
    · show dev ∈ d₁.ledger.live
      rw [hlive]
      exact ⟨hd.dev_live, fun h => (hsock s hs).1 h.symm⟩
    · show d₁.state.dev.client ∈ d₁.ledger.live
      rw [hstate, hlive]
      exact ⟨hd.client_live, fun h => (hsock s hs).2 h.symm⟩
  exact hset.bind fun _ d' h => hm d' h.1 h.2

/-- **Behind a disconnection there is no socket**, and all that is left is live. -/
theorem disconnect_spec (hd : SmartiOwns dev d) :
    Triple Smarti.disconnect d (fun _ d' => SmartiOwns dev d' ∧ d'.state.dev = d.state.dev)
      NotDangling := by
  show Triple ((do useHandle (← Smarti.getDev).client) >>= fun _ => _) d _ _
  apply (useClient_spec hd).bind
  intro _ d₁ ⟨hstate, hd₁⟩
  apply (getState_exact d₁).bind
  intro s d₂ ⟨hs, hd₂⟩
  subst hs hd₂
  have hrest : ∀ d', SmartiOwns dev d' → d'.state.dev = d₂.state.dev → Triple (do
      let _ ← Smarti.liftClient (S := T) smartiClientDisconnect) d'
      (fun _ d' => SmartiOwns dev d' ∧ d'.state.dev = d.state.dev) NotDangling := by
    intro d' hd' hdev
    apply (liftClient_frame smartiClientDisconnect_tame d').bind
    intro _ d'' ⟨hdev', hsocket', hledger'⟩
    refine Triple.pure ⟨hd'.congr (hdev' ▸ rfl) hsocket' (hledger' ▸ rfl), ?_⟩
    rw [hdev', hdev, hstate]
  cases hsocket : d₂.state.socket with
  | none => exact hrest d₂ hd₁ rfl
  | some s => exact dropSocket_then hd₁ hsocket hrest

/-- A connection that is closed is forgotten. -/
theorem disconnect_smartiKeeps : SmartiKeeps (T := T) dev Smarti.disconnect := fun _ hd =>
  (disconnect_spec hd).imp fun _ _ h => ⟨trivial, h.1⟩

/-! ### Opening and transfers

They go through the client, and each error ends the connection.
-/

theorem clientErrcode_smartiKeeps : SmartiKeeps (T := T) dev Smarti.clientErrcode :=
  call_smartiKeeps fun _ _ => Triple.of_run rfl ⟨trivial, trivial⟩

theorem setClientError_smartiKeeps (code : Int) :
    SmartiKeeps (T := T) dev (Smarti.setClientError code) := by
  have hmsg : SmartiKeeps (T := T) dev Smarti.clientErrmsg :=
    call_smartiKeeps fun _ _ => Triple.of_run rfl ⟨trivial, trivial⟩
  exact hmsg.bind fun _ _ => setDevError_smartiKeeps _ _ _

theorem smartiDriverGiveUp_smartiKeeps (rc : Int) :
    SmartiKeeps (T := T) dev (smartiDriverGiveUp rc) :=
  disconnect_smartiKeeps.bind fun _ _ => pure_smartiKeeps _

theorem smartiDriverFail_smartiKeeps : SmartiKeeps (T := T) dev smartiDriverFail :=
  (setClientError_smartiKeeps _).bind fun _ _ => smartiDriverGiveUp_smartiKeeps _

theorem giveUpWith_smartiKeeps (code : Int) (msg : ErrorText) (rc : Int) :
    SmartiKeeps (T := T) dev (do Smarti.setDevError code msg false; smartiDriverGiveUp rc) :=
  (setDevError_smartiKeeps _ _ _).bind fun _ _ => smartiDriverGiveUp_smartiKeeps _

theorem smartiDriverRead_smartiKeeps {m : Client T (Except Int Nat)} {k : Nat → Smarti T Int}
    (hm : Tame m) (hk : ∀ n, SmartiKeeps dev (k n)) : SmartiKeeps dev (smartiDriverRead m k) := by
  refine (call_smartiKeeps hm).bind fun r _ => ?_
  cases r with
  | error rc => exact smartiDriverFail_smartiKeeps
  | ok n => exact hk n

theorem smartiDriverInfo_smartiKeeps : SmartiKeeps dev (smartiDriverInfo G) := by
  refine smartiDriverRead_smartiKeeps (infoRequest_tame _ _) fun n => ?_
  refine (setDev_smartiKeeps fun _ => by rfl).bind fun _ _ => ?_
  refine smartiDriverRead_smartiKeeps (infoRequest_tame _ _) fun n => ?_
  refine (setDev_smartiKeeps fun _ => by rfl).bind fun _ _ => ?_
  refine smartiDriverRead_smartiKeeps (infoRequest_tame _ _) fun n => ?_
  refine (setDev_smartiKeeps fun _ => by rfl).bind fun _ _ => ?_
  refine (setDev_smartiKeeps fun _ => by rfl).bind fun _ _ => ?_
  exact pure_smartiKeeps _

theorem smartiOpenError_smartiKeeps : SmartiKeeps (T := T) dev smartiOpenError := by
  refine clientErrcode_smartiKeeps.bind fun code _ => ?_
  refine Maintains.ite (fun _ => giveUpWith_smartiKeeps _ _ _) fun _ => ?_
  refine Maintains.ite (fun _ => giveUpWith_smartiKeeps _ _ _) fun _ => ?_
  refine Maintains.ite (fun _ => giveUpWith_smartiKeeps _ _ _) fun _ => ?_
  exact smartiDriverFail_smartiKeeps

theorem smartiDriverOpenDevice_smartiKeeps (lsap chunkSize : Nat) :
    SmartiKeeps dev (smartiDriverOpenDevice G lsap chunkSize) := by
  refine getDev_smartiKeeps.bind fun s _ => ?_
  refine (call_smartiKeeps (statusRequest_tame _)).bind fun rc _ => ?_
  exact Maintains.ite (fun _ => smartiOpenError_smartiKeeps) fun _ => smartiDriverInfo_smartiKeeps

/-- The enumeration leaves the client alone. -/
theorem foldl_enum_client (seen : List Found) (dev : SmartiDev) :
    (seen.foldl smartiEnumCb dev).client = dev.client := by
  induction seen generalizing dev with
  | nil => rfl
  | cons d seen ih =>
    rw [List.foldl_cons, ih, smartiEnumCb]
    split <;> rfl

theorem smartiDriverEnumerate_smartiKeeps (lsap chunkSize : Nat) :
    SmartiKeeps dev (smartiDriverEnumerate G lsap chunkSize) := by
  refine (call_smartiKeeps (smartiClientEnumerate_tame _)).bind fun r _ => ?_
  obtain ⟨rc, seen⟩ := r
  refine (setDev_smartiKeeps (foldl_enum_client seen)).bind fun _ _ => ?_
  refine Maintains.ite (fun _ => ?_) fun _ => ?_
  · refine clientErrcode_smartiKeeps.bind fun code _ => ?_
    exact Maintains.ite (fun _ => giveUpWith_smartiKeeps _ _ _) fun _ =>
      smartiDriverFail_smartiKeeps
  · refine getDev_smartiKeeps.bind fun s _ => ?_
    exact Maintains.ite (fun _ => giveUpWith_smartiKeeps _ _ _) fun _ =>
      smartiDriverOpenDevice_smartiKeeps _ _

/-- A connection leaves a live socket, or none. -/
theorem smartiDriverConnect_smartiKeeps (devpath : Text) (port : Nat) :
    SmartiKeeps dev (smartiDriverConnect G devpath port) := by
  intro d hd
  show Triple ((do useHandle (← Smarti.getDev).client) >>= fun _ => _) d _ _
  apply (useClient_spec hd).bind
  intro _ d₁ ⟨_, hd₁⟩
  cases G.dial devpath (port % 2 ^ 16) with
  | some errno =>
    refine (liftClient_smartiKeeps (modify_tame _)).then hd₁ fun _ d₂ _ hd₂ => ?_
    exact Triple.pure ⟨trivial, hd₂⟩
  | none =>
    -- the new socket is none of the handles that are live
    have halloc : Triple allocHandle d₁ (fun s d' => d'.state = d₁.state ∧
        s ∉ d₁.ledger.live ∧ d'.ledger.live = insert s d₁.ledger.live) NotDangling :=
      allocHandle_spec fun s l hs hl => ⟨rfl, hs, hl⟩
    apply halloc.bind
    intro s d₂ ⟨hstate, hs, hlive⟩
    have hdev : s ≠ dev := fun h => hs (h ▸ hd₁.dev_live)
    have hclient : s ≠ d₁.state.dev.client := fun h => hs (h ▸ hd₁.client_live)
    have hset : Triple (Smarti.setSocket (S := T) (some s)) d₂ (fun _ d' =>
        d'.state.socket = some s ∧ SmartiOwns dev d') NotDangling := by
      refine Triple.of_run rfl ⟨rfl, ⟨?_, ?_⟩, ?_⟩
      · show d₂.state.dev.client ≠ dev
        rw [hstate]
        exact hd₁.valid.1
      · intro h hh
        cases Option.some.inj hh
        show s ≠ dev ∧ s ≠ d₂.state.dev.client
        rw [hstate]
        exact ⟨hdev, hclient⟩
      · show insert dev (insert d₂.state.dev.client {h | some s = some h}) ⊆ d₂.ledger.live
        rw [hstate, hlive]
        rintro h (rfl | rfl | hh)
        · exact Set.mem_insert_of_mem s hd₁.dev_live
        · exact Set.mem_insert_of_mem s hd₁.client_live
        · cases Option.some.inj hh
          exact Set.mem_insert s _
    apply hset.bind
    intro _ d₃ ⟨hsocket₃, hd₃⟩
    apply (liftClient_frame smartiClientConnect_tame d₃).bind
    intro rc d₄ ⟨hdev₄, hsocket₄, hledger₄⟩
    have hd₄ : SmartiOwns dev d₄ := hd₃.congr (hdev₄ ▸ rfl) hsocket₄ (hledger₄ ▸ rfl)
    have hs₄ : d₄.state.socket = some s := hsocket₄.trans hsocket₃
    apply (getState_exact d₄).bind
    intro st d₅ ⟨hst, hd₅⟩
    subst hst hd₅
    by_cases hconn : d₅.state.link.connected = true
    · rw [if_pos hconn]
      exact Triple.pure ⟨trivial, hd₄⟩
    · rw [if_neg hconn]
      exact dropSocket_then hd₄ hs₄ fun d' hd' _ => Triple.pure ⟨trivial, hd'⟩

/-- **Opening keeps the handles**, however it ends. -/
theorem smartiDriverOpen_smartiKeeps (devpath args : Text) :
    SmartiKeeps dev (smartiDriverOpen G dev devpath args) := by
  refine useHandle_smartiKeeps.bind fun _ _ => ?_
  cases arglistParse args with
  | error e =>
    cases e with
    | overrun => exact Maintains.throw fun h => nomatch h
    | einval =>
      exact (setDevError_smartiKeeps _ _ _).bind fun _ _ => pure_smartiKeeps _
  | ok args =>
    refine (smartiDriverConnect_smartiKeeps _ _).bind fun rc _ => ?_
    refine Maintains.ite (fun _ => ?_) fun _ => ?_
    · exact (setDevError_smartiKeeps _ _ _).bind fun _ _ => pure_smartiKeeps _
    · exact smartiDriverEnumerate_smartiKeeps _ _

theorem smartiTransferFail_smartiKeeps : SmartiKeeps (T := T) dev smartiTransferFail :=
  (setClientError_smartiKeeps _).bind fun _ _ => pure_smartiKeeps _

theorem smartiDriverReadBlock_smartiKeeps (size : Nat) :
    SmartiKeeps dev (smartiDriverReadBlock G size) := by
  refine (call_smartiKeeps smartiClientXfer_tame).bind fun r _ => ?_
  cases r with
  | error rc =>
    refine clientErrcode_smartiKeeps.bind fun code _ => ?_
    refine Maintains.ite (fun _ => ?_) fun _ => smartiTransferFail_smartiKeeps
    exact (setDevError_smartiKeeps _ _ _).bind fun _ _ => pure_smartiKeeps _
  | ok data =>
    refine Maintains.ite (fun _ => ?_) fun _ => pure_smartiKeeps _
    exact (setDevError_smartiKeeps _ _ _).bind fun _ _ => pure_smartiKeeps _

/-- **A transfer keeps the handles.** -/
theorem smartiDriverTransfer_smartiKeeps (dcb : Option DeviceCallback) :
    SmartiKeeps dev (smartiDriverTransfer G dev dcb) := by
  refine useHandle_smartiKeeps.bind fun _ _ => ?_
  refine getDev_smartiKeeps.bind fun s _ => ?_
  dsimp only
  refine (setDev_smartiKeeps fun _ => by rfl).bind fun _ _ => ?_
  cases (transferToken dcb s.base).2 with
  | error rc => exact pure_smartiKeeps _
  | ok token =>
    refine (call_smartiKeeps (statusRequest_tame _)).bind fun rc _ => ?_
    refine Maintains.ite (fun _ => smartiTransferFail_smartiKeeps) fun _ => ?_
    refine (call_smartiKeeps (infoRequest_tame _ _)).bind fun r _ => ?_
    cases r with
    | error rc => exact smartiTransferFail_smartiKeeps
    | ok size =>
      exact Maintains.ite (fun _ => pure_smartiKeeps _) fun _ =>
        smartiDriverReadBlock_smartiKeeps _

/-! ### Creating and closing

The structures come and go together.
-/

/-- A new driver holds its structure and its client. -/
theorem smartiDriverCreate_spec (d : Desk (SmartiProc T)) :
    Triple smartiDriverCreate d (fun dev d' => SmartiOwns dev d') NotDangling := by
  have hfirst : Triple allocHandle d (fun dev d' => dev ∈ d'.ledger.live) NotDangling :=
    allocHandle_spec fun dev l _ hl => hl ▸ Set.mem_insert dev _
  refine hfirst.bind fun dev d₁ hdev => ?_
  have hsecond : Triple allocHandle d₁ (fun client d' => client ≠ dev ∧ dev ∈ d'.ledger.live ∧
      client ∈ d'.ledger.live) NotDangling := by
    refine allocHandle_spec fun client l hclient hl => ⟨fun h => hclient (h ▸ hdev), ?_, ?_⟩
    · exact hl ▸ Set.mem_insert_of_mem client hdev
    · exact hl ▸ Set.mem_insert client _
  apply hsecond.bind
  intro client d₂ ⟨hne, hdev₂, hclient₂⟩
  exact Triple.of_run rfl (smartiOwns_of_none rfl hne hdev₂ hclient₂)

/-- **Closing keeps the structure and the client**, and leaves no socket. -/
theorem smartiDriverClose_smartiKeeps : SmartiKeeps dev (smartiDriverClose G dev) := by
  refine useHandle_smartiKeeps.bind fun _ _ => ?_
  refine (call_smartiKeeps (statusRequest_tame _)).bind fun _ _ => ?_
  refine disconnect_smartiKeeps.bind fun _ _ => ?_
  exact setDev_smartiKeeps fun _ => rfl

/-- **Shutting down gives back the client and the structure**, once each. -/
theorem smartiDriverShutdown_spec (hd : SmartiOwns dev d) :
    Triple (smartiDriverShutdown dev) d (fun _ _ => True) NotDangling := by
  refine useHandle_smartiKeeps.then hd fun _ d₁ _ hd₁ => ?_
  have hdispose : Triple (smartiClientDispose (S := T)) d₁ (fun _ d' => dev ∈ d'.ledger.live)
      NotDangling := by
    have hget : Triple Smarti.getDev d₁ (fun a d' => a = d₁.state.dev ∧ d' = d₁) NotDangling :=
      Triple.of_run rfl ⟨rfl, rfl⟩
    apply hget.bind
    intro a d₂ ⟨ha, hd₂⟩
    subst ha hd₂
    apply (disconnect_spec hd₁).bind
    intro _ d₃ ⟨hd₃, hdev₃⟩
    rw [← hdev₃]
    refine disposeHandle_spec hd₃.client_live fun l hl => ?_
    show dev ∈ l.live
    rw [hl]
    exact ⟨hd₃.dev_live, fun h => hd₃.valid.1 h.symm⟩
  refine hdispose.bind fun _ d₂ hdev => ?_
  exact disposeHandle_spec hdev fun _ _ => trivial

end BenthosDc

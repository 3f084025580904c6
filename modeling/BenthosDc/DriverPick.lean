/-
BenthosDc/DriverPick.lean

Which device the two Smart drivers open.

Both callbacks overwrite the choice at every device that they recognise, so that the last
device wins.  The daemon turns the order of the devices round, and so the local driver
opens the last one of a discovery and the network driver the first one.  The local driver
looks at the number of all devices before it gives up, the network driver at its choice.

Both opens are run as a whole.  What happens behind the choice must not change it: for the
local driver that is a view of the device structure which the rest of the open does not see
(`Unseen`), for the network driver that the rest goes on from the choice (`After`).  A run that
comes to a halt says nothing of either choice.
-/
import BenthosDc.SmartDriver
import BenthosDc.SmartiDriver
import BenthosDc.SmartiEnum
import BenthosDc.SmartiRuns

namespace BenthosDc

open CString Delivery Hoare Lifetime

variable {S T α β γ : Type}

/-! ### Choosing the last one -/

/-- A fold that is overwritten at each hit shows the last one. -/
theorem foldl_overwrite {p : α → Bool} {step : β → α → β} (view : β → γ) (val : α → γ)
    (hhit : ∀ b a, p a = true → view (step b a) = val a)
    (hmiss : ∀ b a, ¬p a = true → step b a = b) (as : List α) (b : β) :
    view (as.foldl step b) = (((as.filter p).getLast?).map val).getD (view b) := by
  induction as generalizing b with
  | nil => rfl
  | cons a as ih =>
    rw [List.foldl_cons, ih]
    by_cases hp : p a = true
    · rw [List.filter_cons_of_pos hp, List.getLast?_cons, hhit b a hp]
      cases (as.filter p).getLast? with
      | none => rfl
      | some a' => rfl
    · rw [List.filter_cons_of_neg hp, hmiss b a hp]

/-- A device that the local driver recognises. -/
def isSmart (d : IrdaDevice) : Bool := smartName d.name

/-- The client recognises the device by what it sees of the name. -/
def isSmartSeen (d : IrdaDevice) : Bool := smartName (visibleName d)

/-- What the network driver recognises the local one does, too. -/
theorem isSmart_of_seen {d : IrdaDevice} (h : isSmartSeen d = true) : isSmart d = true := by
  refine smartName_of_prefix ?_ h
  have hvisible : visibleName d <+: cstr d.name := List.take_prefix _ _
  exact (List.takeWhile_prefix _).trans hvisible

/-- The local driver keeps the last device that it recognises. -/
theorem epaddr_foldl_discover (ds : List IrdaDevice) (dev : SmartDev) :
    (ds.foldl smartDriverDiscoverCb dev).epaddr =
      (((ds.filter isSmart).getLast?).map fun d => d.addr.toNat).getD dev.epaddr := by
  refine foldl_overwrite SmartDev.epaddr (fun d : IrdaDevice => d.addr.toNat) ?_ ?_ ds dev
  · intro dev d h
    have hname : smartName d.name = true := h
    rw [smartDriverDiscoverCb, if_pos hname]
  · intro dev d h
    exact if_neg h

/-- The choice of the network driver: the address, and whether there is a name. -/
def SmartiDev.choice (dev : SmartiDev) : Nat × Bool := (dev.epaddr, dev.epname.isSome)

/-- The network driver gets the devices in the opposite order: it keeps the first one. -/
theorem choice_foldl_enum (ds : List IrdaDevice) (dev : SmartiDev) :
    ((ds.reverse.map found).foldl smartiEnumCb dev).choice =
      (((ds.filter isSmartSeen).head?).map fun d => (d.addr.toNat, true)).getD dev.choice := by
  rw [List.foldl_map, ← List.getLast?_reverse, ← List.filter_reverse]
  refine foldl_overwrite SmartiDev.choice (fun d : IrdaDevice => (d.addr.toNat, true)) ?_ ?_ _ dev
  · intro dev d h
    have hname : smartName (found d).2 = true := h
    rw [smartiEnumCb, if_pos hname]
    rfl
  · intro dev d h
    exact if_neg h

/-! ### The local driver -/

/-- The address that an opening has chosen; `none` for DRIVER_ERR_NO_DEVICE. -/
def chosen (rc : Int) (epaddr : Nat) : Option Nat :=
  if rc = driverErrNoDevice then none else some epaddr

/-- A device is created and opened. -/
def smartDriverCreated (H : SmartHost S) (devpath args : Text) : Smart S Int := do
  smartDriverOpen H (← smartDriverCreate) devpath args

/-- The socket finds the devices `ds`. -/
def SmartHost.Finds (H : SmartHost S) (w : S) (ds : List IrdaDevice) : Prop :=
  (H.socketOpen w).1 = true ∧
    ∀ timeout, (H.setTimeout (H.socketOpen w).2 timeout).1 = true ∧
      (H.discover (H.setTimeout (H.socketOpen w).2 timeout).2).1 = some ds

/-- Any reason to halt. -/
def anyHalt : Halt → Prop := fun _ => True

/-- An error that does not tell of a missing device. -/
def NotMissing (r : Except Int α) : Prop := ∀ rc, r = .error rc → rc ≠ driverErrNoDevice

section Handles

variable {σ : Type} {R : Desk σ → Desk σ → Prop}

/-- Neither the state nor its view shows what happens to a handle. -/
theorem useHandle_within (hR : ∀ d ledger, R d ⟨d.state, ledger⟩) (h : Nat) :
    Within R (fun _ => True) anyHalt (useHandle h) := by
  intro d
  cases huse : d.ledger.use h with
  | none =>
    have hrun : (useHandle h).run d = .error .dangling := by
      show useHandle h d = _
      rw [useHandle, huse]
    exact Triple.of_run_error hrun trivial
  | some ledger =>
    have hrun : (useHandle h).run d = .ok ((), ⟨d.state, ledger⟩) := by
      show useHandle h d = _
      rw [useHandle, huse]
    exact Triple.of_run hrun ⟨trivial, hR d ledger⟩

/-- A release leaves the state as it is. -/
theorem disposeHandle_within (hR : ∀ d ledger, R d ⟨d.state, ledger⟩) (h : Nat) :
    Within R (fun _ => True) anyHalt (disposeHandle h) := by
  intro d
  cases hdispose : d.ledger.dispose h with
  | none =>
    have hrun : (disposeHandle h).run d = .error .dangling := by
      show disposeHandle h d = _
      rw [disposeHandle, hdispose]
    exact Triple.of_run_error hrun trivial
  | some ledger =>
    have hrun : (disposeHandle h).run d = .ok ((), ⟨d.state, ledger⟩) := by
      show disposeHandle h d = _
      rw [disposeHandle, hdispose]
    exact Triple.of_run hrun ⟨trivial, hR d ledger⟩

end Handles

section Local

variable {H : SmartHost S}

/-- A view of the device structure that shows neither its base nor its socket. -/
structure DevView (v : SmartDev → β) : Prop where
  base : ∀ dev base, v { dev with base := base } = v dev
  socket : ∀ dev s, v { dev with s := s } = v dev

/-- The address is a field of its own. -/
theorem epaddr_view : DevView SmartDev.epaddr := ⟨fun _ _ => rfl, fun _ _ => rfl⟩

/-- So is the chunk size. -/
theorem csize_view : DevView SmartDev.csize := ⟨fun _ _ => rfl, fun _ _ => rfl⟩

/-- The view stays as it is. -/
def SameView (v : SmartDev → β) (d d' : Desk (SmartProc S)) : Prop :=
  v d'.state.dev = v d.state.dev

instance (v : SmartDev → β) : IsPreorder (Desk (SmartProc S)) (SameView v) where
  refl _ := rfl
  trans _ _ _ h h' := Eq.trans h' h

/-- A program that does not show in a view. -/
abbrev Unseen (v : SmartDev → β) (P : α → Prop) (m : Smart S α) : Prop :=
  Within (SameView v) P anyHalt m

section View

variable {v : SmartDev → β}

/-- A call of the host does not see the structure. -/
theorem call_unseen (f : S → α × S) : Unseen v (fun _ => True) (Smart.call f) := fun _ =>
  Triple.of_run rfl ⟨trivial, rfl⟩

/-- Looking at it changes nothing. -/
theorem getDev_unseen : Unseen v (fun _ => True) (Smart.getDev (S := S)) := fun _ =>
  Triple.of_run rfl ⟨trivial, rfl⟩

/-- A change of other fields. -/
theorem setDev_unseen {f : SmartDev → SmartDev} (hf : ∀ dev, v (f dev) = v dev) :
    Unseen v (fun _ => True) (Smart.setDev (S := S) f) := fun d =>
  Triple.of_run rfl ⟨trivial, hf d.state.dev⟩

/-- A change of other fields, and what comes behind it. -/
theorem setDev_then {f : SmartDev → SmartDev} {P : α → Prop} {m : Smart S α}
    (hf : ∀ dev, v (f dev) = v dev) (hm : Unseen v P m) :
    Unseen v P (Smart.setDev f >>= fun _ => m) :=
  (setDev_unseen hf).bind fun _ _ => hm

/-- An operation on the socket. -/
theorem onSocket_unseen (null : α) (f : S → α × S) :
    Unseen v (fun _ => True) (Smart.onSocket null f) := by
  refine getDev_unseen.bind fun dev _ => ?_
  cases dev.s with
  | none => exact Within.pure trivial
  | some h => exact (useHandle_within (fun _ _ => rfl) h).bind fun _ _ => call_unseen f

variable (hv : DevView v)

include hv

/-- The error has fields of its own. -/
theorem setDevError_unseen (code : Int) (msg : Text) :
    Unseen v (fun _ => True) (Smart.setDevError (S := S) code msg) :=
  setDev_unseen fun dev => hv.base dev _

/-- So has that of the socket. -/
theorem setIrdaError_unseen : Unseen v (fun _ => True) (setIrdaError H) := fun d =>
  Triple.of_run rfl ⟨trivial, hv.base d.state.dev _⟩

/-- A command does not report that there is no device. -/
theorem driverCmd_unseen (cmd ans : List UInt8) : Unseen v NotMissing (Smart.driverCmd H cmd ans) := by
  -- none of the errors is that there is no device
  have hfail : ∀ {code : Int} (msg : Text), code ≠ driverErrNoDevice →
      Unseen v NotMissing (Smart.setDevError (S := S) code msg >>= fun _ =>
        (pure (.error code) : Smart S (Except Int (List UInt8)))) := by
    intro code msg hcode
    refine (setDevError_unseen hv code msg).bind fun _ _ => Within.pure ?_
    intro rc h
    cases h
    exact hcode
  refine getDev_unseen.bind fun dev _ => ?_
  split
  · apply Within.pure
    intro rc h
    cases h
    decide
  apply (onSocket_unseen _ _).bind
  rintro (_ | _ | _) -
  · exact hfail _ (by decide)
  · exact hfail _ (by decide)
  apply (onSocket_unseen _ _).bind
  rintro (_ | _ | _) -
  · exact hfail _ (by decide)
  · exact hfail _ (by decide)
  · exact Within.pure fun _ h => (nomatch h)

/-- Nor does the handshake. -/
theorem driverHandshake_unseen : Unseen v (· ≠ driverErrNoDevice) (Smart.driverHandshake H) := by
  refine (call_unseen _).bind fun ans _ => (driverCmd_unseen hv _ ans).bind ?_
  rintro (rc | ans) hrc
  · exact Within.pure (hrc rc rfl)
  dsimp only
  split
  · exact (setDevError_unseen hv _ _).bind fun _ _ => Within.pure (by decide)
  apply (driverCmd_unseen hv _ ans).bind
  rintro (rc | ans) hrc
  · exact Within.pure (hrc rc rfl)
  dsimp only
  split
  · exact (setDevError_unseen hv _ _).bind fun _ _ => Within.pure (by decide)
  · exact Within.pure (by decide)

/-- Giving up returns the code that it is given. -/
theorem smartDriverGiveUp_unseen (rc : Int) : Unseen v (· = rc) (smartDriverGiveUp (S := S) rc) := by
  have hclose : Unseen v (fun _ => True) (Smart.irdaSocketClose (S := S)) := by
    refine getDev_unseen.bind fun dev _ => ?_
    cases dev.s with
    | none => exact Within.pure trivial
    | some h => exact disposeHandle_within (fun _ _ => rfl) h
  exact hclose.bind fun _ _ => setDev_then (fun dev => hv.socket dev _) (Within.pure rfl)

/-- A number that is asked for. -/
theorem smartDriverRead_unseen (cmd ans : List UInt8) {k : List UInt8 → Smart S Int}
    (hk : ∀ ans, Unseen v (· ≠ driverErrNoDevice) (k ans)) :
    Unseen v (· ≠ driverErrNoDevice) (smartDriverRead H cmd ans k) := by
  apply (driverCmd_unseen hv cmd ans).bind
  rintro (rc | ans) hrc
  · refine (smartDriverGiveUp_unseen hv rc).mono ?_ fun _ h => h
    rintro _ rfl
    exact hrc _ rfl
  · exact hk ans

/-- The three numbers behind the handshake. -/
theorem smartDriverInfo_unseen : Unseen v (· ≠ driverErrNoDevice) (smartDriverInfo H) := by
  refine getDev_unseen.bind fun dev _ => smartDriverRead_unseen hv _ _ fun ans => ?_
  apply setDev_then (fun dev => hv.base dev _)
  refine getDev_unseen.bind fun dev _ => smartDriverRead_unseen hv _ _ fun ans => ?_
  apply setDev_then (fun dev => hv.base dev _)
  refine getDev_unseen.bind fun dev _ => smartDriverRead_unseen hv _ _ fun ans => ?_
  apply setDev_then (fun dev => hv.base dev _)
  refine (call_unseen _).bind fun now _ => ?_
  exact setDev_then (fun dev => hv.base dev _) (Within.pure (by decide))

/-- No error behind the choice of a device tells of a missing device. -/
theorem smartDriverConnect_unseen : Unseen v (· ≠ driverErrNoDevice) (smartDriverConnect H) := by
  have hgive : ∀ {rc : Int}, rc ≠ driverErrNoDevice →
      Unseen v (· ≠ driverErrNoDevice) (smartDriverGiveUp (S := S) rc) := by
    intro rc hrc
    refine (smartDriverGiveUp_unseen hv rc).mono ?_ fun _ h => h
    rintro _ rfl
    exact hrc
  refine getDev_unseen.bind fun dev _ => (onSocket_unseen _ _).bind ?_
  rintro (_ | _ | _) -
  · exact (setIrdaError_unseen hv).bind fun _ _ => hgive (by decide)
  · exact (setDevError_unseen hv _ _).bind fun _ _ => hgive (by decide)
  refine (driverHandshake_unseen hv).bind fun rc hrc => ?_
  split
  · exact hgive hrc
  · exact smartDriverInfo_unseen hv

end View

/-- The choice of the local driver stays as it is. -/
def SameChoice (d d' : Desk (SmartProc S)) : Prop := d'.state.dev.epaddr = d.state.dev.epaddr

instance : IsPreorder (Desk (SmartProc S)) SameChoice where
  refl _ := rfl
  trans _ _ _ h h' := Eq.trans h' h

/-- A program behind the choice of a device. -/
abbrev Behind (P : α → Prop) (m : Smart S α) : Prop := Within SameChoice P anyHalt m

/-- **The connection is made to the chosen address**, and no error behind it tells of a
missing device. -/
theorem smartDriverConnect_behind : Behind (· ≠ driverErrNoDevice) (smartDriverConnect H) :=
  smartDriverConnect_unseen epaddr_view

/-- An error behind the discovery does not touch the choice. -/
theorem smartDriverGiveUp_behind (code : Int) (msg : Text) :
    Behind (S := S) (· = code) (do Smart.setDevError code msg; smartDriverGiveUp code) :=
  (setDevError_unseen epaddr_view code msg).bind fun _ _ => smartDriverGiveUp_unseen epaddr_view code

/-- An operation on a socket that is there. -/
theorem onSocket_spec {d : Desk (SmartProc S)} {h : Nat} (hs : d.state.dev.s = some h) (null : α)
    (f : S → α × S) :
    Triple (Smart.onSocket null f) d (fun a d' => a = (f d.state.world).1 ∧
      d'.state = { d.state with world := (f d.state.world).2 }) anyHalt := by
  have hget : Triple (Smart.getDev (S := S)) d (fun dev d' => dev.s = some h ∧ d' = d) anyHalt :=
    Triple.of_run rfl ⟨hs, rfl⟩
  apply hget.bind
  rintro dev _ ⟨hdev, rfl⟩
  rw [hdev]
  apply (useHandle_within (R := fun d d' => d'.state = d.state) (fun _ _ => rfl) h _).bind
  rintro _ d₁ ⟨-, hd₁⟩
  refine Triple.of_run rfl ⟨?_, ?_⟩
  · rw [hd₁]
  · show SmartProc.mk _ d₁.state.dev = _
    rw [hd₁]

/-- What the local driver chooses: it gives up if there is no device at all, and otherwise
goes on with the last one that it recognises, or with the address 0. -/
def localChoice (ds : List IrdaDevice) : Option Nat :=
  if ds = [] then none
  else some ((((ds.filter isSmart).getLast?).map fun d => d.addr.toNat).getD 0)

/-- **The discovery chooses the last device**, or finds none. -/
theorem smartDriverDiscover_chosen {d : Desk (SmartProc S)} {h : Nat}
    (hs : d.state.dev.s = some h) (haddr : d.state.dev.epaddr = 0) {ds : List IrdaDevice}
    (hds : (H.discover d.state.world).1 = some ds) :
    Triple (smartDriverDiscover H) d (fun rc d' => chosen rc d'.state.dev.epaddr = localChoice ds)
      anyHalt := by
  apply (onSocket_spec hs _ _).bind
  rintro _ d₁ ⟨rfl, hd₁⟩
  rw [hds]
  dsimp only
  have hset : Triple (Smart.setDev fun dev => ds.foldl smartDriverDiscoverCb dev) d₁
      (fun _ d' => d'.state.dev.epaddr =
        (((ds.filter isSmart).getLast?).map fun d => d.addr.toNat).getD 0) anyHalt := by
    apply Triple.of_run rfl
    show (ds.foldl smartDriverDiscoverCb d₁.state.dev).epaddr = _
    rw [epaddr_foldl_discover, hd₁, haddr]
  apply hset.bind
  intro _ d₂ hd₂
  -- no devices at all are an error; names that are not recognised leave the address 0
  split
  next hlen =>
    apply (smartDriverGiveUp_behind driverErrNoDevice _ d₂).imp
    rintro rc d₃ ⟨rfl, -⟩
    rw [chosen, if_pos rfl, localChoice, if_pos (List.length_eq_zero_iff.mp hlen)]
  next hlen =>
    apply (smartDriverConnect_behind d₂).imp
    rintro rc d₃ ⟨hrc, hsame⟩
    have hsame : d₃.state.dev.epaddr = d₂.state.dev.epaddr := hsame
    rw [chosen, if_neg hrc, localChoice, if_neg (fun h => hlen (List.length_eq_zero_iff.mpr h)), hsame,
      hd₂]

/-- **The local driver chooses the last device that it recognises.** -/
theorem smartDriverCreated_chosen {w : S} {dev : SmartDev} {ds : List IrdaDevice}
    (hfinds : H.Finds w ds) (devpath : Text) {args : Text} {entries : Arglist}
    (hargs : arglistParse args = .ok entries) :
    Triple (smartDriverCreated H devpath args) (Desk.start ⟨w, dev⟩)
      (fun rc d => chosen rc d.state.dev.epaddr = localChoice ds) anyHalt := by
  obtain ⟨hopen, hfind⟩ := hfinds
  have hcreate : Triple (smartDriverCreate (S := S)) (Desk.start ⟨w, dev⟩)
      (fun _ d => d.state.world = w ∧ d.state.dev.epaddr = 0) anyHalt := Triple.of_run rfl ⟨rfl, rfl⟩
  apply hcreate.bind
  rintro h d ⟨hw, haddr⟩
  apply (useHandle_within (R := fun d d' => d'.state = d.state) (fun _ _ => rfl) h _).bind
  rintro _ d₁ ⟨-, hd₁⟩
  rw [hargs]
  dsimp only
  generalize argInt entries "timeout".toList 2000 = timeout
  have hset : Triple (Smart.setDev fun dev : SmartDev => { dev with
      lsap := argUint entries "lsap".toList 1
      csize := clampChunkSize (argUint entries "chunk_size".toList 8) }) d₁
      (fun _ d' => d'.state.world = w ∧ d'.state.dev.epaddr = 0) anyHalt := by
    refine Triple.of_run rfl ⟨?_, ?_⟩
    · show d₁.state.world = w
      rw [hd₁, hw]
    · show d₁.state.dev.epaddr = 0
      rw [hd₁, haddr]
  apply hset.bind
  rintro _ d₂ ⟨hw₂, haddr₂⟩
  -- the socket opens, its handle is kept, and its timeout is set
  have hsocket : Triple (Smart.call H.socketOpen) d₂ (fun b d' => b = true ∧
      d'.state = { d₂.state with world := (H.socketOpen w).2 }) anyHalt := by
    refine Triple.of_run rfl ⟨?_, ?_⟩
    · rw [hw₂]
      exact hopen
    · rw [hw₂]
  apply hsocket.bind
  rintro _ d₃ ⟨rfl, hd₃⟩
  rw [if_pos rfl]
  have halloc : Triple allocHandle d₃ (fun _ d' => d'.state = d₃.state) anyHalt :=
    Triple.of_run rfl rfl
  apply halloc.bind
  intro s d₄ hd₄
  have hput : Triple (Smart.setDev fun dev : SmartDev => { dev with s := some s }) d₄
      (fun _ d' => d'.state = { d₄.state with dev := { d₄.state.dev with s := some s } })
      anyHalt := Triple.of_run rfl rfl
  apply hput.bind
  intro _ d₅ hd₅
  have hs₅ : d₅.state.dev.s = some s := by rw [hd₅]
  apply (onSocket_spec hs₅ _ _).bind
  rintro _ d₆ ⟨rfl, hd₆⟩
  have hw₅ : d₅.state.world = (H.socketOpen w).2 := by
    rw [hd₅, hd₄, hd₃]
  obtain ⟨htimeout, hdiscover⟩ := hfind timeout
  rw [hw₅] at hd₆ ⊢
  rw [if_pos htimeout]
  refine smartDriverDiscover_chosen (h := s) ?_ ?_ ?_
  · rw [hd₆]
    exact hs₅
  · rw [hd₆]
    show d₅.state.dev.epaddr = 0
    rw [hd₅, hd₄, hd₃]
    exact haddr₂
  · rw [hd₆]
    exact hdiscover

end Local

/-! ### The network driver -/

/-- A structure is made and opened. -/
def smartiDriverCreated (G : SmartiHost T) (devpath args : Text) : Smarti T Int := do
  smartiDriverOpen G (← smartiDriverCreate) devpath args

section Network

variable {G : SmartiHost T}

/-- The choice of the network driver stays as it is, and nothing is polled. -/
structure SameFound (d d' : Desk (SmartiProc T)) : Prop where
  epaddr : d'.state.dev.epaddr = d.state.dev.epaddr
  later : Later d.state.link d'.state.link

instance : IsPreorder (Desk (SmartiProc T)) SameFound where
  refl d := ⟨rfl, refl_of Later d.state.link⟩
  trans _ _ _ h h' := ⟨h'.epaddr.trans h.epaddr, trans_of Later h.later h'.later⟩

/-- A program behind the choice of a device. -/
abbrev After (P : α → Prop) (m : Smarti T α) : Prop := Within SameFound P anyHalt m

/-- Looking at the structure. -/
theorem getDev_after : After (fun _ => True) (Smarti.getDev (S := T)) := fun d =>
  Triple.of_run rfl ⟨trivial, refl_of SameFound d⟩

/-- A change of other fields, and what comes behind it. -/
theorem setDev_then_after {f : SmartiDev → SmartiDev} {P : α → Prop} {m : Smarti T α}
    (hf : ∀ dev, (f dev).epaddr = dev.epaddr) (hm : After P m) :
    After P (Smarti.setDev f >>= fun _ => m) := by
  have hset : After (fun _ => True) (Smarti.setDev (S := T) f) := fun d =>
    Triple.of_run rfl ⟨trivial, hf d.state.dev, refl_of Later d.state.link⟩
  exact hset.bind fun _ _ => hm

/-- The error has fields of its own. -/
theorem setDevError_after (code : Int) (msg : ErrorText) (copy : Bool) :
    After (fun _ => True) (Smarti.setDevError (S := T) code msg copy) := fun d =>
  Triple.of_run rfl ⟨trivial, rfl, refl_of Later d.state.link⟩

/-- A pointer is followed. -/
theorem useHandle_after (h : Nat) : After (T := T) (fun _ => True) (useHandle h) :=
  useHandle_within (fun d _ => ⟨rfl, refl_of Later d.state.link⟩) h

/-- A program of the client changes the link only. -/
theorem liftClient_spec {m : Client T α} {d : Desk (SmartiProc T)} {Q : α → Link T → Prop}
    (hm : Triple m d.state.link Q anyHalt) :
    Triple (Smarti.liftClient m) d
      (fun a d' => d'.state.dev = d.state.dev ∧ Q a d'.state.link) anyHalt :=
  Smarti.liftClient_triple (hm.imp fun _ _ h => ⟨rfl, h⟩)

/-- So does a call that may fail. -/
theorem call_spec {m : Client T α} {d : Desk (SmartiProc T)} {Q : α → Link T → Prop}
    (hm : Triple m d.state.link Q anyHalt) :
    Triple (Smarti.call m) d (fun a d' => d'.state.dev = d.state.dev ∧ Q a d'.state.link)
      anyHalt := by
  have hget : Triple (Smarti.getDev (S := T)) d (fun _ d' => d' = d) anyHalt := Triple.of_run rfl rfl
  have huse : ∀ h d', d'.state = d.state → Triple (useHandle h) d'
      (fun _ d'' => d''.state = d.state) anyHalt := by
    intro h d' hd'
    apply (useHandle_within (R := fun d d' => d'.state = d.state) (fun _ _ => rfl) h d').imp
    rintro _ d'' ⟨-, hd''⟩
    exact hd''.trans hd'
  have hlift : ∀ d', d'.state = d.state → Triple (Smarti.liftClient m) d'
      (fun a d'' => d''.state.dev = d.state.dev ∧ Q a d''.state.link) anyHalt := by
    intro d' hd'
    have hm' : Triple m d'.state.link Q anyHalt := by
      rw [hd']
      exact hm
    apply (liftClient_spec hm').imp
    rintro a d'' ⟨hdev, hq⟩
    rw [hd'] at hdev
    exact ⟨hdev, hq⟩
  -- the client, and the socket if there is one, are used before the call
  apply hget.bind
  intro dev d₀ hd₀
  apply (huse _ d₀ (congrArg Desk.state hd₀)).bind
  intro _ d₁ hd₁
  have hstate : Triple getState d₁ (fun _ d' => d'.state = d.state) anyHalt := Triple.of_run rfl hd₁
  apply hstate.bind
  intro p d₂ hd₂
  cases p.socket with
  | none => exact hlift d₂ hd₂
  | some s =>
    apply (huse s d₂ hd₂).bind
    intro _ d₃ hd₃
    exact hlift d₃ hd₃

/-- A call of the client does not see the choice. -/
theorem call_after {m : Client T α} (hm : Within Later (fun _ => True) anyHalt m) :
    After (fun _ => True) (Smarti.call m) := by
  intro d
  apply (call_spec (hm d.state.link)).imp
  rintro a d' ⟨hdev, -, hlater⟩
  exact ⟨trivial, congrArg SmartiDev.epaddr hdev, hlater⟩

/-- Nor does a disconnect. -/
theorem disconnect_after : After (fun _ => True) (Smarti.disconnect (S := T)) := by
  have hclose : Within Later (fun _ => True) anyHalt (smartiClientDisconnect (S := T)) := fun l =>
    Triple.of_run rfl ⟨trivial, fun h => h, rfl⟩
  have hlift : After (fun _ => True) (Smarti.liftClient (smartiClientDisconnect (S := T))) := by
    intro d
    apply (liftClient_spec (hclose d.state.link)).imp
    rintro _ d' ⟨hdev, -, hlater⟩
    exact ⟨trivial, congrArg SmartiDev.epaddr hdev, hlater⟩
  have hend := hlift.bind fun _ _ => Within.pure (a := ()) (P := fun _ => True) trivial
  have hstate : After (fun _ => True) (getState (σ := SmartiProc T)) := fun d =>
    Triple.of_run rfl ⟨trivial, refl_of SameFound d⟩
  refine getDev_after.bind fun dev _ => (useHandle_after _).bind fun _ _ => hstate.bind fun p _ => ?_
  cases p.socket with
  | none => exact hend
  | some s =>
    have hdispose : After (T := T) (fun _ => True) (disposeHandle s) :=
      disposeHandle_within (fun d _ => ⟨rfl, refl_of Later d.state.link⟩) s
    have hset : After (T := T) (fun _ => True) (Smarti.setSocket none) := fun d =>
      Triple.of_run rfl ⟨trivial, rfl, refl_of Later d.state.link⟩
    exact hdispose.bind fun _ _ => hset.bind fun _ _ => hend

/-- Giving up closes, and keeps the choice. -/
theorem smartiDriverGiveUp_after (rc : Int) : After (T := T) (· = rc) (smartiDriverGiveUp rc) :=
  disconnect_after.bind fun _ _ => Within.pure rfl

/-- The error of the client is copied. -/
theorem setClientError_after (code : Int) :
    After (T := T) (fun _ => True) (Smarti.setClientError code) := by
  have hmsg : After (T := T) (fun _ => True) Smarti.clientErrmsg :=
    call_after fun l => Triple.of_run rfl ⟨trivial, refl_of Later l⟩
  exact hmsg.bind fun msg _ => setDevError_after code msg true

/-- A failure returns a code. -/
theorem smartiDriverFail_returns : After (T := T) (· = driverErrInternal) smartiDriverFail :=
  (setClientError_after _).bind fun _ _ => smartiDriverGiveUp_after _

/-- And keeps the choice. -/
theorem smartiDriverFail_after : After (T := T) (· ≠ driverErrNoDevice) smartiDriverFail := by
  refine smartiDriverFail_returns.mono ?_ fun _ h => h
  rintro _ rfl
  decide

/-- A number that is asked for. -/
theorem smartiDriverRead_after {m : Client T (Except Int Nat)} {k : Nat → Smarti T Int}
    (hm : Within Later (fun _ => True) anyHalt m) (hk : ∀ n, After (· ≠ driverErrNoDevice) (k n)) :
    After (· ≠ driverErrNoDevice) (smartiDriverRead m k) := by
  apply (call_after hm).bind
  rintro (rv | n) -
  · exact smartiDriverFail_after
  · exact hk n

/-- The numbers behind OPEN. -/
theorem smartiDriverInfo_after : After (· ≠ driverErrNoDevice) (smartiDriverInfo G) := by
  refine smartiDriverRead_after (infoRequest_later _ _) fun n => setDev_then_after (fun _ => rfl) ?_
  refine smartiDriverRead_after (infoRequest_later _ _) fun n => setDev_then_after (fun _ => rfl) ?_
  refine smartiDriverRead_after (infoRequest_later _ _) fun n => setDev_then_after (fun _ => rfl) ?_
  exact setDev_then_after (fun _ => rfl) (Within.pure (by decide))

/-- The code of the client's error. -/
theorem clientErrcode_after : After (T := T) (fun _ => True) Smarti.clientErrcode :=
  call_after fun l => Triple.of_run rfl ⟨trivial, refl_of Later l⟩

/-- Opening fails with an error, which is not that there is no device. -/
theorem smartiOpenError_after :
    After (T := T) (fun rc => rc ≠ driverErrNoDevice ∧ rc ≠ 0) smartiOpenError := by
  have hgive : ∀ {rc : Int} (msg : ErrorText), rc ≠ driverErrNoDevice ∧ rc ≠ 0 →
      After (T := T) (fun rc => rc ≠ driverErrNoDevice ∧ rc ≠ 0)
        (Smarti.setDevError rc msg false >>= fun _ => smartiDriverGiveUp rc) := by
    intro rc msg hrc
    refine (setDevError_after rc msg false).bind fun _ _ => (smartiDriverGiveUp_after rc).mono ?_
      fun _ h => h
    rintro _ rfl
    exact hrc
  refine clientErrcode_after.bind fun code _ => ?_
  split
  · exact hgive _ (by decide)
  split
  · exact hgive _ (by decide)
  split
  · exact hgive _ (by decide)
  · refine smartiDriverFail_returns.mono ?_ fun _ h => h
    rintro _ rfl
    decide

/-- OPEN, and what comes behind it. -/
theorem smartiDriverOpenDevice_after (lsap chunkSize : Nat) :
    After (· ≠ driverErrNoDevice) (smartiDriverOpenDevice G lsap chunkSize) := by
  refine getDev_after.bind fun dev _ => (call_after (statusRequest_later _)).bind fun rc _ => ?_
  split
  · exact smartiOpenError_after.mono (fun _ h => h.1) fun _ h => h
  · exact smartiDriverInfo_after

/-- What the network driver chooses: the first device that it recognises. -/
def networkChoice (ds : List IrdaDevice) : Option Nat :=
  ((ds.filter isSmartSeen).head?).map fun d => d.addr.toNat

/-- The choice is right, unless there is trouble or a poll comes too early. -/
def Chooses (ds : List IrdaDevice) (rc : Int) (d : Desk (SmartiProc T)) : Prop :=
  d.state.link.trouble = false → Prompt d.state.link.polls →
    chosen rc d.state.dev.epaddr = networkChoice ds

/-- A program behind the choice does not change it. -/
theorem After.chooses {m : Smarti T Int} {P : Int → Prop} {d : Desk (SmartiProc T)}
    {ds : List IrdaDevice} (hm : After P m)
    (h : ∀ (rc : Int) (d' : Desk (SmartiProc T)), P rc →
      d'.state.dev.epaddr = d.state.dev.epaddr → d.state.link.trouble = false →
      Prompt d.state.link.polls → chosen rc d'.state.dev.epaddr = networkChoice ds) :
    Triple m d (Chooses ds) anyHalt := by
  apply (hm d).imp
  rintro rc d' ⟨hrc, hsame⟩ hcalm hprompt
  refine h rc d' hrc hsame.epaddr ?_ ?_
  · by_contra htrouble
    rw [hsame.later.trouble (Bool.of_not_eq_false htrouble)] at hcalm
    cases hcalm
  · rw [← hsame.later.polls]
    exact hprompt

/-- No device: the error is set, and the driver gives up. -/
theorem noDevice_after (msg : Text) :
    After (T := T) (· = driverErrNoDevice) (do
      Smarti.setDevError driverErrNoDevice (.text msg) false
      smartiDriverGiveUp driverErrNoDevice) :=
  (setDevError_after _ _ _).bind fun _ _ => smartiDriverGiveUp_after _

/-- The device structure keeps what the network driver chooses. -/
theorem networkChoice_of_choice {ds : List IrdaDevice} {dev : SmartiDev}
    (haddr : ∀ d ∈ ds, d.addr ≠ 0)
    (h : dev.choice =
      (((ds.filter isSmartSeen).head?).map fun d => (d.addr.toNat, true)).getD (0, false)) :
    networkChoice ds = if dev.epname = none ∨ dev.epaddr = 0 then none else some dev.epaddr := by
  rw [networkChoice]
  cases hhead : (ds.filter isSmartSeen).head? with
  | none =>
    rw [hhead] at h
    exact (if_pos (.inr (Prod.mk.inj h).1)).symm
  | some d =>
    rw [hhead] at h
    obtain ⟨hepaddr, hepname⟩ := Prod.mk.inj h
    have hmem := List.mem_of_mem_head? hhead
    -- a device that is recognised has a name, and an address that is not 0
    have hne : ¬(dev.epname = none ∨ dev.epaddr = 0) := by
      rintro (hnone | hzero)
      · rw [hnone] at hepname
        cases hepname
      · rw [hzero] at hepaddr
        have haddr₀ : d.addr = 0 := UInt32.toNat_inj.mp hepaddr.symm
        exact haddr d (List.mem_filter.mp hmem).1 haddr₀
    rw [if_neg hne, hepaddr]
    rfl

/-- What ENUM comes to for the driver, if there is no trouble and every poll is prompt: the
error that there are no devices, or all devices in the opposite order. -/
theorem enumerate_found {l l' : Link T} {ds : List IrdaDevice} {r : Int × List Found}
    (hpolls : l.polls = []) (hcalm : l'.trouble = false) (hprompt : Prompt l'.polls)
    (h : l'.trouble = true ∨ (ds = [] ∧ r = (-1, []) ∧ l'.errcode = smartiStatusNoDevs) ∨
      (ds ≠ [] ∧ HandsOver (ds.reverse.map found) l r l')) :
    (ds = [] ∧ r = (-1, []) ∧ l'.errcode = smartiStatusNoDevs) ∨
      r = (0, ds.reverse.map found) := by
  rcases h with htrouble | hnone | ⟨-, new, hnew, hr⟩
  · rw [hcalm] at htrouble
    cases htrouble
  · exact .inl hnone
  · rw [hnew, hpolls] at hprompt
    exact .inr (hr hprompt)

/-- **The enumeration chooses the last device that is told of**, or finds none. -/
theorem smartiDriverEnumerate_chooses {d : Desk (SmartiProc T)} (hl : Synced d.state.link)
    {c : Conn T} (hconn : d.state.link.server.conn = some c) (hirda : c.irda = true)
    (hpolls : d.state.link.polls = []) (hfresh : d.state.dev.choice = (0, false))
    {ds : List IrdaDevice} (hds : (G.irda.discover c.world).1 = some ds)
    (hnames : ∀ d ∈ ds, SendableName d.name) (haddr : ∀ d ∈ ds, d.addr ≠ 0)
    (lsap chunkSize : Nat) :
    Triple (smartiDriverEnumerate G lsap chunkSize) d (Chooses ds) anyHalt := by
  have hnever : ∀ seen : List Found, (fun _ : List Found => (0 : Int)) seen = 0 := fun _ => rfl
  have henum := (@smartiClientEnumerate_found T G.irda G.fuel d.state.link _ hnever hl c hconn hirda
    ds hds hnames).mono (fun _ _ h => h) fun e (h : never e) => (h.elim : anyHalt e)
  apply (call_spec henum).bind
  rintro ⟨rc, seen⟩ d₁ ⟨hdev₁, henum₁⟩
  dsimp only
  have hset : Triple (Smarti.setDev fun dev => seen.foldl smartiEnumCb dev) d₁
      (fun _ d' => d'.state.link = d₁.state.link ∧
        d'.state.dev = seen.foldl smartiEnumCb d.state.dev) anyHalt := by
    refine Triple.of_run rfl ⟨rfl, ?_⟩
    show seen.foldl smartiEnumCb d₁.state.dev = _
    rw [hdev₁]
  apply hset.bind
  rintro _ d₂ ⟨hlink₂, hdev₂⟩
  have hfound : d₂.state.link.trouble = false → Prompt d₂.state.link.polls →
      (ds = [] ∧ rc = -1 ∧ d₂.state.link.errcode = smartiStatusNoDevs) ∨
        (rc = 0 ∧ seen = ds.reverse.map found) := by
    rw [hlink₂]
    intro hcalm hprompt
    rcases enumerate_found hpolls hcalm hprompt henum₁ with ⟨hnil, hr, hcode⟩ | hr
    · exact .inl ⟨hnil, congrArg Prod.fst hr, hcode⟩
    · exact .inr (Prod.mk.inj hr)
  split
  next hrc =>
    -- the enumeration has failed
    refine (call_spec (m := fun l => .ok (l.errcode, l)) (Triple.of_run (Q := fun code l =>
      code = d₂.state.link.errcode ∧ l = d₂.state.link) rfl ⟨rfl, rfl⟩)).bind ?_
    rintro code d₃ ⟨-, hcode, hlink₃⟩
    split
    next hnodevs =>
      apply (noDevice_after _).chooses
      rintro _ d₄ rfl - hcalm hprompt
      rw [hlink₃] at hcalm hprompt
      rcases hfound hcalm hprompt with ⟨rfl, -⟩ | ⟨hzero, -⟩
      · rw [chosen, if_pos rfl]
        rfl
      · exact absurd hzero hrc
    next hnodevs =>
      apply smartiDriverFail_after.chooses
      intro rc' d₄ _ _ hcalm hprompt
      rw [hlink₃] at hcalm hprompt
      rcases hfound hcalm hprompt with ⟨-, -, herr⟩ | ⟨hzero, -⟩
      · exact absurd (hcode.trans herr) hnodevs
      · exact absurd hzero hrc
  next hrc =>
    have hchoice : d₂.state.link.trouble = false → Prompt d₂.state.link.polls →
        networkChoice ds = if d₂.state.dev.epname = none ∨ d₂.state.dev.epaddr = 0 then none
          else some d₂.state.dev.epaddr := by
      intro hcalm hprompt
      rcases hfound hcalm hprompt with ⟨-, hfailed, -⟩ | ⟨-, rfl⟩
      · rw [hfailed] at hrc
        exact absurd (by decide) hrc
      · apply networkChoice_of_choice haddr
        rw [hdev₂, choice_foldl_enum, hfresh]
    have hget : Triple (Smarti.getDev (S := T)) d₂ (fun dev d' => dev = d₂.state.dev ∧ d' = d₂)
        anyHalt := Triple.of_run rfl ⟨rfl, rfl⟩
    apply hget.bind
    rintro _ _ ⟨rfl, rfl⟩
    split
    next hnone =>
      apply (noDevice_after _).chooses
      rintro _ d₃ rfl - hcalm hprompt
      rw [hchoice hcalm hprompt, if_pos hnone, chosen, if_pos rfl]
    next hsome =>
      apply (smartiDriverOpenDevice_after lsap chunkSize).chooses
      intro rc' d₃ hrc' hsame hcalm hprompt
      rw [hchoice hcalm hprompt, if_neg hsome, chosen, if_neg hrc', hsame]

/-- Trouble stays. -/
def Troubled (d d' : Desk (SmartiProc T)) : Prop :=
  d.state.link.trouble = true → d'.state.link.trouble = true

instance : IsPreorder (Desk (SmartiProc T)) Troubled where
  refl _ h := h
  trans _ _ _ h h' ht := h' (h ht)

/-- What comes behind the choice may run into trouble. -/
theorem After.troubled {P : α → Prop} {m : Smarti T α} (hm : After P m) :
    Within Troubled (fun _ => True) anyHalt m := by
  intro d
  apply (hm d).imp
  rintro a d' ⟨-, hsame⟩
  exact ⟨trivial, hsame.later.trouble⟩

/-- So may the enumeration. -/
theorem smartiDriverEnumerate_troubled (lsap chunkSize : Nat) :
    Within Troubled (fun _ => True) anyHalt (smartiDriverEnumerate G lsap chunkSize) := by
  have hset : ∀ f, Within Troubled (fun _ => True) anyHalt (Smarti.setDev (S := T) f) := fun f d =>
    Triple.of_run rfl ⟨trivial, fun h => h⟩
  have henum : Within Troubled (fun _ => True) anyHalt
      (Smarti.call (smartiClientEnumerate G.irda G.fuel fun _ => 0)) := by
    intro d
    -- the client may do as it likes where there is no trouble yet
    have hsteady : Triple (smartiClientEnumerate G.irda G.fuel fun _ => 0) d.state.link
        (fun _ l => d.state.link.trouble = true → l.trouble = true) anyHalt := by
      by_cases htrouble : d.state.link.trouble = true
      · exact (smartiClientEnumerate_steady _ _ htrouble).mono (fun _ _ h _ => h) fun _ h => h.elim
      · rw [Triple]
        split
        · exact fun h => absurd h htrouble
        · trivial
    apply (call_spec hsteady).imp
    rintro r d' ⟨-, hstay⟩
    exact ⟨trivial, hstay⟩
  refine henum.bind fun r _ => (hset _).bind fun _ _ => ?_
  split
  · refine clientErrcode_after.troubled.bind fun code _ => ?_
    split
    · exact (noDevice_after _).troubled
    · exact smartiDriverFail_after.troubled
  · refine getDev_after.troubled.bind fun dev _ => ?_
    split
    · exact (noDevice_after _).troubled
    · exact (smartiDriverOpenDevice_after lsap chunkSize).troubled

/-- A server that can be reached. -/
theorem smartiDriverConnect_spec {d : Desk (SmartiProc T)} {v : T} {schedule : List NetEvent}
    {junk : Text} (hlink : d.state.link = Link.dialed v schedule junk) {devpath : Text} {port : Nat}
    (hdial : G.dial devpath (port % 2 ^ 16) = none) :
    Triple (smartiDriverConnect G devpath port) d (fun rc d' => d'.state.dev = d.state.dev ∧
      (d'.state.link.trouble = true ∨ rc = 0 ∧ Synced d'.state.link ∧
        d'.state.link.server = Server.start v ∧ d'.state.link.polls = [])) anyHalt := by
  have hget : Triple (Smarti.getDev (S := T)) d (fun _ d' => d'.state = d.state) anyHalt :=
    Triple.of_run rfl rfl
  apply hget.bind
  intro dev d₁ hd₁
  apply (useHandle_within (R := fun d d' => d'.state = d.state) (fun _ _ => rfl) _ d₁).bind
  rintro _ d₂ ⟨-, hd₂⟩
  rw [hdial]
  dsimp only
  have halloc : Triple allocHandle d₂ (fun _ d' => d'.state = d₂.state) anyHalt :=
    Triple.of_run rfl rfl
  apply halloc.bind
  intro s d₃ hd₃
  have hset : Triple (Smarti.setSocket (some s)) d₃ (fun _ d' => d'.state.dev = d.state.dev ∧
      d'.state.link = Link.dialed v schedule junk) anyHalt := by
    refine Triple.of_run rfl ⟨?_, ?_⟩
    · show d₃.state.dev = _
      rw [hd₃, hd₂, hd₁]
    · show d₃.state.link = _
      rw [hd₃, hd₂, hd₁, hlink]
  apply hset.bind
  rintro _ d₄ ⟨hdev₄, hlink₄⟩
  have hconnect : Triple (smartiClientConnect (S := T)) d₄.state.link (fun rc l =>
      l.trouble = true ∨ rc = 0 ∧ Synced l ∧ l.server = Server.start v ∧ l.polls = []) anyHalt := by
    rw [hlink₄]
    refine (smartiClientConnect_spec v schedule junk).mono ?_ fun _ h => h.elim
    intro rc l h
    exact h.imp_right fun ⟨hrc, hl, _, hserver, hpolls⟩ => ⟨hrc, hl, hserver, hpolls⟩
  apply (liftClient_spec hconnect).bind
  rintro rc d₅ ⟨hdev₅, h₅⟩
  have hstate : Triple getState d₅ (fun _ d' => d'.state = d₅.state) anyHalt :=
    Triple.of_run rfl rfl
  apply hstate.bind
  intro p d₆ hd₆
  have hdone : d₆.state.dev = d.state.dev := by rw [hd₆, hdev₅, hdev₄]
  rw [← hd₆] at h₅
  split
  · exact Triple.pure ⟨hdone, h₅⟩
  · -- the socket is closed again, which does not show in the link
    apply (disposeHandle_within (R := fun d d' => d'.state = d.state) (fun _ _ => rfl) s _).bind
    rintro _ d₇ ⟨-, hd₇⟩
    have hclear : Triple (Smarti.setSocket none) d₇ (fun _ d' => d'.state.dev = d₇.state.dev ∧
        d'.state.link = d₇.state.link) anyHalt := Triple.of_run rfl ⟨rfl, rfl⟩
    apply hclear.bind
    rintro _ d₈ ⟨hdev₈, hlink₈⟩
    refine Triple.pure ⟨?_, ?_⟩
    · rw [hdev₈, hd₇, hdone]
    · rw [hlink₈, hd₇]
      exact h₅

/-- **The network driver chooses the first device that it recognises.** -/
theorem smartiDriverCreated_chooses {v : T} {schedule : List NetEvent} {junk : Text}
    {dev : SmartiDev} {ds : List IrdaDevice} (hds : (G.irda.discover v).1 = some ds)
    (hnames : ∀ d ∈ ds, SendableName d.name) (haddr : ∀ d ∈ ds, d.addr ≠ 0) {devpath args : Text}
    {entries : Arglist} (hargs : arglistParse args = .ok entries)
    (hdial : G.dial devpath (argUint entries "port".toList 6740 % 2 ^ 16) = none) :
    Triple (smartiDriverCreated G devpath args)
      (Desk.start ⟨Link.dialed v schedule junk, none, dev⟩) (Chooses ds) anyHalt := by
  have hcreate : Triple (smartiDriverCreate (S := T))
      (Desk.start ⟨Link.dialed v schedule junk, none, dev⟩)
      (fun _ d => d.state.link = Link.dialed v schedule junk ∧ d.state.dev.choice = (0, false))
      anyHalt := Triple.of_run rfl ⟨rfl, rfl⟩
  apply hcreate.bind
  rintro h d ⟨hlink, hfresh⟩
  apply (useHandle_within (R := fun d d' => d'.state = d.state) (fun _ _ => rfl) h d).bind
  rintro _ d₁ ⟨-, hd₁⟩
  rw [hargs]
  dsimp only
  have hlink₁ : d₁.state.link = Link.dialed v schedule junk := by rw [hd₁, hlink]
  apply (smartiDriverConnect_spec hlink₁ hdial).bind
  rintro rc d₂ ⟨hdev₂, htrouble | ⟨rfl, hl, hserver, hpolls⟩⟩
  · -- whatever follows, the trouble stays
    have hopen : Within Troubled (fun _ => True) anyHalt (if rc ≠ 0 then (do
        Smarti.setDevError driverErrBadDevpath (.text "Failed to Connect to Server".toList) false
        return driverErrBadDevpath : Smarti T Int)
      else smartiDriverEnumerate G (argUint entries "lsap".toList 1)
        (argUint entries "chunk_size".toList 8)) := by
      split
      · apply After.troubled (P := fun _ => True)
        exact (setDevError_after _ _ _).bind fun _ _ => Within.pure trivial
      · exact smartiDriverEnumerate_troubled _ _
    apply (hopen d₂).imp
    rintro rc d' ⟨-, hstay⟩ hcalm
    rw [hstay htrouble] at hcalm
    cases hcalm
  · have hconn : d₂.state.link.server.conn = some (Conn.fresh v) := by
      rw [hserver]
      rfl
    refine smartiDriverEnumerate_chooses hl hconn rfl hpolls ?_ hds hnames haddr _ _
    rw [hdev₂, hd₁, hfresh]

end Network

/-! ### Both drivers -/

/-- The first device in the order of the discovery that is a Smart device by its name. -/
def firstSmart (ds : List IrdaDevice) : Option Nat :=
  (ds.find? isSmart).map fun d => d.addr.toNat

/-- Both openings have chosen the first Smart device, or have failed with
DRIVER_ERR_NO_DEVICE if there is none. -/
structure PicksFirst (ds : List IrdaDevice) (rc : Int) (p : SmartProc S) (rc' : Int)
    (q : SmartiProc T) : Prop where
  smart : chosen rc p.dev.epaddr = firstSmart ds
  smarti : chosen rc' q.dev.epaddr = firstSmart ds

/-- There is no device at all, or one Smart device and the client sees that it is one. -/
def OneSmart (ds : List IrdaDevice) : Prop :=
  ds = [] ∨ ∃ d, ds.filter isSmart = [d] ∧ isSmartSeen d = true

/-- The head of the devices that are recognised. -/
theorem firstSmart_eq (ds : List IrdaDevice) :
    firstSmart ds = ((ds.filter isSmart).head?).map fun d => d.addr.toNat := by
  rw [firstSmart, List.head?_filter]

/-- What the client recognises is a part of what the local driver recognises. -/
theorem filter_isSmartSeen (ds : List IrdaDevice) :
    ds.filter isSmartSeen = (ds.filter isSmart).filter isSmartSeen := by
  rw [List.filter_filter]
  refine List.filter_congr fun d _ => ?_
  cases hseen : isSmartSeen d with
  | false => rfl
  | true => exact (isSmart_of_seen hseen).symm

/-- The first and the last element are the same one only if there is no other. -/
theorem eq_singleton_of_getLast? {ds : List IrdaDevice} (hdistinct : (ds.map IrdaDevice.addr).Nodup)
    {d : IrdaDevice} {rest : List IrdaDevice} (hds : ds = d :: rest)
    (hlast : ds.getLast?.map (fun d => d.addr.toNat) = some d.addr.toNat) : ds = [d] := by
  subst hds
  rcases List.eq_nil_or_concat rest with rfl | ⟨rest, d', rfl⟩
  · rfl
  · rw [List.concat_eq_append, ← List.cons_append, List.getLast?_concat] at hlast
    have haddr : d'.addr = d.addr := UInt32.toNat_inj.mp (Option.some.inj hlast)
    rw [List.concat_eq_append, List.map_cons, List.map_append, List.nodup_cons, ← haddr] at hdistinct
    exact absurd (List.mem_append_right _ List.mem_cons_self) hdistinct.1

/-- **The two choices are both the first Smart device** exactly if there is at most one to
choose from. -/
theorem choices_first_iff {ds : List IrdaDevice} (hdistinct : (ds.map IrdaDevice.addr).Nodup) :
    (localChoice ds = firstSmart ds ∧ networkChoice ds = firstSmart ds) ↔ OneSmart ds := by
  have hsmart : ((ds.filter isSmart).map IrdaDevice.addr).Nodup :=
    hdistinct.sublist (List.filter_sublist.map _)
  constructor
  · rintro ⟨hlocal, hnetwork⟩
    by_cases hnil : ds = []
    · exact .inl hnil
    right
    rw [localChoice, if_neg hnil, firstSmart_eq] at hlocal
    rw [networkChoice, filter_isSmartSeen, firstSmart_eq] at hnetwork
    cases hfilter : ds.filter isSmart with
    | nil =>
      rw [hfilter] at hlocal
      cases hlocal
    | cons d rest =>
      rw [hfilter] at hsmart hlocal hnetwork
      -- the local driver takes the last of the devices, and the first is taken by both
      have hlast : (d :: rest).getLast?.map (fun d => d.addr.toNat) = some d.addr.toNat := by
        rw [List.getLast?_cons] at hlocal ⊢
        exact hlocal
      have hone := eq_singleton_of_getLast? hsmart rfl hlast
      rw [hone] at hnetwork ⊢
      refine ⟨d, rfl, ?_⟩
      by_contra hseen
      rw [List.filter_cons_of_neg hseen] at hnetwork
      cases hnetwork
  · rintro (rfl | ⟨d, hfilter, hseen⟩)
    · exact ⟨rfl, rfl⟩
    · have hnil : ds ≠ [] := by
        rintro rfl
        cases hfilter
      constructor
      · rw [localChoice, if_neg hnil, firstSmart_eq, hfilter]
        rfl
      · rw [networkChoice, filter_isSmartSeen, firstSmart_eq, hfilter, List.filter_cons_of_pos hseen]
        rfl

/-- **The two drivers pick the same device, and the first one**, if and only if there is no
device at all, or one Smart device only, and the client recognises it by the part of its
name that comes through.  The network driver has polled only when its reply was there. -/
theorem picksFirst_iff {H : SmartHost S} {w : S} {dev : SmartDev} {G : SmartiHost T} {v : T}
    {schedule : List NetEvent} {junk : Text} {dev' : SmartiDev} {ds : List IrdaDevice}
    (hlocal : H.Finds w ds) (hnetwork : (G.irda.discover v).1 = some ds)
    (hdistinct : (ds.map IrdaDevice.addr).Nodup) (haddr : ∀ d ∈ ds, d.addr ≠ 0)
    (hnames : ∀ d ∈ ds, SendableName d.name)
    {devpath args : Text} {entries : Arglist} (hargs : arglistParse args = .ok entries)
    {host args' : Text} {entries' : Arglist} (hargs' : arglistParse args' = .ok entries')
    (hdial : G.dial host (argUint entries' "port".toList 6740 % 2 ^ 16) = none)
    {rc rc' : Int} {p : Desk (SmartProc S)} {q : Desk (SmartiProc T)}
    (hsmart : (smartDriverCreated H devpath args).run (Desk.start ⟨w, dev⟩) = .ok (rc, p))
    (hsmarti : (smartiDriverCreated G host args').run
      (Desk.start ⟨Link.dialed v schedule junk, none, dev'⟩) = .ok (rc', q))
    (hcalm : q.state.link.trouble = false) (hprompt : Prompt q.state.link.polls) :
    PicksFirst ds rc p.state rc' q.state ↔ OneSmart ds := by
  have hp := (smartDriverCreated_chosen hlocal devpath hargs).result hsmart
  have hq := (smartiDriverCreated_chooses hnetwork hnames haddr hargs' hdial).result hsmarti hcalm
    hprompt
  rw [← choices_first_iff hdistinct, ← hp, ← hq]
  exact ⟨fun h => ⟨h.smart, h.smarti⟩, fun h => ⟨h.1, h.2⟩⟩

/-! ### Runs on two lists -/

/-- A socket that finds the devices, but cannot connect to any. -/
def listHost (ds : List IrdaDevice) : SmartHost Unit where
  discover w := (some ds, w)
  connectLsap w _ _ := (.failed, w)
  write w _ := (.failed, w)
  read w _ := (.failed, w)
  time w := (0, w)
  junk _ _ := 0
  foreignFree := false
  socketOpen w := (true, w)
  setTimeout w _ := (true, w)
  errcode _ := 111

/-- The same devices behind a daemon. -/
def listDaemon (ds : List IrdaDevice) : SmartiHost Unit where
  irda := (listHost ds).toIrda
  fuel := 0
  dial _ _ := none
  clock := 0
  bsize := 0

/-- A local driver without a structure. -/
def localStart : Desk (SmartProc Unit) := Desk.start ⟨(), SmartDev.fresh⟩

/-- Behind the greeting everything arrives at once. -/
def networkStart : Desk (SmartiProc Unit) :=
  Desk.start ⟨Link.dialed () [] [], none, SmartiDev.fresh 0⟩

/-- The return values, the addresses, and what the network has been like. -/
structure PickRun where
  rc : Int
  epaddr : Nat
  rc' : Int
  epaddr' : Nat
  trouble : Bool
  polls : List (Nat × Nat)
  deriving DecidableEq

/-- Both opens over the same devices. -/
def pickRun (ds : List IrdaDevice) : Option PickRun :=
  match (smartDriverCreated (listHost ds) [] []).run localStart,
      (smartiDriverCreated (listDaemon ds) [] []).run networkStart with
  | .ok (rc, p), .ok (rc', q) => some ⟨rc, p.state.dev.epaddr, rc', q.state.dev.epaddr,
      q.state.link.trouble, q.state.link.polls⟩
  | _, _ => none

/-- The host finds the devices of the list. -/
theorem listHost_finds (ds : List IrdaDevice) : (listHost ds).Finds () ds :=
  ⟨rfl, fun _ => ⟨rfl, rfl⟩⟩

/-- What such a run consists of. -/
theorem exists_pickRun {ds : List IrdaDevice} {r : PickRun} (h : pickRun ds = some r) :
    ∃ p q, (smartDriverCreated (listHost ds) [] []).run localStart = .ok (r.rc, p) ∧
      (smartiDriverCreated (listDaemon ds) [] []).run networkStart = .ok (r.rc', q) ∧
      p.state.dev.epaddr = r.epaddr ∧ q.state.dev.epaddr = r.epaddr' ∧
      q.state.link.trouble = r.trouble ∧ q.state.link.polls = r.polls := by
  rw [pickRun] at h
  split at h
  next rc₁ p rc₂ q hp hq =>
    cases h
    exact ⟨p, q, hp, hq, rfl, rfl, rfl, rfl⟩
  next => cases h

/-- A printer and a Smart device. -/
def onePick : List IrdaDevice := [⟨7, "Printer".toList⟩, ⟨1, "Uwatec Smart Z".toList⟩]

/-- With one device, both drivers open it. -/
theorem picksFirst_iff_onePick : ∃ p q,
    (smartDriverCreated (listHost onePick) [] []).run localStart = .ok (driverErrInternal, p) ∧
      (smartiDriverCreated (listDaemon onePick) [] []).run networkStart =
        .ok (driverErrHandshake, q) ∧
      (PicksFirst onePick driverErrInternal p.state driverErrHandshake q.state ↔
        OneSmart onePick) := by
  have hrun : pickRun onePick =
      some ⟨driverErrInternal, 1, driverErrHandshake, 1, false, [(22, 0), (0, 0)]⟩ := by
    decide +kernel
  obtain ⟨p, q, hp, hq, -, -, hcalm, hpolls⟩ := exists_pickRun hrun
  have hprompt : Prompt q.state.link.polls := by
    rw [hpolls]
    unfold Prompt
    decide
  have hnames : ∀ d ∈ onePick, SendableName d.name := by
    unfold SendableName
    decide
  have hargs : arglistParse [] = .ok [([], [])] := rfl
  refine ⟨p, q, hp, hq, ?_⟩
  exact picksFirst_iff (listHost_finds onePick) rfl (by decide) (by decide) hnames hargs hargs rfl hp
    hq hcalm hprompt

/-- Two Smart devices. -/
def twoPicks : List IrdaDevice := [⟨1, "UWATEC Galileo Sol".toList⟩, ⟨2, "Uwatec Smart".toList⟩]

/-- Of two Smart devices the local driver opens the second one. -/
theorem not_picksFirst_twoPicks : (twoPicks.map IrdaDevice.addr).Nodup ∧
    (∀ d ∈ twoPicks, d.addr ≠ 0) ∧ (∀ d ∈ twoPicks, SendableName d.name) ∧
    (listHost twoPicks).Finds () twoPicks ∧
    ∃ p q, (smartDriverCreated (listHost twoPicks) [] []).run localStart =
        .ok (driverErrInternal, p) ∧
      (smartiDriverCreated (listDaemon twoPicks) [] []).run networkStart =
        .ok (driverErrHandshake, q) ∧
      q.state.link.trouble = false ∧ Prompt q.state.link.polls ∧
      ¬PicksFirst twoPicks driverErrInternal p.state driverErrHandshake q.state := by
  have hrun : pickRun twoPicks =
      some ⟨driverErrInternal, 2, driverErrHandshake, 1, false, [(33, 0), (0, 0)]⟩ := by
    decide +kernel
  obtain ⟨p, q, hp, hq, haddr, -, hcalm, hpolls⟩ := exists_pickRun hrun
  have hprompt : Prompt q.state.link.polls := by
    rw [hpolls]
    unfold Prompt
    decide
  have hnames : ∀ d ∈ twoPicks, SendableName d.name := by
    unfold SendableName
    decide
  refine ⟨by decide, by decide, hnames, listHost_finds twoPicks, p, q, hp, hq, hcalm, hprompt, ?_⟩
  intro h
  have hsmart := h.smart
  rw [haddr] at hsmart
  exact absurd hsmart (by decide)

end BenthosDc

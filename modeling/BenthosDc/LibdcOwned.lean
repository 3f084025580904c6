/-
BenthosDc/LibdcOwned.lean

The handles of the libdc driver.

The driver owns its structure, a context and a device.  The elements of the list of dives
are its own during a transfer only: afterwards they are freed, with the pointer to them
still in the structure.  Closing the device frees the structure, so that nothing can be
done with the device afterwards (`libdcDriverClose_shutdown`).

An invariant of the handles is stable if it survives what does not touch them (`LibdcStable`),
and most of the driver does not.  So each function is proved once for all stable invariants,
and only what allocates or releases is looked at for each of them.
-/
import BenthosDc.LibdcDriver
import BenthosDc.Ownership

namespace BenthosDc

open CString Hoare Lifetime Loop

variable {S α β : Type} {D : Libdivecomputer S} {dev p : Nat} {d : Desk (LibdcProc S)}
  {E : Halt → Prop}

/-- What the driver owns: the structure, and what it points to. -/
def libdcHandles (dev : Nat) (s : LibdcProc S) : Set Nat :=
  {h | h = dev ∨ s.dev.context = some h ∨ s.dev.device = some h}

/-- All of it is live. -/
def LibdcOwns (dev : Nat) (d : Desk (LibdcProc S)) : Prop :=
  libdcHandles dev d.state ⊆ d.ledger.live

/-- During a transfer the elements of the list are live, and different from each other and
from all other handles. -/
structure LibdcBusy (dev : Nat) (d : Desk (LibdcProc S)) : Prop where
  owns : LibdcOwns dev d
  nodup : (d.state.dev.dives.map (·.1)).Nodup
  live : ∀ n ∈ d.state.dev.dives, n.1 ∈ d.ledger.live ∧ n.1 ∉ libdcHandles dev d.state

/-- The parser `p` of the device is live, with a parser of the library. -/
structure LibdcParses (dev p : Nat) (d : Desk (LibdcProc S)) : Prop where
  owns : LibdcOwns dev d
  live : p ∈ d.ledger.live
  ne : p ∉ libdcHandles dev d.state
  parserDev : d.state.parser.dev = dev
  parser : ∀ q, d.state.parser.parser = some q →
    q ∈ d.ledger.live ∧ q ≠ p ∧ q ∉ libdcHandles dev d.state

/-- An invariant that depends on the handles alone. -/
structure LibdcStable (dev : Nat) (I : Desk (LibdcProc S) → Prop) : Prop where
  owns : ∀ d, I d → LibdcOwns dev d
  of_live : ∀ (d : Desk (LibdcProc S)) (l : Ledger), l.live = d.ledger.live → I d → I ⟨d.state, l⟩
  of_state : ∀ (d : Desk (LibdcProc S)) (s : LibdcProc S), s.dev.context = d.state.dev.context →
    s.dev.device = d.state.dev.device → s.dev.dives = d.state.dev.dives →
    s.parser = d.state.parser → I d → I ⟨s, d.ledger⟩

/-- They are told from two fields. -/
theorem libdcHandles_congr {s s' : LibdcProc S} (hcontext : s'.dev.context = s.dev.context)
    (hdevice : s'.dev.device = s.dev.device) : libdcHandles dev s' = libdcHandles dev s := by
  ext h
  rw [libdcHandles, libdcHandles, hcontext, hdevice]

/-- The three invariants are stable. -/
theorem libdcOwns_stable : LibdcStable (S := S) dev (LibdcOwns dev) where
  owns _ hd := hd
  of_live d l hl hd := by
    show libdcHandles dev d.state ⊆ l.live
    rw [hl]
    exact hd
  of_state d s hcontext hdevice _ _ hd := by
    show libdcHandles dev s ⊆ d.ledger.live
    rw [libdcHandles_congr hcontext hdevice]
    exact hd

theorem libdcBusy_stable : LibdcStable (S := S) dev (LibdcBusy dev) where
  owns _ hd := hd.owns
  of_live d l hl hd := by
    refine ⟨libdcOwns_stable.of_live d l hl hd.owns, hd.nodup, ?_⟩
    show ∀ n ∈ d.state.dev.dives, n.1 ∈ l.live ∧ n.1 ∉ libdcHandles dev d.state
    rw [hl]
    exact hd.live
  of_state d s hcontext hdevice hdives hparser hd := by
    refine ⟨libdcOwns_stable.of_state d s hcontext hdevice hdives hparser hd.owns, ?_, ?_⟩
    · show (s.dev.dives.map (·.1)).Nodup
      rw [hdives]
      exact hd.nodup
    · show ∀ n ∈ s.dev.dives, n.1 ∈ d.ledger.live ∧ n.1 ∉ libdcHandles dev s
      rw [hdives, libdcHandles_congr hcontext hdevice]
      exact hd.live

theorem libdcParses_stable : LibdcStable (S := S) dev (LibdcParses dev p) where
  owns _ hd := hd.owns
  of_live d l hl hd := by
    refine ⟨libdcOwns_stable.of_live d l hl hd.owns, hl ▸ hd.live, hd.ne, hd.parserDev, ?_⟩
    intro q hq
    obtain ⟨hlive, hne⟩ := hd.parser q hq
    exact ⟨hl ▸ hlive, hne⟩
  -- the invariant reads these four fields only
  of_state d s hcontext hdevice hdives hparser hd := by
    refine ⟨libdcOwns_stable.of_state d s hcontext hdevice hdives hparser hd.owns, hd.live, ?_,
      ?_, ?_⟩
    · show p ∉ libdcHandles dev s
      rw [libdcHandles_congr hcontext hdevice]
      exact hd.ne
    · show s.parser.dev = dev
      rw [hparser]
      exact hd.parserDev
    · intro q hq
      obtain ⟨hlive, hne, hnot⟩ := hd.parser q (hparser ▸ hq)
      refine ⟨hlive, hne, ?_⟩
      show q ∉ libdcHandles dev s
      rw [libdcHandles_congr hcontext hdevice]
      exact hnot

/-- Looking at the structure changes nothing. -/
theorem libdcGetDev_spec : Triple Libdc.getDev d (fun s d' => s = d.state.dev ∧ d' = d) E :=
  Triple.of_run rfl ⟨rfl, rfl⟩

/-- Nor does looking at the parser. -/
theorem libdcGetParser_spec :
    Triple Libdc.getParser d (fun p d' => p = d.state.parser ∧ d' = d) E :=
  Triple.of_run rfl ⟨rfl, rfl⟩

/-! ### What keeps every stable invariant -/

section Stable

variable {I : Desk (LibdcProc S) → Prop} (hI : LibdcStable dev I)

include hI

/-- The structure may be used. -/
theorem LibdcStable.use : Maintains I (fun _ => True) E (useHandle dev) := fun d hd =>
  useHandle_spec (hI.owns d hd (.inl rfl)) fun l hl => ⟨trivial, hI.of_live d l hl hd⟩

omit hI in
/-- The structure is looked at. -/
theorem LibdcStable.get : Maintains I (fun _ => True) E Libdc.getDev := fun _ hd =>
  Triple.of_run rfl ⟨trivial, hd⟩

/-- The library is called. -/
theorem LibdcStable.call (f : S → α × S) : Maintains I (fun _ => True) E (Libdc.call f) :=
  fun d hd => Triple.of_run rfl ⟨trivial, hI.of_state d _ rfl rfl rfl rfl hd⟩

/-- The application is told something. -/
theorem LibdcStable.note (n : LibdcNote) : Maintains I (fun _ => True) E (Libdc.note n) :=
  fun d hd => Triple.of_run rfl ⟨trivial, hI.of_state d _ rfl rfl rfl rfl hd⟩

/-- Fields that hold no handle are set. -/
theorem LibdcStable.setDev {f : LibdcDev → LibdcDev} (hf : ∀ dev, (f dev).context = dev.context ∧
    (f dev).device = dev.device ∧ (f dev).dives = dev.dives) :
    Maintains I (fun _ => True) E (Libdc.setDev f) := by
  intro d hd
  obtain ⟨hcontext, hdevice, hdives⟩ := hf d.state.dev
  exact Triple.of_run rfl ⟨trivial, hI.of_state d _ hcontext hdevice hdives rfl hd⟩

/-- So is the error. -/
theorem LibdcStable.setDevError (code : Int) (msg : String) :
    Maintains I (fun _ => True) E (Libdc.setDevError code msg) :=
  hI.setDev fun _ => ⟨rfl, rfl, rfl⟩

/-- An error, and a result behind it. -/
theorem LibdcStable.failWith (code : Int) (msg : String) (a : α) :
    Maintains I (fun _ => True) E (do Libdc.setDevError code msg; return a) :=
  (hI.setDevError code msg).bind fun _ _ => Maintains.pure trivial

/-- The device is used, if there is one. -/
theorem LibdcStable.useDevice :
    Maintains I (fun _ => True) E (do Libdc.useOpt (← Libdc.getDev).device) := by
  intro d hd
  apply libdcGetDev_spec.bind
  intro a d' ⟨ha, hd'⟩
  subst ha hd'
  cases hdevice : d'.state.dev.device with
  | none => exact Triple.pure ⟨trivial, hd⟩
  | some h =>
    exact useHandle_spec (hI.owns d' hd (.inr (.inr hdevice))) fun l hl =>
      ⟨trivial, hI.of_live d' l hl hd⟩

/-- A program behind a use of the device. -/
theorem LibdcStable.useDevice_then {m : Libdc S α} (hm : Maintains I (fun _ => True) E m) :
    Maintains I (fun _ => True) E (do Libdc.useOpt (← Libdc.getDev).device; m) := by
  intro d hd
  show Triple ((do Libdc.useOpt (← Libdc.getDev).device) >>= fun _ => m) d _ _
  exact hI.useDevice.then hd fun _ d' _ hd' => hm d' hd'

/-- Asking for the message. -/
theorem libdcDriverErrmsg_keeping : Keeping I (fun _ => True) (libdcDriverErrmsg dev) := by
  refine hI.use.bind fun _ _ => ?_
  refine LibdcStable.get.bind fun _ _ => ?_
  exact Maintains.pure trivial

theorem libdcExtracted_keeping (r : LibdcResult) :
    Keeping I (fun _ => True) (libdcExtracted (S := S) r) := by
  rw [libdcExtracted]
  rcases r.error with _ | ⟨code, msg⟩
  · exact Maintains.pure trivial
  · exact hI.failWith _ _ _

/-- Extracting touches no handle. -/
theorem libdcDriverExtract_keeping (fuel : Nat) (buffer : Option Memory) (size : Nat) :
    Keeping I (fun _ => True) (libdcDriverExtract (S := S) fuel dev buffer size) := by
  refine hI.use.bind fun _ _ => ?_
  refine Maintains.ite (fun _ => libdcExtracted_keeping hI _) fun _ => ?_
  cases buffer with
  | none => exact Maintains.throw fun h => nomatch h
  | some mem =>
    dsimp only
    cases iterate (libdcExtractStep mem size) fuel ⟨0, []⟩ with
    | next s => exact Maintains.throw fun h => nomatch h
    | stop r => exact libdcExtracted_keeping hI r

/-- Nor does setting the fingerprint. -/
theorem libdcFingerprint_keeping (token : Option Text) :
    Maintains I (fun _ => True) E (libdcFingerprint D token) := by
  rw [libdcFingerprint]
  cases tokenData token with
  | none => exact Maintains.pure trivial
  | some bytes =>
    apply hI.useDevice_then
    exact (hI.call _).bind fun _ _ => hI.note _

end Stable

/-! ### Transfers -/

/-- A new element is none of the handles that are live. -/
theorem libdcDiveCb_busy (n : DiveList) :
    Maintains (LibdcBusy (S := S) dev) (fun _ => True) E (libdcDiveCb dev n) := by
  refine libdcBusy_stable.use.bind fun _ _ => ?_
  intro d hd
  have halloc : Triple allocHandle d (fun le d' => d'.state = d.state ∧ le ∉ d.ledger.live ∧
      d'.ledger.live = insert le d.ledger.live) E :=
    allocHandle_spec fun le l hle hl => ⟨rfl, hle, hl⟩
  apply halloc.bind
  intro le d₁ ⟨hstate, hle, hlive⟩
  have hsub : d.ledger.live ⊆ d₁.ledger.live := by
    rw [hlive]
    exact Set.subset_insert le _
  refine Triple.of_run rfl ⟨trivial, ?_, ?_, ?_⟩
  · show libdcHandles dev d₁.state ⊆ d₁.ledger.live
    rw [hstate]
    exact hd.owns.trans hsub
  · show (le :: d₁.state.dev.dives.map (·.1)).Nodup
    rw [hstate, List.nodup_cons]
    refine ⟨fun h => ?_, hd.nodup⟩
    obtain ⟨n', hn', hfst⟩ := List.mem_map.mp h
    exact hle (hfst ▸ (hd.live n' hn').1)
  · intro n' hn'
    show n'.1 ∈ d₁.ledger.live ∧ n'.1 ∉ libdcHandles dev d₁.state
    rw [hstate, hlive]
    -- the new element, or one of the list before
    rcases List.mem_cons.mp hn' with rfl | hn'
    · exact ⟨Set.mem_insert le _, fun h => hle (hd.owns h)⟩
    · rw [hstate] at hn'
      exact ⟨Set.mem_insert_of_mem le (hd.live n' hn').1, (hd.live n' hn').2⟩

/-- A dive is allocated, and what is owned stays live. -/
theorem libdcDiveCb_owns (n : DiveList) :
    Maintains (LibdcOwns (S := S) dev) (fun _ => True) E (libdcDiveCb dev n) := by
  refine libdcOwns_stable.use.bind fun _ _ => ?_
  intro d hd
  have halloc : Triple allocHandle d (fun _ d' => LibdcOwns dev d') E :=
    allocHandle_spec fun le l _ hl => hd.trans (hl ▸ Set.subset_insert le _)
  exact halloc.bind fun le d₁ hd₁ => Triple.of_run rfl ⟨trivial, hd₁⟩

/-- An event keeps every stable invariant that a dive keeps. -/
theorem libdcEventCb_stable {I : Desk (LibdcProc S) → Prop} (hI : LibdcStable dev I)
    (hdive : ∀ n, Maintains I (fun _ => True) E (libdcDiveCb dev n)) (event : DcEvent) :
    Maintains I (fun _ => True) E (libdcEventCb D dev event) := by
  refine hI.use.bind fun _ _ => ?_
  -- only a dive makes a new element
  cases event with
  | progress current maximum =>
    refine LibdcStable.get.bind fun s _ => ?_
    cases s.pcb with
    | none => exact Maintains.pure trivial
    | some pcb =>
      refine (hI.note _).bind fun _ _ => ?_
      exact hI.setDev fun _ => ⟨rfl, rfl, rfl⟩
  | devinfo model serial =>
    refine LibdcStable.get.bind fun s _ => ?_
    cases s.dcb with
    | none => exact Maintains.pure trivial
    | some dcb =>
      refine LibdcStable.get.bind fun s _ => ?_
      refine (hI.note _).bind fun _ _ => ?_
      exact libdcFingerprint_keeping hI _
  | clock devtime systime => exact hI.setDev fun _ => ⟨rfl, rfl, rfl⟩
  | dive n => exact hdive n

/-- An event may come during a transfer. -/
theorem libdcEventCb_busy (event : DcEvent) :
    Maintains (LibdcBusy dev) (fun _ => True) E (libdcEventCb D dev event) :=
  libdcEventCb_stable libdcBusy_stable libdcDiveCb_busy event

/-- It leaves the driver what it owns. -/
theorem libdcEventCb_owns (event : DcEvent) :
    Maintains (LibdcOwns dev) (fun _ => True) E (libdcEventCb D dev event) :=
  libdcEventCb_stable libdcOwns_stable libdcDiveCb_owns event

/-- Every element of a list is freed, and nothing else. -/
theorem libdcFreeDives_frees (ns : List (Nat × DiveList)) (hnodup : (ns.map (·.1)).Nodup)
    (hlive : ∀ n ∈ ns, n.1 ∈ d.ledger.live) :
    Triple (libdcFreeDives ns) d (fun _ d' => d'.state = d.state ∧
      d'.ledger.live = d.ledger.live \ {h | h ∈ ns.map (·.1)}) E := by
  induction ns generalizing d with
  | nil =>
    refine Triple.pure ⟨rfl, ?_⟩
    simp
  | cons n ns ih =>
    rw [List.map_cons, List.nodup_cons] at hnodup
    have hdispose : Triple (disposeHandle n.1) d (fun _ d' => d'.state = d.state ∧
        d'.ledger.live = d.ledger.live \ {n.1}) E :=
      disposeHandle_spec (hlive n List.mem_cons_self) fun _ hl => ⟨rfl, hl⟩
    apply hdispose.bind
    intro _ d₁ ⟨hstate, hl⟩
    -- the rest of the list does not hold the element that has just been freed
    have hrest : ∀ m ∈ ns, m.1 ∈ d₁.ledger.live := by
      intro m hm
      rw [hl]
      refine ⟨hlive m (List.mem_cons_of_mem _ hm), fun heq => hnodup.1 ?_⟩
      rw [← Set.mem_singleton_iff.mp heq]
      exact List.mem_map_of_mem hm
    apply (ih hnodup.2 hrest).imp
    intro _ d₂ ⟨hstate₂, hl₂⟩
    refine ⟨hstate₂.trans hstate, ?_⟩
    rw [hl₂, hl]
    ext h
    simp only [Set.mem_sdiff, Set.mem_singleton_iff, Set.mem_ofPred_eq, List.map_cons,
      List.mem_cons]
    tauto

/-- The handles of the driver are none of the elements. -/
theorem libdcFreeDives_spec (ns : List (Nat × DiveList)) (hd : LibdcOwns dev d)
    (hnodup : (ns.map (·.1)).Nodup)
    (hlive : ∀ n ∈ ns, n.1 ∈ d.ledger.live ∧ n.1 ∉ libdcHandles dev d.state) :
    Triple (libdcFreeDives ns) d (fun _ d' => d'.state = d.state ∧ LibdcOwns dev d' ∧
      d'.ledger.live = d.ledger.live \ {h | h ∈ ns.map (·.1)}) E := by
  apply (libdcFreeDives_frees ns hnodup fun n hn => (hlive n hn).1).imp
  intro _ d₁ ⟨hstate, hl⟩
  refine ⟨hstate, ?_, hl⟩
  show libdcHandles dev d₁.state ⊆ d₁.ledger.live
  rw [hstate, hl]
  intro h hh
  refine ⟨hd hh, fun hmem => ?_⟩
  obtain ⟨n, hn, rfl⟩ := List.mem_map.mp hmem
  exact (hlive n hn).2 hh

/-- The elements are followed one after the other, and all stay live. -/
theorem libdcUseDives_spec (ns : List (Nat × DiveList)) (hlive : ∀ n ∈ ns, n.1 ∈ d.ledger.live) :
    Triple (ns.forM fun n => useHandle n.1) d
      (fun _ d' => d'.state = d.state ∧ d'.ledger.live = d.ledger.live) E := by
  induction ns generalizing d with
  | nil => exact Triple.pure ⟨rfl, rfl⟩
  | cons n ns ih =>
    have huse : Triple (useHandle n.1) d (fun _ d' => d'.state = d.state ∧
        d'.ledger.live = d.ledger.live) E :=
      useHandle_spec (hlive n List.mem_cons_self) fun _ hl => ⟨rfl, hl⟩
    apply huse.bind
    intro _ d₁ ⟨hstate, hl⟩
    refine (ih ?_).imp ?_
    · rw [hl]
      exact fun n' hn' => hlive n' (List.mem_cons_of_mem _ hn')
    · intro _ d₂ ⟨hstate₂, hl₂⟩
      exact ⟨hstate₂.trans hstate, hl₂.trans hl⟩

/-- **A transfer follows the elements of the list while they are live**, and frees each of
them once. -/
theorem libdcDriverTransfer_spec (hd : LibdcOwns dev d) (hdives : d.state.dev.dives = []) :
    Triple (libdcDriverTransfer D dev) d (fun _ d' => LibdcOwns dev d') NotDangling := by
  -- the list is empty at the start, and holds live elements only from then on
  have hbusy : LibdcBusy dev d := by
    refine ⟨hd, ?_, ?_⟩
    · rw [hdives]
      exact List.nodup_nil
    · rw [hdives]
      exact fun n hn => nomatch hn
  refine libdcBusy_stable.use.then hbusy fun _ d₁ _ hd₁ => ?_
  show Triple ((do Libdc.useOpt (← Libdc.getDev).device) >>= fun _ => _) d₁ _ _
  refine libdcBusy_stable.useDevice.then hd₁ fun _ d₂ _ hd₂ => ?_
  refine (libdcBusy_stable.call _).then hd₂ fun r d₃ _ hd₃ => ?_
  obtain ⟨done, events⟩ := r
  refine (Maintains.forM libdcEventCb_busy trivial events).then hd₃ fun _ d₄ _ hd₄ => ?_
  apply libdcGetDev_spec.bind
  intro s d₅ ⟨hs, hd₅⟩
  subst hs hd₅
  cases done with
  | false =>
    have herror : Triple (Libdc.setDevError driverErrRead "Failed to read dive data from device")
        d₅ (fun _ d' => d'.state.dev.dives = d₅.state.dev.dives ∧ LibdcBusy dev d')
        NotDangling :=
      Triple.of_run rfl ⟨rfl, libdcBusy_stable.of_state d₅ _ rfl rfl rfl rfl hd₄⟩
    apply herror.bind
    intro _ d₆ ⟨hsame, hd₆⟩
    have hlive : ∀ n ∈ d₅.state.dev.dives,
        n.1 ∈ d₆.ledger.live ∧ n.1 ∉ libdcHandles dev d₆.state := by
      rw [← hsame]
      exact hd₆.live
    exact (libdcFreeDives_spec _ hd₆.owns hd₄.nodup hlive).bind fun _ d₇ hd₇ =>
      Triple.pure hd₇.2.1
  | true =>
    have hjoined : Triple (libdcJoinDives d₅.state.dev.dives) d₅
        (fun _ d' => d'.state = d₅.state ∧ d'.ledger.live = d₅.ledger.live) NotDangling :=
      (libdcUseDives_spec _ fun n hn => (hd₄.live n hn).1).bind fun _ d' h => Triple.pure h
    apply hjoined.bind
    intro joined d₆ ⟨hstate, hl⟩
    have howns : LibdcOwns dev d₆ := by
      show libdcHandles dev d₆.state ⊆ d₆.ledger.live
      rw [hstate, hl]
      exact hd₄.owns
    have hlive : ∀ n ∈ d₅.state.dev.dives,
        n.1 ∈ d₆.ledger.live ∧ n.1 ∉ libdcHandles dev d₆.state := by
      rw [hstate, hl]
      exact hd₄.live
    exact (libdcFreeDives_spec _ howns hd₄.nodup hlive).bind fun _ d₇ hd₇ =>
      Triple.pure hd₇.2.1

/-! ### Creating and opening -/

/-- A structure with an empty list. -/
def LibdcReady (dev : Nat) (d : Desk (LibdcProc S)) : Prop :=
  LibdcOwns dev d ∧ d.state.dev.dives = []

/-- A device that is ready stays so. -/
theorem libdcReady_stable : LibdcStable (S := S) dev (LibdcReady dev) where
  owns _ hd := hd.1
  of_live d l hl hd := ⟨libdcOwns_stable.of_live d l hl hd.1, hd.2⟩
  of_state d s hcontext hdevice hdives hparser hd :=
    ⟨libdcOwns_stable.of_state d s hcontext hdevice hdives hparser hd.1, hdives.trans hd.2⟩

/-- **A device is ready when it has been created.** -/
theorem libdcDriverCreate_spec (d : Desk (LibdcProc S)) :
    Triple (libdcDriverCreate D) d (fun r d' => ∀ dev, r = .ok dev → LibdcReady dev d')
      NotDangling := by
  have hcall : Triple (Libdc.call D.contextNew) d (fun _ _ => True) NotDangling :=
    Triple.of_run rfl trivial
  refine hcall.bind fun made d₁ _ => ?_
  cases made with
  | false => exact Triple.pure fun dev h => nomatch h
  | true =>
    have hfirst : Triple allocHandle d₁ (fun context d' => context ∈ d'.ledger.live)
        NotDangling := allocHandle_spec fun context l _ hl => hl ▸ Set.mem_insert context _
    refine hfirst.bind fun context d₂ hcontext => ?_
    have hsecond : Triple allocHandle d₂ (fun dev d' => dev ∈ d'.ledger.live ∧
        context ∈ d'.ledger.live) NotDangling :=
      allocHandle_spec fun dev l _ hl =>
        ⟨hl ▸ Set.mem_insert dev _, hl ▸ Set.mem_insert_of_mem dev hcontext⟩
    apply hsecond.bind
    intro dev d₃ ⟨hdev, hcontext₃⟩
    refine Triple.of_run rfl fun dev' h => ?_
    cases h
    refine ⟨?_, rfl⟩
    -- the handles of the new structure: itself and its context, and no device yet
    rintro h (rfl | hh | hh)
    · exact hdev
    · cases Option.some.inj hh
      exact hcontext₃
    · cases hh

/-- The device of the library is one more handle. -/
theorem libdcDeviceOpen_ready (devpath : Text) (descriptor : Nat × Nat) :
    Keeping (LibdcReady dev) (fun _ => True) (libdcDeviceOpen D devpath descriptor) := by
  intro d hd
  have hcontext : Triple (do Libdc.useOpt (← Libdc.getDev).context) d
      (fun _ d' => LibdcReady dev d') NotDangling := by
    apply libdcGetDev_spec.bind
    intro a d' ⟨ha, hd'⟩
    subst ha hd'
    cases hcontext : d'.state.dev.context with
    | none => exact Triple.pure hd
    | some h =>
      exact useHandle_spec (hd.1 (.inr (.inl hcontext))) fun l hl =>
        libdcReady_stable.of_live d' l hl hd
  show Triple ((do Libdc.useOpt (← Libdc.getDev).context) >>= fun _ => _) d _ _
  refine hcontext.bind fun _ d₁ hd₁ => ?_
  refine (libdcReady_stable.call _).then hd₁ fun opened d₂ _ hd₂ => ?_
  cases opened with
  | false => exact libdcReady_stable.failWith _ _ _ d₂ hd₂
  | true =>
    have halloc : Triple allocHandle d₂ (fun device d' => d'.state = d₂.state ∧
        d'.ledger.live = insert device d₂.ledger.live) NotDangling :=
      allocHandle_spec fun _ _ _ hl => ⟨rfl, hl⟩
    apply halloc.bind
    intro device d₃ ⟨hstate, hl⟩
    -- the device that has been opened becomes a handle of the structure
    have hset : Triple (Libdc.setDev fun dev => { dev with device := some device }) d₃
        (fun _ d' => LibdcReady dev d' ∧ device ∈ d'.ledger.live) NotDangling := by
      refine Triple.of_run rfl ⟨⟨?_, ?_⟩, ?_⟩
      · rintro h (rfl | hh | hh)
        · show h ∈ d₃.ledger.live
          rw [hl]
          exact Set.mem_insert_of_mem device (hd₂.1 (.inl rfl))
        · show h ∈ d₃.ledger.live
          rw [hl]
          refine Set.mem_insert_of_mem device (hd₂.1 (.inr (.inl ?_)))
          rw [← hstate]
          exact hh
        · cases Option.some.inj hh
          show device ∈ d₃.ledger.live
          rw [hl]
          exact Set.mem_insert device _
      · show d₃.state.dev.dives = []
        rw [hstate]
        exact hd₂.2
      · show device ∈ d₃.ledger.live
        rw [hl]
        exact Set.mem_insert device _
    apply hset.bind
    intro _ d₄ ⟨hd₄, hdevice⟩
    have huse : Triple (useHandle device) d₄ (fun _ d' => LibdcReady dev d') NotDangling :=
      useHandle_spec hdevice fun l hl => libdcReady_stable.of_live d₄ l hl hd₄
    exact huse.bind fun _ d₅ hd₅ => Triple.pure ⟨trivial, hd₅⟩

/-- What does not look at the descriptor is the same behind the loop over them. -/
theorem describe_congr {γ : Type} (f : LibdcDev → γ)
    (hf : ∀ dev descriptor, f { dev with descriptor := descriptor } = f dev)
    (descriptors : List (Nat × Nat)) (dev : LibdcDev) : f (dev.describe descriptors) = f dev := by
  rw [LibdcDev.describe]
  induction descriptors generalizing dev with
  | nil => rfl
  | cons d ds ih =>
    rw [List.foldl_cons, ih]
    split
    · exact hf dev _
    · rfl

/-- What does not look at the family and the model is the same behind the loop over the
table. -/
theorem lookup_congr {γ : Type} (f : LibdcDev → γ)
    (hf : ∀ dev family model, f { dev with family := family, model := model } = f dev)
    (dev : LibdcDev) : f dev.lookup.1 = f dev := by
  unfold LibdcDev.lookup
  apply List.foldlRecOn (motive := fun r : LibdcDev × Bool => f r.1 = f dev) _ _ rfl
  intro r hr e _
  dsimp only
  split
  · exact (hf r.1 _ _).trans hr
  · exact hr

/-- The descriptor is no handle. -/
theorem describe_frame (descriptors : List (Nat × Nat)) (dev : LibdcDev) :
    (dev.describe descriptors).context = dev.context ∧
      (dev.describe descriptors).device = dev.device ∧
      (dev.describe descriptors).dives = dev.dives :=
  ⟨describe_congr LibdcDev.context (fun _ _ => rfl) descriptors dev,
    describe_congr LibdcDev.device (fun _ _ => rfl) descriptors dev,
    describe_congr LibdcDev.dives (fun _ _ => rfl) descriptors dev⟩

/-- Nor is the entry of the table. -/
theorem lookup_frame (dev : LibdcDev) :
    dev.lookup.1.context = dev.context ∧ dev.lookup.1.device = dev.device ∧
      dev.lookup.1.dives = dev.dives :=
  ⟨lookup_congr LibdcDev.context (fun _ _ _ => rfl) dev,
    lookup_congr LibdcDev.device (fun _ _ _ => rfl) dev,
    lookup_congr LibdcDev.dives (fun _ _ _ => rfl) dev⟩

/-- Opening by the path. -/
theorem libdcDescriptor_ready (devpath : Text) :
    Keeping (LibdcReady dev) (fun _ => True) (libdcDescriptor D devpath) := by
  intro d hd
  -- the iterator is live from here to its release
  have halloc : Triple allocHandle d (fun it d' => LibdcReady dev d' ∧ it ∈ d'.ledger.live ∧
      it ∉ libdcHandles dev d'.state) NotDangling := by
    refine allocHandle_spec fun it l hit hl => ⟨⟨?_, hd.2⟩, ?_, fun h => hit (hd.1 h)⟩
    · show libdcHandles dev d.state ⊆ l.live
      rw [hl]
      exact hd.1.trans (Set.subset_insert it _)
    · exact hl ▸ Set.mem_insert it _
  apply halloc.bind
  intro it d₁ ⟨hd₁, hit₁, hnot₁⟩
  have huse : Triple (useHandle it) d₁ (fun _ d' => d'.state = d₁.state ∧
      d'.ledger.live = d₁.ledger.live) NotDangling := useHandle_spec hit₁ fun _ hl => ⟨rfl, hl⟩
  apply huse.bind
  intro _ d₂ ⟨hstate, hl⟩
  obtain ⟨hcontext, hdevice, hdives⟩ := describe_frame D.descriptors d₂.state.dev
  have hset : Triple (Libdc.setDev fun dev => dev.describe D.descriptors) d₂
      (fun _ d' => LibdcReady dev d' ∧ it ∈ d'.ledger.live ∧ it ∉ libdcHandles dev d'.state)
      NotDangling := by
    have hsame : libdcHandles dev { d₂.state with
        dev := d₂.state.dev.describe D.descriptors } = libdcHandles dev d₁.state := by
      rw [libdcHandles_congr hcontext hdevice, hstate]
    refine Triple.of_run rfl ⟨⟨?_, ?_⟩, ?_, ?_⟩
    · show libdcHandles dev { d₂.state with
        dev := d₂.state.dev.describe D.descriptors } ⊆ d₂.ledger.live
      rw [hsame, hl]
      exact hd₁.1
    · show (d₂.state.dev.describe D.descriptors).dives = []
      rw [hdives, hstate]
      exact hd₁.2
    · exact hl ▸ hit₁
    · show it ∉ libdcHandles dev { d₂.state with
        dev := d₂.state.dev.describe D.descriptors }
      rw [hsame]
      exact hnot₁
  apply hset.bind
  intro _ d₃ ⟨hd₃, hit₃, hnot₃⟩
  have hdispose : Triple (disposeHandle it) d₃ (fun _ d' => LibdcReady dev d') NotDangling := by
    refine disposeHandle_spec hit₃ fun l hl => ⟨?_, hd₃.2⟩
    show libdcHandles dev d₃.state ⊆ l.live
    rw [hl]
    exact fun h hh => ⟨hd₃.1 hh, fun heq => hnot₃ (heq ▸ hh)⟩
  refine hdispose.bind fun _ d₄ hd₄ => ?_
  refine LibdcStable.get.then hd₄ fun s d₅ _ hd₅ => ?_
  cases s.descriptor with
  | none => exact libdcReady_stable.failWith _ _ _ d₅ hd₅
  | some descriptor => exact libdcDeviceOpen_ready devpath descriptor d₅ hd₅

/-- Opening by the number of a model. -/
theorem libdcModel_ready (devpath : Text) (modelid : Nat) :
    Keeping (LibdcReady dev) (fun _ => True) (libdcModel D devpath modelid) := by
  refine (libdcReady_stable.setDev fun _ => by exact ⟨rfl, rfl, rfl⟩).bind fun _ _ => ?_
  intro d hd
  apply libdcGetDev_spec.bind
  intro a d' ⟨ha, hd'⟩
  subst ha hd'
  dsimp only
  have hframe := lookup_frame d'.state.dev
  generalize d'.state.dev.lookup = r at hframe ⊢
  obtain ⟨hcontext, hdevice, hdives⟩ := hframe
  have hset : Triple (Libdc.setDev fun _ => r.1) d' (fun _ d'' => LibdcReady dev d'')
      NotDangling :=
    Triple.of_run rfl (libdcReady_stable.of_state d' _ hcontext hdevice hdives rfl hd)
  refine hset.bind fun _ d₁ hd₁ => ?_
  cases r.2 with
  | true => exact libdcDescriptor_ready devpath d₁ hd₁
  | false => exact libdcReady_stable.failWith _ _ _ d₁ hd₁

/-- **Opening leaves the device ready**, also where it fails. -/
theorem libdcDriverOpen_ready (devpath args : Text) :
    Keeping (LibdcReady dev) (fun _ => True) (libdcDriverOpen D dev devpath args) := by
  refine libdcReady_stable.use.bind fun _ _ => ?_
  cases arglistParse args with
  | error e =>
    cases e with
    | overrun => exact Maintains.throw fun h => nomatch h
    | einval => exact libdcReady_stable.failWith _ _ _
  | ok args =>
    dsimp only
    cases arglistReadUint args "model".toList with
    | error e => exact libdcReady_stable.failWith _ _ _
    | ok modelid => exact libdcModel_ready devpath modelid

/-! ### Closing -/

/-- Shutting down a device that is owned follows no dangling pointer. -/
theorem libdcDriverShutdown_spec (hd : LibdcOwns dev d) :
    Triple (libdcDriverShutdown dev) d (fun _ _ => True) NotDangling := by
  refine libdcOwns_stable.use.then hd fun _ d₁ _ hd₁ => ?_
  apply libdcGetDev_spec.bind
  intro a d₂ ⟨ha, hd₂⟩
  subst ha hd₂
  have hdispose : Triple (Libdc.disposeOpt (S := S) d₂.state.dev.device) d₂ (fun _ _ => True)
      NotDangling := by
    cases hdevice : d₂.state.dev.device with
    | none => exact Triple.pure trivial
    | some h => exact disposeHandle_spec (hd₁ (.inr (.inr hdevice))) fun _ _ => trivial
  exact hdispose.bind fun _ d₃ _ => Triple.of_run rfl trivial

/-- A handle is released, or it was not live. -/
theorem disposeHandle_released {σ : Type} (h : Nat) (d : Desk σ) :
    Triple (disposeHandle h) d (fun _ d' => h ∉ d'.ledger.live) (· = .dangling) := by
  by_cases hlive : h ∈ d.ledger.live
  · refine disposeHandle_spec hlive fun l hl => ?_
    show h ∉ l.live
    rw [hl]
    exact fun hh => hh.2 rfl
  · exact disposeHandle_dead hlive

/-- What may be null is released. -/
theorem disposeOpt_released (o : Option Nat) (d : Desk (LibdcProc S)) :
    Triple (Libdc.disposeOpt (S := S) o) d (fun _ _ => True) (· = .dangling) := by
  cases o with
  | none => exact Triple.pure trivial
  | some h => exact (disposeHandle_released h d).imp fun _ _ _ => trivial

/-- **Shutting a device down after closing it uses the structure that closing has freed.** -/
theorem libdcDriverClose_shutdown (d : Desk (LibdcProc S)) :
    Triple (do libdcDriverClose dev; libdcDriverShutdown dev) d (fun _ _ => False)
      (· = .dangling) := by
  have huse : Triple (useHandle dev) d (fun _ _ => True) (· = .dangling) := by
    by_cases hlive : dev ∈ d.ledger.live
    · exact useHandle_spec hlive fun _ _ => trivial
    · exact useHandle_dead hlive
  have hpart : ∀ (part : LibdcDev → Option Nat) (d : Desk (LibdcProc S)),
      Triple (do Libdc.disposeOpt (part (← Libdc.getDev))) d (fun _ _ => True) (· = .dangling) :=
    fun part d => disposeOpt_released (part d.state.dev) d
  -- each release may dangle itself; where none does, `dev` is dead behind the last
  have hclose : Triple (libdcDriverClose (S := S) dev) d (fun _ d' => dev ∉ d'.ledger.live)
      (· = .dangling) := by
    refine huse.bind fun _ d₁ _ => ?_
    show Triple ((do Libdc.disposeOpt (← Libdc.getDev).device) >>= fun _ => _) d₁ _ _
    refine (hpart (·.device) d₁).bind fun _ d₂ _ => ?_
    show Triple ((do Libdc.disposeOpt (← Libdc.getDev).context) >>= fun _ => _) d₂ _ _
    refine (hpart (·.context) d₂).bind fun _ d₃ _ => ?_
    exact disposeHandle_released dev d₃
  refine hclose.bind fun _ d₁ hdead => ?_
  have hdangles : Triple (useHandle dev) d₁ (fun _ _ => False) (· = .dangling) :=
    useHandle_dead hdead
  exact hdangles.bind fun _ _ h => h.elim

/-! ### The parser -/

/-- A parser is made for a device that is there. -/
theorem libdcParserCreate_spec (hd : LibdcOwns dev d) :
    Triple (libdcParserCreate D dev) d (fun r d' => LibdcOwns dev d' ∧
      ∀ p, r = .ok p → LibdcParses dev p d') NotDangling := by
  have halloc : Triple allocHandle d (fun p d' => LibdcOwns dev d' ∧ p ∈ d'.ledger.live ∧
      p ∉ libdcHandles dev d'.state) NotDangling := by
    refine allocHandle_spec fun p l hp hl => ⟨?_, ?_, fun h => hp (hd h)⟩
    · show libdcHandles dev d.state ⊆ l.live
      rw [hl]
      exact hd.trans (Set.subset_insert p _)
    · exact hl ▸ Set.mem_insert p _
  refine halloc.bind fun p d₁ hp => ?_
  -- the new structure stays live while the library is asked
  have hstable : LibdcStable (S := S) dev fun d => LibdcOwns dev d ∧ p ∈ d.ledger.live ∧
      p ∉ libdcHandles dev d.state := by
    refine ⟨fun _ h => h.1, ?_, ?_⟩
    · intro d l hl h
      exact ⟨libdcOwns_stable.of_live d l hl h.1, hl ▸ h.2.1, h.2.2⟩
    · intro d s hcontext hdevice hdives hparser h
      refine ⟨libdcOwns_stable.of_state d s hcontext hdevice hdives hparser h.1, h.2.1, ?_⟩
      show p ∉ libdcHandles dev s
      rw [libdcHandles_congr hcontext hdevice]
      exact h.2.2
  refine hstable.use.then hp fun _ d₂ _ hp₂ => ?_
  show Triple ((do Libdc.useOpt (← Libdc.getDev).device) >>= fun _ => _) d₂ _ _
  refine hstable.useDevice.then hp₂ fun _ d₃ _ hp₃ => ?_
  refine (hstable.call _).then hp₃ fun made d₄ _ hp₄ => ?_
  cases made with
  | true =>
    have hsecond : Triple allocHandle d₄ (fun q d' => d'.state = d₄.state ∧
        q ∉ d₄.ledger.live ∧ d'.ledger.live = insert q d₄.ledger.live) NotDangling :=
      allocHandle_spec fun _ _ hq hl => ⟨rfl, hq, hl⟩
    apply hsecond.bind
    intro q d₅ ⟨hstate, hq, hl⟩
    have howns : LibdcOwns dev d₅ := by
      show libdcHandles dev d₅.state ⊆ d₅.ledger.live
      rw [hstate, hl]
      exact hp₄.1.trans (Set.subset_insert q _)
    refine Triple.of_run rfl ⟨howns, fun p' h => ?_⟩
    cases h
    refine ⟨howns, ?_, ?_, rfl, ?_⟩
    · exact hl ▸ Set.mem_insert_of_mem q hp₄.2.1
    · show p ∉ libdcHandles dev d₅.state
      rw [hstate]
      exact hp₄.2.2
    · intro q' hq'
      cases Option.some.inj hq'
      show q ∈ d₅.ledger.live ∧ q ≠ p ∧ q ∉ libdcHandles dev d₅.state
      rw [hl, hstate]
      exact ⟨Set.mem_insert q _, fun h => hq (h ▸ hp₄.2.1), fun h => hq (hp₄.1 h)⟩
  | false =>
    refine (hstable.setDevError _ _).then hp₄ fun _ d₅ _ hp₅ => ?_
    have hdispose : Triple (disposeHandle p) d₅ (fun _ d' => LibdcOwns dev d') NotDangling := by
      refine disposeHandle_spec hp₅.2.1 fun l hl => ?_
      show libdcHandles dev d₅.state ⊆ l.live
      rw [hl]
      exact fun h hh => ⟨hp₅.1 hh, fun heq => hp₅.2.2 (heq ▸ hh)⟩
    exact hdispose.bind fun _ d₆ hd₆ => Triple.pure ⟨hd₆, fun p' h => nomatch h⟩

/-- The parser of the library is released before the structure. -/
theorem libdcParserClose_spec (hd : LibdcParses dev p d) :
    Triple (libdcParserClose p) d (fun _ d' => LibdcOwns dev d') NotDangling := by
  have huse : Triple (useHandle p) d (fun _ d' => LibdcParses dev p d') NotDangling :=
    useHandle_spec hd.live fun l hl => libdcParses_stable.of_live d l hl hd
  refine huse.bind fun _ d₁ hd₁ => ?_
  apply libdcGetParser_spec.bind
  intro a d₂ ⟨ha, hd₂⟩
  subst ha hd₂
  -- the parser of the library goes first; the structure and the driver stay live
  have hparser : Triple (Libdc.disposeOpt (S := S) d₂.state.parser.parser) d₂ (fun _ d' =>
      LibdcOwns dev d' ∧ p ∈ d'.ledger.live ∧ p ∉ libdcHandles dev d'.state) NotDangling := by
    cases hparser : d₂.state.parser.parser with
    | none => exact Triple.pure ⟨hd₁.owns, hd₁.live, hd₁.ne⟩
    | some q =>
      obtain ⟨hlive, hne, hnot⟩ := hd₁.parser q hparser
      refine disposeHandle_spec hlive fun l hl => ⟨?_, ?_, hd₁.ne⟩
      · show libdcHandles dev d₂.state ⊆ l.live
        rw [hl]
        exact fun h hh => ⟨hd₁.owns hh, fun heq => hnot (heq ▸ hh)⟩
      · show p ∈ l.live
        rw [hl]
        exact ⟨hd₁.live, fun heq => hne heq.symm⟩
  apply hparser.bind
  intro _ d₃ ⟨howns, hlive, hne⟩
  refine disposeHandle_spec hlive fun l hl => ?_
  show libdcHandles dev d₃.state ⊆ l.live
  rw [hl]
  exact fun h hh => ⟨howns hh, fun heq => hne (heq ▸ hh)⟩

section Parses

/-- A program of the parser `p`. -/
abbrev LibdcReads (dev p : Nat) (m : Libdc S α) : Prop :=
  Keeping (LibdcParses dev p) (fun _ => True) m

/-- The parser is used. -/
theorem useParser_libdcReads : LibdcReads (S := S) dev p (useHandle p) := fun d hd =>
  useHandle_spec hd.live fun l hl => ⟨trivial, libdcParses_stable.of_live d l hl hd⟩

/-- The library is asked. -/
theorem onParser_libdcReads (f : S → α × S) : LibdcReads dev p (Libdc.onParser f) := by
  intro d hd
  apply libdcGetParser_spec.bind
  intro a d' ⟨ha, hd'⟩
  subst ha hd'
  have huse : Triple (Libdc.useOpt (S := S) d'.state.parser.parser) d'
      (fun _ d'' => LibdcParses dev p d'') NotDangling := by
    cases hparser : d'.state.parser.parser with
    | none => exact Triple.pure hd
    | some q =>
      exact useHandle_spec (hd.parser q hparser).1 fun l hl =>
        libdcParses_stable.of_live d' l hl hd
  exact huse.bind fun _ d₁ hd₁ => libdcParses_stable.call f d₁ hd₁

/-- The error goes to the device. -/
theorem libdcParserError_libdcReads (msg : String) :
    LibdcReads (S := S) dev p (libdcParserError msg) := by
  intro d hd
  apply libdcGetParser_spec.bind
  intro a d' ⟨ha, hd'⟩
  subst ha hd'
  rw [hd.parserDev]
  refine libdcParses_stable.use.then hd fun _ d₁ _ hd₁ => ?_
  exact libdcParses_stable.setDevError _ _ d₁ hd₁

theorem parserFail_libdcReads (msg : String) (a : α) :
    LibdcReads (S := S) dev p (do libdcParserError msg; return a) :=
  (libdcParserError_libdcReads msg).bind fun _ _ => Maintains.pure trivial

/-- One field of a header. -/
theorem libdcValue_libdcReads {get : S → (DcStatus × β) × S} {msg : String}
    {tokens : β → List HeaderEntry} {seen : List HeaderEntry}
    {k : Option β → List HeaderEntry → Libdc S (Int × List HeaderEntry)}
    (hk : ∀ o seen, LibdcReads dev p (k o seen)) :
    LibdcReads dev p (libdcValue get msg tokens seen k) := by
  refine (onParser_libdcReads _).bind fun r _ => ?_
  obtain ⟨status, value⟩ := r
  cases status with
  | success => exact hk _ _
  | unsupported => exact hk _ _
  | failure => exact parserFail_libdcReads _ _

theorem libdcGasmixes_libdcReads (is : List Nat) (seen : List HeaderEntry) :
    LibdcReads dev p (libdcGasmixes D is seen) := by
  induction is generalizing seen with
  | nil => exact Maintains.pure trivial
  | cons i is ih => exact libdcValue_libdcReads fun _ seen => ih seen

theorem libdcParserParseHeader_libdcReads (data : List UInt8) :
    LibdcReads dev p (libdcParserParseHeader D p data) := by
  refine useParser_libdcReads.bind fun _ _ => ?_
  refine (onParser_libdcReads _).bind fun done _ => ?_
  refine Maintains.ite (fun _ => ?_) fun _ => parserFail_libdcReads _ _
  refine libdcValue_libdcReads fun _ _ => ?_
  refine libdcValue_libdcReads fun _ _ => ?_
  refine libdcValue_libdcReads fun _ _ => ?_
  refine libdcValue_libdcReads fun ngasses _ => ?_
  exact libdcGasmixes_libdcReads _ _

theorem libdcParserParseProfile_libdcReads (data : List UInt8) :
    LibdcReads dev p (libdcParserParseProfile D p data) := by
  refine useParser_libdcReads.bind fun _ _ => ?_
  refine (onParser_libdcReads _).bind fun done _ => ?_
  refine Maintains.ite (fun _ => ?_) fun _ => parserFail_libdcReads _ _
  refine (onParser_libdcReads _).bind fun r _ => ?_
  obtain ⟨done, samples⟩ := r
  exact Maintains.ite (fun _ => Maintains.pure trivial) fun _ => parserFail_libdcReads _ _

end Parses

end BenthosDc

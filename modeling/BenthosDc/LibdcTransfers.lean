/-
BenthosDc/LibdcTransfers.lean

Transfers with the libdc driver, one after the other on one device.

A transfer gives back the dives that it has been told of, in reverse order, and frees the
elements of the list (`libdcDriverTransfer_clean`).  It leaves the pointer to the list in
the device, so that the next transfer puts its dives in front of freed elements and then
follows them (`libdcDriverTransfer_stale`).

* `transfersIndependent_iff`: in which runs the transfers are independent.

A sequence of transfers is followed from the first one on: as long as no transfer reports a
dive, the next one starts on an empty list; behind the first one that does, every transfer is
bound to follow a dangling pointer.  So all that may report dives is the last one, which is
what `CleanReports` says.
-/
import BenthosDc.LibdcCallbacks

namespace BenthosDc

open CString Hoare Lifetime Loop

variable {S α : Type} {D : Libdivecomputer S} {dev : Nat} {d : Desk (LibdcProc S)}
  {E : Halt → Prop}

/-! ### Flattened dives -/

/-- An element as the comment in `join_dive_list` describes it. -/
def DiveList.meant (d : DiveList) : List UInt8 :=
  leBytes sizeT d.data.length ++ d.data ++ leBytes sizeT d.token.length ++ d.token

/-- The bytes that are stored are those of the dive. -/
def DiveList.Kept (d : DiveList) : Prop := d.copiedData = d.data ∧ d.copiedToken = d.token

/-- The bytes that were meant are as many as those that are stored. -/
theorem length_meant (d : DiveList) : d.meant.length = d.stored.length := by
  simp only [DiveList.meant, DiveList.stored, DiveList.copiedData, DiveList.copiedToken,
    List.length_append, length_leBytes, length_copied]

/-- Whether they are the same bytes. -/
theorem stored_eq_meant_iff (d : DiveList) : d.stored = d.meant ↔ d.Kept := by
  constructor
  · intro h
    have hlen : (leBytes sizeT d.data.length ++ d.copiedData ++
        leBytes sizeT d.token.length).length =
        (leBytes sizeT d.data.length ++ d.data ++ leBytes sizeT d.token.length).length := by
      simp only [DiveList.copiedData, List.length_append, length_leBytes, length_copied]
    obtain ⟨hfront, htoken⟩ := List.append_inj h hlen
    have hdata := List.append_cancel_left (List.append_cancel_right hfront)
    exact ⟨hdata, htoken⟩
  · rintro ⟨hdata, htoken⟩
    rw [DiveList.stored, hdata, htoken]
    rfl

/-- All dives are stored as they were meant only if each of them is. -/
theorem flatMap_stored_eq_iff (l : List DiveList) :
    l.flatMap DiveList.stored = l.flatMap DiveList.meant ↔ ∀ d ∈ l, d.Kept := by
  induction l with
  | nil => exact ⟨fun _ _ h => (nomatch h), fun _ => rfl⟩
  | cons d l ih =>
    rw [List.flatMap_cons, List.flatMap_cons, List.forall_mem_cons, ← ih, ← stored_eq_meant_iff]
    constructor
    · intro h
      exact List.append_inj h (length_meant d).symm
    · rintro ⟨hfirst, hrest⟩
      rw [hfirst, hrest]

/-- As many bytes as are counted. -/
theorem length_flatMap_meant (l : List DiveList) :
    (l.flatMap DiveList.meant).length = flatSize l := by
  rw [← length_flatMap_stored, List.length_flatMap, List.length_flatMap]
  exact congrArg List.sum (List.map_congr_left fun d _ => length_meant d)

/-- The size does not depend on the order. -/
theorem flatSize_reverse (l : List DiveList) : flatSize l.reverse = flatSize l := by
  rw [flatSize, flatSize, List.map_reverse, List.sum_reverse]

/-! ### What a transfer is to give -/

/-- The dives among the events. -/
def reported (events : List DcEvent) : List DiveList :=
  events.filterMap fun
    | .dive d => some d
    | _ => none

/-- What is promised of one call: if it succeeds, it gives the dives that it has been told
of, in reverse order. -/
def GivesReported (report : Bool × List DcEvent) (r : Except Int (Nat × List UInt8)) : Prop :=
  ∀ joined, r = .ok joined →
    joined = (((reported report.2).reverse.flatMap DiveList.meant).length,
      (reported report.2).reverse.flatMap DiveList.meant)

/-- The dives of a successful call are stored as they are, and fit. -/
def KeptReport (report : Bool × List DcEvent) : Prop :=
  report.1 = true → (∀ d ∈ reported report.2, d.Kept) ∧ flatSize (reported report.2) < 2 ^ 32

/-- What a call gives for a report, if the list was empty before. -/
def transferResult (report : Bool × List DcEvent) : Except Int (Nat × List UInt8) :=
  if report.1 then .ok (joinDiveList (reported report.2).reverse).swap else .error (-1)

/-- **What a transfer gives back** is what has been reported if the dives are kept. -/
theorem givesReported_iff (report : Bool × List DcEvent) :
    GivesReported report (transferResult report) ↔ KeptReport report := by
  obtain ⟨done, events⟩ := report
  cases done with
  | false => exact ⟨fun _ h => (nomatch h), fun _ _ h => (nomatch h)⟩
  | true =>
    -- the list is in reverse order, which changes neither the size nor what is kept
    have hsize : flatSize (reported events).reverse = flatSize (reported events) :=
      flatSize_reverse _
    have hkept : (∀ d ∈ (reported events).reverse, d.Kept) ↔ ∀ d ∈ reported events, d.Kept := by
      simp only [List.mem_reverse]
    have hjoined : (joinDiveList (reported events).reverse).swap =
        (flatSize (reported events) % 2 ^ 32, (reported events).reverse.flatMap DiveList.stored) := by
      rw [← hsize, ← joinSize_eq_mod]
      rfl
    constructor
    · intro h _
      have heq := h _ rfl
      rw [hjoined, Prod.mk.injEq, length_flatMap_meant, hsize] at heq
      obtain ⟨hlen, hbytes⟩ := heq
      refine ⟨hkept.mp ((flatMap_stored_eq_iff _).mp hbytes), ?_⟩
      rw [← hlen]
      exact Nat.mod_lt _ (by decide)
    · intro h joined hok
      obtain ⟨hall, hlt⟩ := h rfl
      cases hok
      rw [hjoined, Nat.mod_eq_of_lt hlt, length_flatMap_meant, hsize,
        (flatMap_stored_eq_iff _).mpr (hkept.mpr hall)]

/-! ### A transfer on an empty list -/

/-- A program that uses a live handle leaves the state and what is live. -/
def SameLive (d d' : Desk (LibdcProc S)) : Prop :=
  d'.state = d.state ∧ d'.ledger.live = d.ledger.live

/-- A use leaves the same handles. -/
theorem useHandle_sameLive {h : Nat} (hlive : h ∈ d.ledger.live) :
    Triple (useHandle h) d (fun _ d' => SameLive d d') E :=
  useHandle_spec hlive fun _ hl => ⟨rfl, hl⟩

/-- During a transfer from `d₀`, behind the events `seen`: the elements of the list are those
that have been allocated, for the dives so far. -/
structure LibdcTaking (dev : Nat) (d₀ : Desk (LibdcProc S)) (seen : List DcEvent)
    (d : Desk (LibdcProc S)) : Prop where
  busy : LibdcBusy dev d
  idle : LibdcIdle d.state
  world : d.state.world = d₀.state.world
  dives : d.state.dev.dives.map (·.2) = (reported seen).reverse
  live : d.ledger.live = d₀.ledger.live ∪ {h | h ∈ d.state.dev.dives.map (·.1)}
  new : ∀ n ∈ d.state.dev.dives, n.1 ∉ d₀.ledger.live

variable {d₀ d₁ : Desk (LibdcProc S)} {seen : List DcEvent}

/-- A transfer under way, with the same handles. -/
theorem LibdcTaking.of_same (hd : LibdcTaking dev d₀ seen d) (hsame : SameLive d d₁) :
    LibdcTaking dev d₀ seen d₁ := by
  obtain ⟨hstate, hlive⟩ := hsame
  obtain ⟨state, ledger⟩ := d₁
  cases hstate
  exact ⟨libdcBusy_stable.of_live d ledger hlive hd.busy, hd.idle, hd.world, hd.dives,
    hlive.trans hd.live, hd.new⟩

/-- The fields of the device besides the list may change. -/
theorem LibdcTaking.of_dev (hd : LibdcTaking dev d₀ seen d) {s : LibdcProc S}
    (hcontext : s.dev.context = d.state.dev.context) (hdevice : s.dev.device = d.state.dev.device)
    (hdives : s.dev.dives = d.state.dev.dives) (hparser : s.parser = d.state.parser)
    (hidle : LibdcIdle s) (hworld : s.world = d.state.world) :
    LibdcTaking dev d₀ seen ⟨s, d.ledger⟩ := by
  refine ⟨libdcBusy_stable.of_state d s hcontext hdevice hdives hparser hd.busy, hidle,
    hworld.trans hd.world, ?_, ?_, ?_⟩
  · show s.dev.dives.map (·.2) = _
    rw [hdives]
    exact hd.dives
  · show d.ledger.live = _ ∪ {h | h ∈ s.dev.dives.map (·.1)}
    rw [hdives]
    exact hd.live
  · show ∀ n ∈ s.dev.dives, _
    rw [hdives]
    exact hd.new

/-- Other events report no dive. -/
theorem reported_append_of_not_dive {e : DcEvent} (he : ∀ n, e ≠ .dive n) (seen : List DcEvent) :
    reported (seen ++ [e]) = reported seen := by
  rw [reported, reported, List.filterMap_append]
  cases e with
  | dive n => exact absurd rfl (he n)
  | progress current maximum => exact List.append_nil _
  | devinfo model serial => exact List.append_nil _
  | clock devtime systime => exact List.append_nil _

/-- Nothing is taken for them. -/
theorem LibdcTaking.seen_of_not_dive (hd : LibdcTaking dev d₀ seen d) {e : DcEvent}
    (he : ∀ n, e ≠ .dive n) : LibdcTaking dev d₀ (seen ++ [e]) d :=
  { hd with dives := by rw [reported_append_of_not_dive he, hd.dives] }

/-- A dive is taken in with a new element. -/
theorem libdcDiveCb_taking (n : DiveList) (hd : LibdcTaking dev d₀ seen d) :
    Triple (libdcDiveCb dev n) d (fun _ d' => LibdcTaking dev d₀ (seen ++ [.dive n]) d') E := by
  have hbusy := libdcDiveCb_busy (E := E) n d hd.busy
  have hdev : dev ∈ d.ledger.live := hd.busy.owns (.inl rfl)
  have hrest : Triple (libdcDiveCb dev n) d (fun _ d' => LibdcBusy dev d' →
      LibdcTaking dev d₀ (seen ++ [.dive n]) d') E := by
    refine (useHandle_sameLive hdev).bind fun _ d₁ hsame => ?_
    have hd₁ := hd.of_same hsame
    have halloc : Triple allocHandle d₁ (fun le d' => d'.state = d₁.state ∧
        le ∉ d₁.ledger.live ∧ d'.ledger.live = insert le d₁.ledger.live) E :=
      allocHandle_spec fun le l hle hl => ⟨rfl, hle, hl⟩
    apply halloc.bind
    intro le d₂ ⟨hstate, hle, hlive⟩
    refine Triple.of_run rfl fun hbusy => ⟨hbusy, ?_, ?_, ?_, ?_, ?_⟩
    · show LibdcIdle { d₂.state with dev := _ }
      exact hstate ▸ hd₁.idle
    · show d₂.state.world = _
      rw [hstate]
      exact hd₁.world
    · show n :: d₂.state.dev.dives.map (·.2) = _
      rw [hstate, hd₁.dives, reported, reported, List.filterMap_append, List.reverse_append]
      rfl
    · show d₂.ledger.live = d₀.ledger.live ∪ {h | h ∈ le :: d₂.state.dev.dives.map (·.1)}
      rw [hstate, hlive, hd₁.live]
      -- what is live is what was live at the start, with the elements of the list
      ext h
      simp only [Set.mem_insert_iff, Set.mem_union, Set.mem_ofPred_eq, List.mem_cons]
      tauto
    · intro m hm
      rcases List.mem_cons.mp hm with rfl | hm
      · exact fun h => hle (hd₁.live ▸ Set.mem_union_left _ h)
      · rw [hstate] at hm
        exact hd₁.new m hm
  exact (hbusy.and hrest).imp fun _ _ h => h.2 h.1.2

/-- **One event of a transfer.** -/
theorem libdcEventCb_taking (e : DcEvent) (hd : LibdcTaking dev d₀ seen d) :
    Triple (libdcEventCb D dev e) d (fun _ d' => LibdcTaking dev d₀ (seen ++ [e]) d') E := by
  have hdev : dev ∈ d.ledger.live := hd.busy.owns (.inl rfl)
  refine (useHandle_sameLive hdev).bind fun _ d₁ hsame => ?_
  have hd₁ := hd.of_same hsame
  -- there are no callbacks, so that the first two events do nothing
  cases e with
  | progress current maximum =>
    apply libdcGetDev_spec.bind
    rintro _ d₂ ⟨rfl, rfl⟩
    rw [hd₁.idle.2]
    exact Triple.pure (hd₁.seen_of_not_dive fun n h => nomatch h)
  | devinfo model serial =>
    apply libdcGetDev_spec.bind
    rintro _ d₂ ⟨rfl, rfl⟩
    rw [hd₁.idle.1]
    exact Triple.pure (hd₁.seen_of_not_dive fun n h => nomatch h)
  | clock devtime systime =>
    have hset := hd₁.of_dev (s := { d₁.state with
      dev := { d₁.state.dev with devtime := devtime, systime := systime } })
      rfl rfl rfl rfl hd₁.idle rfl
    exact Triple.of_run rfl (hset.seen_of_not_dive fun n h => nomatch h)
  | dive n => exact libdcDiveCb_taking n hd₁

/-- **All events of a transfer.** -/
theorem libdcEvents_taking (events : List DcEvent) (hd : LibdcTaking dev d₀ seen d) :
    Triple (events.forM (libdcEventCb D dev)) d
      (fun _ d' => LibdcTaking dev d₀ (seen ++ events) d') E := by
  induction events generalizing seen d with
  | nil =>
    rw [List.append_nil]
    exact Triple.pure hd
  | cons e events ih =>
    refine (libdcEventCb_taking e hd).bind fun _ d₁ hd₁ => ?_
    rw [List.append_cons]
    exact ih hd₁

/-- What may be null is used. -/
theorem useOpt_sameLive {o : Option Nat} (ho : ∀ h, o = some h → h ∈ d.ledger.live) :
    Triple (Libdc.useOpt o) d (fun _ d' => SameLive d d') E := by
  cases o with
  | none => exact Triple.pure ⟨rfl, rfl⟩
  | some h => exact useHandle_sameLive (ho h rfl)

/-- What has been freed is spent. -/
theorem libdcFreeDives_spends (ns : List (Nat × DiveList)) (d : Desk (LibdcProc S)) :
    Triple (libdcFreeDives ns) d (fun _ d' => ∀ n ∈ ns, d'.ledger.Spent n.1)
      fun _ => True := by
  induction ns generalizing d with
  | nil => exact Triple.pure fun n hn => nomatch hn
  | cons n ns ih =>
    refine (disposeHandle_spends d).bind fun _ d₁ hd₁ => ?_
    have hkeeps : Triple (libdcFreeDives ns) d₁ (fun _ d' => True ∧ d'.ledger.Spent n.1)
        fun _ => True :=
      Maintains.forM (fun m : Nat × DiveList => disposeHandle_spent (k := m.1)) trivial ns d₁ hd₁
    apply ((ih d₁).and hkeeps).imp
    rintro _ d₂ ⟨hrest, -, hfirst⟩
    exact List.forall_mem_cons.mpr ⟨hfirst, hrest⟩

/-- What a transfer with the given events leaves of `d₀`: a list of freed elements. -/
structure LibdcLeaves (dev : Nat) (events : List DcEvent) (d₀ d : Desk (LibdcProc S)) : Prop where
  owns : LibdcOwns dev d
  idle : LibdcIdle d.state
  world : d.state.world = d₀.state.world
  dives : d.state.dev.dives.map (·.2) = (reported events).reverse
  spent : ∀ n ∈ d.state.dev.dives, d.ledger.Spent n.1
  live : d.ledger.live = d₀.ledger.live

/-- The elements are freed behind the last event. -/
theorem libdcFreeDives_leaves {events : List DcEvent} (hd : LibdcTaking dev d₀ events d) :
    Triple (libdcFreeDives d.state.dev.dives) d (fun _ d' => LibdcLeaves dev events d₀ d') E := by
  have hfrees := libdcFreeDives_spec (E := E) _ hd.busy.owns hd.busy.nodup hd.busy.live
  apply (hfrees.and (libdcFreeDives_spends _ d)).imp
  intro _ d₁ ⟨⟨hstate, howns, hlive⟩, hspent⟩
  refine ⟨howns, hstate ▸ hd.idle, ?_, ?_, by rwa [hstate], ?_⟩
  · rw [hstate]
    exact hd.world
  · rw [hstate]
    exact hd.dives
  · rw [hlive, hd.live]
    ext h
    simp only [Set.mem_sdiff, Set.mem_union, Set.mem_ofPred_eq]
    constructor
    · rintro ⟨hold | hnew, hnot⟩
      · exact hold
      · exact absurd hnew hnot
    · intro hold
      refine ⟨.inl hold, fun hmem => ?_⟩
      obtain ⟨n, hn, rfl⟩ := List.mem_map.mp hmem
      exact hd.new n hn hold

/-- The desk behind the library's own part of a transfer, in front of the first event. -/
theorem libdcTaking_start (hready : LibdcReady dev d) (hidle : LibdcIdle d.state) (w : S) :
    LibdcTaking dev ⟨{ d.state with world := w }, d.ledger⟩ []
      ⟨{ d.state with world := w }, d.ledger⟩ where
  busy := by
    refine ⟨hready.1, ?_, ?_⟩
    · show (d.state.dev.dives.map (·.1)).Nodup
      rw [hready.2]
      exact List.nodup_nil
    · show ∀ n ∈ d.state.dev.dives, _
      rw [hready.2]
      exact fun n hn => nomatch hn
  idle := hidle
  world := rfl
  dives := by
    show d.state.dev.dives.map (·.2) = _
    rw [hready.2]
    rfl
  -- the list is empty
  live := by
    show d.ledger.live = d.ledger.live ∪ {h | h ∈ d.state.dev.dives.map (·.1)}
    rw [hready.2]
    simp
  new := by
    show ∀ n ∈ d.state.dev.dives, _
    rw [hready.2]
    exact fun n hn => nomatch hn

/-- A device that is ready stays so. -/
theorem SameLive.ready (hsame : SameLive d d₁) (hready : LibdcReady dev d) : LibdcReady dev d₁ := by
  obtain ⟨hstate, hlive⟩ := hsame
  obtain ⟨state, ledger⟩ := d₁
  cases hstate
  exact libdcReady_stable.of_live d ledger hlive hready

/-- One step after the other. -/
theorem SameLive.trans {d₂ : Desk (LibdcProc S)} (h : SameLive d d₁) (h' : SameLive d₁ d₂) :
    SameLive d d₂ := ⟨h'.1.trans h.1, h'.2.trans h.2⟩

/-- Behind the last event the dives are flattened, or the error is set, and the elements are
freed. -/
theorem libdcLeft_spec {report : Bool × List DcEvent} (hd : LibdcTaking dev d₀ report.2 d) :
    Triple (libdcLeft D dev report.1 []) d (fun r d' => r = transferResult report ∧
      LibdcLeaves dev report.2 d₀ d') E := by
  obtain ⟨done, events⟩ := report
  apply Triple.bind (Q := fun _ d' => d' = d) (Triple.pure rfl)
  rintro _ _ rfl
  apply libdcGetDev_spec.bind
  rintro _ d₁ ⟨rfl, rfl⟩
  cases done with
  | true =>
    have hjoin : Triple (libdcJoinDives d₁.state.dev.dives) d₁ (fun r d' =>
        r = (joinDiveList (reported events).reverse).swap ∧ SameLive d₁ d') E := by
      refine (libdcUseDives_spec _ fun n hn => (hd.busy.live n hn).1).bind fun _ d₂ h₂ => ?_
      refine Triple.pure ⟨?_, h₂⟩
      rw [hd.dives]
    apply hjoin.bind
    rintro _ d₂ ⟨rfl, hsame⟩
    have hd₂ := hd.of_same hsame
    rw [← show d₂.state = d₁.state from hsame.1]
    exact (libdcFreeDives_leaves hd₂).bind fun _ _ h => Triple.pure ⟨rfl, h⟩
  | false =>
    have herror : Triple (Libdc.setDevError driverErrRead "Failed to read dive data from device")
        d₁ (fun _ d' => d'.state.dev.dives = d₁.state.dev.dives ∧
          LibdcTaking dev d₀ events d') E :=
      Triple.of_run rfl ⟨rfl, hd.of_dev rfl rfl rfl rfl hd.idle rfl⟩
    apply herror.bind
    intro _ d₂ ⟨hsame, hd₂⟩
    rw [← hsame]
    exact (libdcFreeDives_leaves hd₂).bind fun _ _ h => Triple.pure ⟨rfl, h⟩

/-- **A transfer on an empty list** gives the dives that it is told of, in reverse order, and
frees every element. -/
theorem libdcDriverTransfer_clean (hready : LibdcReady dev d) (hidle : LibdcIdle d.state) :
    Triple (libdcDriverTransfer D dev) d (fun r d' =>
      r = transferResult (D.foreach d.state.world).1 ∧
      LibdcLeaves dev (D.foreach d.state.world).1.2
        ⟨{ d.state with world := (D.foreach d.state.world).2 }, d.ledger⟩ d') E := by
  have hstart : Triple (libdcHandled D dev (D.foreach d.state.world).1.2) d (fun _ d' =>
      LibdcTaking dev ⟨{ d.state with world := (D.foreach d.state.world).2 }, d.ledger⟩
        (D.foreach d.state.world).1.2 d') E := by
    refine (useHandle_sameLive (hready.1 (.inl rfl))).bind fun _ _ h₁ => ?_
    apply libdcGetDev_spec.bind
    rintro _ d₁ ⟨rfl, rfl⟩
    have hdevice : ∀ h, d₁.state.dev.device = some h → h ∈ d₁.ledger.live := fun h hh =>
      (h₁.ready hready).1 (.inr (.inr hh))
    refine (useOpt_sameLive hdevice).bind fun _ d₂ h₂ => ?_
    have hsame := h₁.trans h₂
    refine Triple.bind (Q := fun _ d' => SameLive
      ⟨{ d.state with world := (D.foreach d.state.world).2 }, d.ledger⟩ d')
      (Triple.of_run rfl ⟨?_, hsame.2⟩) fun _ d₃ h₃ => ?_
    · show { d₂.state with world := (D.foreach d₂.state.world).2 } = _
      rw [hsame.1]
    · exact libdcEvents_taking _ ((libdcTaking_start hready hidle _).of_same h₃)
  -- all events are handled before the rest of the transfer
  have hsplit : (D.foreach d.state.world).1 =
      ((D.foreach d.state.world).1.1, (D.foreach d.state.world).1.2 ++ []) := by
    rw [List.append_nil]
  rw [Triple, libdcDriverTransfer_run hsplit]
  exact hstart.bind fun _ _ hd => libdcLeft_spec hd

/-! ### A transfer on a list that has been freed

Whatever the library reports, the list in the structure holds elements that have been freed,
and joining it follows one of them.
-/

/-- The list holds an element that has been freed. -/
def LibdcStale (d : Desk (LibdcProc S)) : Prop :=
  ∃ n ∈ d.state.dev.dives, d.ledger.Spent n.1

/-- A program that takes no element out of the list, however it ends. -/
abbrev KeepsStale (m : Libdc S α) : Prop :=
  Maintains LibdcStale (fun _ => True) (fun _ => True) m

/-- A pointer is followed. -/
theorem keepsStale_use (h : Nat) : KeepsStale (S := S) (useHandle h) := by
  intro d hd
  obtain ⟨n, hn, hspent⟩ := hd
  apply ((leavesState_useHandle h d).and (useHandle_spent d hspent)).imp
  rintro _ d' ⟨⟨-, hstate⟩, -, hspent'⟩
  exact ⟨trivial, n, hstate ▸ hn, hspent'⟩

/-- The list may get longer. -/
theorem keepsStale_of_state {f : LibdcProc S → LibdcProc S}
    (hf : ∀ s, s.dev.dives ⊆ (f s).dev.dives) : KeepsStale (modifyState f) := by
  intro d hd
  obtain ⟨n, hn, hspent⟩ := hd
  exact Triple.of_run rfl ⟨trivial, n, hf d.state hn, hspent⟩

/-- What may be null is followed. -/
theorem keepsStale_useOpt (o : Option Nat) : KeepsStale (S := S) (Libdc.useOpt o) := by
  cases o with
  | none => exact Maintains.pure trivial
  | some h => exact keepsStale_use h

/-- The structure is looked at. -/
theorem keepsStale_getDev : KeepsStale (S := S) Libdc.getDev := fun _ hd =>
  Triple.of_run rfl ⟨trivial, hd⟩

/-- The library is called. -/
theorem keepsStale_call (f : S → α × S) : KeepsStale (Libdc.call f) := fun _ hd =>
  Triple.of_run rfl ⟨trivial, hd⟩

/-- The application is told something. -/
theorem keepsStale_note (n : LibdcNote) : KeepsStale (S := S) (Libdc.note n) :=
  keepsStale_of_state fun _ => List.Subset.refl _

/-- A dive is put in front of the others. -/
theorem keepsStale_libdcDiveCb (n : DiveList) : KeepsStale (S := S) (libdcDiveCb dev n) := by
  refine (keepsStale_use dev).bind fun _ _ => ?_
  refine Maintains.bind (P := fun _ => True) ?_ fun le _ => ?_
  · intro d hd
    obtain ⟨m, hm, hspent⟩ := hd
    exact Triple.of_run rfl ⟨trivial, m, hm, hspent.alloc⟩
  · exact keepsStale_of_state fun s => List.subset_cons_self _ _

/-- Events of any kind. -/
theorem keepsStale_libdcEventCb (e : DcEvent) : KeepsStale (libdcEventCb D dev e) := by
  refine (keepsStale_use dev).bind fun _ _ => ?_
  cases e with
  | progress current maximum =>
    refine keepsStale_getDev.bind fun s _ => ?_
    cases s.pcb with
    | none => exact Maintains.pure trivial
    | some pcb =>
      refine (keepsStale_note _).bind fun _ _ => ?_
      exact keepsStale_of_state fun _ => List.Subset.refl _
  | devinfo model serial =>
    refine keepsStale_getDev.bind fun s _ => ?_
    cases s.dcb with
    | none => exact Maintains.pure trivial
    | some dcb =>
      refine keepsStale_getDev.bind fun s _ => ?_
      refine (keepsStale_note _).bind fun _ _ => ?_
      rw [libdcFingerprint]
      cases tokenData (dcb model serial s.devtime).2 with
      | none => exact Maintains.pure trivial
      | some bytes =>
        refine keepsStale_getDev.bind fun s _ => ?_
        refine (keepsStale_useOpt _).bind fun _ _ => ?_
        exact (keepsStale_call _).bind fun _ _ => keepsStale_note _
  | clock devtime systime => exact keepsStale_of_state fun _ => List.Subset.refl _
  | dive n => exact keepsStale_libdcDiveCb n

/-- A loop over handles does not get past one that has been disposed. -/
theorem forM_spent {f : Nat → Libdc S Unit}
    (hhalts : ∀ h (d : Desk (LibdcProc S)), d.ledger.Spent h →
      Triple (f h) d (fun _ _ => False) fun _ => True)
    (hkeeps : ∀ h k, Maintains (fun d : Desk (LibdcProc S) => d.ledger.Spent h) (fun _ => True)
      (fun _ => True) (f k)) {ns : List (Nat × DiveList)} {n : Nat × DiveList} (hn : n ∈ ns)
    (hspent : d.ledger.Spent n.1) :
    Triple (ns.forM fun n => f n.1) d (fun _ _ => False) fun _ => True := by
  induction ns generalizing d with
  | nil => cases hn
  | cons m ns ih =>
    rcases List.mem_cons.mp hn with rfl | hn
    · exact (hhalts n.1 d hspent).bind fun _ _ h => h.elim
    · exact (hkeeps n.1 m.1).then hspent fun _ d₁ _ h₁ => ih hn h₁

/-- **Joining the list does not return.** -/
theorem libdcJoinDives_stale (hd : LibdcStale d) :
    Triple (libdcJoinDives d.state.dev.dives) d (fun _ _ => False) fun _ => True := by
  obtain ⟨n, hn, hspent⟩ := hd
  have hloop : Triple (d.state.dev.dives.forM fun n => useHandle n.1) d (fun _ _ => False)
      fun _ => True := by
    refine forM_spent (f := useHandle) ?_ (fun h k => useHandle_spent) hn hspent
    intro h d' hd'
    exact (useHandle_dead hd'.not_mem_live).mono (fun _ _ h => h) fun _ _ => trivial
  exact hloop.bind fun _ _ h => h.elim

/-- Nor does freeing it. -/
theorem libdcFreeDives_stale (hd : LibdcStale d) :
    Triple (libdcFreeDives d.state.dev.dives) d (fun _ _ => False) fun _ => True := by
  obtain ⟨n, hn, hspent⟩ := hd
  refine forM_spent (f := disposeHandle) ?_ (fun h k => disposeHandle_spent) hn hspent
  intro h d' hd'
  exact (disposeHandle_dead hd'.not_mem_live).mono (fun _ _ h => h) fun _ _ => trivial

/-- **A transfer on a list that has been freed does not return**: it comes to a halt at an
element that it follows or frees. -/
theorem libdcDriverTransfer_stale (hd : LibdcStale d) :
    Triple (libdcDriverTransfer D dev) d (fun _ _ => False) fun _ => True := by
  refine (keepsStale_use dev).then hd fun _ d₁ _ h₁ => ?_
  refine keepsStale_getDev.then h₁ fun s d₂ _ h₂ => ?_
  refine (keepsStale_useOpt _).then h₂ fun _ d₃ _ h₃ => ?_
  refine (keepsStale_call _).then h₃ fun r d₄ _ h₄ => ?_
  obtain ⟨done, events⟩ := r
  refine (Maintains.forM keepsStale_libdcEventCb trivial events).then h₄ fun _ d₅ _ h₅ => ?_
  apply libdcGetDev_spec.bind
  rintro _ d₆ ⟨rfl, rfl⟩
  cases done with
  | true => exact (libdcJoinDives_stale h₅).bind fun _ _ h => h.elim
  | false =>
    have herror : Triple (Libdc.setDevError driverErrRead "Failed to read dive data from device")
        d₆ (fun _ d' => d'.state.dev.dives = d₆.state.dev.dives ∧ LibdcStale d')
        fun _ => True := Triple.of_run rfl ⟨rfl, h₅⟩
    apply herror.bind
    intro _ d₇ ⟨hsame, h₇⟩
    rw [← hsame]
    exact (libdcFreeDives_stale h₇).bind fun _ _ h => h.elim

/-! ### Sequences of transfers -/

/-- Transfers on one device, one after the other. -/
def libdcTransfers (D : Libdivecomputer S) (dev : Nat) :
    Nat → Libdc S (List (Except Int (Nat × List UInt8)))
  | 0 => return []
  | n + 1 => do
    let r ← libdcDriverTransfer D dev
    let rs ← libdcTransfers D dev n
    return r :: rs

/-- What the library reports in the transfers, from the world `w` on. -/
def libdcReports (D : Libdivecomputer S) : S → Nat → List (Bool × List DcEvent)
  | _, 0 => []
  | w, n + 1 => (D.foreach w).1 :: libdcReports D (D.foreach w).2 n

/-- The transfers all return, each of them gives the dives of its own report, and every
element that they have allocated is freed exactly once. -/
def TransfersIndependent (D : Libdivecomputer S) (dev n : Nat) (d : Desk (LibdcProc S)) : Prop :=
  ∃ rs d', (libdcTransfers D dev n).run d = .ok (rs, d') ∧
    List.Forall₂ GivesReported (libdcReports D d.state.world n) rs ∧
    ∀ h, .alloc h ∈ d'.ledger.events → .alloc h ∉ d.ledger.events →
      d'.ledger.events.count (.dispose h) = 1

/-- No report but the last one has a dive, and what is reported is kept. -/
def CleanReports (reports : List (Bool × List DcEvent)) : Prop :=
  (∀ report ∈ reports.dropLast, reported report.2 = []) ∧ ∀ report ∈ reports, KeptReport report

/-- The device is open, with nothing in its list. -/
structure LibdcClean (dev : Nat) (d : Desk (LibdcProc S)) : Prop where
  ready : LibdcReady dev d
  idle : LibdcIdle d.state

/-- Without dives the list is empty still. -/
theorem LibdcLeaves.clean {events : List DcEvent} (h : LibdcLeaves dev events d₀ d)
    (hnone : reported events = []) : LibdcClean dev d := by
  refine ⟨⟨h.owns, ?_⟩, h.idle⟩
  apply List.map_eq_nil_iff.mp
  rw [h.dives, hnone]
  rfl

/-- With dives it has been freed. -/
theorem LibdcLeaves.stale {events : List DcEvent} (h : LibdcLeaves dev events d₀ d)
    (hsome : reported events ≠ []) : LibdcStale d := by
  have hne : d.state.dev.dives ≠ [] := by
    intro hnil
    have hdives := h.dives
    rw [hnil] at hdives
    exact hsome (List.reverse_eq_nil_iff.mp hdives.symm)
  obtain ⟨n, hn⟩ := List.exists_mem_of_ne_nil _ hne
  exact ⟨n, hn, h.spent n hn⟩

/-- Behind transfers that return the same handles are live as before. -/
theorem libdcTransfers_live (n : Nat) (hd : LibdcClean dev d) :
    Triple (libdcTransfers D dev n) d (fun _ d' => d'.ledger.live = d.ledger.live)
      fun _ => True := by
  induction n generalizing d with
  | zero => exact Triple.pure rfl
  | succ n ih =>
    apply (libdcDriverTransfer_clean hd.ready hd.idle).bind
    rintro _ d₁ ⟨-, hleaves⟩
    have hlive : d₁.ledger.live = d.ledger.live := hleaves.live
    by_cases hnone : reported (D.foreach d.state.world).1.2 = []
    · refine (ih (hleaves.clean hnone)).bind fun _ d₂ h₂ => ?_
      exact Triple.pure (h₂.trans hlive)
    · cases n with
      | zero => exact hlive
      | succ n =>
        have hhalts : Triple (libdcTransfers D dev (n + 1)) d₁ (fun _ _ => False)
            fun _ => True :=
          (libdcDriverTransfer_stale (hleaves.stale hnone)).bind fun _ _ h => h.elim
        exact hhalts.bind fun _ _ h => h.elim

/-- What has been allocated in the meantime is not live any more. -/
theorem count_dispose_of_live (hlive : d₁.ledger.live = d.ledger.live) {h : Nat}
    (halloc : .alloc h ∈ d₁.ledger.events) (hnew : .alloc h ∉ d.ledger.events) :
    d₁.ledger.events.count (.dispose h) = 1 := by
  apply Ledger.count_dispose halloc
  rw [hlive]
  exact fun hl => hnew hl.1

/-- Transfers that return, each with the dives of its own report. -/
def TransfersGive (D : Libdivecomputer S) (dev n : Nat) (d : Desk (LibdcProc S)) : Prop :=
  ∃ rs d', (libdcTransfers D dev n).run d = .ok (rs, d') ∧
    List.Forall₂ GivesReported (libdcReports D d.state.world n) rs

/-- Every element is freed in a run that returns. -/
theorem transfersIndependent_iff_give (n : Nat) (hd : LibdcClean dev d) :
    TransfersIndependent D dev n d ↔ TransfersGive D dev n d := by
  constructor
  · rintro ⟨rs, d', hrun, hall, -⟩
    exact ⟨rs, d', hrun, hall⟩
  · rintro ⟨rs, d', hrun, hall⟩
    have hlive : d'.ledger.live = d.ledger.live := (libdcTransfers_live n hd).result hrun
    exact ⟨rs, d', hrun, hall, fun h => count_dispose_of_live hlive⟩

/-- In front of another transfer no dive may be reported. -/
theorem cleanReports_cons (report : Bool × List DcEvent) {reports : List (Bool × List DcEvent)}
    (hne : reports ≠ []) : CleanReports (report :: reports) ↔
      reported report.2 = [] ∧ KeptReport report ∧ CleanReports reports := by
  rw [CleanReports, CleanReports, List.dropLast_cons_of_ne_nil hne, List.forall_mem_cons,
    List.forall_mem_cons]
  tauto

/-- The last one may report dives that are kept. -/
theorem cleanReports_singleton (report : Bool × List DcEvent) :
    CleanReports [report] ↔ KeptReport report := by
  constructor
  · exact fun h => h.2 report (List.mem_singleton_self report)
  · intro h
    refine ⟨fun _ hmem => (nomatch hmem), fun r hr => ?_⟩
    rw [List.mem_singleton.mp hr]
    exact h

/-- **A step**: the first transfer gives what it is told of, and the others go on from where
it ends. -/
theorem transfersGive_succ {n : Nat}
    (hrun : (libdcDriverTransfer D dev).run d = .ok (transferResult (D.foreach d.state.world).1, d₁))
    (hworld : d₁.state.world = (D.foreach d.state.world).2) :
    TransfersGive D dev (n + 1) d ↔
      KeptReport (D.foreach d.state.world).1 ∧ TransfersGive D dev n d₁ := by
  rw [← givesReported_iff, TransfersGive, TransfersGive, hworld]
  constructor
  · rintro ⟨rs, d', hall, hgives⟩
    obtain ⟨r, d₂, hfirst, hrest⟩ := run_bind_eq_ok.mp hall
    obtain ⟨rs', d₃, htail, hpure⟩ := run_bind_eq_ok.mp hrest
    rw [hrun] at hfirst
    cases hfirst
    cases hpure
    rcases hgives with _ | ⟨hhead, htail'⟩
    exact ⟨hhead, rs', d', htail, htail'⟩
  · rintro ⟨hhead, rs, d', htail, hgives⟩
    refine ⟨_, d', run_bind_eq_ok.mpr ⟨_, d₁, hrun, ?_⟩, .cons hhead hgives⟩
    exact run_bind_eq_ok.mpr ⟨rs, d', htail, rfl⟩

/-- **A run**: the transfers on an open device are independent if and only if the reports are
clean. -/
theorem transfersGive_iff (n : Nat) (hd : LibdcClean dev d) :
    TransfersGive D dev n d ↔ CleanReports (libdcReports D d.state.world n) := by
  induction n generalizing d with
  | zero =>
    exact ⟨fun _ => ⟨fun _ h => (nomatch h), fun _ h => (nomatch h)⟩,
      fun _ => ⟨[], d, rfl, .nil⟩⟩
  | succ n ih =>
    obtain ⟨r, d₁, hrun, rfl, hleaves⟩ :=
      (libdcDriverTransfer_clean (D := D) hd.ready hd.idle).exists_run
    have hworld : d₁.state.world = (D.foreach d.state.world).2 := hleaves.world
    rw [transfersGive_succ hrun hworld, libdcReports]
    cases n with
    | zero =>
      rw [libdcReports, cleanReports_singleton]
      exact and_iff_left ⟨[], d₁, rfl, .nil⟩
    | succ n =>
      have hne : libdcReports D (D.foreach d.state.world).2 (n + 1) ≠ [] := List.cons_ne_nil _ _
      rw [cleanReports_cons _ hne, ← hworld]
      -- a transfer behind one that has reported a dive meets a freed list, and halts
      by_cases hnone : reported (D.foreach d.state.world).1.2 = []
      · rw [ih (hleaves.clean hnone)]
        exact ⟨fun h => ⟨hnone, h⟩, fun h => h.2⟩
      · constructor
        · rintro ⟨-, rs, d', hrest, -⟩
          have hhalts : Triple (libdcTransfers D dev (n + 1)) d₁ (fun _ _ => False)
              fun _ => True :=
            (libdcDriverTransfer_stale (hleaves.stale hnone)).bind fun _ _ h => h.elim
          exact (hhalts.result hrest).elim
        · exact fun h => absurd h.1 hnone

/-- Behind the open the list is empty. -/
theorem LibdcOpened.clean {s : LibdcProc S} {devpath args : Text}
    (h : LibdcOpened D s devpath args dev d) : LibdcClean dev d :=
  ⟨h.ready, (h.reached 0).idle⟩

/-- **Transfers are independent if and only if** no call but the last one is told of a dive,
and the dives of a successful call are stored as they are and fit into the buffer. -/
theorem transfersIndependent_iff {s : LibdcProc S} {devpath args : Text}
    (hopened : LibdcOpened D s devpath args dev d) (n : Nat) :
    TransfersIndependent D dev n d ↔ CleanReports (libdcReports D d.state.world n) := by
  rw [transfersIndependent_iff_give n hopened.clean]
  exact transfersGive_iff n hopened.clean

/-- Three transfers without a dive. -/
theorem transfersIndependent_iff_three : ∃ d,
    LibdcOpened (eventLibrary [.clock 1 2]) blankLibdc [] "model=14".toList 1 d ∧
      TransfersIndependent (eventLibrary [.clock 1 2]) 1 3 d := by
  obtain ⟨d, hopened, -⟩ := eventLibrary_opened [.clock 1 2]
  refine ⟨d, hopened, (transfersIndependent_iff hopened 3).mpr ⟨?_, ?_⟩⟩
  · intro report hreport
    rw [List.eq_of_mem_replicate (n := 2) hreport]
    rfl
  · intro report hreport _
    rw [List.eq_of_mem_replicate (n := 3) hreport]
    refine ⟨fun _ h => (nomatch h), ?_⟩
    show flatSize [] < 2 ^ 32
    decide

/-- A dive without data and without a token. -/
def blankDive : DiveList := ⟨[], [], 0x1000, 0x2000, 0, fun _ => 0⟩

/-- **The second of two transfers follows what the first has freed.** -/
theorem eventLibrary_not_transfersIndependent : ∃ d,
    LibdcOpened (eventLibrary [.dive blankDive]) blankLibdc [] "model=14".toList 1 d ∧
      TransfersIndependent (eventLibrary [.dive blankDive]) 1 1 d ∧
      ¬TransfersIndependent (eventLibrary [.dive blankDive]) 1 2 d := by
  obtain ⟨d, hopened, -⟩ := eventLibrary_opened [.dive blankDive]
  have hone : ∀ n, TransfersIndependent (eventLibrary [.dive blankDive]) 1 n d ↔
      CleanReports (libdcReports (eventLibrary [.dive blankDive]) d.state.world n) := by
    intro n
    rw [transfersIndependent_iff_give n hopened.clean]
    exact transfersGive_iff n hopened.clean
  refine ⟨d, hopened, (hone 1).mpr ?_, fun htwo => ?_⟩
  · apply (cleanReports_singleton _).mpr
    rintro -
    refine ⟨fun dive hdive => ?_, ?_⟩
    · rw [List.mem_singleton.mp hdive]
      exact ⟨rfl, rfl⟩
    · show flatSize [blankDive] < 2 ^ 32
      decide
  · have hclean := (hone 2).mp htwo
    exact nomatch hclean.1 (true, [.dive blankDive]) (List.mem_singleton_self _)

end BenthosDc

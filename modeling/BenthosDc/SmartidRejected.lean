/-
BenthosDc/SmartidRejected.lean

A connection that the daemon cannot set up (`serv_connect` of `smartid_server.c`,
`smartid_conn_alloc` and `smartid_conn_dispose` of `smartid_conn.c`).

The list is that of `SmartidConnList`.  Beside it stand the resources of the connections and
what has been closed.  A connection is disposed in whatever stage of its setup it fails, and
`serv_connect` closes the descriptor of a connection that it does not get.

* `rejectedConn_cleanedUp_iff`: when this comes out right.
-/
import BenthosDc.SmartidConnList

namespace BenthosDc

open Hoare LinkedList ConnM

/-! ### The connections

A connection is a record under its address, and its fields say what has been set up so far.
-/

/-- `struct smarti_conn_t_`, the resources of a connection. -/
structure ConnRecord where
  netFd : Int
  dev : Bool
  irda : Bool
  evBuffer : Bool
  evEvt : Bool
  shutdown : Bool

/-- What is given back to the system. -/
inductive ConnEvent
  | shutdown (fd : Int)
  | close (fd : Int)
  | disposeDevice (a : Nat)
  | freeBuffer (a : Nat)
  | freeEvent (a : Nat)
  | closeIrda (a : Nat)
  deriving DecidableEq

/-- The list, the connections, and what has been closed. -/
structure ConnServer where
  table : ConnTable
  /-- The connection at each address. -/
  records : Nat → ConnRecord
  events : List ConnEvent

/-- The functions of the server. -/
abbrev ServM := StateT ConnServer (Except Halt)

namespace ServM

/-- An operation on the list. -/
def onTable {α : Type} (x : ConnM α) : ServM α := fun s =>
  match x.run s.table with
  | .ok (a, t) => .ok (a, { s with table := t })
  | .error e => .error e

/-- The record of a connection is changed. -/
def setRecord (a : Nat) (f : ConnRecord → ConnRecord) : ServM Unit :=
  modify fun s => { s with records := Function.update s.records a (f (s.records a)) }

/-- Something is told. -/
def emit (e : ConnEvent) : ServM Unit := modify fun s => { s with events := s.events ++ [e] }

/-- What is given back if the connection has it. -/
def emitIf (b : Bool) (e : ConnEvent) : ServM Unit := if b then emit e else pure ()

end ServM

open ServM

/-! ### Disposal

What has been set up is given back, field by field, and the connection is taken out of the
list.
-/

/-- `conn_shutdown`; it makes no difference whether the call fails. -/
def connShutdown (a : Nat) : ServM Unit := do
  let c := (← get).records a
  emitIf (!c.shutdown) (.shutdown c.netFd)
  setRecord a fun c => { c with shutdown := true }

/-- `smartid_conn_dispose`, the resources of the connection. -/
def connFreeResources (a : Nat) : ServM Unit := do
  let c := (← get).records a
  emitIf c.dev (.disposeDevice a)
  emitIf c.evBuffer (.freeBuffer a)
  -- the event does not own the descriptor
  emitIf c.evEvt (.freeEvent a)
  emitIf c.irda (.closeIrda a)
  if c.netFd ≠ -1 then
    connShutdown a
    emit (.close c.netFd)

/-- `smartid_conn_dispose` -/
def smartidConnDisposeAt (a : Nat) : ServM Unit := do
  onTable (connUnlinkPrev (.conn a))
  onTable (connUnlinkNext (.conn a))
  connFreeResources a
  onTable (release a)

/-! ### Setup

The stages of the setup in their order.  The connection comes into the list behind its IrDA
socket.
-/

/-- The points at which the setup of a connection can fail, in their order. -/
inductive ConnFailure
  | memory
  | irdaOpen
  | irdaTimeout
  | bufferevent
  | enable
  | output
  deriving DecidableEq

/-- The setup fails, and the connection is disposed. -/
def smartidConnReject (a : Nat) : ServM (Option Nat) := do
  smartidConnDisposeAt a
  return none

/-- `smartid_conn_alloc`, from the list on. -/
def smartidConnBuffers (a : Nat) (failure : Option ConnFailure) : ServM (Option Nat) := do
  onTable (connAdd (.conn a))
  if failure = some .bufferevent then smartidConnReject a
  else do
    setRecord a fun c => { c with evEvt := true }
    if failure = some .enable then smartidConnReject a
    else if failure = some .output then smartidConnReject a
    else do
      setRecord a fun c => { c with evBuffer := true }
      return some a

/-- `smartid_conn_alloc`, from the IrDA socket on. -/
def smartidConnOpenIrda (a : Nat) (failure : Option ConnFailure) : ServM (Option Nat) := do
  if failure = some .irdaOpen then smartidConnReject a
  else do
    setRecord a fun c => { c with irda := true }
    if failure = some .irdaTimeout then smartidConnReject a
    else smartidConnBuffers a failure

/-- `smartid_conn_alloc`; `a` is the address that `malloc` gives out.  The message to the
client is left out. -/
def smartidConnAlloc (a : Nat) (fd : Int) (failure : Option ConnFailure) : ServM (Option Nat) := do
  if failure = some .memory then return none
  else do
    onTable (allocate a)
    setRecord a fun _ => ⟨fd, false, false, false, false, false⟩
    smartidConnOpenIrda a failure

/-- `serv_connect`, with the descriptor that `accept` returns; `nonblocking` is whether the
socket can be made non-blocking. -/
def servConnect (fd : Int) (nonblocking : Bool) (a : Nat) (failure : Option ConnFailure) :
    ServM Unit := do
  if fd < 0 then return ()
  else if !nonblocking then emit (.close fd)
  else
    match ← smartidConnAlloc a fd failure with
    | none => emit (.close fd)
    | some _ => return ()

/-! ### What a connection that fails leaves behind

Descriptors are counted in the events.  A connection that is set up in part must have its own
descriptor closed once.
-/

/-- The list is as before, and the descriptor has been closed once. -/
structure CleanedUp (fd : Int) (s s' : ConnServer) : Prop where
  list : ∀ as, Holds as s.table → Holds as s'.table
  closed : s'.events.count (.close fd) = s.events.count (.close fd) + 1

/-- A connection whose setup fails is cleaned up, and no null pointer is followed. -/
def RejectsCleanly (s : ConnServer) (fd : Int) (a : Nat) (failure : ConnFailure) : Prop :=
  ∃ s', (servConnect fd true a (some failure)).run s = .ok ((), s') ∧ CleanedUp fd s s'

variable {s s' : ConnServer} {as bs : List Nat} {a : Nat} {fd : Int} {E : Halt → Prop}

/-- A step on the list. -/
theorem onTable_run {α : Type} {x : ConnM α} {b : α} {t : ConnTable}
    (h : x.run s.table = .ok (b, t)) : (onTable x).run s = .ok (b, { s with table := t }) := by
  show onTable x s = _
  rw [onTable, h]

/-- A step on the list, with all else as it was. -/
theorem onTable_triple {α : Type} {x : ConnM α} {b : α} {t : ConnTable}
    (h : x.run s.table = .ok (b, t)) :
    Triple (onTable x) s (fun _ s' => s' = { s with table := t }) E :=
  Triple.of_run (onTable_run h) rfl

/-- A step on the list that halts. -/
theorem onTable_run_error {α : Type} {x : ConnM α} {e : Halt} (h : x.run s.table = .error e) :
    (onTable x).run s = .error e := by
  show onTable x s = _
  rw [onTable, h]

/-- The list and the connections are as before, and `n` more calls have closed `fd`. -/
structure Closes (fd : Int) (n : Nat) (s s' : ConnServer) : Prop where
  table : s'.table = s.table
  records : s'.records = s.records
  closed : s'.events.count (.close fd) = s.events.count (.close fd) + n

theorem Closes.trans {s'' : ConnServer} {m n : Nat} (h : Closes fd m s s')
    (h' : Closes fd n s' s'') : Closes fd (m + n) s s'' := by
  refine ⟨h'.table.trans h.table, h'.records.trans h.records, ?_⟩
  rw [h'.closed, h.closed, Nat.add_assoc]

/-- An event closes a descriptor if it says so. -/
theorem emit_closes (s : ConnServer) (fd : Int) (e : ConnEvent) :
    Triple (emit e) s (fun _ s' => Closes fd ([e].count (.close fd)) s s') E := by
  refine Triple.modify ⟨rfl, rfl, ?_⟩
  exact List.count_append

/-- An event of another kind closes nothing. -/
theorem emitIf_closes (fd : Int) (s : ConnServer) (b : Bool) {e : ConnEvent} (he : e ≠ .close fd) :
    Triple (emitIf b e) s (fun _ s' => Closes fd 0 s s') E := by
  cases b with
  | false => exact Triple.pure ⟨rfl, rfl, rfl⟩
  | true =>
    refine (emit_closes s fd e).imp fun _ _ h => ?_
    rw [List.count_singleton, if_neg (fun h => he (beq_iff_eq.mp h))] at h
    exact h

theorem connShutdown_spec (fd : Int) (s : ConnServer) (a : Nat) :
    Triple (connShutdown a) s (fun _ s' => s'.table = s.table ∧
      s'.events.count (.close fd) = s.events.count (.close fd)) E := by
  apply (Triple.get (Q := fun c s' => c = s ∧ s' = s) ⟨rfl, rfl⟩).bind
  rintro _ _ ⟨rfl, rfl⟩
  dsimp only
  apply (emitIf_closes fd _ _ (by rintro ⟨⟩)).bind
  intro _ s₁ h₁
  exact Triple.modify ⟨h₁.table, h₁.closed⟩

/-- The resources are given back, and the descriptor is closed. -/
theorem connFreeResources_spec (a : Nat) (hfd : (s.records a).netFd = fd) (hne : fd ≠ -1) :
    Triple (connFreeResources a) s (fun _ s' => s'.table = s.table ∧
      s'.events.count (.close fd) = s.events.count (.close fd) + 1) E := by
  apply (Triple.get (Q := fun c s' => c = s ∧ s' = s) ⟨rfl, rfl⟩).bind
  rintro _ _ ⟨rfl, rfl⟩
  dsimp only
  apply (emitIf_closes fd _ _ (by rintro ⟨⟩)).bind
  intro _ s₁ h₁
  apply (emitIf_closes fd s₁ _ (by rintro ⟨⟩)).bind
  intro _ s₂ h₂
  apply (emitIf_closes fd s₂ _ (by rintro ⟨⟩)).bind
  intro _ s₃ h₃
  apply (emitIf_closes fd s₃ _ (by rintro ⟨⟩)).bind
  intro _ s₄ h₄
  -- none of the four steps closes the descriptor
  have hclosed := ((h₁.trans h₂).trans h₃).trans h₄
  rw [hfd, if_pos hne]
  apply (connShutdown_spec fd s₄ a).bind
  rintro _ s₅ ⟨htable, hcount⟩
  apply (emit_closes s₅ fd (.close fd)).imp
  rintro _ s₆ h₆
  refine ⟨(h₆.table.trans htable).trans hclosed.table, ?_⟩
  rw [h₆.closed, hcount, hclosed.closed, List.count_singleton_self]

/-- **A connection that is in the list is disposed**: the list is as it was without it, and its
descriptor has been closed. -/
theorem smartidConnDisposeAt_spec (h : Holds (as ++ a :: bs) s.table)
    (hfd : (s.records a).netFd = fd) (hne : fd ≠ -1) :
    Triple (smartidConnDisposeAt a) s (fun _ s' => Holds (as ++ bs) s'.table ∧
      s'.events.count (.close fd) = s.events.count (.close fd) + 1) E := by
  obtain ⟨t, hrun, hholds, -⟩ := connDispose_holds h
  obtain ⟨_, t₁, hprev, hrun⟩ := run_bind_eq_ok.mp hrun
  obtain ⟨_, t₂, hnext, hrelease⟩ := run_bind_eq_ok.mp hrun
  rw [smartidConnDisposeAt]
  apply (onTable_triple hprev).bind
  rintro _ _ rfl
  apply (onTable_triple hnext).bind
  rintro _ _ rfl
  apply (connFreeResources_spec (s := ⟨t₂, s.records, s.events⟩) a hfd hne).bind
  rintro _ s' ⟨htable, hcount⟩
  have hrelease : (release a).run s'.table = .ok ((), t) := by
    rw [htable]
    exact hrelease
  exact Triple.of_run (onTable_run hrelease) ⟨hholds, hcount⟩

/-- **A connection that is not in the list is not**: its pointer to the cell before it is
null. -/
theorem smartidConnDisposeAt_unlisted (hcell : s.table.cells (.conn a) = some ⟨none, none⟩) :
    (smartidConnDisposeAt a).run s = .error .dangling := by
  have hprev : (connUnlinkPrev (.conn a)).run s.table = .error .dangling := by
    rw [connUnlinkPrev, run_bind_of_ok (load_run hcell)]
    rfl
  rw [smartidConnDisposeAt]
  exact run_bind_of_error (onTable_run_error hprev)

/-! ### The setup

The setup is followed up to the stage at which it fails.
-/

/-- The connection at `a` is set up with the descriptor `fd`. -/
structure SetUp (as : List Nat) (a : Nat) (fd : Int) (s s' : ConnServer) : Prop where
  list : Holds as s'.table
  netFd : (s'.records a).netFd = fd
  events : s'.events = s.events

/-- A field is set. -/
theorem setRecord_setUp {s₁ : ConnServer} (h : SetUp as a fd s s₁) {f : ConnRecord → ConnRecord}
    (hf : ∀ c, (f c).netFd = c.netFd) :
    Triple (setRecord a f) s₁ (fun _ s' => SetUp as a fd s s') E := by
  refine Triple.modify ⟨h.list, ?_, h.events⟩
  show (Function.update s₁.records a (f (s₁.records a)) a).netFd = fd
  rw [Function.update_self, hf, h.netFd]

/-- A connection that comes first in the list is rejected. -/
theorem smartidConnReject_spec {s₁ : ConnServer} (h : SetUp (a :: as) a fd s s₁) (hne : fd ≠ -1) :
    Triple (smartidConnReject a) s₁ (fun r s' => r = none ∧ Holds as s'.table ∧
      s'.events.count (.close fd) = s.events.count (.close fd) + 1) E := by
  have hfirst : Holds ([] ++ a :: as) s₁.table := h.list
  apply (smartidConnDisposeAt_spec hfirst h.netFd hne).bind
  rintro _ s' ⟨hholds, hcount⟩
  rw [h.events] at hcount
  exact Triple.pure ⟨rfl, hholds, hcount⟩

/-- The server when `malloc` has given out the connection. -/
def ConnServer.allocated (s : ConnServer) (a : Nat) (fd : Int) : ConnServer where
  table := { s.table with
    cells := Function.update s.table.cells (.conn a) (some ⟨none, none⟩) }
  records := Function.update s.records a ⟨fd, false, false, false, false, false⟩
  events := s.events

/-- The IrDA socket of the connection is there. -/
def ConnServer.withIrda (s : ConnServer) (a : Nat) (fd : Int) : ConnServer where
  table := (s.allocated a fd).table
  records := Function.update (s.allocated a fd).records a
    { (s.allocated a fd).records a with irda := true }
  events := s.events

/-- The descriptor is known before the IrDA socket is opened. -/
theorem withIrda_netFd (s : ConnServer) (a : Nat) (fd : Int) :
    ((s.withIrda a fd).records a).netFd = fd := by
  show (Function.update (s.allocated a fd).records a _ a).netFd = fd
  rw [Function.update_self]
  show (Function.update s.records a _ a).netFd = fd
  rw [Function.update_self]

/-- With memory for the connection, the rest is tried. -/
theorem smartidConnAlloc_run {failure : ConnFailure} (hmemory : failure ≠ .memory) :
    (smartidConnAlloc a fd (some failure)).run s =
      (smartidConnOpenIrda a (some failure)).run (s.allocated a fd) := by
  have hallocate : (allocate a).run s.table = .ok ((), (s.allocated a fd).table) := rfl
  have hrecord : (setRecord a fun _ => ⟨fd, false, false, false, false, false⟩).run
      { s with table := (s.allocated a fd).table } = .ok ((), s.allocated a fd) := rfl
  rw [smartidConnAlloc, if_neg (fun h => hmemory (Option.some.inj h)),
    run_bind_of_ok (onTable_run hallocate), run_bind_of_ok hrecord]

/-- The connection is rejected before it is in the list. -/
theorem smartidConnReject_unlisted (hcell : s.table.cells (.conn a) = some ⟨none, none⟩) :
    (smartidConnReject a).run s = .error .dangling :=
  run_bind_of_error (smartidConnDisposeAt_unlisted hcell)

/-- The IrDA socket fails before the connection is in the list. -/
theorem smartidConnAlloc_irda {failure : ConnFailure}
    (hfailure : failure = .irdaOpen ∨ failure = .irdaTimeout) :
    (smartidConnAlloc a fd (some failure)).run s = .error .dangling := by
  have hcell : (s.allocated a fd).table.cells (.conn a) = some ⟨none, none⟩ :=
    Function.update_self ..
  rcases hfailure with rfl | rfl
  · rw [smartidConnAlloc_run (by decide), smartidConnOpenIrda, if_pos rfl]
    exact smartidConnReject_unlisted hcell
  · rw [smartidConnAlloc_run (by decide), smartidConnOpenIrda, if_neg (by decide)]
    have hrecord : (setRecord a fun c => { c with irda := true }).run (s.allocated a fd) =
        .ok ((), s.withIrda a fd) := rfl
    rw [run_bind_of_ok hrecord, if_pos rfl]
    exact smartidConnReject_unlisted hcell

/-- A later stage fails. -/
theorem smartidConnBuffers_spec {failure : ConnFailure} (h : Holds as s.table)
    (ha : s.table.cells (.conn a) = none) (hne : fd ≠ -1)
    (hfailure : failure = .bufferevent ∨ failure = .enable ∨ failure = .output) :
    Triple (smartidConnBuffers a (some failure)) (s.withIrda a fd)
      (fun r s' => r = none ∧ Holds as s'.table ∧
        s'.events.count (.close fd) = s.events.count (.close fd) + 1) E := by
  obtain ⟨t, hrun, hholds, -⟩ := connAdd_holds h ha
  have hallocate : (allocate a).run s.table = .ok ((), (s.withIrda a fd).table) := rfl
  rw [run_bind_of_ok hallocate] at hrun
  rw [smartidConnBuffers]
  apply (onTable_triple hrun).bind
  rintro _ _ rfl
  -- the three failures behind the list, in their order
  have hsetUp : SetUp (a :: as) a fd s { s.withIrda a fd with table := t } :=
    ⟨hholds, withIrda_netFd s a fd, rfl⟩
  by_cases hbuffer : failure = .bufferevent
  · rw [if_pos (congrArg some hbuffer)]
    exact smartidConnReject_spec hsetUp hne
  rw [if_neg fun h => hbuffer (Option.some.inj h)]
  refine (setRecord_setUp (f := fun c => { c with evEvt := true }) hsetUp fun _ => rfl).bind
    fun _ s₁ hsetUp => ?_
  by_cases henable : failure = .enable
  · rw [if_pos (congrArg some henable)]
    exact smartidConnReject_spec hsetUp hne
  rw [if_neg fun h => henable (Option.some.inj h)]
  have houtput : failure = .output := (hfailure.resolve_left hbuffer).resolve_left henable
  rw [if_pos (congrArg some houtput)]
  exact smartidConnReject_spec hsetUp hne

/-- **Behind the list** a connection that fails is taken out of it, and its descriptor is
closed. -/
theorem smartidConnAlloc_listed {failure : ConnFailure} (h : Holds as s.table)
    (ha : s.table.cells (.conn a) = none) (hne : fd ≠ -1)
    (hfailure : failure = .bufferevent ∨ failure = .enable ∨ failure = .output) :
    Triple (smartidConnAlloc a fd (some failure)) s (fun r s' => r = none ∧ Holds as s'.table ∧
      s'.events.count (.close fd) = s.events.count (.close fd) + 1) E := by
  have hearly : some failure ≠ some ConnFailure.irdaOpen ∧
      some failure ≠ some ConnFailure.irdaTimeout ∧ failure ≠ .memory := by
    rcases hfailure with rfl | rfl | rfl <;> decide
  have hrecord : (setRecord a fun c => { c with irda := true }).run (s.allocated a fd) =
      .ok ((), s.withIrda a fd) := rfl
  rw [Triple, smartidConnAlloc_run hearly.2.2, smartidConnOpenIrda, if_neg hearly.1,
    run_bind_of_ok hrecord, if_neg hearly.2.1]
  exact smartidConnBuffers_spec h ha hne hfailure

/-- **When a connection that fails is cleaned up**: where `malloc` has failed, and nowhere
else.  Before the list a null pointer is followed, and behind it the descriptor is closed
twice. -/
theorem rejectedConn_cleanedUp_iff (h : Holds as s.table) (ha : s.table.cells (.conn a) = none)
    (hfd : 0 ≤ fd) (failure : ConnFailure) :
    RejectsCleanly s fd a failure ↔ failure = .memory := by
  have hne : fd ≠ -1 := by omega
  have hserve : (servConnect fd true a (some failure)).run s =
      ((smartidConnAlloc a fd (some failure)) >>= fun r =>
        match r with
        | none => emit (.close fd)
        | some _ => pure ()).run s := by
    rw [servConnect, if_neg (by omega), if_neg (by decide)]
  constructor
  · rintro ⟨s', hrun, hcleaned⟩
    rw [hserve] at hrun
    by_contra hmemory
    -- before the list the disposal halts, and behind it there are two calls of `close`
    by_cases hirda : failure = .irdaOpen ∨ failure = .irdaTimeout
    · rw [run_bind_of_error (smartidConnAlloc_irda hirda)] at hrun
      cases hrun
    · have hlisted : failure = .bufferevent ∨ failure = .enable ∨ failure = .output := by
        cases failure with
        | memory => exact absurd rfl hmemory
        | irdaOpen => exact absurd (.inl rfl) hirda
        | irdaTimeout => exact absurd (.inr rfl) hirda
        | bufferevent => exact .inl rfl
        | enable => exact .inr (.inl rfl)
        | output => exact .inr (.inr rfl)
      obtain ⟨r, s₁, hrun₁, hrest⟩ := run_bind_eq_ok.mp hrun
      obtain ⟨rfl, -, hcount⟩ := (smartidConnAlloc_listed (E := never) h ha hne hlisted).result hrun₁
      have hclosed := (emit_closes (E := never) s₁ fd (.close fd)).result hrest
      have htwice := hclosed.closed
      rw [hcount, hcleaned.closed, List.count_singleton_self] at htwice
      omega
  · rintro rfl
    refine ⟨{ s with events := s.events ++ [.close fd] }, hserve, fun _ h => h, ?_⟩
    rw [List.count_append, List.count_singleton_self]

/-! ### The list on its own

The functions of this file do on the list what those of `SmartidConnList` do.
-/

/-- How far the setup gets, by the list alone. -/
def ConnFailure.setup : Option ConnFailure → ConnSetup
  | none => .done
  | some .memory => .socketFails
  | some .irdaOpen => .socketFails
  | some .irdaTimeout => .socketFails
  | some .bufferevent => .bufferFails
  | some .enable => .bufferFails
  | some .output => .bufferFails

/-- The table is that of the server. -/
def TableOf (s : ConnServer) (t : ConnTable) : Prop := s.table = t

/-- A step on the list is itself. -/
theorem simulates_onTable {α : Type} (x : ConnM α) :
    Simulates TableOf (fun a b => a = b) (onTable x) x := by
  rintro s _ rfl
  cases hrun : x.run s.table with
  | error e => exact Triple.of_run_error (onTable_run_error hrun) rfl
  | ok r => exact Triple.of_run (onTable_run hrun) ⟨r.1, r.2, rfl, rfl, rfl⟩

theorem emitIf_table (b : Bool) (e : ConnEvent) (s : ConnServer) :
    Triple (emitIf b e) s (fun _ s' => s'.table = s.table) E := by
  cases b with
  | false => exact Triple.pure rfl
  | true => exact Triple.modify rfl

theorem connFreeResources_table (a : Nat) (s : ConnServer) :
    Triple (connFreeResources a) s (fun _ s' => s'.table = s.table) E := by
  apply (Triple.get (Q := fun c s' => c = s ∧ s' = s) ⟨rfl, rfl⟩).bind
  rintro _ _ ⟨rfl, rfl⟩
  refine (emitIf_table _ _ _).bind fun _ s₁ h₁ => ?_
  refine (emitIf_table _ _ s₁).bind fun _ s₂ h₂ => ?_
  refine (emitIf_table _ _ s₂).bind fun _ s₃ h₃ => ?_
  refine (emitIf_table _ _ s₃).bind fun _ s₄ h₄ => ?_
  have htable := ((h₄.trans h₃).trans h₂).trans h₁
  split
  · refine (connShutdown_spec 0 s₄ a).bind fun _ s₅ h₅ => ?_
    exact Triple.modify (h₅.1.trans htable)
  · exact Triple.pure htable

/-- The disposal of the list. -/
theorem smartidConnDisposeAt_simulates (a : Nat) :
    Simulates TableOf (fun _ _ => True) (smartidConnDisposeAt a) (connDispose a) := by
  refine (simulates_onTable _).bind fun _ _ _ => ?_
  refine (simulates_onTable _).bind fun _ _ _ => ?_
  refine Simulates.skip ?_ fun _ => ?_
  · rintro s _ rfl
    exact connFreeResources_table a s
  · exact (simulates_onTable _).imp fun _ _ _ => trivial

/-- A rejection is a disposal. -/
theorem smartidConnReject_simulates (a : Nat) :
    Simulates TableOf (fun _ _ => True) (smartidConnReject a) (connDispose a) :=
  (smartidConnDisposeAt_simulates a).followed fun _ _ _ _ _ h => Triple.pure ⟨trivial, h⟩

/-- The resources of a connection are not those of the list. -/
theorem setRecord_table (a : Nat) (f : ConnRecord → ConnRecord) (s : ConnServer) (t : ConnTable)
    (h : TableOf s t) : Triple (setRecord a f) s (fun _ s' => TableOf s' t) E :=
  Triple.modify h

/-- From the list on, a connection that fails is added and disposed. -/
theorem smartidConnBuffers_rejected (a : Nat) {failure : ConnFailure}
    (hfailure : failure = .bufferevent ∨ failure = .enable ∨ failure = .output) :
    Simulates TableOf (fun _ _ => True) (smartidConnBuffers a (some failure))
      (connAdd (.conn a) >>= fun _ => connDispose a) := by
  refine (simulates_onTable _).bind fun _ _ _ => ?_
  rcases hfailure with rfl | rfl | rfl
  · exact smartidConnReject_simulates a
  · exact Simulates.skip (setRecord_table a _) fun _ => smartidConnReject_simulates a
  · exact Simulates.skip (setRecord_table a _) fun _ => smartidConnReject_simulates a

/-- And one that does not is only added. -/
theorem smartidConnBuffers_accepted (a : Nat) :
    Simulates TableOf (fun _ _ => True) (smartidConnBuffers a none) (connAdd (.conn a)) := by
  refine (simulates_onTable _).followed fun _ _ _ s t h => ?_
  refine (setRecord_table a _ s t h).bind fun _ s₁ h₁ => ?_
  refine (setRecord_table a _ s₁ t h₁).bind fun _ s₂ h₂ => ?_
  exact Triple.pure ⟨trivial, h₂⟩

/-- **Setting a connection up does to the list what `connAlloc` does**, as far as it gets. -/
theorem smartidConnAlloc_simulates (a : Nat) (fd : Int) {failure : Option ConnFailure}
    (hmemory : failure ≠ some .memory) :
    Simulates TableOf (fun _ _ => True) (smartidConnAlloc a fd failure)
      (connAlloc a (ConnFailure.setup failure)) := by
  rw [smartidConnAlloc, if_neg hmemory]
  refine (simulates_onTable _).bind fun _ _ _ => ?_
  refine Simulates.skip (setRecord_table a _) fun _ => ?_
  have hirda : ∀ {α : Type} {x : ServM (Option Nat)} {m : ConnM α},
      Simulates TableOf (fun _ _ => True) x m → Simulates TableOf (fun _ _ => True)
        (setRecord a (fun c => { c with irda := true }) >>= fun _ => x) m :=
    fun h => Simulates.skip (setRecord_table a _) fun _ => h
  cases failure with
  | none => exact hirda (smartidConnBuffers_accepted a)
  | some failure =>
    cases failure with
    | memory => exact absurd rfl hmemory
    | irdaOpen => exact smartidConnReject_simulates a
    | irdaTimeout => exact hirda (smartidConnReject_simulates a)
    | bufferevent => exact hirda (smartidConnBuffers_rejected a (.inl rfl))
    | enable => exact hirda (smartidConnBuffers_rejected a (.inr (.inl rfl)))
    | output => exact hirda (smartidConnBuffers_rejected a (.inr (.inr rfl)))

/-- **A connection that gets to the list leaves it in order**, whether it is accepted or not. -/
theorem servConnect_reachable {failure : Option ConnFailure} (h : ConnReachable s.table)
    (ha : s.table.cells (.conn a) = none) (hfd : 0 ≤ fd)
    (hsetup : ConnFailure.setup failure ≠ .socketFails) :
    Triple (servConnect fd true a failure) s (fun _ s' => ConnReachable s'.table) never := by
  have hmemory : failure ≠ some .memory := by
    rintro rfl
    exact hsetup rfl
  obtain ⟨as, hholds⟩ := h.holds
  obtain ⟨t, hrun, -⟩ := connAlloc_holds hholds ha hsetup
  rw [servConnect, if_neg (by omega), if_neg (by decide)]
  refine ((smartidConnAlloc_simulates a fd hmemory s s.table rfl).mono (fun _ _ h => h) ?_).bind ?_
  · intro e herror
    rw [hrun] at herror
    cases herror
  · rintro r s' ⟨_, t', hrun', -, rfl⟩
    have hreachable : ConnReachable s'.table := h.alloc ha hsetup hrun'
    cases r with
    | none => exact Triple.modify hreachable
    | some b => exact Triple.pure hreachable

/-- The server as it starts. -/
def ConnServer.start : ConnServer where
  table := ConnTable.start
  records _ := ⟨-1, false, false, false, false, false⟩
  events := []

/-- The first connection, for which there is no buffer event. -/
theorem rejectedConn_cleanedUp_iff_first :
    RejectsCleanly ConnServer.start 5 0 .bufferevent ↔ ConnFailure.bufferevent = .memory :=
  rejectedConn_cleanedUp_iff holds_start rfl (by decide) .bufferevent

/-- Neither a connection without an IrDA socket nor one without a buffer event. -/
theorem not_rejectsCleanly_first :
    Holds [] ConnServer.start.table ∧
      ¬RejectsCleanly ConnServer.start 5 0 .irdaOpen ∧
      ¬RejectsCleanly ConnServer.start 5 0 .bufferevent := by
  refine ⟨holds_start, ?_, ?_⟩
  · rintro ⟨s', hrun, -⟩
    have hhalt : (servConnect 5 true 0 (some .irdaOpen)).run ConnServer.start =
        .error .dangling := rfl
    rw [hhalt] at hrun
    cases hrun
  · rintro ⟨s', hrun, hcleaned⟩
    have htwice : s'.events.count (.close 5) = 2 := by
      cases hrun
      rfl
    rw [hcleaned.closed] at htwice
    cases htwice

end BenthosDc

/-
BenthosDc/SmartidMain.lean

The life of the daemon, from its start to its end (`smartid_run` of `smartid_main.c`, and
`smartid_init`, `smartid_start` and `smartid_cleanup` of `smartid_server.c`).

What the system says to the calls of the daemon is a `Host`.  Beside the process stands the trace
of what the daemon gets from the system and gives back: the event base, the addresses, the
sockets and the event of the listener.  The global pointers decide what `smartid_cleanup`
releases; a pointer that is still set when the memory behind it has gone is followed into freed
memory, and there the run is at its end.

* `smartidRun_releases_iff`: which runs return, what they have released then, and what they return.
-/
import BenthosDc.SmartidDaemonRuns

namespace BenthosDc

open Hoare Lifetime

variable {S α : Type}

/-! ### The system

A call of the system is told by an event of the trace, and an event must be permitted by the
trace in front of it: memory that is gone is neither used nor released again.
-/

/-- What the daemon gets from the system. -/
inductive Resource
  /-- The event base. -/
  | base
  /-- The list that `getaddrinfo` returns. -/
  | addresses
  /-- The event of the listener. -/
  | listener
  /-- The socket for the address with this number. -/
  | socket (k : Nat)
  deriving DecidableEq

/-- What is reached by a pointer; a socket is a number. -/
def Resource.InMemory : Resource → Prop
  | socket _ => False
  | _ => True

instance : DecidablePred Resource.InMemory
  | .base => .isTrue trivial
  | .addresses => .isTrue trivial
  | .listener => .isTrue trivial
  | .socket _ => .isFalse id

/-- Memory is used and released only while it is there. -/
def Permitted (t : List (Event Resource)) : Event Resource → Prop
  | .alloc _ => True
  | .use r => r.InMemory → Live t r
  | .dispose r => r.InMemory → Live t r

instance (t : List (Event Resource)) : DecidablePred (Permitted t)
  | .alloc _ => .isTrue trivial
  | .use r => inferInstanceAs (Decidable (r.InMemory → Live t r))
  | .dispose r => inferInstanceAs (Decidable (r.InMemory → Live t r))

/-- `ai_family` -/
inductive AddressFamily
  | inet
  | inet6
  | other
  deriving DecidableEq

/-- An address, and which calls succeed for it. -/
structure HostAddress where
  family : AddressFamily
  socket : Bool
  setsockopt : Bool
  bind : Bool

/-- Which calls succeed. -/
structure Host where
  signals : Bool
  eventBase : Bool
  getaddrinfo : Option (List HostAddress)
  nonblocking : Bool
  listen : Bool
  eventNew : Bool
  eventAdd : Bool
  dispatch : Bool

/-- `g_ipv4` and `g_ipv6` -/
structure BindOptions where
  ipv4 : Bool
  ipv6 : Bool

/-- The process with what the program holds. -/
structure DaemonMain (S : Type) where
  process : Process S
  trace : List (Event Resource)
  /-- Whether `g_evloop` is not null. -/
  evloop : Bool
  /-- Whether `g_evt_connect` is not null. -/
  evtConnect : Bool

/-- Nothing is held. -/
def DaemonMain.start (w : S) : DaemonMain S := ⟨Process.start w, [], false, false⟩

/-- The functions of the program. -/
abbrev MainM (S : Type) := StateT (DaemonMain S) (Except Halt)

namespace MainM

/-- A call of the system that gets, uses or releases a resource. -/
def note (e : Event Resource) : MainM S Unit := fun m =>
  if Permitted m.trace e then .ok ((), { m with trace := m.trace ++ [e] }) else .error .dangling

/-- A program of the process. -/
def onProcess (x : ProcM S α) : MainM S α := fun m =>
  match x.run m.process with
  | .ok (r, p) => .ok (r, { m with process := p })
  | .error e => .error e

/-- `g_evloop` -/
def setEvloop (b : Bool) : MainM S Unit := modify fun m => { m with evloop := b }

/-- `g_evt_connect` -/
def setEvtConnect (b : Bool) : MainM S Unit := modify fun m => { m with evtConnect := b }

end MainM

open MainM

/-! ### The server

What the functions of the server get and release, with the tests on the global pointers.
-/

/-- `smartid_init` -/
def smartidInit (host : Host) : MainM S Int := do
  if !host.eventBase then return -1
  else do
    note (.alloc .base)
    setEvloop true
    return 0

/-- `smartid_cleanup` closes the connection event. -/
def closeConnectionEvent : MainM S Unit := do
  if (← get).evtConnect then
    note (.use .listener)
    note (.dispose .listener)
    setEvtConnect false

/-- `smartid_cleanup` releases the event loop. -/
def releaseEventLoop : MainM S Unit := do
  if (← get).evloop then
    note (.dispose .base)
    setEvloop false

/-- `smartid_cleanup`, for at most `passes` passes over the connections. -/
def smartidCleanup (passes : Nat) : MainM S Unit := do
  onProcess (smartidConnCleanup passes)
  closeConnectionEvent
  releaseEventLoop

/-- The exits of `smartid_start` before the event loop. -/
def smartidStartFailed (k : Nat) : MainM S Int := do
  note (.dispose (.socket k))
  note (.dispose .base)
  return -1

/-- `smartid_start` for the listener socket of the `k`th address; the event loop handles the events
`es`. -/
def smartidStart (W : Nat → Irda S) (fuel : Nat) (host : Host) (k : Nat)
    (es : List (DaemonEvent S)) : MainM S Int := do
  note (.use (.socket k))
  if !host.nonblocking then smartidStartFailed k
  else do
    note (.use (.socket k))
    if !host.listen then smartidStartFailed k
    else do
      note (.use .base)
      setEvtConnect host.eventNew
      if !host.eventNew then smartidStartFailed k
      else do
        note (.alloc .listener)
        note (.use .listener)
        if !host.eventAdd then
          note (.dispose .listener)
          smartidStartFailed k
        else do
          note (.use .base)
          onProcess (es.forM fun ev => ev.handle W fuel)
          return if host.dispatch then 0 else -1

/-! ### The main program

The addresses are tried in their order, each with a socket of its own.
-/

/-- How the loop over the addresses ends. -/
inductive BindResult
  /-- A socket option cannot be set. -/
  | fatal
  | unbound
  | bound (k : Nat)
  deriving DecidableEq

/-- Whether the family of the address is asked for. -/
def HostAddress.Wanted (opts : BindOptions) (a : HostAddress) : Prop :=
  (a.family = .inet → opts.ipv4 = true) ∧ (a.family = .inet6 → opts.ipv6 = true)

instance (opts : BindOptions) (a : HostAddress) : Decidable (a.Wanted opts) :=
  inferInstanceAs (Decidable (_ ∧ _))

/-- The loop body for the `k`th address; `next` is what follows a `continue`. -/
def tryAddress (opts : BindOptions) (k : Nat) (a : HostAddress) (next : MainM S BindResult) :
    MainM S BindResult := do
  if ¬a.Wanted opts then next
  else if !a.socket then next
  else do
    note (.alloc (.socket k))
    if !a.setsockopt then
      note (.dispose (.socket k))
      return .fatal
    else if !a.bind then
      note (.dispose (.socket k))
      next
    else return .bound k

/-- The loop over the addresses, from the `k`th one on. -/
def bindFirst (opts : BindOptions) : Nat → List HostAddress → MainM S BindResult
  | _, [] => return .unbound
  | k, a :: as => do
    note (.use .addresses)
    tryAddress opts k a (bindFirst opts (k + 1) as)

/-- `smartid_run` -/
def smartidRun (W : Nat → Irda S) (fuel passes : Nat) (opts : BindOptions) (host : Host)
    (es : List (DaemonEvent S)) : MainM S Int := do
  if !host.signals then return -1
  else if (← smartidInit host) ≠ 0 then return -1
  else
    match host.getaddrinfo with
    | none => return -1
    | some as => do
      note (.alloc .addresses)
      match ← bindFirst opts 0 as with
      | .bound k =>
        note (.dispose .addresses)
        let _ ← smartidStart W fuel host k es
        smartidCleanup passes
        note (.dispose (.socket k))
        return 0
      | _ =>
        note (.dispose .addresses)
        smartidCleanup passes
        return -1

/-! ### Which runs return

The conditions look at the system and at the events of the clients only.
-/

/-- The daemon goes on to the next address. -/
def HostAddress.Skipped (opts : BindOptions) (a : HostAddress) : Prop :=
  a.Wanted opts → a.socket = true → a.setsockopt = true ∧ a.bind = false

/-- The daemon listens on the address. -/
def HostAddress.Taken (opts : BindOptions) (a : HostAddress) : Prop :=
  a.Wanted opts ∧ a.socket = true ∧ a.setsockopt = true ∧ a.bind = true

/-- The loop over the addresses comes to one that it binds. -/
def Binds (opts : BindOptions) (as : List HostAddress) : Prop :=
  ∃ front a back, as = front ++ a :: back ∧ (∀ b ∈ front, b.Skipped opts) ∧ a.Taken opts

/-- `smartid_run` has an address for the listener. -/
def Host.Bound (opts : BindOptions) (host : Host) : Prop :=
  host.signals = true ∧ host.eventBase = true ∧
    ∃ as, host.getaddrinfo = some as ∧ Binds opts as

/-- `smartid_start` gets to the event loop. -/
def Host.Starts (host : Host) : Prop :=
  host.nonblocking = true ∧ host.listen = true ∧ host.eventNew = true ∧ host.eventAdd = true

/-- The event loop handles the events one after the other. -/
def eventLoop (W : Nat → Irda S) (fuel : Nat) (w : S) (es : List (DaemonEvent S)) :
    Except Halt (Unit × Process S) :=
  (es.forM fun ev => ev.handle W fuel).run (Process.start w)

/-- Each event is possible when its turn comes. -/
def EventsPossible (W : Nat → Irda S) (fuel : Nat) : Process S → List (DaemonEvent S) → Prop
  | _, [] => True
  | p, ev :: es => ev.Possible p ∧
      ∀ p', (ev.handle W fuel).run p = .ok ((), p') → EventsPossible W fuel p' es

variable {W : Nat → Irda S} {fuel passes : Nat} {opts : BindOptions} {host : Host} {w : S}
  {m : DaemonMain S} {as : List HostAddress} {es : List (DaemonEvent S)} {p : Process S}
  {A L : Set Resource} {k : Nat} {e : Halt} {r : Resource} {f : Unit → MainM S α}

/-! ### One call

Equations for a program that begins with a call.
-/

/-- One more event. -/
def DaemonMain.noted (e : Event Resource) (m : DaemonMain S) : DaemonMain S :=
  { m with trace := m.trace ++ [e] }

@[simp] theorem noted_process (e : Event Resource) : (m.noted e).process = m.process := rfl

@[simp] theorem noted_evloop (e : Event Resource) : (m.noted e).evloop = m.evloop := rfl

@[simp] theorem noted_trace (e : Event Resource) : (m.noted e).trace = m.trace ++ [e] := rfl

/-- An event that is permitted. -/
theorem note_run {ev : Event Resource} (h : Permitted m.trace ev) :
    (note ev).run m = .ok ((), m.noted ev) := if_pos h

theorem alloc_bind : (note (.alloc r) >>= f).run m = (f ()).run (m.noted (.alloc r)) :=
  run_bind_of_ok (note_run trivial)

/-- What is held can be used. -/
theorem use_bind (hm : Holding A L m.trace) (hr : r ∈ L) :
    (note (.use r) >>= f).run m = (f ()).run (m.noted (.use r)) :=
  run_bind_of_ok (note_run fun _ => (hm.live r).mpr hr)

/-- What is held can be released. -/
theorem dispose_bind (hm : Holding A L m.trace) (hr : r ∈ L) :
    (note (.dispose r) >>= f).run m = (f ()).run (m.noted (.dispose r)) :=
  run_bind_of_ok (note_run fun _ => (hm.live r).mpr hr)

/-- The state is looked at. -/
theorem get_bind {g : DaemonMain S → MainM S α} : (get >>= g).run m = (g m).run m := rfl

/-- A pointer is set. -/
theorem setEvtConnect_bind {b : Bool} :
    (setEvtConnect b >>= f).run m = (f ()).run { m with evtConnect := b } := rfl

/-- **Memory that has been released** is neither used nor released again. -/
theorem note_dangling (hr : r.InMemory) (hm : ¬Live m.trace r) :
    (note (.use r) >>= f).run m = .error .dangling ∧
      (note (.dispose r) >>= f).run m = .error .dangling :=
  ⟨run_bind_of_error (if_neg fun h => hm (h hr)), run_bind_of_error (if_neg fun h => hm (h hr))⟩

/-! ### The loop over the addresses

The induction is over the addresses, with the sockets that are still held.
-/

/-- Without an address nothing is bound. -/
theorem not_binds_nil : ¬Binds opts [] := by
  rintro ⟨front, a, back, h, -⟩
  simp at h

/-- The first address is taken, or skipped. -/
theorem binds_cons {a : HostAddress} :
    Binds opts (a :: as) ↔ a.Taken opts ∨ (a.Skipped opts ∧ Binds opts as) := by
  constructor
  · rintro ⟨front, b, back, h, hskip, htaken⟩
    cases front with
    | nil =>
      cases h
      exact .inl htaken
    | cons c front =>
      cases h
      exact .inr ⟨hskip _ List.mem_cons_self, front, b, back, rfl,
        fun d hd => hskip d (List.mem_cons_of_mem _ hd), htaken⟩
  · rintro (htaken | ⟨hskipped, front, b, back, rfl, hskip, htaken⟩)
    · exact ⟨[], a, as, rfl, by rintro _ ⟨⟩, htaken⟩
    · refine ⟨a :: front, b, back, rfl, fun c hc => ?_, htaken⟩
      rcases List.mem_cons.mp hc with rfl | hc
      · exact hskipped
      · exact hskip c hc

/-- What the loop can have allocated before the `k`th address. -/
def before (k : Nat) : Set Resource := {r | r ≠ .listener ∧ ∀ j, k ≤ j → r ≠ .socket j}

/-- The sockets in front of the next address. -/
theorem before_succ (k : Nat) : before k ⊆ before (k + 1) := fun _ hr =>
  ⟨hr.1, fun j hj => hr.2 j (Nat.le_of_succ_le hj)⟩

theorem socket_not_mem_before (k : Nat) : .socket k ∉ before k := fun h => h.2 k le_rfl rfl

theorem insert_socket_before (k : Nat) : insert (.socket k) (before k) ⊆ before (k + 1) := by
  rintro r (rfl | hr)
  · refine ⟨by simp, fun j hj heq => ?_⟩
    cases heq
    omega
  · exact before_succ k hr

/-- What the loop leaves behind. -/
structure BindEnds (opts : BindOptions) (as : List HostAddress) (L : Set Resource)
    (m : DaemonMain S) (r : BindResult) (m' : DaemonMain S) : Prop where
  rest : m' = { m with trace := m'.trace }
  bound : ∀ k, r = .bound k →
    Binds opts as ∧ .socket k ∉ L ∧ ∃ n, Holding (before n) (insert (.socket k) L) m'.trace
  unbound : (∀ k, r ≠ .bound k) → ¬Binds opts as ∧ ∃ n, Holding (before n) L m'.trace

/-- The loop goes on behind an address that is skipped. -/
theorem BindEnds.skip {a : HostAddress} {m₁ m' : DaemonMain S} {r : BindResult}
    (h : BindEnds opts as L m₁ r m') (hm : m₁ = { m with trace := m₁.trace })
    (hskip : a.Skipped opts) (htaken : ¬a.Taken opts) : BindEnds opts (a :: as) L m r m' where
  rest := by
    rw [h.rest, hm]
  bound k hr := by
    obtain ⟨hbinds, hrest⟩ := h.bound k hr
    exact ⟨binds_cons.mpr (.inr ⟨hskip, hbinds⟩), hrest⟩
  unbound hr := by
    obtain ⟨hbinds, hrest⟩ := h.unbound hr
    exact ⟨fun hb => (binds_cons.mp hb).elim htaken fun h => hbinds h.2, hrest⟩

/-- **Every socket but the one that is bound is closed**, and one that is closed is not used. -/
theorem bindFirst_spec (hm : Holding (before k) L m.trace) (haddr : .addresses ∈ L)
    (hL : ∀ j, .socket j ∉ L) : Triple (bindFirst opts k as) m (BindEnds opts as L m) never := by
  induction as generalizing k m with
  | nil =>
    refine Triple.pure ⟨rfl, by rintro _ ⟨⟩, fun _ => ⟨not_binds_nil, k, hm⟩⟩
  | cons a as ih =>
    rw [bindFirst]
    apply Triple.of_run_eq (use_bind hm haddr)
    let m₁ : DaemonMain S := m.noted (.use .addresses)
    have hm₁ : Holding (before k) L m₁.trace := hm.use haddr
    rw [tryAddress]
    by_cases hwanted : a.Wanted opts
    case neg =>
      rw [if_pos hwanted]
      exact (ih (hm₁.mono (before_succ k))).imp fun r m' h => h.skip rfl
        (fun h => absurd h hwanted) fun h => hwanted h.1
    rw [if_neg (not_not.mpr hwanted)]
    cases hsocket : a.socket with
    | false =>
      have hno : a.socket ≠ true := by simp [hsocket]
      rw [if_pos (by decide)]
      exact (ih (hm₁.mono (before_succ k))).imp fun r m' h => h.skip rfl
        (fun _ h => absurd h hno) fun h => hno h.2.1
    | true =>
    rw [if_neg (by decide)]
    apply Triple.of_run_eq alloc_bind
    let m₂ : DaemonMain S := m₁.noted (.alloc (.socket k))
    have hm₂ : Holding (before (k + 1)) (insert (.socket k) L) m₂.trace :=
      (hm₁.push (socket_not_mem_before k)).mono (insert_socket_before k)
    -- the socket is closed again
    let m₃ : DaemonMain S := m₂.noted (.dispose (.socket k))
    have hclosed : Holding (before (k + 1)) L m₃.trace :=
      (hm₂.drop (Set.mem_insert _ _)).congr fun r => by
        have hk := hL k
        by_cases hr : r = .socket k
        · subst hr
          simp [hk]
        · simp [hr]
    cases hoption : a.setsockopt with
    | false =>
      have hno : a.setsockopt ≠ true := by simp [hoption]
      rw [if_pos (by decide)]
      apply Triple.of_run_eq (dispose_bind hm₂ (Set.mem_insert _ _))
      refine Triple.pure ⟨rfl, by rintro _ ⟨⟩, fun _ => ⟨fun hb => ?_, k + 1, hclosed⟩⟩
      rcases binds_cons.mp hb with htaken | ⟨hskip, -⟩
      · exact hno htaken.2.2.1
      · exact hno (hskip hwanted hsocket).1
    | true =>
    rw [if_neg (by decide)]
    cases hbind : a.bind with
    | false =>
      have hno : a.bind ≠ true := by simp [hbind]
      rw [if_pos (by decide)]
      apply Triple.of_run_eq (dispose_bind hm₂ (Set.mem_insert _ _))
      exact (ih hclosed).imp fun r m' h => h.skip rfl (fun _ _ => ⟨hoption, hbind⟩)
        fun h => hno h.2.2.2
    | true =>
      rw [if_neg (by decide)]
      refine Triple.pure ⟨rfl, ?_, fun h => absurd rfl (h k)⟩
      rintro _ ⟨⟩
      exact ⟨binds_cons.mpr (.inl ⟨hwanted, hsocket, hoption, hbind⟩), hL k, k + 1, hm₂⟩

/-! ### The event loop

The loop runs the process and leaves what the program holds as it is.
-/

/-- A function of the process that returns. -/
theorem onProcess_run {x : ProcM S α} {r : α} (h : x.run m.process = .ok (r, p)) :
    (onProcess x).run m = .ok (r, { m with process := p }) := by
  show onProcess x m = _
  rw [onProcess, h]

/-- A function of the process that halts. -/
theorem onProcess_run_error {x : ProcM S α} (h : x.run m.process = .error e) :
    (onProcess x).run m = .error e := by
  show onProcess x m = _
  rw [onProcess, h]

/-- An event loop that comes to the end of the events is a run of the daemon. -/
theorem DaemonReaches.of_run {front back : List (DaemonEvent S)} {p' : Process S}
    (h : DaemonReaches W fuel w front p) (hes : EventsPossible W fuel p back)
    (hrun : (back.forM fun ev => ev.handle W fuel).run p = .ok ((), p')) :
    DaemonReaches W fuel w (front ++ back) p' := by
  induction back generalizing front p with
  | nil =>
    cases hrun
    rwa [List.append_nil]
  | cons ev back ih =>
    obtain ⟨⟨⟩, p₁, hev, hback⟩ := run_bind_eq_ok.mp hrun
    have hsplit : front ++ ev :: back = front ++ [ev] ++ back := by simp
    rw [hsplit]
    exact ih (h.step hes.1 hev) (hes.2 p₁ hev) hback

/-- A run of the daemon is an event loop that comes to the end of the events. -/
theorem DaemonReaches.eventLoop_eq (h : DaemonReaches W fuel w es p) :
    eventLoop W fuel w es = .ok ((), p) := by
  induction h with
  | start => rfl
  | step _ _ hrun ih =>
    rw [eventLoop, List.forM_eq_forM] at ih ⊢
    rw [List.forM_append, run_bind_of_ok ih, List.forM_cons, run_bind_of_ok hrun]
    rfl

/-- A loop that ends has reached its process. -/
theorem eventLoop_reaches (hes : EventsPossible W fuel (Process.start w) es)
    (hloop : eventLoop W fuel w es = .ok ((), p)) : DaemonReaches W fuel w es p := by
  have hstart : DaemonReaches W fuel w [] (Process.start w) := .start
  exact hstart.of_run hes hloop

/-! ### The server

What is held behind each of its functions.
-/

/-- What `smartid_cleanup` does to the trace. -/
def cleanupTrace (evtConnect : Bool) : List (Event Resource) :=
  (if evtConnect then [.use .listener, .dispose .listener] else []) ++ [.dispose .base]

/-- The event of the listener is closed if there is one. -/
theorem closeConnectionEvent_run (hm : Holding A L m.trace)
    (hlistener : m.evtConnect = true → .listener ∈ L) :
    ∃ t, closeConnectionEvent.run m =
        .ok ((), { m with trace := m.trace ++ t, evtConnect := false }) ∧
      t ++ [.dispose .base] = cleanupTrace m.evtConnect ∧
      (.base ∈ L → Live (m.trace ++ t) .base) := by
  cases hconnect : m.evtConnect with
  | false =>
    refine ⟨[], ?_, rfl, fun hbase => ?_⟩
    · rw [closeConnectionEvent, get_bind, hconnect, if_neg (by decide), List.append_nil, ← hconnect]
      rfl
    · rw [List.append_nil]
      exact (hm.live _).mpr hbase
  | true =>
    have hmem : .listener ∈ L := hlistener hconnect
    have hused := hm.use hmem
    refine ⟨[.use .listener, .dispose .listener], ?_, rfl, fun hbase => ?_⟩
    · rw [closeConnectionEvent, get_bind, hconnect, if_pos rfl, use_bind hm hmem,
        dispose_bind (m := m.noted _) hused hmem, List.append_cons]
      rfl
    · have hgone := (hused.drop hmem).live .base
      rw [List.append_assoc] at hgone
      exact hgone.mpr ⟨hbase, by simp⟩

/-- The event base is released if there is one. -/
theorem releaseEventLoop_run (hm : Live m.trace .base) (hevloop : m.evloop = true) :
    releaseEventLoop.run m =
      .ok ((), { m with trace := m.trace ++ [.dispose .base], evloop := false }) := by
  have hnote : (note (.dispose .base)).run m = .ok ((), m.noted (.dispose .base)) :=
    note_run fun _ => hm
  rw [releaseEventLoop, get_bind, if_pos hevloop, run_bind_of_ok hnote]
  rfl

/-- With the event base there, and the listener if its pointer is set, the cleanup ends. -/
theorem smartidCleanup_run {conns : List Nat} (h : Orderly conns m.process)
    (hm : Holding A L m.trace) (hbase : .base ∈ L) (hevloop : m.evloop = true)
    (hlistener : m.evtConnect = true → .listener ∈ L) :
    ∃ m', (∀ passes, conns.length < passes → (smartidCleanup passes).run m = .ok ((), m')) ∧
      Orderly [] m'.process ∧ m'.trace = m.trace ++ cleanupTrace m.evtConnect := by
  obtain ⟨p, hempty, hrun⟩ := smartidConnCleanup_orderly h
  let m₁ : DaemonMain S := { m with process := p }
  obtain ⟨t, hclose, htrace, hlive⟩ := closeConnectionEvent_run (m := m₁) hm hlistener
  refine ⟨⟨p, m.trace ++ t ++ [.dispose .base], false, false⟩, fun passes hpasses => ?_, hempty, ?_⟩
  · rw [smartidCleanup, run_bind_of_ok (onProcess_run (hrun passes hpasses)),
      run_bind_of_ok hclose]
    exact releaseEventLoop_run (hlive hbase) hevloop
  · show m.trace ++ t ++ [.dispose .base] = _
    rw [List.append_assoc, htrace]

/-- **A pointer that is still set behind a failed start** is followed into freed memory. -/
theorem smartidCleanup_dangling (h : Orderly [] m.process) (hevloop : m.evloop = true)
    (hbase : ¬Live m.trace .base) (hlistener : ¬Live m.trace .listener) (passes : Nat) :
    (smartidCleanup (passes + 1)).run m = .error .dangling := by
  obtain ⟨p, -, hrun⟩ := smartidConnCleanup_orderly h
  rw [smartidCleanup, run_bind_of_ok (onProcess_run (hrun _ (Nat.succ_pos passes)))]
  obtain ⟨process, trace, evloop, evtConnect⟩ := m
  obtain rfl : evloop = true := hevloop
  cases evtConnect with
  | false =>
    show (note (.dispose .base) >>= fun _ => setEvloop false).run
      (⟨p, trace, true, false⟩ : DaemonMain S) = _
    exact (note_dangling (m := ⟨p, trace, true, false⟩) (r := .base) trivial hbase).2
  | true =>
    apply run_bind_of_error
    show (note (.use .listener) >>= fun _ => note (.dispose .listener) >>= fun _ =>
      setEvtConnect false).run (⟨p, trace, true, true⟩ : DaemonMain S) = _
    exact (note_dangling (m := ⟨p, trace, true, true⟩) (r := .listener) trivial hlistener).1

/-- The trace of a server that gets to its event loop. -/
def startTrace (k : Nat) : List (Event Resource) :=
  [.use (.socket k), .use (.socket k), .use .base, .alloc .listener, .use .listener, .use .base]

/-- The exits before the event loop release the socket and the event base. -/
theorem smartidStartFailed_spec (hm : Holding A L m.trace) (hsocket : .socket k ∈ L)
    (hbase : .base ∈ L) (hlistener : .listener ∉ L) :
    Triple (smartidStartFailed k) m (fun _ m' => m'.process = m.process ∧
      m'.evloop = m.evloop ∧ ¬Live m'.trace .base ∧ ¬Live m'.trace .listener) never := by
  have hm₁ : Holding _ _ (m.noted (.dispose (.socket k))).trace := hm.drop hsocket
  have hm₂ : Holding _ _ ((m.noted (.dispose (.socket k))).noted (.dispose .base)).trace :=
    hm₁.drop ⟨hbase, by simp⟩
  apply Triple.of_run_eq (dispose_bind hm hsocket)
  apply Triple.of_run_eq (dispose_bind hm₁ ⟨hbase, by simp⟩)
  refine Triple.pure ⟨rfl, rfl, ?_, ?_⟩
  · rw [hm₂.live]
    exact fun h => h.2 rfl
  · rw [hm₂.live]
    exact fun h => hlistener h.1.1

/-- The addresses are given back when one of them is bound. -/
theorem holding_bound {n : Nat}
    (hm : Holding (before n) (insert (.socket k) {.addresses, .base}) m.trace) :
    Holding (before n) {.socket k, .base} (m.noted (.dispose .addresses)).trace :=
  (hm.drop (k := .addresses) (by simp)).congr fun r => by
    simp only [Set.mem_sdiff, Set.mem_insert_iff, Set.mem_singleton_iff]
    constructor
    · tauto
    · rintro (rfl | rfl) <;> simp

section Start

variable {n : Nat} (hm : Holding (before n) {.socket k, .base} m.trace)

include hm

/-- The listener at the event loop. -/
theorem holding_started :
    Holding (insert .listener (before n)) {.listener, .socket k, .base}
      (m.trace ++ startTrace k) := by
  have hstart := (((hm.use (k := .socket k) (by simp)).use (k := .socket k) (by simp)).use
    (k := .base) (by simp)).push (k := .listener) fun h => h.1 rfl
  have hloop := (hstart.use (k := .listener) (by simp)).use (k := .base) (by simp)
  simpa [startTrace] using hloop

/-- A server that starts is at its event loop. -/
theorem smartidStart_eq (hstarts : host.Starts) :
    (smartidStart W fuel host k es).run m =
      (do
        onProcess (es.forM fun ev => ev.handle W fuel)
        return if host.dispatch then 0 else -1 : MainM S Int).run
        ⟨m.process, m.trace ++ startTrace k, m.evloop, true⟩ := by
  obtain ⟨hnonblocking, hlisten, hnew, hadd⟩ := hstarts
  have hsocket : .socket k ∈ ({.socket k, .base} : Set Resource) := by simp
  have hbase : .base ∈ ({.socket k, .base} : Set Resource) := by simp
  let m₁ : DaemonMain S := m.noted (.use (.socket k))
  have hm₁ : Holding _ _ m₁.trace := hm.use hsocket
  let m₂ : DaemonMain S := m₁.noted (.use (.socket k))
  have hm₂ : Holding _ _ m₂.trace := hm₁.use hsocket
  let m₃ : DaemonMain S := { m₂.noted (.use .base) with evtConnect := true }
  let m₄ : DaemonMain S := m₃.noted (.alloc .listener)
  have hm₄ : Holding _ _ m₄.trace := (hm₂.use hbase).push (k := .listener) fun h => h.1 rfl
  let m₅ : DaemonMain S := m₄.noted (.use .listener)
  have hm₅ : Holding _ _ m₅.trace := hm₄.use (by simp)
  have htrace : (m₅.noted (.use .base)).trace = m.trace ++ startTrace k := by
    simp [m₅, m₄, m₃, m₂, m₁, startTrace]
  rw [smartidStart, hnonblocking, hlisten, hnew, hadd, ← htrace]
  apply (use_bind hm hsocket).trans
  apply (use_bind hm₁ hsocket).trans
  apply (use_bind hm₂ hbase).trans
  apply setEvtConnect_bind.trans
  apply (alloc_bind (m := m₃)).trans
  apply (use_bind hm₄ (by simp)).trans
  exact use_bind hm₅ (by simp)

/-- **A server that does not get to its event loop** has released the event base, and leaves the
pointers as they are. -/
theorem smartidStart_failed (hstarts : ¬host.Starts) :
    Triple (smartidStart W fuel host k es) m (fun _ m' => m'.process = m.process ∧
      m'.evloop = m.evloop ∧ ¬Live m'.trace .base ∧ ¬Live m'.trace .listener) never := by
  have hsocket : .socket k ∈ ({.socket k, .base} : Set Resource) := by simp
  have hbase : .base ∈ ({.socket k, .base} : Set Resource) := by simp
  have hlistener : .listener ∉ ({.socket k, .base} : Set Resource) := by simp
  let m₁ : DaemonMain S := m.noted (.use (.socket k))
  have hm₁ : Holding _ _ m₁.trace := hm.use hsocket
  let m₂ : DaemonMain S := m₁.noted (.use (.socket k))
  have hm₂ : Holding _ _ m₂.trace := hm₁.use hsocket
  rw [smartidStart]
  apply Triple.of_run_eq (use_bind hm hsocket)
  cases hnonblocking : host.nonblocking
  case false => exact smartidStartFailed_spec (m := m₁) hm₁ hsocket hbase hlistener
  apply Triple.of_run_eq (use_bind hm₁ hsocket)
  cases hlisten : host.listen
  case false => exact smartidStartFailed_spec (m := m₂) hm₂ hsocket hbase hlistener
  apply Triple.of_run_eq (use_bind hm₂ hbase)
  apply Triple.of_run_eq setEvtConnect_bind
  cases hnew : host.eventNew
  case false =>
    let m₃ : DaemonMain S := { m₂.noted (.use .base) with evtConnect := false }
    exact smartidStartFailed_spec (m := m₃) (hm₂.use hbase) hsocket hbase hlistener
  let m₃ : DaemonMain S := { m₂.noted (.use .base) with evtConnect := true }
  let m₄ : DaemonMain S := m₃.noted (.alloc .listener)
  have hm₄ : Holding _ _ m₄.trace := (hm₂.use hbase).push (k := .listener) fun h => h.1 rfl
  let m₅ : DaemonMain S := m₄.noted (.use .listener)
  have hm₅ : Holding _ _ m₅.trace := hm₄.use (by simp)
  apply Triple.of_run_eq (alloc_bind (m := m₃))
  apply Triple.of_run_eq (use_bind hm₄ (by simp))
  cases hadd : host.eventAdd
  case false =>
    -- the listener is released, and its pointer is not
    let m₆ : DaemonMain S := m₅.noted (.dispose .listener)
    have hm₆ : Holding _ _ m₆.trace := hm₅.drop (by simp)
    apply Triple.of_run_eq (dispose_bind hm₅ (by simp))
    exact smartidStartFailed_spec (m := m₆) hm₆ (by simp) (by simp) (by simp)
  exact absurd ⟨hnonblocking, hlisten, hnew, hadd⟩ hstarts

end Start

/-! ### From the start to the end

The parts are put together: the addresses, the start of the server, the events, and the
cleanup.
-/

/-- Everything that has been got from the system has been given back once, and nothing has been
used after that. -/
def ReleasesAll (t : List (Event Resource)) : Prop := Sound t ∧ ∀ r, ¬Live t r

/-- Nothing is held any more. -/
theorem releasesAll_of_holding {t : List (Event Resource)} (h : Holding A L t)
    (hL : ∀ r, r ∉ L) : ReleasesAll t := ⟨h.sound, fun r hr => hL r ((h.live r).mp hr)⟩

/-- The daemon when the addresses are there. -/
def atAddresses (w : S) : DaemonMain S :=
  ⟨Process.start w, [.alloc .base, .alloc .addresses], true, false⟩

/-- What is held in front of the loop. -/
theorem holding_atAddresses (w : S) :
    Holding (before 0) {.addresses, .base} (atAddresses w).trace := by
  have hbase : Holding {Resource.base} {.base} [.alloc .base] :=
    (Holding.nil.push (k := Resource.base) (by simp)).mono (by simp) |>.congr (by simp)
  apply (hbase.push (k := .addresses) (by simp)).mono
  rintro r (rfl | rfl)
  · exact ⟨by simp, by simp⟩
  · exact ⟨by simp, by simp⟩

/-- The part of `smartid_run` behind the loop over the addresses. -/
def runBound (W : Nat → Irda S) (fuel passes : Nat) (host : Host) (es : List (DaemonEvent S)) :
    BindResult → MainM S Int
  | .bound k => do
    note (.dispose .addresses)
    let _ ← smartidStart W fuel host k es
    smartidCleanup passes
    note (.dispose (.socket k))
    return 0
  | _ => do
    note (.dispose .addresses)
    smartidCleanup passes
    return -1

/-- With the addresses there, `smartid_run` binds one of them and starts the server. -/
theorem smartidRun_run (hsignals : host.signals = true) (hbase : host.eventBase = true)
    (has : host.getaddrinfo = some as) {r : BindResult} {m₁ : DaemonMain S}
    (hrun : (bindFirst opts 0 as).run (atAddresses w) = .ok (r, m₁)) (passes : Nat) :
    (smartidRun W fuel passes opts host es).run (DaemonMain.start w) =
      (runBound W fuel passes host es r).run m₁ := by
  have hstart : (smartidRun W fuel passes opts host es).run (DaemonMain.start w) =
      (bindFirst opts 0 as >>= runBound W fuel passes host es).run (atAddresses w) := by
    rw [smartidRun, hsignals, smartidInit, hbase, has]
    rfl
  rw [hstart, run_bind_of_ok hrun]

/-- How a run comes to its end: with `rv`, without a connection, and with everything released if
`all`. -/
def DaemonReturns (run : Nat → Except Halt (Int × DaemonMain S)) (rv : Int) (all : Prop) : Prop :=
  ∃ least m, (∀ passes, least ≤ passes → run passes = .ok (rv, m)) ∧ Orderly [] m.process ∧
    (ReleasesAll m.trace ↔ all)

section Behind

variable {n : Nat} (hprocess : m.process = Process.start w)

include hprocess

/-- Without a listener everything is released. -/
theorem runBound_unbound (W : Nat → Irda S) (fuel : Nat) (host : Host)
    (es : List (DaemonEvent S)) {r : BindResult} (hevloop : m.evloop = true)
    (hconnect : m.evtConnect = false) (hr : ∀ k, r ≠ .bound k)
    (hm : Holding (before n) {.addresses, .base} m.trace) :
    DaemonReturns (fun passes => (runBound W fuel passes host es r).run m) (-1) True := by
  let m₁ : DaemonMain S := m.noted (.dispose .addresses)
  have hm₁ : Holding _ _ m₁.trace := hm.drop (k := .addresses) (by simp)
  have horderly : Orderly [] m₁.process := hprocess ▸ orderly_start w
  have hpointer : m₁.evtConnect = false := hconnect
  obtain ⟨m', hrun, hempty, htrace⟩ := smartidCleanup_run horderly hm₁ (by simp) hevloop
    (by rw [hpointer]; rintro ⟨⟩)
  refine ⟨1, m', fun passes hpasses => ?_, hempty, iff_of_true ?_ trivial⟩
  · have hbehind : (note (.dispose .addresses) >>= fun _ => smartidCleanup passes >>= fun _ =>
        return (-1 : Int)).run m = .ok (-1, m') := by
      rw [dispose_bind hm (by simp)]
      exact run_bind_of_ok (hrun passes hpasses)
    cases r with
    | bound k => exact absurd rfl (hr k)
    | fatal => exact hbehind
    | unbound => exact hbehind
  · rw [htrace, hpointer]
    refine releasesAll_of_holding (hm₁.drop (k := .base) (by simp)) fun r => ?_
    simp only [Set.mem_sdiff, Set.mem_insert_iff, Set.mem_singleton_iff]
    tauto

variable (hm : Holding (before n) (insert (.socket k) {.addresses, .base}) m.trace)

include hm

/-- **With a listener that does not start** the cleanup comes to freed memory. -/
theorem runBound_dangling (hevloop : m.evloop = true) (hstarts : ¬host.Starts) (passes : Nat) :
    (runBound W fuel (passes + 1) host es (.bound k)).run m = .error .dangling := by
  have hm₁ : Holding (before n) {.socket k, .base} (m.noted (.dispose .addresses)).trace :=
    holding_bound hm
  have hfailed : Triple (smartidStart W fuel host k es) (m.noted (.dispose .addresses)) _ never :=
    smartidStart_failed hm₁ hstarts
  obtain ⟨rv, m₂, hrun, hprocess₂, hevloop₂, hbase, hlistener⟩ := hfailed.exists_run
  have horderly : Orderly [] m₂.process := by
    rw [hprocess₂]
    exact hprocess ▸ orderly_start w
  rw [runBound, dispose_bind hm (by simp), run_bind_of_ok hrun]
  exact run_bind_of_error (smartidCleanup_dangling horderly (hevloop₂.trans hevloop) hbase
    hlistener passes)

/-- A server that starts comes to what its event loop comes to. -/
theorem runBound_halts (hstarts : host.Starts) (hloop : eventLoop W fuel w es = .error e)
    (passes : Nat) : (runBound W fuel passes host es (.bound k)).run m = .error e := by
  have hm₁ : Holding (before n) {.socket k, .base} (m.noted (.dispose .addresses)).trace :=
    holding_bound hm
  rw [runBound, dispose_bind hm (by simp)]
  refine run_bind_of_error ((smartidStart_eq hm₁ hstarts).trans ?_)
  exact run_bind_of_error (onProcess_run_error (hprocess ▸ hloop))

/-- **With a listener that starts everything is released.** -/
theorem runBound_bound (hevloop : m.evloop = true) (hstarts : host.Starts)
    (h : DaemonReaches W fuel w es p)
    (hloop : eventLoop W fuel w es = .ok ((), p)) :
    DaemonReturns (fun passes => (runBound W fuel passes host es (.bound k)).run m) 0 True := by
  let m₁ : DaemonMain S := m.noted (.dispose .addresses)
  have hm₁ : Holding (before n) {.socket k, .base} m₁.trace := holding_bound hm
  have hm₂ := holding_started hm₁
  obtain ⟨conns, horderly⟩ := h.orderly
  let m₂ : DaemonMain S := ⟨p, m₁.trace ++ startTrace k, m₁.evloop, true⟩
  obtain ⟨m', hcleanup, hempty, htrace⟩ := smartidCleanup_run (m := m₂) horderly hm₂ (by simp)
    hevloop (by simp)
  have hend := ((hm₂.use (k := .listener) (by simp)).drop (k := .listener) (by simp)).drop
    (k := .base) (by simp)
  have htrace : m₁.trace ++ startTrace k ++ [.use .listener] ++ [.dispose .listener] ++
      [.dispose .base] = m'.trace := by
    rw [htrace]
    simp [cleanupTrace, m₂]
  rw [htrace] at hend
  refine ⟨conns.length + 1, m'.noted (.dispose (.socket k)), fun passes hpasses => ?_, hempty,
    iff_of_true ?_ trivial⟩
  · have hstart : (smartidStart W fuel host k es).run m₁ =
        .ok (if host.dispatch then 0 else -1, m₂) := by
      rw [smartidStart_eq hm₁ hstarts]
      have hevents : (es.forM fun ev => ev.handle W fuel).run m₁.process = .ok ((), p) :=
        hprocess ▸ hloop
      exact run_bind_of_ok (onProcess_run hevents)
    show (runBound W fuel passes host es (.bound k)).run m = _
    rw [runBound, dispose_bind hm (by simp), run_bind_of_ok hstart,
      run_bind_of_ok (hcleanup passes hpasses), dispose_bind hend (by simp)]
    rfl
  · refine releasesAll_of_holding (hend.drop (k := .socket k) (by simp)) fun r => ?_
    simp only [Set.mem_sdiff, Set.mem_insert_iff, Set.mem_singleton_iff]
    tauto

end Behind

/-- The loop over the addresses, from the start of the daemon. -/
theorem bindFirst_start (opts : BindOptions) (as : List HostAddress) (w : S) :
    ∃ r m₁, (bindFirst opts 0 as).run (atAddresses w) = .ok (r, m₁) ∧
      BindEnds opts as {.addresses, .base} (atAddresses w) r m₁ ∧
      m₁.process = Process.start w ∧ m₁.evloop = true ∧ m₁.evtConnect = false := by
  have hspec : Triple (bindFirst opts 0 as) (atAddresses w) _ never :=
    bindFirst_spec (holding_atAddresses w) (by simp) (by simp)
  obtain ⟨r, m₁, hrun, hends⟩ := hspec.exists_run
  have hrest := hends.rest
  exact ⟨r, m₁, hrun, hends, by rw [hrest]; rfl, by rw [hrest]; rfl, by rw [hrest]; rfl⟩

/-- With an address that can be bound the daemon comes to `smartid_start`. -/
theorem smartidRun_bound (hbound : host.Bound opts) (w : S) :
    ∃ k n m₁, m₁.process = Process.start w ∧ m₁.evloop = true ∧
      Holding (before n) (insert (.socket k) {.addresses, .base}) m₁.trace ∧
      ∀ W fuel passes es, (smartidRun W fuel passes opts host es).run (DaemonMain.start w) =
        (runBound W fuel passes host es (.bound k)).run m₁ := by
  obtain ⟨hsignals, hbase, as, has, hbinds⟩ := hbound
  obtain ⟨r, m₁, hrun, hends, hprocess, hevloop, -⟩ := bindFirst_start opts as w
  by_cases hr : ∃ k, r = .bound k
  · obtain ⟨k, rfl⟩ := hr
    obtain ⟨-, -, n, hheld⟩ := hends.bound k rfl
    exact ⟨k, n, m₁, hprocess, hevloop, hheld, fun W fuel passes es =>
      smartidRun_run hsignals hbase has hrun passes⟩
  · exact absurd hbinds (hends.unbound fun k heq => hr ⟨k, heq⟩).1

/-- **Without an address** the daemon returns, and only a failure of `getaddrinfo` leaves something
behind. -/
theorem smartidRun_unbound (W : Nat → Irda S) (fuel : Nat) (es : List (DaemonEvent S)) (w : S)
    (hbound : ¬host.Bound opts) :
    DaemonReturns (fun passes => (smartidRun W fuel passes opts host es).run (DaemonMain.start w))
      (-1) (host.signals = false ∨ host.eventBase = false ∨ host.getaddrinfo ≠ none) := by
  have hstart : Orderly [] (Process.start w) := orderly_start w
  have hnothing : ReleasesAll [] := ⟨.nil, not_live_nil⟩
  cases hsignals : host.signals with
  | false =>
    refine ⟨0, DaemonMain.start w, fun passes _ => ?_, hstart, iff_of_true hnothing (.inl rfl)⟩
    show (smartidRun W fuel passes opts host es).run (DaemonMain.start w) = _
    rw [smartidRun, hsignals]
    rfl
  | true =>
  cases hbase : host.eventBase with
  | false =>
    refine ⟨0, DaemonMain.start w, fun passes _ => ?_, hstart,
      iff_of_true hnothing (.inr (.inl rfl))⟩
    show (smartidRun W fuel passes opts host es).run (DaemonMain.start w) = _
    rw [smartidRun, hsignals, smartidInit, hbase]
    rfl
  | true =>
  cases has : host.getaddrinfo with
  | none =>
    -- the event base is left behind
    refine ⟨0, ⟨Process.start w, [.alloc .base], true, false⟩, fun passes _ => ?_, hstart, ?_⟩
    · show (smartidRun W fuel passes opts host es).run (DaemonMain.start w) = _
      rw [smartidRun, hsignals, smartidInit, hbase, has]
      rfl
    · refine iff_of_false (fun hall => hall.2 .base ?_) (by simp)
      show Live [.alloc .base] Resource.base
      decide
  | some as =>
  obtain ⟨r, m₁, hrun, hends, hprocess, hevloop, hconnect⟩ := bindFirst_start opts as w
  have hr : ∀ k, r ≠ .bound k := by
    rintro k rfl
    exact hbound ⟨hsignals, hbase, as, has, (hends.bound k rfl).1⟩
  obtain ⟨-, n, hheld⟩ := hends.unbound hr
  obtain ⟨least, m', hrun', hempty, hall⟩ :=
    runBound_unbound hprocess W fuel host es hevloop hconnect hr hheld
  refine ⟨least, m', fun passes hpasses => ?_, hempty, ?_⟩
  · exact (smartidRun_run hsignals hbase has hrun passes).trans (hrun' passes hpasses)
  · exact iff_of_true (hall.mpr trivial) (.inr (.inr (by simp)))

/-- **What the daemon gives back**, whatever the system says to its calls and whatever the clients
do.  If an address is bound and `smartid_start` fails before the event loop, `smartid_cleanup`
follows a pointer into freed memory.  If the event loop is reached and comes to a halt, so does
`smartid_run`.  In all other cases it returns with no connection left, zero if an address has been
bound and else `-1`, and it has given back everything that it had got, once, unless `getaddrinfo`
has failed. -/
theorem smartidRun_releases_iff (hes : EventsPossible W fuel (Process.start w) es)
    (opts : BindOptions) (host : Host) :
    (host.Bound opts → ¬host.Starts → ∀ passes,
      (smartidRun W fuel (passes + 1) opts host es).run (DaemonMain.start w) = .error .dangling) ∧
    (host.Bound opts → host.Starts → ∀ e, eventLoop W fuel w es = .error e → ∀ passes,
      (smartidRun W fuel passes opts host es).run (DaemonMain.start w) = .error e) ∧
    (host.Bound opts → host.Starts → ∀ p, eventLoop W fuel w es = .ok ((), p) →
      DaemonReturns (fun passes => (smartidRun W fuel passes opts host es).run (DaemonMain.start w))
        0 True) ∧
    (¬host.Bound opts →
      DaemonReturns (fun passes => (smartidRun W fuel passes opts host es).run (DaemonMain.start w))
        (-1) (host.signals = false ∨ host.eventBase = false ∨ host.getaddrinfo ≠ none)) := by
  refine ⟨?_, ?_, ?_, smartidRun_unbound W fuel es w⟩
  · intro hbound hstarts passes
    obtain ⟨k, n, m, hprocess, hevloop, hheld, hrun⟩ := smartidRun_bound hbound w
    exact (hrun _ _ _ _).trans (runBound_dangling hprocess hheld hevloop hstarts passes)
  · intro hbound hstarts e hloop passes
    obtain ⟨k, n, m, hprocess, -, hheld, hrun⟩ := smartidRun_bound hbound w
    exact (hrun _ _ _ _).trans (runBound_halts hprocess hheld hstarts hloop passes)
  · intro hbound hstarts p hloop
    obtain ⟨k, n, m, hprocess, hevloop, hheld, hrun⟩ := smartidRun_bound hbound w
    obtain ⟨least, m', hrun', hrest⟩ := runBound_bound hprocess hheld hevloop hstarts
      (eventLoop_reaches hes hloop) hloop
    exact ⟨least, m', fun passes hpasses => (hrun _ _ _ _).trans (hrun' passes hpasses), hrest⟩

/-- One more event in front. -/
theorem eventsPossible_cons {ev : DaemonEvent S} (hev : ev.Possible p)
    (hrest : EventsPossible W fuel (processAfter (ev.handle W fuel) p) es) :
    EventsPossible W fuel p (ev :: es) := by
  refine ⟨hev, fun p' hrun => ?_⟩
  rwa [processAfter, hrun] at hrest

/-- The events of two clients. -/
theorem twoOpens_possible : EventsPossible (fun _ => liveIrda) 0 (Process.start ()) twoOpens := by
  refine eventsPossible_cons rfl (eventsPossible_cons rfl ?_)
  exact eventsPossible_cons (by rintro ⟨⟩) (eventsPossible_cons (by rintro ⟨⟩) trivial)

/-- A host that binds its third address. -/
def servingHost : Host where
  signals := true
  eventBase := true
  getaddrinfo := some [⟨.inet6, true, true, true⟩, ⟨.inet, true, true, false⟩,
    ⟨.inet, true, true, true⟩]
  nonblocking := true
  listen := true
  eventNew := true
  eventAdd := true
  dispatch := true

/-- An address is bound. -/
theorem servingHost_bound : servingHost.Bound ⟨true, false⟩ := by
  refine ⟨rfl, rfl, _, rfl, [⟨.inet6, true, true, true⟩, ⟨.inet, true, true, false⟩],
    ⟨.inet, true, true, true⟩, [], rfl, ?_, ?_⟩
  · intro b hb
    simp only [List.mem_cons, List.not_mem_nil, or_false] at hb
    rcases hb with rfl | rfl <;> simp [HostAddress.Skipped, HostAddress.Wanted]
  · simp [HostAddress.Taken, HostAddress.Wanted]

/-- Two clients open the device, and the daemon shuts down. -/
theorem smartidRun_releases_iff_serving :
    DaemonReturns (fun passes => (smartidRun (fun _ => liveIrda) 0 passes ⟨true, false⟩
      servingHost twoOpens).run (DaemonMain.start ())) 0 True :=
  (smartidRun_releases_iff twoOpens_possible ⟨true, false⟩ servingHost).2.2.1 servingHost_bound
    ⟨rfl, rfl, rfl, rfl⟩ twoClients twoClients_reached.eventLoop_eq

end BenthosDc

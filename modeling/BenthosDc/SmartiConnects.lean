/-
BenthosDc/SmartiConnects.lean

What a connect that fails leaves behind.

`smarti_client_connect` tries the addresses one after the other, reads the greeting of the
first one that it can connect to, and disconnects at the exits behind that.  Two of its paths
leave something behind: the descriptor of an address that is passed over stays open, and a
greeting that does not come in time leaves the client connected.

* `smartiClientConnect_failsClean_iff`: when a failed connect leaves the client disconnected,
  and every descriptor that it has opened is closed.
-/
import BenthosDc.SmartiKernel

namespace BenthosDc

open CString Hoare

/-! ### Disconnected clients and closed descriptors -/

/-- No socket, and nothing known of the server. -/
structure NetClient.Disconnected (c : NetClient) : Prop where
  socket : c.socket.s = -1
  serverId : c.serverId = none
  serverAddr : c.serverAddr = none
  serverPort : c.serverPort = 0

/-- Every descriptor is closed as often as it is opened. -/
def AllClosed (events : List FdEvent) : Prop :=
  ∀ fd, events.count (.closed fd) = events.count (.opened fd)

/-- The client `c'` is disconnected, and all that has been opened since `c` is closed. -/
def FailsClean (c c' : NetClient) : Prop :=
  c'.Disconnected ∧ ∃ events, c'.fds = c.fds ++ events ∧ AllClosed events

/-! ### The addresses

An address is usable if a socket can be made for it, and connected.  The first usable one is
taken, and those in front of it are passed over.
-/

/-- The loop over the addresses ends here. -/
def ServerAddr.usable (a : ServerAddr) : Bool :=
  match a.socket with
  | none => false
  | some fd => fd ≠ 0 && a.connects

/-- The descriptor that is opened for an address. -/
def ServerAddr.opening (a : ServerAddr) : Option FdEvent := a.socket.map fun fd => .opened fd

/-- The addresses in front of the first one that is usable. -/
def passedOver (servers : List ServerAddr) : List ServerAddr :=
  servers.takeWhile fun a => !a.usable

/-- No descriptor is opened for an address that is passed over, and the greeting of the first
usable address does not time out, if its descriptor is below `FD_SETSIZE`. -/
def ConnectsClean (E : NetEnv) (p : Nat) (servers : List ServerAddr) : Prop :=
  (∀ a ∈ passedOver servers, a.socket = none) ∧
  ∀ a fd, servers.find? ServerAddr.usable = some a → a.socket = some fd → (fd : Int) < fdSetsize →
    ∀ line q, ¬ReadsLine E.reads p line .timedOut q

section Connect

variable {E : NetEnv} {fuel : Nat} {c c' : NetClient} {servers : List ServerAddr} {fd : Nat}
  {a : ServerAddr} {f : Failure}

/-- A usable address is taken. -/
theorem connectFirst_usable {rest : List ServerAddr} (hsocket : a.socket = some fd)
    (husable : a.usable = true) (c : NetClient) :
    (NetM.connectFirst (a :: rest)).run c =
      .ok (some (fd, a), { c with fds := c.fds ++ [.opened fd] }) := by
  have hfd : ¬fd = 0 ∧ a.connects = true := by simpa [ServerAddr.usable, hsocket] using husable
  rw [NetM.connectFirst, hsocket]
  simp only [hfd.1, hfd.2]
  rfl

/-- Another one is passed over. -/
theorem connectFirst_passes {rest : List ServerAddr} (husable : ¬a.usable = true) (c : NetClient) :
    (NetM.connectFirst (a :: rest)).run c =
      (NetM.connectFirst rest).run { c with fds := c.fds ++ a.opening.toList } := by
  rw [NetM.connectFirst, ServerAddr.opening]
  cases hsocket : a.socket with
  | none =>
    show _ = (NetM.connectFirst rest).run { c with fds := c.fds ++ [] }
    rw [List.append_nil]
  | some fd =>
    have hfd : fd = 0 ∨ a.connects = false := by
      simpa [ServerAddr.usable, hsocket, or_iff_not_imp_left] using husable
    rcases hfd with rfl | hconnects
    · rfl
    · simp only [hconnects]
      split
      · rfl
      · rfl

/-- **The loop over the addresses**: it opens what it passes over, and stops at the first usable
address. -/
theorem connectFirst_run (servers : List ServerAddr) (c : NetClient) :
    ∃ r events, (NetM.connectFirst servers).run c = .ok (r, { c with fds := c.fds ++ events }) ∧
      match r with
      | none => servers.find? ServerAddr.usable = none ∧
          events = (passedOver servers).filterMap ServerAddr.opening
      | some (fd, a) => servers.find? ServerAddr.usable = some a ∧ a.socket = some fd ∧
          events = (passedOver servers).filterMap ServerAddr.opening ++ [.opened fd] := by
  induction servers generalizing c with
  | nil => exact ⟨none, [], by rw [List.append_nil]; rfl, rfl, rfl⟩
  | cons a rest ih =>
    by_cases husable : a.usable = true
    · obtain ⟨fd, hsocket⟩ : ∃ fd, a.socket = some fd := by
        rw [← Option.ne_none_iff_exists']
        intro hnone
        rw [ServerAddr.usable, hnone] at husable
        cases husable
      refine ⟨some (fd, a), [.opened fd], connectFirst_usable hsocket husable c, ?_, hsocket, ?_⟩
      · rw [List.find?_cons_of_pos husable]
      · simp [passedOver, husable]
    · obtain ⟨r, events, hrun, hr⟩ := ih { c with fds := c.fds ++ a.opening.toList }
      refine ⟨r, a.opening.toList ++ events, ?_, ?_⟩
      · rw [connectFirst_passes husable, hrun, List.append_assoc]
      · have hpassed : (passedOver (a :: rest)).filterMap ServerAddr.opening =
            a.opening.toList ++ (passedOver rest).filterMap ServerAddr.opening := by
          rw [passedOver, List.takeWhile_cons_of_pos (by simp [husable]), List.filterMap_cons]
          cases a.opening with
          | none => rfl
          | some e => rfl
        rw [hpassed, List.find?_cons_of_neg husable]
        rcases r with _ | ⟨fd, a'⟩
        · exact ⟨hr.1, by rw [hr.2]⟩
        · exact ⟨hr.1, hr.2.1, by rw [hr.2.2, List.append_assoc]⟩

/-! ### The greeting

The line is read and parsed, and a line that is no greeting disconnects the client.
-/

/-- What is left of a client whose greeting has failed: it is connected still if the greeting has
timed out, and disconnected otherwise. -/
def GreetingFailed (timedOut : Prop) (c c' : NetClient) : Prop :=
  (timedOut → c'.socket = c.socket) ∧
  (¬timedOut → c'.Disconnected ∧ c'.fds = c.fds ++ [.closed c.socket.s])

/-- The exits behind the greeting. -/
theorem checkGreeting_failed {start : Nat} {gLine : Text} {r : LineResult}
    (hr : r.ret = -1 → r.timeout = false) (hc : c.socket.s ≠ -1) :
    Triple (NetM.checkGreeting start gLine r) c
      (fun res c' => ∀ f, res = .error f → GreetingFailed (r.timeout = true) c c')
      fun _ => True := by
  have hrefuse : ∀ (c₁ : NetClient) (code : Int) (msg : Text) (e : Failure),
      c₁.socket = c.socket → c₁.fds = c.fds → ¬r.timeout = true →
      Triple (NetM.refuse code msg e) c₁
        (fun res c' => ∀ f, res = .error f → GreetingFailed (r.timeout = true) c c')
        fun _ => True := by
    intro c₁ code msg e hsocket hfds htimeout
    refine Triple.of_run rfl fun f _ => ⟨fun h => absurd h htimeout, fun _ => ?_⟩
    refine ⟨⟨rfl, rfl, rfl, rfl⟩, ?_⟩
    show (if c₁.socket.s = -1 then c₁.fds else c₁.fds ++ [.closed c₁.socket.s]) = _
    rw [hsocket, hfds, if_neg hc]
  rw [NetM.checkGreeting]
  split
  next hret =>
    refine Triple.of_run rfl fun f _ => ⟨fun h => ?_, fun _ => ⟨⟨rfl, rfl, rfl, rfl⟩, if_neg hc⟩⟩
    rw [hr hret] at h
    cases h
  split
  next htimeout => exact Triple.of_run rfl fun f _ => ⟨fun _ => rfl, fun h => absurd htimeout h⟩
  next htimeout =>
    have hparse : Triple (NetM.parseResponse start gLine r) c
        (fun _ c' => c'.socket = c.socket ∧ c'.fds = c.fds) fun _ => True :=
      Triple.of_run rfl ⟨rfl, rfl⟩
    apply hparse.bind
    rintro (_ | ⟨code, msg⟩) c₁ ⟨hsocket, hfds⟩
    · exact hrefuse c₁ _ _ _ hsocket hfds htimeout
    dsimp only
    split
    · exact hrefuse c₁ _ _ _ hsocket hfds htimeout
    split
    · exact hrefuse c₁ _ _ _ hsocket hfds htimeout
    · exact Triple.of_run rfl fun f h => (nomatch h)

/-- The client that reads the greeting. -/
def greeted (port : UInt16) (fd : Nat) (a : ServerAddr) (c : NetClient) : NetClient :=
  { c with
    socket := NetM.connectedSocket fd
    serverAddr := some a.text
    serverPort := port }

/-- **The greeting**: how a connect fails behind the loop. -/
theorem greet_failed {port : UInt16}
    (hrun : (NetM.greet E fuel port fd a).run c = .ok (.error f, c')) :
    GreetingFailed ((fd : Int) < fdSetsize ∧ ∃ line q, ReadsLine E.reads c.reads line .timedOut q)
      (greeted port fd a c) c' := by
  rw [NetM.greet] at hrun
  obtain ⟨_, c₁, hmodify, hrun⟩ := run_bind_eq_ok.mp hrun
  obtain ⟨start, c₂, hstart, hrun⟩ := run_bind_eq_ok.mp hrun
  obtain ⟨gLine, c₃, hline, hrun⟩ := run_bind_eq_ok.mp hrun
  obtain ⟨r, c₄, hreadln, hcheck⟩ := run_bind_eq_ok.mp hrun
  cases hmodify
  cases hstart
  cases hline
  change (NetM.socketReadln E fuel 1024).run (greeted port fd a c) = _ at hreadln
  have hs : (greeted port fd a c).socket.s ≠ -1 := by
    show (fd : Int) ≠ -1
    omega
  have hselectable : (greeted port fd a c).socket.isSelectable = true ↔ (fd : Int) < fdSetsize := by
    show ((0 : Int) ≤ fd && (fd : Int) < fdSetsize) = true ↔ _
    simp
  -- a descriptor from `FD_SETSIZE` on is refused with EINVAL
  rcases NetM.socketReadln_cases hreadln with
    ⟨hguard, rfl, rfl⟩ | ⟨hsel, line, fin, q, hline, rfl, rfl⟩
  · have hfailed := (checkGreeting_failed
      (c := { greeted port fd a c with errno := einval }) (fun _ => rfl) hs).result hcheck f rfl
    refine ⟨fun h => ?_, fun _ => hfailed.2 Bool.false_ne_true⟩
    rcases hguard with hguard | hguard
    · rw [hselectable.mpr h.1] at hguard
      cases hguard
    · cases hguard
  · have hret : (lineEnd (line.take (1024 - 1)) fin).ret = -1 →
        (lineEnd (line.take (1024 - 1)) fin).timeout = false := by
      intro h
      obtain ⟨e, rfl⟩ := (lineEnd_ret_eq_iff _ _).mp h
      rfl
    have hfailed := (checkGreeting_failed
      (c := { greeted port fd a c with reads := q, errno := NetM.lineErrno fin }) hret hs).result
        hcheck f rfl
    have htimeout : (lineEnd (line.take (1024 - 1)) fin).timeout = true ↔
        (fd : Int) < fdSetsize ∧ ∃ line q, ReadsLine E.reads c.reads line .timedOut q := by
      rw [lineEnd_timeout_iff]
      constructor
      · rintro rfl
        exact ⟨hselectable.mp hsel, line, q, hline⟩
      · rintro ⟨-, line', q', hline'⟩
        exact (hline.unique hline').2.1
    exact ⟨fun h => hfailed.1 (htimeout.mpr h), fun h => hfailed.2 fun h' => h (htimeout.mp h')⟩

/-! ### Descriptors

Descriptors are counted, as a number may be opened again once it is closed.
-/

/-- Addresses that are passed over close nothing. -/
theorem count_closed_openings (l : List ServerAddr) (fd : Int) :
    (l.filterMap ServerAddr.opening).count (.closed fd) = 0 := by
  rw [List.count_eq_zero, List.mem_filterMap]
  rintro ⟨a, -, ha⟩
  rw [ServerAddr.opening, Option.map_eq_some_iff] at ha
  obtain ⟨fd', -, h⟩ := ha
  cases h

/-- Where everything else is closed, everything is closed only if nothing has been opened for the
addresses of a list. -/
theorem allClosed_openings_iff {events : List FdEvent} (h : AllClosed events)
    (l : List ServerAddr) :
    AllClosed (l.filterMap ServerAddr.opening ++ events) ↔ ∀ a ∈ l, a.socket = none := by
  constructor
  · intro hall a ha
    by_contra hsocket
    obtain ⟨fd, hfd⟩ := Option.ne_none_iff_exists'.mp hsocket
    have hmem : FdEvent.opened fd ∈ l.filterMap ServerAddr.opening :=
      List.mem_filterMap.mpr ⟨a, ha, by rw [ServerAddr.opening, hfd]; rfl⟩
    -- one opening more than there are closings
    have hpos := List.count_pos_iff.mpr hmem
    have hcount := hall fd
    rw [List.count_append, List.count_append, count_closed_openings, h fd] at hcount
    omega
  · intro hnone
    have hnil : l.filterMap ServerAddr.opening = [] := by
      rw [List.filterMap_eq_nil_iff]
      intro a ha
      rw [ServerAddr.opening, hnone a ha]
      rfl
    rw [hnil]
    exact h

/-- A descriptor that is opened and closed. -/
theorem allClosed_pair (fd : Int) : AllClosed [.opened fd, .closed fd] := by
  intro g
  simp [List.count_cons]

/-- The condition behind a failed greeting. -/
theorem failsClean_iff_of_failed {passed : List ServerAddr} {timedOut : Prop} {c₁ : NetClient}
    (hs : c₁.socket.s = fd) (hfds : c₁.fds = c.fds ++
      (passed.filterMap ServerAddr.opening ++ [.opened fd]))
    (h : GreetingFailed timedOut c₁ c') :
    FailsClean c c' ↔ (∀ a ∈ passed, a.socket = none) ∧ ¬timedOut := by
  -- a client that has timed out still has its socket
  by_cases htimedOut : timedOut
  · refine iff_of_false ?_ fun h => h.2 htimedOut
    rintro ⟨hclosed, -⟩
    have hsocket := hclosed.socket
    rw [h.1 htimedOut, hs] at hsocket
    omega
  · obtain ⟨hclosed, hevents⟩ := h.2 htimedOut
    rw [hfds, hs, List.append_assoc, List.append_assoc] at hevents
    rw [and_iff_left htimedOut, ← allClosed_openings_iff (allClosed_pair fd) passed]
    constructor
    · rintro ⟨-, events, hfds', hall⟩
      rw [hevents] at hfds'
      rwa [← List.append_cancel_left hfds'] at hall
    · intro hall
      exact ⟨hclosed, _, hevents, hall⟩

end Connect

/-! ### Connecting

The two paths that leave something behind make the condition.
-/

/-- **A failed connect leaves the client disconnected**, with every descriptor closed that it has
opened, if and only if nothing is opened for an address that is passed over, and the greeting does
not time out. -/
theorem smartiClientConnect_failsClean_iff (E : NetEnv) (fuel : Nat) (addr : Text) (port : UInt16)
    {c c' : NetClient} {f : Failure} (hc : c.Disconnected)
    (hrun : (NetM.smartiClientConnect E fuel addr port).run c = .ok (.error f, c')) :
    FailsClean c c' ↔
      ∀ servers, E.resolve addr port = .ok servers → ConnectsClean E c.reads servers := by
  rw [NetM.smartiClientConnect] at hrun
  split at hrun
  next e msg hresolve =>
    -- nothing has been opened
    cases hrun
    refine iff_of_true ⟨⟨hc.socket, hc.serverId, hc.serverAddr, hc.serverPort⟩, [], ?_, ?_⟩ ?_
    · exact (List.append_nil _).symm
    · exact fun fd => rfl
    · intro servers h
      rw [hresolve] at h
      cases h
  next servers hresolve =>
    have hforall : (∀ s, E.resolve addr port = .ok s → ConnectsClean E c.reads s) ↔
        ConnectsClean E c.reads servers := by
      rw [hresolve]
      exact ⟨fun h => h servers rfl, fun h s hs => by cases hs; exact h⟩
    rw [hforall, ConnectsClean]
    obtain ⟨r, events, hfirst, hr⟩ := connectFirst_run servers c
    rw [run_bind_of_ok hfirst] at hrun
    rcases r with _ | ⟨fd, a⟩
    · -- no address is usable
      obtain ⟨hfind, rfl⟩ := hr
      cases hrun
      have hall := @allClosed_openings_iff [] (fun _ => rfl) (passedOver servers)
      rw [List.append_nil] at hall
      rw [← hall, hfind]
      constructor
      · rintro ⟨-, events, hfds, h⟩
        rw [← List.append_cancel_left hfds] at h
        exact ⟨h, fun a fd h => (nomatch h)⟩
      · rintro ⟨h, -⟩
        exact ⟨⟨hc.socket, hc.serverId, hc.serverAddr, hc.serverPort⟩, _, rfl, h⟩
    · -- the greeting has failed
      obtain ⟨hfind, hsocket, rfl⟩ := hr
      have hfailed := greet_failed hrun
      rw [failsClean_iff_of_failed rfl rfl hfailed, and_congr_right_iff, hfind]
      intro _
      constructor
      · intro hnot a' fd' ha' hfd' hlt line q hline
        cases ha'
        rw [hsocket] at hfd'
        cases hfd'
        exact hnot ⟨hlt, line, q, hline⟩
      · rintro h ⟨hlt, line, q, hline⟩
        exact h a fd rfl hsocket hlt line q hline

/-- A host with the given addresses, whose daemon answers each read with `fin`. -/
def connectEnv (servers : List ServerAddr) (fin : NetOutcome) : NetEnv where
  reads _ := fin
  writes _ := .timedOut
  available _ := none
  malloc _ := true
  clock _ := 0
  resolve _ _ := .ok servers

/-- The connection is reset in front of the greeting. -/
theorem smartiClientConnect_failsClean_iff_reset :
    ∃ c', (NetM.smartiClientConnect (connectEnv [⟨"::1".toList, some 3, true⟩]
        (.failed ⟨104, by decide⟩)) 2 "localhost".toList 14443).run (.fresh []) =
        .ok (.error (.socket 104), c') ∧ FailsClean (.fresh []) c' := by
  refine ⟨_, rfl, ?_⟩
  refine (smartiClientConnect_failsClean_iff (connectEnv [⟨"::1".toList, some 3, true⟩]
    (.failed ⟨104, by decide⟩)) 2 "localhost".toList 14443 ⟨rfl, rfl, rfl, rfl⟩ rfl).mpr ?_
  intro servers hservers
  obtain rfl : [⟨"::1".toList, some 3, true⟩] = servers := Except.ok.inj hservers
  refine ⟨fun a ha => (nomatch ha), fun a fd _ _ _ line q hline => ?_⟩
  obtain ⟨-, h, -⟩ := hline.unique (.ends rfl)
  cases h

/-- A greeting that times out leaves the client connected; two addresses that both fail leave the
descriptor of the first one open. -/
theorem not_failsClean :
    (∃ c', (NetM.smartiClientConnect (connectEnv [⟨"::1".toList, some 3, true⟩] .timedOut) 2
        "localhost".toList 14443).run (.fresh []) = .ok (.error .timedOut, c') ∧
      ¬FailsClean (.fresh []) c') ∧
    ∃ c', (NetM.smartiClientConnect (connectEnv [⟨"::1".toList, some 3, false⟩,
        ⟨"127.0.0.1".toList, none, false⟩] .endOfFile) 2 "localhost".toList 14443).run (.fresh []) =
        .ok (.error .other, c') ∧
      ¬FailsClean (.fresh []) c' := by
  refine ⟨⟨_, rfl, ?_⟩, ⟨_, rfl, ?_⟩⟩
  · rintro ⟨hclosed, -⟩
    exact absurd hclosed.socket (by decide)
  · rintro ⟨-, events, hfds, hall⟩
    obtain rfl : [.opened 3] = events := hfds
    exact absurd (hall 3) (by decide)

end BenthosDc

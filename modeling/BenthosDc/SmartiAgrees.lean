/-
BenthosDc/SmartiAgrees.lean

The client over the daemon and the client over the kernel are the same client.

`SmartiClient` and `SmartiKernel` hold the same functions.  The one has the daemon at the other
end of a network that is given by a schedule, so that a command can be followed to its reply;
the other has every outcome of the system calls, so that every error can be told.  Where both
say what a session does, they say the same:

* `session_agrees`: take a session of the client over the daemon, without trouble and without
  ENUM, and any kernel that takes the commands and hands out what the daemon has sent, with
  interruptions wherever it likes.  The client over the kernel makes the same calls, and ends
  with the same connection, error and server.

ENUM is left out because its loop is led by FIONREAD, about which the two say different things
(the pieces that have arrived here, any number there).

A line is read alike by both (`readsLine_of_delivers`).  From there on the same error is stored,
the same line parsed, and the client disconnected at the same exits: `checkResponse_agrees`,
`checkGreeting_agrees` and `checkData_agrees` say so for each thing that is read.
-/
import BenthosDc.SmartiConnects
import BenthosDc.SmartiRuns
import BenthosDc.SmartiTrim

namespace BenthosDc

open CString Hoare

variable {S α β γ : Type}

/-! ### The same client

The two clients are compared in what an application can see of them, and in what the next call
depends on.  How the bytes of a line have reached them is no part of it.
-/

/-- What both models of a client know of it. -/
structure SameClient (l : Link S) (c : NetClient) : Prop where
  errcode : l.errcode = c.errcode
  errmsg : l.errmsg = c.errmsg
  connected : l.connected = decide (c.socket.s ≠ -1)
  serverId : l.serverId = c.serverId.getD []
  junk : l.junk = c.junk

/-- Nothing is read or written, and the socket is closed at most. -/
structure Stays (c c' : NetClient) : Prop where
  reads : c'.reads = c.reads
  writes : c'.writes = c.writes
  errno : c'.errno = c.errno
  socket : c'.socket = c.socket ∨ c'.socket.s = -1

/-- Both clients return, with results that `Q` relates, and are the same still. -/
def ReturnAlike (Q : α → β → Prop) (m : Client S α) (l : Link S) (n : NetM β) (c : NetClient) :
    Prop :=
  ∃ a l' b c', m.run l = .ok (a, l') ∧ n.run c = .ok (b, c') ∧ Q a b ∧ SameClient l' c' ∧
    Stays c c'

/-- A return value, and the reason for it. -/
def SameStatus (rv : Int) (b : Except Failure Unit) : Prop :=
  rv = match b with
    | .ok () => 0
    | .error _ => -1

/-- The same value, or none. -/
def SameValue (a : Except Int α) (b : Except Failure α) : Prop := a.toOption = b.toOption

section Checks

variable {l : Link S} {c : NetClient} {r : LineResult}

/-- A client that has made no system call. -/
theorem stays_of_eq {c c' : NetClient} (hreads : c'.reads = c.reads)
    (hwrites : c'.writes = c.writes) (herrno : c'.errno = c.errno)
    (hsocket : c'.socket = c.socket) : Stays c c' :=
  ⟨hreads, hwrites, herrno, .inl hsocket⟩

/-- **A response line** is parsed, or refused with the same error. -/
theorem checkResponse_agrees (timeout : Bool) (start : Nat) (rLine : Text) (h : SameClient l c)
    (herrno : r.ret = -1 → r.errno = c.errno) :
    ReturnAlike (fun a b => a = b.toOption) (checkResponse timeout rLine r) l
      (NetM.checkResponse timeout start rLine r) c := by
  rw [checkResponse, NetM.checkResponse]
  by_cases hret : r.ret = -1
  · rw [if_pos hret, if_pos hret]
    have herrmsg := congrArg ErrorText.strerror (herrno hret)
    exact ⟨_, _, _, _, rfl, rfl, rfl, ⟨herrno hret, herrmsg, h.connected, h.serverId, h.junk⟩,
      stays_of_eq rfl rfl rfl rfl⟩
  rw [if_neg hret, if_neg hret]
  by_cases htimeout : (timeout || r.timeout) = true
  · rw [if_pos htimeout, if_pos htimeout]
    exact ⟨_, _, _, _, rfl, rfl, rfl, ⟨rfl, rfl, h.connected, h.serverId, h.junk⟩,
      stays_of_eq rfl rfl rfl rfl⟩
  rw [if_neg htimeout, if_neg htimeout]
  have hparse := NetM.parseResponse_run start rLine r c
  cases hres : smarticParseResponse (r.text.getD rLine) with
  | none =>
    rw [hres] at hparse
    rw [ReturnAlike, run_bind_of_ok hparse]
    exact ⟨_, _, _, _, rfl, rfl, rfl, ⟨rfl, rfl, h.connected, h.serverId, h.junk⟩,
      stays_of_eq rfl rfl rfl rfl⟩
  | some res =>
    rw [hres] at hparse
    rw [ReturnAlike, run_bind_of_ok hparse]
    exact ⟨_, _, _, _, rfl, rfl, rfl, ⟨h.errcode, h.errmsg, h.connected, h.serverId, h.junk⟩,
      stays_of_eq rfl rfl rfl rfl⟩

/-- **The greeting** is taken, or refused with the same error, and the client disconnected. -/
theorem checkGreeting_agrees (start : Nat) (gLine : Text) (h : SameClient l c)
    (herrno : r.ret = -1 → r.errno = c.errno) :
    ReturnAlike SameStatus (checkGreeting gLine r) l (NetM.checkGreeting start gLine r) c := by
  rw [checkGreeting, NetM.checkGreeting]
  by_cases hret : r.ret = -1
  · rw [if_pos hret, if_pos hret]
    have herrmsg := congrArg ErrorText.strerror (herrno hret)
    exact ⟨_, _, _, _, rfl, rfl, rfl, ⟨herrno hret, herrmsg, rfl, rfl, h.junk⟩,
      ⟨rfl, rfl, rfl, .inr rfl⟩⟩
  rw [if_neg hret, if_neg hret]
  by_cases htimeout : r.timeout = true
  · rw [if_pos htimeout, if_pos htimeout]
    exact ⟨_, _, _, _, rfl, rfl, rfl, ⟨rfl, rfl, h.connected, h.serverId, h.junk⟩,
      stays_of_eq rfl rfl rfl rfl⟩
  rw [if_neg htimeout, if_neg htimeout]
  have hparse := NetM.parseResponse_run start gLine r c
  rcases hres : smarticParseResponse (r.text.getD gLine) with _ | ⟨code, msg⟩
  · rw [hres] at hparse
    rw [ReturnAlike, run_bind_of_ok hparse]
    exact ⟨_, _, _, _, rfl, rfl, rfl, ⟨rfl, rfl, rfl, rfl, h.junk⟩, ⟨rfl, rfl, rfl, .inr rfl⟩⟩
  rw [hres] at hparse
  rw [ReturnAlike, run_bind_of_ok hparse]
  dsimp only
  by_cases hcode : code = smartiStatusReady
  · rw [if_neg (not_not.mpr hcode), if_neg (not_not.mpr hcode)]
    rcases smarticParseGreeting msg with _ | ⟨name, version, extra⟩
    · exact ⟨_, _, _, _, rfl, rfl, rfl, ⟨rfl, rfl, rfl, rfl, h.junk⟩, ⟨rfl, rfl, rfl, .inr rfl⟩⟩
    · exact ⟨_, _, _, _, rfl, rfl, rfl, ⟨h.errcode, h.errmsg, h.connected, rfl, h.junk⟩,
        stays_of_eq rfl rfl rfl rfl⟩
  · rw [if_pos hcode, if_pos hcode]
    exact ⟨_, _, _, _, rfl, rfl, rfl, ⟨rfl, rfl, rfl, rfl, h.junk⟩, ⟨rfl, rfl, rfl, .inr rfl⟩⟩

/-- **The line of data** is decoded, or refused with the same error, or trimmed beyond its
beginning. -/
theorem checkData_agrees (rLen : Nat) (h : SameClient l c)
    (herrno : r.ret < 0 → r.errno = c.errno)
    (hlength : ¬r.ret < 0 → r.ret = (r.text.getD []).length) :
    ReturnAlike SameValue (checkData rLen r) l (NetM.checkData rLen r) c ∨
    (checkData rLen r).run l = .error .overflow ∧
      (NetM.checkData rLen r).run c = .error .overflow := by
  rw [checkData, NetM.checkData]
  by_cases hret : r.ret < 0
  · rw [if_pos hret, if_pos hret]
    have herrmsg := congrArg ErrorText.strerror (herrno hret)
    exact .inl ⟨_, _, _, _, rfl, rfl, rfl, ⟨herrno hret, herrmsg, h.connected, h.serverId, h.junk⟩,
      stays_of_eq rfl rfl rfl rfl⟩
  rw [if_neg hret, if_neg hret]
  by_cases htimeout : r.timeout = true
  · rw [if_pos htimeout, if_pos htimeout]
    exact .inl ⟨_, _, _, _, rfl, rfl, rfl, ⟨rfl, rfl, h.connected, h.serverId, h.junk⟩,
      stays_of_eq rfl rfl rfl rfl⟩
  rw [if_neg htimeout, if_neg htimeout, hlength hret, Int.toNat_natCast]
  have htrim := trim_run (r.text.getD []) c le_rfl
  rw [List.take_length] at htrim
  -- what is kept is the beginning of the line
  have hprefix := List.rdropWhile_prefix (fun ch => !isB64 ch) (r.text.getD [])
  rcases hkept : (r.text.getD []).rdropWhile (fun ch => !isB64 ch) with _ | ⟨b, kept⟩
  · rw [hkept] at htrim
    exact .inr ⟨rfl, run_bind_of_error htrim⟩
  · rw [hkept] at htrim
    rw [hkept, List.prefix_iff_eq_take] at hprefix
    left
    rw [ReturnAlike, run_bind_of_ok htrim, ← hprefix]
    dsimp only
    by_cases hlen : (b :: kept).length = rLen
    · rw [if_neg (not_not.mpr hlen), if_neg (not_not.mpr hlen)]
      exact ⟨_, _, _, _, rfl, rfl, rfl, ⟨h.errcode, h.errmsg, h.connected, h.serverId, h.junk⟩,
        stays_of_eq rfl rfl rfl rfl⟩
    · rw [if_pos hlen, if_pos hlen]
      exact ⟨_, _, _, _, rfl, rfl, rfl, ⟨rfl, rfl, h.connected, h.serverId, h.junk⟩,
        stays_of_eq rfl rfl rfl rfl⟩

end Checks

/-! ### A kernel without trouble

The kernel here takes all that is written and hands out what the daemon has sent; it may
interrupt the client wherever it likes.
-/

/-- From every position on the socket takes a piece of what is written, if not at once. -/
def TakesAll (o : Nat → SendOutcome) : Prop :=
  ∀ p, ∃ k n, o (p + k) = .wrote (n + 1) ∧ ∀ i < k, o (p + i) = .again ∨ o (p + i) = .interrupted

/-- Commands are taken, and memory is given. -/
structure Undisturbed (E : NetEnv) : Prop where
  takes : TakesAll E.writes
  malloc : ∀ i, E.malloc i = true

/-- **A buffer is written** in the end. -/
theorem TakesAll.sending {o : Nat → SendOutcome} (h : TakesAll o) (m p : Nat) :
    ∃ q, Sending o m p ⟨0, false, 0⟩ q := by
  induction m using Nat.strong_induction_on generalizing p with
  | _ m ih =>
    cases m with
    | zero => exact ⟨p, .done⟩
    | succ m =>
      obtain ⟨k, n, htaken, hwaits⟩ := h p
      -- on the outcomes in front of the piece that is taken
      induction k generalizing p with
      | zero =>
        obtain ⟨q, hq⟩ := ih (m - n) (by omega) (p + 1)
        exact ⟨q, .wrote htaken hq⟩
      | succ k ihk =>
        obtain ⟨q, hq⟩ := ihk (p + 1) (by rw [Nat.add_right_comm]; exact htaken) fun i hi => by
          rw [Nat.add_right_comm]
          exact hwaits (i + 1) (by omega)
        exact ⟨q, .retry (hwaits 0 (Nat.succ_pos k)) hq⟩

/-- **A line of the stream is read as a line**: what the kernel hands out is the line with its
terminator, and then what is behind it. -/
theorem readsLine_of_delivers {o : Nat → NetOutcome} {clock : Nat → Int} {stream : Text} {p : Nat}
    (h : Delivers (outcomeNet o clock) stream p) {line rest : Text}
    (hstream : stream = line ++ '\n' :: rest) (hline : '\n' ∉ line) :
    ∃ q, ReadsLine o p line (.char '\n') q ∧ Delivers (outcomeNet o clock) rest q := by
  induction h generalizing line with
  | nil =>
    have hlen := congrArg List.length hstream
    simp at hlen
  | @wait stream p hready hread hrest ih =>
    have hready := hready 0
    have hread := hread 0
    have hrest := hrest 0
    have ih := @ih 0
    cases ho : o p with
    | timedOut =>
      rw [select_outcomeNet, ho] at hready
      cases hready
    | selectFailed e =>
      rw [select_outcomeNet, ho] at hready
      cases hready
    | endOfFile =>
      rw [select_outcomeNet, ho] at hread
      simp [read_outcomeNet, ho] at hread
    | failed e =>
      rw [select_outcomeNet, ho] at hread
      simp [read_outcomeNet, ho] at hread
    | again =>
      simp only [select_outcomeNet, read_outcomeNet, ho] at ih
      obtain ⟨q, hq, hdelivers⟩ := ih hstream hline
      exact ⟨q, .retry (.inl ho) hq, hdelivers⟩
    | interrupted =>
      simp only [select_outcomeNet, read_outcomeNet, ho] at ih
      obtain ⟨q, hq, hdelivers⟩ := ih hstream hline
      exact ⟨q, .retry (.inr ho) hq, hdelivers⟩
    | char ch =>
      simp only [select_outcomeNet, read_outcomeNet, ho] at hread hrest ih
      subst hstream
      cases line with
      | nil =>
        have hch : ch = '\n' := by simpa [eq_comm] using hread
        subst hch
        have hends : (o p).ends = true := by rw [ho]; rfl
        refine ⟨p + 1, ?_, hrest⟩
        rw [← ho]
        exact .ends hends
      | cons d line =>
        have hch : ch = d := by simpa [eq_comm] using hread
        subst hch
        rw [List.mem_cons, not_or] at hline
        obtain ⟨q, hq, hdelivers⟩ := ih rfl hline.2
        exact ⟨q, .char ho (Ne.symm hline.1) hq, hdelivers⟩

/-! ### Side by side

One call is run on both sides, from clients that are the same with a kernel that holds what is
in flight.  Both end, with the same result, and are the same again.
-/

/-- Where a client over the kernel is: its socket, and its places in the outcomes. -/
structure NetPlace where
  socket : NetSocket
  reads : Nat
  writes : Nat

/-- The two clients are the same, and the one over the kernel is at the place `x`. -/
structure SameAt (x : NetPlace) (l : Link S) (c : NetClient) : Prop extends SameClient l c where
  socket : c.socket = x.socket
  reads : c.reads = x.reads
  writes : c.writes = x.writes

/-- From the place `x`, beside `l`, the program returns beside `l'` with enough passes for its
loops; it is connected with the same socket, and what it has not read is what the client over
the daemon has not read, with `future` behind.  `Q` tells what it returns. -/
def Alongside (E : NetEnv) (future : Text) (x : NetPlace) (Q : β → NetClient → Prop) (l l' : Link S)
    (n : Nat → NetM β) : Prop :=
  l'.connected = true ∧ ∃ x' : NetPlace, x'.socket = x.socket ∧
    Delivers (outcomeNet E.reads E.clock) (l'.channel.pending ++ future) x'.reads ∧
    ∃ k, ∀ fuel c, k ≤ fuel → SameAt x l c →
      ∃ b c', (n fuel).run c = .ok (b, c') ∧ Q b c' ∧ SameAt x' l' c'

section Steps

variable {W : Irda S} {E : NetEnv} {fuel : Nat} {future cmd : Text} {x : NetPlace}
  {l l₁ l' : Link S} {Q : β → NetClient → Prop} {Q' : γ → NetClient → Prop} {n : Nat → NetM β}

/-- A client that is connected has not closed its socket. -/
theorem Stays.sameAt {c c' : NetClient} (h : Stays c c') (hc : SameAt x l c)
    (hsame : SameClient l' c') (hl : l'.connected = true) : SameAt x l' c' := by
  have hopen : c'.socket.s ≠ -1 := by
    have hconnected := hsame.connected
    rw [hl] at hconnected
    exact of_decide_eq_true hconnected.symm
  refine ⟨hsame, ?_, h.reads.trans hc.reads, h.writes.trans hc.writes⟩
  exact (h.socket.resolve_right hopen).trans hc.socket

/-- What is made of a result without reading on. -/
theorem alongside_then (h : l₁.trouble = false → Alongside E future x Q l l₁ n) {m : Client S α}
    {r : α} (hrun : m.run l₁ = .ok (r, l')) (hidle : Idle m) (hcalm : l'.trouble = false)
    {f : Nat → β → NetM γ} {R : α → γ → Prop}
    (hf : ∀ fuel b c, Q b c → SameClient l₁ c → ReturnAlike R m l₁ (f fuel b) c) :
    Alongside E future x (fun d _ => R r d) l l' fun fuel => n fuel >>= f fuel := by
  obtain ⟨r', code, msg, hrun'⟩ := hidle l₁
  rw [hrun] at hrun'
  cases hrun'
  obtain ⟨hconnected, x', hsocket, hdelivers, k, hn⟩ := h hcalm
  refine ⟨hconnected, x', hsocket, hdelivers, k, fun fuel c hfuel hc => ?_⟩
  obtain ⟨b, c₁, hrun₁, hb, hc₁⟩ := hn fuel c hfuel hc
  obtain ⟨r', l₂, d, c', hrun₂, hrun', hR, hsame, hstays⟩ := hf fuel b c₁ hb hc₁.toSameClient
  rw [hrun] at hrun₂
  cases hrun₂
  exact ⟨d, c', (run_bind_of_ok hrun₁).trans hrun', hR, hstays.sameAt hc₁ hsame hconnected⟩

/-- What is known of the results may be weakened. -/
theorem Alongside.imp {Q' : β → NetClient → Prop} (h : Alongside E future x Q l l' n)
    (hQ : ∀ b c, Q b c → Q' b c) : Alongside E future x Q' l l' n := by
  obtain ⟨hconnected, x', hsocket, hdelivers, k, hn⟩ := h
  refine ⟨hconnected, x', hsocket, hdelivers, k, fun fuel c hfuel hc => ?_⟩
  obtain ⟨b, c', hrun, hb, hc'⟩ := hn fuel c hfuel hc
  exact ⟨b, c', hrun, hQ b c' hb, hc'⟩

/-- What is done with a result that is known. -/
theorem Alongside.bind {b : β} (h : Alongside E future x (fun b' _ => b' = b) l l₁ n)
    {f : Nat → β → NetM γ}
    (hf : ∀ x' : NetPlace, x'.socket = x.socket →
      Delivers (outcomeNet E.reads E.clock) (l₁.channel.pending ++ future) x'.reads →
      Alongside E future x' Q' l₁ l' fun fuel => f fuel b) :
    Alongside E future x Q' l l' fun fuel => n fuel >>= f fuel := by
  obtain ⟨-, x₁, hsocket₁, hdelivers₁, k₁, hn⟩ := h
  obtain ⟨hconnected, x', hsocket, hdelivers, k₂, hrun⟩ := hf x₁ hsocket₁ hdelivers₁
  refine ⟨hconnected, x', hsocket.trans hsocket₁, hdelivers, max k₁ k₂, fun fuel c hfuel hc => ?_⟩
  obtain ⟨b', c₁, hrun₁, rfl, hc₁⟩ := hn fuel c (le_of_max_le_left hfuel) hc
  obtain ⟨d, c', hrun', hd, hc'⟩ := hrun fuel c₁ (le_of_max_le_right hfuel) hc₁
  exact ⟨d, c', (run_bind_of_ok hrun₁).trans hrun', hd, hc'⟩

/-- A program that goes on as another one. -/
theorem Alongside.of_run (h : Alongside E future x Q l l' n) {n' : Nat → NetM β}
    (hn : ∀ fuel c, SameAt x l c → ∃ c₁, (n' fuel).run c = (n fuel).run c₁ ∧ SameAt x l c₁) :
    Alongside E future x Q l l' n' := by
  obtain ⟨hconnected, x', hsocket, hdelivers, k, hrun⟩ := h
  refine ⟨hconnected, x', hsocket, hdelivers, k, fun fuel c hfuel hc => ?_⟩
  obtain ⟨c₁, heq, hc₁⟩ := hn fuel c hc
  rw [heq]
  exact hrun fuel c₁ hfuel hc₁

/-- A part with another timeout. -/
theorem Alongside.withTimeout {timeout : Int} (htimeout : 0 < timeout)
    (h : Alongside E future { x with socket := ⟨x.socket.s, timeout, htimeout⟩ } Q l l' n)
    (hQ : ∀ b c timeout htimeout, Q b c → Q b (c.waiting timeout htimeout)) :
    Alongside E future x Q l l' fun fuel => NetM.withTimeout timeout htimeout (n fuel) := by
  obtain ⟨hconnected, x', hsocket, hdelivers, k, hn⟩ := h
  refine ⟨hconnected, { x' with socket := x.socket }, rfl, hdelivers, k, fun fuel c hfuel hc => ?_⟩
  have hwaiting : SameAt { x with socket := ⟨x.socket.s, timeout, htimeout⟩ } l
      (c.waiting timeout htimeout) := by
    refine ⟨⟨hc.errcode, hc.errmsg, hc.connected, hc.serverId, hc.junk⟩, ?_, hc.reads, hc.writes⟩
    rw [NetClient.waiting, hc.socket]
  obtain ⟨b, c', hrun, hb, hc'⟩ := hn fuel _ hfuel hwaiting
  refine ⟨b, _, ?_, hQ b c' c.socket.timeout c.socket.timeout_pos hb, ?_⟩
  · show (NetM.withTimeout timeout htimeout (n fuel)).run c = _
    rw [withTimeout_run, hrun]
  · refine ⟨⟨hc'.errcode, hc'.errmsg, hc'.connected, hc'.serverId, hc'.junk⟩, ?_, hc'.reads,
      hc'.writes⟩
    rw [NetClient.waiting, hc'.socket, hsocket, hc.socket]

/-- **A line is read alike.** -/
theorem readln_agrees {len : Nat} (hlen : len ≠ 0) (hx : x.socket.isSelectable = true)
    {line rest : Text} (hline : '\n' ∉ line)
    (h : Delivers (outcomeNet E.reads E.clock) (line ++ '\n' :: rest) x.reads) :
    ∃ p, Delivers (outcomeNet E.reads E.clock) rest p ∧ ∃ k, ∀ fuel c, k ≤ fuel →
      c.socket = x.socket → c.reads = x.reads →
      (NetM.socketReadln E fuel len).run c =
        .ok (lineResult len line, { c with reads := p, errno := 0 }) := by
  obtain ⟨p, hreads, hrest⟩ := readsLine_of_delivers h rfl hline
  obtain ⟨k, hrun⟩ := NetM.socketReadln_runs hx hlen hreads
  exact ⟨p, hrest, k, fun fuel c hfuel hsocket hc => hrun fuel hfuel c hsocket hc⟩

/-- **A response line** is read and parsed alike. -/
theorem readResponse_agrees (hx : x.socket.isSelectable = true) (hl : l.connected = true)
    (rLine : Text) {res : Option (Text × Int × Text)}
    (hrun : (readResponse false rLine).run l = .ok (res, l')) (hcalm : l'.trouble = false)
    (hstream : Delivers (outcomeNet E.reads E.clock) (l.channel.pending ++ future) x.reads) :
    Alongside E future x (fun b c' => res = b.toOption ∧ c'.errno = 0) l l'
      fun fuel => NetM.readResponse E fuel false rLine := by
  obtain ⟨r, l₁, hread, hcases⟩ := smarticSocketReadln_spec (show 1024 ≠ 0 by decide) l hl
  rw [readResponse, run_bind_of_ok hread] at hrun
  rcases hcases with htrouble | ⟨line, ch, events, hline, hpend, -, rfl, rfl⟩
  · have hsteady : Steady never (checkResponse false rLine r) :=
      (checkResponse_idle (S := S) false rLine r).steady
    have htrouble' := (hsteady l₁ htrouble).result hrun
    rw [hcalm] at htrouble'
    cases htrouble'
  -- the error is all that the check changes
  obtain ⟨res', code, msg, hcheck⟩ := checkResponse_idle (S := S) false rLine (lineResult 1024 line)
    (l.afterLine line ch events)
  rw [hcheck] at hrun
  cases hrun
  rw [hpend, List.append_assoc] at hstream
  obtain ⟨p, hrest, k, hline'⟩ := readln_agrees (show 1024 ≠ 0 by decide) hx hline hstream
  refine ⟨hl, { x with reads := p }, rfl, hrest, k, fun fuel c hfuel hc => ?_⟩
  have hsame : SameClient (l.afterLine line ch events) { c with reads := p, errno := 0 } :=
    ⟨hc.errcode, hc.errmsg, hc.connected, hc.serverId, hc.junk⟩
  have hret : ¬(lineResult 1024 line).ret = -1 := by
    have hnonneg : (0 : Int) ≤ (lineResult 1024 line).ret := Int.natCast_nonneg _
    omega
  obtain ⟨a, l₂, b, c', hcheck', hrun, hab, hsame', hstays⟩ :=
    checkResponse_agrees false c.reads rLine hsame fun h => absurd h hret
  rw [hcheck] at hcheck'
  cases hcheck'
  refine ⟨b, c', ?_, ⟨hab, hstays.errno⟩, ?_⟩
  · show (NetM.readResponse E fuel false rLine).run c = _
    rw [NetM.readResponse, run_bind_of_ok (NetM.readPos_run c),
      run_bind_of_ok (hline' fuel c hfuel hc.socket hc.reads)]
    exact hrun
  · have hplace : SameAt { x with reads := p } (l.afterLine line ch events)
        { c with reads := p, errno := 0 } := ⟨hsame, hc.socket, rfl, hc.writes⟩
    exact hstays.sameAt hplace hsame' hl

/-- What a request returns over the daemon, and over the kernel. -/
structure SameAnswer (a : Except Int (Text × Int × Text)) (b : Except Failure (Text × Int × Text))
    (c : NetClient) : Prop where
  value : SameValue a b
  failed : ∀ rv, a = .error rv → rv = -1
  errno : c.errno = 0

/-- **A request** sends its command and reads the same response line. -/
theorem request_agrees (hE : Undisturbed E) (hx : x.socket.isSelectable = true)
    (hcmd : ∀ c ∈ cmd, isEol c = false) (hl : Synced l) {a : Except Int (Text × Int × Text)}
    (hrun : (smarticRequest W fuel cmd).run l = .ok (a, l')) (hcalm : l'.trouble = false)
    (hstream : Delivers (outcomeNet E.reads E.clock)
      (replyTo W fuel l.server cmd ++ future) x.reads) :
    Alongside E future x (SameAnswer a) l l' fun fuel => NetM.request E fuel cmd := by
  have hbody : ∀ c ∈ l.server.input ++ cmd, isEol c = false := by
    rw [hl.server.input]
    exact hcmd
  obtain ⟨w, l₁, hwrite, hcases⟩ := @smarticSocketWrite_spec S W fuel cmd l hl.connected
    hl.server.flushed hbody
  rw [smarticRequest, run_bind_of_ok hwrite] at hrun
  rcases hcases with htrouble | ⟨ch, events, -, hpend, rfl, rfl⟩
  · have htrouble' := (firstResponse_steady (E := never) w l₁ htrouble).result hrun
    rw [hcalm] at htrouble'
    cases htrouble'
  rw [hl.pending, List.nil_append] at hpend
  have hjunk : (unsetLine : Client S Text).run (l.afterWrite W fuel (cmd ++ ['\n']) ch events) =
      .ok (l.junk, l.afterWrite W fuel (cmd ++ ['\n']) ch events) := rfl
  rw [firstResponse, if_neg (fun h => h rfl), run_bind_of_ok hjunk] at hrun
  obtain ⟨res, l₂, hresponse, hrest⟩ := run_bind_eq_ok.mp hrun
  -- what is returned is made of the response alone
  have ha : a.toOption = res ∧ (∀ rv, a = .error rv → rv = -1) ∧ l' = l₂ := by
    cases res with
    | none =>
      cases hrest
      exact ⟨rfl, fun rv h => (Except.error.inj h).symm, rfl⟩
    | some r =>
      cases hrest
      exact ⟨rfl, by rintro rv ⟨⟩, rfl⟩
  obtain ⟨hres, herror, rfl⟩ := ha
  obtain ⟨q, hsending⟩ := hE.takes.sending (cmd ++ ['\n']).length x.writes
  obtain ⟨k₁, hwrite'⟩ := NetM.socketWrite_runs hx (by simp) hsending
  have hstream' : Delivers (outcomeNet E.reads E.clock)
      ((l.afterWrite W fuel (cmd ++ ['\n']) ch events).channel.pending ++ future) x.reads := by
    show Delivers _ (ch.pending ++ future) _
    rw [hpend]
    exact hstream
  obtain ⟨hconnected, x', hsocket, hdelivers, k₂, hread⟩ :=
    readResponse_agrees (x := { x with writes := q })
      (l := l.afterWrite W fuel (cmd ++ ['\n']) ch events) hx hl.connected l.junk hresponse hcalm
      hstream'
  refine ⟨hconnected, x', hsocket, hdelivers, max k₁ k₂, fun fuel' c hfuel hc => ?_⟩
  obtain ⟨sent, hwrote⟩ := hwrite' fuel' (le_of_max_le_left hfuel) c hc.socket hc.writes
  obtain ⟨b, c', hrun', ⟨hb, herrno⟩, hc'⟩ := hread fuel'
    { c with writes := q, sent := sent, errno := 0 } (le_of_max_le_right hfuel)
    ⟨⟨hc.errcode, hc.errmsg, hc.connected, hc.serverId, hc.junk⟩, hc.socket, hc.reads, rfl⟩
  refine ⟨b, c', ?_, ⟨hres.trans hb, herror, herrno⟩, hc'⟩
  show (NetM.request E fuel' cmd).run c = _
  rw [NetM.request, run_bind_of_ok hwrote, if_neg (fun h => h rfl),
    run_bind_of_ok (NetM.unsetLine_run _)]
  rw [hc.junk] at hrun'
  exact hrun'

/-- **A call that expects the code 210.** -/
theorem statusRequest_agrees (hE : Undisturbed E) (hx : x.socket.isSelectable = true)
    (hcmd : ∀ c ∈ cmd, isEol c = false) (hl : Synced l) {rv : Int}
    (hrun : (statusRequest W fuel cmd).run l = .ok (rv, l')) (hcalm : l'.trouble = false)
    (hstream : Delivers (outcomeNet E.reads E.clock)
      (replyTo W fuel l.server cmd ++ future) x.reads) :
    Alongside E future x (fun b _ => SameStatus rv b) l l'
      fun fuel => NetM.statusRequest E fuel cmd := by
  obtain ⟨a, l₁, hrequest, hrest⟩ := run_bind_eq_ok.mp hrun
  have hagrees := fun hcalm => request_agrees hE hx hcmd hl hrequest hcalm hstream
  refine alongside_then hagrees hrest ?_ hcalm ?_
  · rcases a with rv | ⟨rLine, code, msg⟩
    · exact Idle.pure _
    · dsimp only
      split
      · exact Idle.setError _ _ _
      · exact Idle.pure _
  · rintro _ b c ⟨hab, herror, -⟩ hc
    rcases a with rv | ⟨rLine, code, msg⟩ <;> rcases b with f | r <;> cases hab
    · obtain rfl := herror rv rfl
      exact ⟨_, _, _, _, rfl, rfl, rfl, hc, stays_of_eq rfl rfl rfl rfl⟩
    · dsimp only
      by_cases hcode : code = smartiStatusSuccess
      · rw [if_neg (not_not.mpr hcode), if_neg (not_not.mpr hcode)]
        exact ⟨_, _, _, _, rfl, rfl, rfl, hc, stays_of_eq rfl rfl rfl rfl⟩
      · rw [if_pos hcode, if_pos hcode]
        exact ⟨_, _, _, _, rfl, rfl, rfl, ⟨rfl, rfl, hc.connected, hc.serverId, hc.junk⟩,
          stays_of_eq rfl rfl rfl rfl⟩

/-- **A call that expects a number.** -/
theorem infoRequest_agrees (hE : Undisturbed E) (hx : x.socket.isSelectable = true)
    (hcmd : ∀ c ∈ cmd, isEol c = false) (hl : Synced l) {width : Nat} {r : Except Int Nat}
    (hrun : (infoRequest W fuel cmd width).run l = .ok (r, l')) (hcalm : l'.trouble = false)
    (hstream : Delivers (outcomeNet E.reads E.clock)
      (replyTo W fuel l.server cmd ++ future) x.reads) :
    Alongside E future x (fun b _ => SameValue r b) l l'
      fun fuel => NetM.infoRequest E fuel cmd width true := by
  obtain ⟨a, l₁, hrequest, hrest⟩ := run_bind_eq_ok.mp hrun
  simp only [NetM.infoRequest, Bool.not_true, Bool.false_eq_true, if_false]
  have hagrees := fun hcalm => request_agrees hE hx hcmd hl hrequest hcalm hstream
  refine alongside_then hagrees hrest ?_ hcalm ?_
  · rcases a with rv | ⟨rLine, code, msg⟩
    · exact Idle.pure _
    · dsimp only
      split
      · exact Idle.setError _ _ _
      split
      · exact Idle.setError _ _ _
      · exact Idle.pure _
  · rintro _ b c ⟨hab, -, herrno⟩ hc
    rcases a with rv | ⟨rLine, code, msg⟩ <;> rcases b with f | r <;> cases hab
    · exact ⟨_, _, _, _, rfl, rfl, rfl, hc, stays_of_eq rfl rfl rfl rfl⟩
    · dsimp only [NetM.infoLine]
      by_cases hcode : code = smartiStatusInfo
      · rw [if_neg (not_not.mpr hcode), if_neg (not_not.mpr hcode)]
        cases smarticParseDevinfo msg with
        | none =>
          have hzero : ErrorText.strerror 0 = .strerror c.errno := by rw [herrno]
          exact ⟨_, _, _, _, rfl, rfl, rfl,
            ⟨herrno.symm, hzero, hc.connected, hc.serverId, hc.junk⟩, stays_of_eq rfl rfl rfl rfl⟩
        | some info => exact ⟨_, _, _, _, rfl, rfl, rfl, hc, stays_of_eq rfl rfl rfl rfl⟩
      · rw [if_pos hcode, if_pos hcode]
        exact ⟨_, _, _, _, rfl, rfl, rfl, ⟨rfl, rfl, hc.connected, hc.serverId, hc.junk⟩,
          stays_of_eq rfl rfl rfl rfl⟩

/-- The line of data, once it is read. -/
theorem checkData_sameAt {rLen : Nat} {res : LineResult} {r : Except Int (Option (List UInt8))}
    {c : NetClient} (hrun : (checkData rLen res).run l = .ok (r, l')) (hl : l.connected = true)
    (hc : SameAt x l c) (herrno : res.ret < 0 → res.errno = c.errno)
    (hlength : ¬res.ret < 0 → res.ret = (res.text.getD []).length) :
    l'.channel = l.channel ∧ l'.connected = true ∧
      ∃ b c', (NetM.checkData rLen res).run c = .ok (b, c') ∧ SameValue r b ∧ SameAt x l' c' := by
  obtain ⟨code, msg, rfl⟩ := (checkData_spec rLen res l).result hrun
  refine ⟨rfl, hl, ?_⟩
  rcases checkData_agrees rLen hc.toSameClient herrno hlength with
    ⟨r', l₁, b, c', hrun', hrun'', hb, hsame, hstays⟩ | ⟨hoverflow, -⟩
  · rw [hrun] at hrun'
    cases hrun'
    exact ⟨b, c', hrun'', hb, hstays.sameAt hc hsame hl⟩
  · rw [hrun] at hoverflow
    cases hoverflow

/-- **The line of data** is read and decoded alike. -/
theorem data_agrees (hx : x.socket.isSelectable = true) (hl : l.connected = true) {rLen : Nat}
    {r : Except Int (Option (List UInt8))}
    (hrun : (smarticSocketReadln (rLen * 2 % 2 ^ 32) >>= checkData rLen).run l = .ok (r, l'))
    (hcalm : l'.trouble = false)
    (hstream : Delivers (outcomeNet E.reads E.clock) (l.channel.pending ++ future) x.reads) :
    Alongside E future x (fun b _ => SameValue r b) l l'
      fun fuel => NetM.socketReadln E fuel (rLen * 2 % 2 ^ 32) >>= NetM.checkData rLen := by
  by_cases hzero : rLen * 2 % 2 ^ 32 = 0
  · -- neither reads into a buffer without room
    have hread : (smarticSocketReadln (rLen * 2 % 2 ^ 32)).run l =
        .ok (⟨-1, false, einval, none⟩, l) := if_pos (.inr hzero)
    rw [run_bind_of_ok hread] at hrun
    obtain ⟨code, msg, rfl⟩ := (checkData_spec _ _ l).result hrun
    refine ⟨hl, x, rfl, hstream, 0, fun fuel c _ hc => ?_⟩
    have hc₁ : SameAt x l { c with errno := einval } :=
      ⟨⟨hc.errcode, hc.errmsg, hc.connected, hc.serverId, hc.junk⟩, hc.socket, hc.reads, hc.writes⟩
    obtain ⟨-, -, b, c', hrun', hb, hc'⟩ :=
      checkData_sameAt hrun hl hc₁ (fun _ => rfl) fun h => absurd (by decide) h
    refine ⟨b, c', ?_, hb, hc'⟩
    show (NetM.socketReadln E fuel (rLen * 2 % 2 ^ 32) >>= NetM.checkData rLen).run c = _
    rw [hzero, run_bind_of_ok (socketReadln_zero E fuel c)]
    exact hrun'
  obtain ⟨res, l₁, hread, hcases⟩ := smarticSocketReadln_spec hzero l hl
  rw [run_bind_of_ok hread] at hrun
  rcases hcases with htrouble | ⟨line, ch, events, hline, hpend, -, rfl, rfl⟩
  · have htrouble' := (checkData_steady rLen res l₁ htrouble).result hrun
    rw [hcalm] at htrouble'
    cases htrouble'
  obtain ⟨code, msg, rfl⟩ := (checkData_spec _ _ _).result hrun
  rw [hpend, List.append_assoc] at hstream
  obtain ⟨p, hrest, k, hline'⟩ := readln_agrees hzero hx hline hstream
  refine ⟨hl, { x with reads := p }, rfl, hrest, k, fun fuel c hfuel hc => ?_⟩
  have hc₁ : SameAt { x with reads := p } (l.afterLine line ch events)
      { c with reads := p, errno := 0 } :=
    ⟨⟨hc.errcode, hc.errmsg, hc.connected, hc.serverId, hc.junk⟩, hc.socket, rfl, hc.writes⟩
  have hnonneg : ¬(lineResult (rLen * 2 % 2 ^ 32) line).ret < 0 :=
    not_lt.mpr (Int.natCast_nonneg _)
  obtain ⟨-, -, b, c', hrun', hb, hc'⟩ :=
    checkData_sameAt hrun hl hc₁ (fun h => absurd h hnonneg) fun _ => rfl
  exact ⟨b, c', (run_bind_of_ok (hline' fuel c hfuel hc.socket hc.reads)).trans hrun', hb, hc'⟩

/-- **A transfer** answers alike. -/
theorem xfer_agrees (hE : Undisturbed E) (hx : x.socket.isSelectable = true) (hl : Synced l)
    {r : Except Int (Option (List UInt8))}
    (hrun : (smartiClientXfer W fuel).run l = .ok (r, l')) (hcalm : l'.trouble = false)
    (hstream : Delivers (outcomeNet E.reads E.clock)
      (replyTo W fuel l.server "XFER".toList ++ future) x.reads) :
    Alongside E future x (fun b _ => SameValue r b) l l'
      fun fuel => NetM.smartiClientXfer E fuel true := by
  obtain ⟨a, l₁, hrequest, hrest⟩ := run_bind_eq_ok.mp hrun
  have hcmd : ∀ c ∈ "XFER".toList, isEol c = false := isEol_of_all (by decide)
  have hagrees : l₁.trouble = false → Alongside E future x (SameAnswer a) l l₁ fun fuel =>
      NetM.withTimeout 60000 (by decide) (NetM.request E fuel "XFER".toList) := by
    intro hcalm
    refine Alongside.withTimeout (n := fun fuel => NetM.request E fuel "XFER".toList) _ ?_ ?_
    · exact request_agrees (x := { x with socket := ⟨x.socket.s, 60000, by decide⟩ }) hE hx hcmd hl
        hrequest hcalm hstream
    · exact fun b c _ _ h => ⟨h.value, h.failed, h.errno⟩
  simp only [NetM.smartiClientXfer, Bool.not_true, Bool.false_eq_true, if_false]
  by_cases hinfo : ∃ rLine msg info, a = .ok (rLine, smartiDataFollows, msg) ∧
      smarticParseDevinfo msg = some info
  · -- the data is announced, and read
    obtain ⟨rLine, msg, info, rfl, hinfo⟩ := hinfo
    have htail : readTransfer (S := S) (.ok (rLine, smartiDataFollows, msg)) =
        smarticSocketReadln (strtoulValue info % 2 ^ 32 * 2 % 2 ^ 32) >>=
          checkData (strtoulValue info % 2 ^ 32) := by
      rw [readTransfer, if_neg (fun h => h rfl), hinfo]
    have hcalm₁ : l₁.trouble = false := (readTransfer_steady _).calm hrest hcalm
    have hvalue : ∀ b c, SameAnswer (.ok (rLine, smartiDataFollows, msg)) b c →
        b = .ok (rLine, smartiDataFollows, msg) := by
      intro b c h
      have hvalue := h.value
      cases b with
      | error f => cases hvalue
      | ok r =>
        cases hvalue
        rfl
    have hknown := (hagrees hcalm₁).imp hvalue
    rw [htail] at hrest
    refine hknown.bind fun x' hsocket hdelivers => ?_
    rw [← hsocket] at hx
    refine (data_agrees hx hknown.1 hrest hcalm hdelivers).of_run fun fuel c hc => ?_
    have hline : (NetM.infoLine smartiDataFollows (.ok (rLine, smartiDataFollows, msg))).run c =
        .ok (.ok info, c) := by
      rw [NetM.infoLine, if_neg (fun h => h rfl), hinfo]
      rfl
    refine ⟨{ c with mallocs := c.mallocs + 1 }, ?_, ?_⟩
    · rw [run_bind_of_ok hline]
      dsimp only
      rw [NetM.readTransfer, run_bind_of_ok (NetM.allocate_run E c), hE.malloc]
      rfl
    · exact ⟨⟨hc.errcode, hc.errmsg, hc.connected, hc.serverId, hc.junk⟩, hc.socket, hc.reads,
        hc.writes⟩
  · refine alongside_then hagrees hrest ?_ hcalm ?_
    · rcases a with rv | ⟨rLine, code, msg⟩
      · exact Idle.pure _
      rw [readTransfer]
      split
      · exact Idle.setError _ _ _
      next hcode =>
        obtain rfl := not_not.mp hcode
        split
        · exact Idle.setError _ _ _
        next info hparse => exact absurd ⟨rLine, msg, info, rfl, hparse⟩ hinfo
    · rintro _ b c ⟨hab, -, herrno⟩ hc
      rcases a with rv | ⟨rLine, code, msg⟩ <;> rcases b with f | r <;> cases hab
      · exact ⟨_, _, _, _, rfl, rfl, rfl, hc, stays_of_eq rfl rfl rfl rfl⟩
      · rw [readTransfer]
        dsimp only [NetM.infoLine]
        by_cases hcode : code = smartiDataFollows
        · subst hcode
          rw [if_neg (fun h => h rfl), if_neg (fun h => h rfl)]
          cases hparse : smarticParseDevinfo msg with
          | none =>
            have hzero : ErrorText.strerror 0 = .strerror c.errno := by rw [herrno]
            exact ⟨_, _, _, _, rfl, rfl, rfl,
              ⟨herrno.symm, hzero, hc.connected, hc.serverId, hc.junk⟩,
              stays_of_eq rfl rfl rfl rfl⟩
          | some info => exact absurd ⟨rLine, msg, info, rfl, hparse⟩ hinfo
        · rw [if_pos hcode, if_pos hcode]
          exact ⟨_, _, _, _, rfl, rfl, rfl, ⟨rfl, rfl, hc.connected, hc.serverId, hc.junk⟩,
            stays_of_eq rfl rfl rfl rfl⟩

end Steps

/-! ### Sessions

The calls of a session follow one another.  A call that polls is left out, and each of the
others is one of three kinds of requests.
-/

/-- The same call, with pointers for its results. -/
def Call.request : Call → Request
  | .enumerate cb => .enumerate (some cb)
  | .openDevice addr lsap chunkSize => .openDevice addr lsap chunkSize
  | .model => .model true
  | .serial => .serial true
  | .ticks => .ticks true
  | .setToken token => .setToken token
  | .size => .size true
  | .xfer => .xfer true
  | .close => .close

/-- The call looks at the socket between two lines. -/
def Call.polls : Call → Bool
  | .enumerate _ => true
  | _ => false

section Sessions

variable {W : Irda S} {E : NetEnv} {fuel : Nat} {future : Text} {x : NetPlace} {l l' : Link S}

/-- Forgetting the result of a call changes nothing else. -/
theorem forget_run {m : Client S α} (hrun : (forget m).run l = .ok ((), l')) :
    ∃ a, m.run l = .ok (a, l') := by
  obtain ⟨a, l₁, hm, hrest⟩ := run_bind_eq_ok.mp hrun
  cases hrest
  exact ⟨a, hm⟩

/-- A call whose result is not looked at. -/
theorem Alongside.discard {n : Nat → NetM (Except Failure α)}
    {Q : Except Failure α → NetClient → Prop} (h : Alongside E future x Q l l' n) :
    Alongside E future x (fun _ _ => True) l l' fun fuel => NetM.discard (n fuel) := by
  obtain ⟨hconnected, x', hsocket, hdelivers, k, hn⟩ := h
  refine ⟨hconnected, x', hsocket, hdelivers, k, fun fuel c hfuel hc => ?_⟩
  obtain ⟨b, c', hrun, -, hc'⟩ := hn fuel c hfuel hc
  show ∃ b c', (NetM.discard (n fuel)).run c = .ok (b, c') ∧ _
  rw [NetM.discard, run_bind_of_ok hrun]
  cases b with
  | error f => exact ⟨_, c', rfl, trivial, hc'⟩
  | ok a => exact ⟨_, c', rfl, trivial, hc'⟩

/-- **Every call that does not poll** leaves both clients the same. -/
theorem Step.agrees {call : Call} (h : Step W fuel l call l') (hl : Synced l)
    (hpolls : call.polls = false) (hE : Undisturbed E) (hx : x.socket.isSelectable = true)
    (hstream : Delivers (outcomeNet E.reads E.clock)
      (replyTo W fuel l.server call.command ++ future) x.reads) :
    Alongside E future x (fun _ _ => True) l l' fun fuel => call.request.invoke E fuel := by
  have hline := call.command_line
  obtain ⟨hrun, hcalm⟩ := h
  cases call with
  | enumerate cb => cases hpolls
  | xfer =>
    obtain ⟨r, hrun⟩ := forget_run hrun
    exact (xfer_agrees hE hx hl hrun hcalm hstream).discard
  | openDevice addr lsap chunkSize =>
    obtain ⟨r, hrun⟩ := forget_run hrun
    exact (statusRequest_agrees hE hx hline hl hrun hcalm hstream).imp fun _ _ _ => trivial
  | setToken token =>
    obtain ⟨r, hrun⟩ := forget_run hrun
    exact (statusRequest_agrees hE hx hline hl hrun hcalm hstream).imp fun _ _ _ => trivial
  | close =>
    obtain ⟨r, hrun⟩ := forget_run hrun
    exact (statusRequest_agrees hE hx hline hl hrun hcalm hstream).imp fun _ _ _ => trivial
  | model =>
    obtain ⟨r, hrun⟩ := forget_run hrun
    exact (infoRequest_agrees hE hx hline hl hrun hcalm hstream).discard
  | serial =>
    obtain ⟨r, hrun⟩ := forget_run hrun
    exact (infoRequest_agrees hE hx hline hl hrun hcalm hstream).discard
  | ticks =>
    obtain ⟨r, hrun⟩ := forget_run hrun
    exact (infoRequest_agrees hE hx hline hl hrun hcalm hstream).discard
  | size =>
    obtain ⟨r, hrun⟩ := forget_run hrun
    exact (infoRequest_agrees hE hx hline hl hrun hcalm hstream).discard

/-- A call that does not poll reads out its reply. -/
theorem Call.readsOut_of_polls {call : Call} (h : call.polls = false) :
    call.ReadsOut W fuel l l' := by
  cases call with
  | enumerate cb => cases h
  | _ => trivial

/-- The first call of a session. -/
theorem clientSession_cons {call : NetCall} {calls : List NetCall} {b : Except Failure Unit}
    {c c₁ : NetClient} (hcall : (call.invoke E fuel).run c = .ok (b, c₁)) :
    (clientSession E fuel (call :: calls)).run c = (clientSession E fuel calls).run c₁ := by
  have hstep : (do let _ ← call.invoke E fuel : NetM Unit).run c = .ok ((), c₁) :=
    run_bind_of_ok hcall
  exact run_bind_of_ok hstep

/-- The last call of a session. -/
theorem clientSession_concat {calls : List NetCall} {call : NetCall} {b : Except Failure Unit}
    {c c₁ c' : NetClient} (h : (clientSession E fuel calls).run c = .ok ((), c₁))
    (hcall : (call.invoke E fuel).run c₁ = .ok (b, c')) :
    (clientSession E fuel (calls ++ [call])).run c = .ok ((), c') := by
  have happend : clientSession E fuel (calls ++ [call]) = (do
      clientSession E fuel calls
      clientSession E fuel [call]) := List.forM_append
  rw [happend, run_bind_of_ok h]
  exact clientSession_cons hcall

/-- **The calls of a run**: the daemon sends a text `t` in all, and where the kernel hands out
that text, the client over the kernel makes the same calls. -/
theorem Run.agrees {l₀ : Link S} {trace : List (Link S × Call × Link S)} (h : Run W fuel l₀ trace l)
    (hl : Synced l₀) (hpolls : ∀ s ∈ trace, s.2.1.polls = false) (hE : Undisturbed E) :
    ∃ t, l.produced = l₀.produced ++ t ∧ ∀ future (x : NetPlace), x.socket.isSelectable = true →
      Delivers (outcomeNet E.reads E.clock) (t ++ future) x.reads →
      Alongside E future x (fun _ _ => True) l₀ l fun fuel' =>
        clientSession E fuel' (trace.map fun s => .request s.2.1.request) := by
  induction h with
  | start =>
    refine ⟨[], (List.append_nil _).symm, fun future x _ hstream => ?_⟩
    refine ⟨hl.connected, x, rfl, ?_, 0, fun fuel c _ hc => ⟨(), c, rfl, trivial, hc⟩⟩
    rw [hl.pending]
    exact hstream
  | @next trace l l' call hrun hstep ih =>
    rw [List.forall_mem_append, List.forall_mem_singleton] at hpolls
    obtain ⟨t, hproduced, hagrees⟩ := ih hpolls.1
    have hout : ∀ s ∈ trace, s.2.1.ReadsOut W fuel s.1 s.2.2 := fun s hs =>
      Call.readsOut_of_polls (hpolls.1 s hs)
    obtain ⟨hsynced, -⟩ := hrun.synced hl hout
    have hreply := (hstep.corresponds_iff hsynced).1.mpr (Call.readsOut_of_polls hpolls.2)
    refine ⟨t ++ replyTo W fuel l.server call.command, ?_, fun future x hx hstream => ?_⟩
    · rw [hreply.produced, hproduced, List.append_assoc]
    rw [List.append_assoc] at hstream
    obtain ⟨-, x₁, hsocket₁, hdelivers₁, k₁, hrun₁⟩ := hagrees _ x hx hstream
    rw [hsynced.pending, List.nil_append] at hdelivers₁
    obtain ⟨hconnected, x', hsocket, hdelivers, k₂, hrun₂⟩ :=
      hstep.agrees hsynced hpolls.2 hE (hsocket₁ ▸ hx) hdelivers₁
    refine ⟨hconnected, x', hsocket.trans hsocket₁, hdelivers, max k₁ k₂, ?_⟩
    intro fuel' c hfuel hc
    obtain ⟨_, c₁, hcalls, -, hc₁⟩ := hrun₁ fuel' c (le_of_max_le_left hfuel) hc
    obtain ⟨_, c', hcall, -, hc'⟩ := hrun₂ fuel' c₁ (le_of_max_le_right hfuel) hc₁
    refine ⟨(), c', ?_, trivial, hc'⟩
    show (clientSession E fuel' ((trace ++ [(l, call, l')]).map _)).run c = _
    rw [List.map_append]
    exact clientSession_concat hcalls hcall

/-- Behind the loop over the addresses: the line that is read is checked. -/
theorem greet_run {port : UInt16} {fd : Nat} {a : ServerAddr} {c c' : NetClient} {r : LineResult}
    (hreadln : (NetM.socketReadln E fuel 1024).run (greeted port fd a c) = .ok (r, c')) :
    (NetM.greet E fuel port fd a).run c = (NetM.checkGreeting c.reads c.junk r).run c' := by
  have hmodify : ∀ f : NetClient → NetClient, (modify f : NetM Unit).run c = .ok ((), f c) :=
    fun f => rfl
  rw [NetM.greet, run_bind_of_ok (hmodify _), run_bind_of_ok (NetM.readPos_run _),
    run_bind_of_ok (NetM.unsetLine_run _)]
  exact run_bind_of_ok hreadln

/-- A descriptor that `select` can wait for. -/
theorem connectedSocket_isSelectable {fd : Nat} (hfd : (fd : Int) < fdSetsize) :
    (NetM.connectedSocket fd).isSelectable = true := by
  show ((0 : Int) ≤ fd && (fd : Int) < fdSetsize) = true
  simpa using hfd

/-- The greeting is parsed without a further read. -/
theorem checkGreeting_channel (gLine : Text) (r : LineResult) (l : Link S) :
    Triple (checkGreeting gLine r) l (fun _ l' => l'.channel = l.channel) never := by
  rw [checkGreeting]
  split
  · exact rfl
  split
  · exact rfl
  split
  · exact rfl
  split
  · exact rfl
  split
  · exact rfl
  · exact rfl

/-- **Connecting** reads the greeting alike. -/
theorem connect_agrees {w : S} {schedule : List NetEvent} {junk : Text} {rc : Int}
    (hrun : smartiClientConnect.run (Link.dialed w schedule junk) = .ok (rc, l))
    (hcalm : l.trouble = false) (hl : l.connected = true) {addr : Text} {port : UInt16}
    {servers : List ServerAddr} {a : ServerAddr} {fd : Nat}
    (hresolve : E.resolve addr port = .ok servers)
    (husable : servers.find? ServerAddr.usable = some a) (hsocket : a.socket = some fd)
    (hfd : (fd : Int) < fdSetsize)
    (hstream : Delivers (outcomeNet E.reads E.clock) (greeting ++ future) 0) :
    ∃ x : NetPlace, x.socket = NetM.connectedSocket fd ∧
      Delivers (outcomeNet E.reads E.clock) (l.channel.pending ++ future) x.reads ∧
      ∃ k, ∀ fuel, k ≤ fuel → ∃ b c,
        (NetM.smartiClientConnect E fuel addr port).run (NetClient.fresh junk) = .ok (b, c) ∧
          SameStatus rc b ∧ SameAt x l c := by
  -- the client over the daemon has read the line of the greeting
  let l₀ : Link S := { Link.dialed w schedule junk with connected := true }
  have hread₀ : (smarticSocketReadln 1024 >>= checkGreeting junk).run l₀ = .ok (rc, l) := hrun
  obtain ⟨r, l₁, hread, hcases⟩ := smarticSocketReadln_spec (show 1024 ≠ 0 by decide) l₀ rfl
  rw [run_bind_of_ok hread] at hread₀
  rcases hcases with htrouble | ⟨line, ch, events, hline, hpend, -, rfl, rfl⟩
  · have htrouble' := (checkGreeting_steady junk r l₁ htrouble).result hread₀
    rw [hcalm] at htrouble'
    cases htrouble'
  have hpend' : greeting = line ++ '\n' :: ch.pending := hpend
  rw [hpend', List.append_assoc] at hstream
  -- the client over the kernel takes the first usable address
  obtain ⟨first, events', hfirst, hfound⟩ := connectFirst_run servers (NetClient.fresh junk)
  rcases first with _ | ⟨fd', a'⟩
  · rw [husable] at hfound
    cases hfound.1
  obtain ⟨husable', hsocket', -⟩ := hfound
  rw [husable] at husable'
  cases husable'
  rw [hsocket] at hsocket'
  cases hsocket'
  obtain ⟨p, hrest, k, hline'⟩ := readln_agrees (x := ⟨NetM.connectedSocket fd, 0, 0⟩)
    (show 1024 ≠ 0 by decide) (connectedSocket_isSelectable hfd) hline hstream
  let c₀ : NetClient := greeted port fd a
    { NetClient.fresh junk with fds := (NetClient.fresh junk).fds ++ events' }
  have hplaced : SameAt ⟨NetM.connectedSocket fd, p, 0⟩ (l₀.afterLine line ch events)
      { c₀ with reads := p, errno := 0 } := by
    refine ⟨⟨rfl, rfl, ?_, rfl, rfl⟩, rfl, rfl, rfl⟩
    have hopen : (fd : Int) ≠ -1 := by omega
    exact (decide_eq_true hopen).symm
  have herrno : (lineResult 1024 line).ret = -1 → (lineResult 1024 line).errno = 0 := fun _ => rfl
  obtain ⟨rc', l', b, c, hcheck, hcheck', hstatus, hsame, hstays⟩ :=
    checkGreeting_agrees c₀.reads junk hplaced.toSameClient herrno
  rw [hread₀] at hcheck
  cases hcheck
  refine ⟨⟨NetM.connectedSocket fd, p, 0⟩, rfl, ?_, k, fun fuel hfuel => ⟨b, c, ?_, hstatus, ?_⟩⟩
  · rw [(checkGreeting_channel junk _ _).result hread₀]
    exact hrest
  · have hreadln := hline' fuel c₀ hfuel rfl rfl
    rw [NetM.smartiClientConnect, hresolve]
    dsimp only
    rw [run_bind_of_ok hfirst]
    dsimp only
    rw [greet_run hreadln]
    exact hcheck'
  · exact hstays.sameAt hplaced hsame hl

/-- **A session over the kernel is the session over the daemon.** -/
theorem session_agrees {w : S} {schedule : List NetEvent} {junk : Text} {rc : Int} {l₀ : Link S}
    {trace : List (Link S × Call × Link S)}
    (hconnect : smartiClientConnect.run (Link.dialed w schedule junk) = .ok (rc, l₀))
    (hcalm : l₀.trouble = false) (hrun : Run W fuel l₀ trace l)
    (hpolls : ∀ s ∈ trace, s.2.1.polls = false) (hE : Undisturbed E) {addr : Text} {port : UInt16}
    {servers : List ServerAddr} {a : ServerAddr} {fd : Nat}
    (hresolve : E.resolve addr port = .ok servers)
    (husable : servers.find? ServerAddr.usable = some a) (hsocket : a.socket = some fd)
    (hfd : (fd : Int) < fdSetsize)
    (hstream : Delivers (outcomeNet E.reads E.clock) (l.produced ++ future) 0) :
    ∃ k, ∀ fuel', k ≤ fuel' → ∃ c,
      (clientSession E fuel' (.connect addr port ::
        trace.map fun s => .request s.2.1.request)).run (NetClient.fresh junk) = .ok ((), c) ∧
      SameClient l c := by
  rcases (smartiClientConnect_spec w schedule junk).result hconnect with
    htrouble | ⟨-, hsynced, hproduced, -⟩
  · rw [hcalm] at htrouble
    cases htrouble
  -- what the daemon sends is the greeting, and then what the calls read
  obtain ⟨t, hsent, hagrees⟩ := hrun.agrees hsynced hpolls hE
  rw [hsent, hproduced, List.append_assoc] at hstream
  obtain ⟨x, hplace, hrest, k₁, hconnect'⟩ :=
    connect_agrees hconnect hcalm hsynced.connected hresolve husable hsocket hfd hstream
  rw [hsynced.pending, List.nil_append] at hrest
  -- and then the calls go on from the place behind the greeting
  obtain ⟨-, x', -, -, k₂, hcalls⟩ :=
    hagrees future x (by rw [hplace]; exact connectedSocket_isSelectable hfd) hrest
  refine ⟨max k₁ k₂, fun fuel' hfuel => ?_⟩
  obtain ⟨b, c₁, hfirst, -, hc₁⟩ := hconnect' fuel' (le_of_max_le_left hfuel)
  obtain ⟨_, c, hrun', -, hc⟩ := hcalls fuel' c₁ (le_of_max_le_right hfuel) hc₁
  have hinvoke : ((NetCall.connect addr port).invoke E fuel').run (NetClient.fresh junk) =
      .ok (b, c₁) := hfirst
  exact ⟨c, (clientSession_cons hinvoke).trans hrun', hc.toSameClient⟩

end Sessions

end BenthosDc

/-
BenthosDc/SmartiRequests.lean

The ways in which a request of the client ends.

Every request sends its command and reads a response line.  `IsRequest` says what that can come
to: nothing is sent, an error is stored that names what has happened, or a response has been
parsed; and that each of it does come about where the outcomes are so.  The requests with a
timeout of their own are no exception.
-/
import BenthosDc.SmartiStale

namespace BenthosDc

open CString Hoare

/-! ### Responses

A response is what stands in the line buffer behind a read that returns.  It may come from the
read, or from before it.
-/

/-- The outcome at the end of a line is neither an error of `read` nor a timeout. -/
def NetOutcome.returns : NetOutcome → Bool
  | .failed _ => false
  | .timedOut => false
  | _ => true

/-- What a buffer that has held `rLine` holds behind a line. -/
def lineText (rLine line : Text) (fin : NetOutcome) : Text :=
  (lineEnd (line.take 1023) fin).text.getD rLine

/-- A response line that has been parsed: what is in the buffer, and what is behind the line. -/
structure Response where
  text : Text
  code : Int
  msg : Text
  fin : NetOutcome
  stop : Nat

/-- From the position `p` on there is a line that is parsed as the response `r`, in a buffer that
has held `rLine`. -/
def Responds (o : Nat → NetOutcome) (p : Nat) (rLine : Text) (r : Response) : Prop :=
  ∃ line, ReadsLine o p line r.fin r.stop ∧ r.fin.returns = true ∧
    r.text = lineText rLine line r.fin ∧ smarticParseResponse r.text = some (r.code, r.msg)

/-- A state of the client behind a response. -/
structure AfterResponse (c : NetClient) (r : Response) (c' : NetClient) : Prop where
  socket : c'.socket = c.socket
  reads : c'.reads = r.stop
  errno : c'.errno = NetM.lineErrno r.fin
  polls : c'.polls = c.polls
  mallocs : c'.mallocs = c.mallocs
  errors : c'.errors = c.errors

/-- The state in front of the response may be another one, if it has the same data. -/
theorem AfterResponse.of_eq {c c₁ c' : NetClient} {r : Response} (h : AfterResponse c₁ r c')
    (hsocket : c₁.socket = c.socket) (hpolls : c₁.polls = c.polls)
    (hmallocs : c₁.mallocs = c.mallocs) (herrors : c₁.errors = c.errors) : AfterResponse c r c' :=
  ⟨h.socket.trans hsocket, h.reads, h.errno, h.polls.trans hpolls, h.mallocs.trans hmallocs,
    h.errors.trans herrors⟩

/-! ### Errors

The code that is stored is compared with the failure: what the socket said, what the status
line said, or what the client makes of the response itself.
-/

/-- The error code that a failure is to be identified by. -/
def Failure.code : Failure → Option Int
  | .status code => some code
  | .timedOut => some etimedout
  | .socket errno => some errno
  | .other => none

/-- One error code has been stored since `c`; it is not 0, and it is the code of the failure. -/
structure Identified (f : Failure) (c c' : NetClient) : Prop where
  errors : c'.errors = c.errors ++ [c'.errcode]
  errcode : c'.errcode ≠ 0
  code : ∀ code ∈ f.code, c'.errcode = code

section Responses

variable {o : Nat → NetOutcome} {p : Nat} {rLine line msg : Text} {fin : NetOutcome} {code : Int}
  {c c' c₁ : NetClient} {f : Failure} {r : Response}

/-- A step that stores no error in front. -/
theorem Identified.of_errors (h : Identified f c₁ c') (hc : c₁.errors = c.errors) :
    Identified f c c' :=
  ⟨hc ▸ h.errors, h.errcode, h.code⟩

/-- A line that has been returned. -/
theorem lineEnd_returns (buf : Text) (h : fin.returns = true) :
    ¬(lineEnd buf fin).ret = -1 ∧ (lineEnd buf fin).timeout = false := by
  constructor
  · intro hret
    obtain ⟨e, rfl⟩ := (lineEnd_ret_eq_iff _ _).mp hret
    cases h
  · rw [Bool.eq_false_iff, ne_eq, lineEnd_timeout_iff]
    rintro rfl
    cases h

/-- Where a byte is stored, it does not matter what the buffer has held. -/
theorem Responds.of_stores {rLine' : Text} (h : Responds o p rLine r) (hstores : Stores o 1024 p) :
    Responds o p rLine' r := by
  obtain ⟨line, hline, hreturns, htext, hparse⟩ := h
  refine ⟨line, hline, hreturns, ?_, hparse⟩
  obtain ⟨hret, htimeout⟩ := lineEnd_returns (line.take 1023) hreturns
  have hlineEnd := lineEnd_text hret htimeout
  rw [if_neg fun h => hstores line r.fin r.stop hline h.1 h.2] at hlineEnd
  rw [htext, lineText, lineText, hlineEnd]
  rfl

/-- Where none is stored, the buffer is parsed as it has been. -/
theorem exists_responds_of_not_stores (h : ¬Stores o 1024 p)
    (hparse : smarticParseResponse rLine = some (code, msg)) :
    ∃ fin q, Responds o p rLine ⟨rLine, code, msg, fin, q⟩ := by
  simp only [Stores, not_forall, not_not] at h
  obtain ⟨line, fin, q, hline, hearly, hnil⟩ := h
  have hreturns : fin.returns = true := by
    cases fin with
    | endOfFile => rfl
    | selectFailed e => rfl
    | _ => cases hearly
  obtain ⟨hret, htimeout⟩ := lineEnd_returns (line.take 1023) hreturns
  have hlineEnd := lineEnd_text hret htimeout
  rw [if_pos ⟨hearly, hnil⟩] at hlineEnd
  exact ⟨fin, q, line, hline, hreturns, by rw [lineText, hlineEnd]; rfl, hparse⟩

end Responses

namespace NetM

section Responses

variable {E : NetEnv} {α : Type} {fuel : Nat} {c c' : NetClient} {rLine line : Text}
  {fin : NetOutcome}

/-- What has been stored identifies a failure, if it is its code. -/
theorem fail_ends {code : Int} {msg : Text} {e : Failure} {r : Except Failure α} (hcode : code ≠ 0)
    (he : ∀ n ∈ e.code, code = n) (hrun : (fail code msg e).run c = .ok (r, c')) :
    ∃ f, r = .error f ∧ Identified f c c' := by
  cases hrun
  exact ⟨e, rfl, rfl, hcode, he⟩

/-- The code of the system call is stored. -/
theorem setErrno_ends {e : Failure} {r : Except Failure α} (hcode : c.errno ≠ 0)
    (he : ∀ n ∈ e.code, c.errno = n)
    (hrun : (do setErrno; return .error e : NetM (Except Failure α)).run c = .ok (r, c')) :
    ∃ f, r = .error f ∧ Identified f c c' := by
  cases hrun
  exact ⟨e, rfl, rfl, hcode, he⟩

/-- A read halts in no other way than by going on. -/
theorem socketReadln_halts {len : Nat} {e : Halt}
    (hrun : (socketReadln E fuel len).run c = .error e) : e = .pending := by
  have hrun : socketReadln E fuel len c = .error e := hrun
  rw [socketReadln] at hrun
  split at hrun
  · cases hrun
  · exact (Except.error.inj hrun).symm

/-- So does a write. -/
theorem socketWrite_halts {buffer : Text} {e : Halt}
    (hrun : (socketWrite E fuel buffer).run c = .error e) : e = .pending := by
  have hrun : socketWrite E fuel buffer c = .error e := hrun
  rw [socketWrite] at hrun
  split at hrun
  · cases hrun
  split at hrun
  · cases hrun
  · exact (Except.error.inj hrun).symm

/-- **What is made of a response line**: an error is stored that identifies the failure, or the
line is parsed. -/
theorem checkResponse_ends {timeout : Bool} {start : Nat} {r : Except Failure (Text × Int × Text)}
    (hc : c.errno = lineErrno fin)
    (hrun : (checkResponse timeout start rLine (lineEnd (line.take 1023) fin)).run c =
      .ok (r, c')) :
    (∃ f, r = .error f ∧ Identified f c c') ∨
    ∃ code msg, timeout = false ∧ fin.returns = true ∧
      smarticParseResponse (lineText rLine line fin) = some (code, msg) ∧
      r = .ok (lineText rLine line fin, code, msg) ∧
      AfterResponse c ⟨lineText rLine line fin, code, msg, fin, c.reads⟩ c' := by
  rw [checkResponse] at hrun
  split at hrun
  next hret =>
    -- the number of the read is still in `errno`
    obtain ⟨e, rfl⟩ := (lineEnd_ret_eq_iff _ _).mp hret
    refine .inl (setErrno_ends ?_ ?_ hrun)
    · rw [hc]
      exact e.2.1
    · exact fun n hn => hc.trans (Option.some.inj hn)
  split at hrun
  next htimeout =>
    -- the write or the read has timed out
    refine .inl (fail_ends (by decide) ?_ hrun)
    exact fun n hn => Option.some.inj hn
  next hret htimeout =>
    rw [Bool.or_eq_true, not_or, Bool.not_eq_true, Bool.not_eq_true] at htimeout
    have hreturns : fin.returns = true := by
      cases fin with
      | failed e => exact absurd rfl hret
      | timedOut =>
        have htrue := (lineEnd_timeout_iff (line.take 1023) .timedOut).mpr rfl
        rw [htimeout.2] at htrue
        cases htrue
      | _ => rfl
    obtain ⟨res, c₁, hparse, hrun⟩ := run_bind_eq_ok.mp hrun
    cases hparse
    cases hres : smarticParseResponse (lineText rLine line fin) with
    | none =>
      rw [show (lineEnd (line.take 1023) fin).text.getD rLine = lineText rLine line fin from rfl,
        hres] at hrun
      obtain ⟨f, rfl, hf⟩ := fail_ends (by decide) (by rintro n ⟨⟩) hrun
      exact .inl ⟨f, rfl, hf.of_errors rfl⟩
    | some res =>
      rw [show (lineEnd (line.take 1023) fin).text.getD rLine = lineText rLine line fin from rfl,
        hres] at hrun
      cases hrun
      exact .inr ⟨res.1, res.2, htimeout.1, hreturns, rfl, rfl, rfl, rfl, hc, rfl, rfl, rfl⟩

/-- A response is checked without a further call. -/
theorem checkResponse_returns (timeout : Bool) (start : Nat) (rLine : Text) (r : LineResult)
    (c : NetClient) : ∃ res c', (checkResponse timeout start rLine r).run c = .ok (res, c') := by
  rw [checkResponse]
  split
  · exact ⟨_, _, rfl⟩
  split
  · exact ⟨_, _, rfl⟩
  rw [run_bind_of_ok (parseResponse_run start rLine r c)]
  split
  · exact ⟨_, _, rfl⟩
  · exact ⟨_, _, rfl⟩

/-- So does the read of a response. -/
theorem readResponse_halts {timeout : Bool} {e : Halt}
    (hrun : (readResponse E fuel timeout rLine).run c = .error e) : e = .pending := by
  rw [readResponse, run_bind_of_ok (readPos_run c)] at hrun
  rcases run_bind_eq_error.mp hrun with hreadln | ⟨r, c₁, -, hcheck⟩
  · exact socketReadln_halts hreadln
  · obtain ⟨res, c₂, hres⟩ := checkResponse_returns timeout c.reads rLine r c₁
    rw [hres] at hcheck
    cases hcheck

/-- **A request only waits**: nothing else keeps it from returning. -/
theorem request_halts {cmd : Text} {e : Halt} (hrun : (request E fuel cmd).run c = .error e) :
    e = .pending := by
  rw [request] at hrun
  rcases run_bind_eq_error.mp hrun with hwrite | ⟨w, c₁, -, hrun⟩
  · exact socketWrite_halts hwrite
  split at hrun
  · cases hrun
  · rw [run_bind_of_ok (unsetLine_run c₁)] at hrun
    exact readResponse_halts hrun

/-- The ways in which a response ends. -/
theorem readResponse_ends {timeout : Bool} {r : Except Failure (Text × Int × Text)}
    (hrun : (readResponse E fuel timeout rLine).run c = .ok (r, c')) :
    (∃ f, r = .error f ∧ Identified f c c') ∨
    ∃ s, timeout = false ∧ Responds E.reads c.reads rLine s ∧ r = .ok (s.text, s.code, s.msg) ∧
      AfterResponse c s c' := by
  rw [readResponse, run_bind_of_ok (readPos_run c)] at hrun
  obtain ⟨res, c₁, hreadln, hcheck⟩ := run_bind_eq_ok.mp hrun
  rcases socketReadln_cases hreadln with ⟨-, rfl, rfl⟩ | ⟨-, line, fin, q, hline, rfl, rfl⟩
  · rw [checkResponse, if_pos rfl] at hcheck
    obtain ⟨f, rfl, hf⟩ := setErrno_ends (by show einval ≠ 0; decide) (by rintro n ⟨⟩; rfl) hcheck
    exact .inl ⟨f, rfl, hf.of_errors rfl⟩
  · rcases checkResponse_ends rfl hcheck with
      ⟨f, rfl, hf⟩ | ⟨code, msg, htimeout, hfin, hparse, rfl, h⟩
    · exact .inl ⟨f, rfl, hf.of_errors rfl⟩
    · refine .inr ⟨⟨_, code, msg, fin, q⟩, htimeout, ⟨line, hline, hfin, rfl, hparse⟩, rfl, ?_⟩
      exact h.of_eq rfl rfl rfl rfl

/-- **A response is parsed** where the outcomes hold one. -/
theorem readResponse_runs {socket : NetSocket} {p : Nat} (hc : socket.isSelectable = true)
    {s : Response} (h : Responds E.reads p rLine s) :
    ∃ n, ∀ fuel, n ≤ fuel → ∀ c : NetClient, c.socket = socket → c.reads = p →
      ∃ c', (readResponse E fuel false rLine).run c = .ok (.ok (s.text, s.code, s.msg), c') ∧
        AfterResponse c s c' := by
  obtain ⟨line, hline, hreturns, htext, hparse⟩ := h
  obtain ⟨n, hreadln⟩ := socketReadln_runs hc (show 1024 ≠ 0 by decide) hline
  obtain ⟨hret, htimeout⟩ := lineEnd_returns (line.take (1024 - 1)) hreturns
  rw [htext] at hparse
  refine ⟨n, fun fuel hfuel c hsocket hreads => ⟨{ c with
    reads := s.stop
    errno := lineErrno s.fin
    parses := c.parses ++ [⟨c.reads, s.stop, lineEnd (line.take 1023) s.fin⟩] }, ?_,
    rfl, rfl, rfl, rfl, rfl, rfl⟩⟩
  rw [readResponse, run_bind_of_ok (readPos_run c),
    run_bind_of_ok (hreadln fuel hfuel c hsocket hreads), checkResponse, if_neg hret, htimeout,
    Bool.or_false, if_neg Bool.false_ne_true]
  have hrun : (parseResponse c.reads rLine (lineEnd (line.take 1023) s.fin)).run
      { c with reads := s.stop, errno := lineErrno s.fin } = .ok (some (s.code, s.msg), { c with
        reads := s.stop
        errno := lineErrno s.fin
        parses := c.parses ++ [⟨c.reads, s.stop, lineEnd (line.take 1023) s.fin⟩] }) := by
    rw [← hparse]
    rfl
  rw [run_bind_of_ok hrun, htext]
  rfl

end Responses

end NetM

/-! ### Requests

The command goes out or does not, and a response comes or does not.  Each of these is told by
the outcomes from the place of the client on.
-/

/-- The command has been written; `timeout` is whether that has timed out. -/
def Sent (E : NetEnv) (c : NetClient) (cmd : Text) (timeout : Bool) : Prop :=
  c.socket.isSelectable = true ∧ ∃ w q,
    Sending E.writes (cmd.length + 1) c.writes w q ∧ w.ret = 0 ∧ w.timeout = timeout

/-- The command cannot be written. -/
def Unsent (E : NetEnv) (c : NetClient) (cmd : Text) : Prop :=
  c.socket.isSelectable = false ∨ c.socket.isSelectable = true ∧ ∃ w q,
    Sending E.writes (cmd.length + 1) c.writes w q ∧ w.ret ≠ 0

/-- The ways in which a request ends. -/
inductive RequestEnd (E : NetEnv) (c : NetClient) (cmd : Text) :
    Except Failure (Text × Int × Text) → NetClient → Prop
  | unsent {f : Failure} {c' : NetClient} :
      Unsent E c cmd → c'.errors = c.errors → RequestEnd E c cmd (.error f) c'
  | failed {f : Failure} {c' : NetClient} :
      Identified f c c' → RequestEnd E c cmd (.error f) c'
  | replied {r : Response} {c' : NetClient} :
      Sent E c cmd false → Responds E.reads c.reads c.junk r → AfterResponse c r c' →
      RequestEnd E c cmd (.ok (r.text, r.code, r.msg)) c'

/-- A request that succeeds has had its response. -/
theorem RequestEnd.of_ok {E : NetEnv} {c c' : NetClient} {cmd text msg : Text} {code : Int}
    (h : RequestEnd E c cmd (.ok (text, code, msg)) c') :
    ∃ r, Sent E c cmd false ∧ Responds E.reads c.reads c.junk r ∧ AfterResponse c r c' ∧
      text = r.text ∧ code = r.code ∧ msg = r.msg := by
  cases h with
  | replied hsent hr hc' => exact ⟨_, hsent, hr, hc', rfl, rfl, rfl⟩

/-- A program, for any number of passes, that sends a command and reads a response. -/
structure IsRequest (E : NetEnv) (cmd : Text)
    (m : Nat → NetM (Except Failure (Text × Int × Text))) : Prop where
  ends : ∀ {fuel c r c'}, (m fuel).run c = .ok (r, c') → RequestEnd E c cmd r c'
  unsent : ∀ {c}, Unsent E c cmd → ∃ n, ∀ fuel, n ≤ fuel → ∃ f c',
    (m fuel).run c = .ok (.error f, c') ∧ c'.errors = c.errors
  replied : ∀ {c r}, Sent E c cmd false → Responds E.reads c.reads c.junk r →
    ∃ n, ∀ fuel, n ≤ fuel → ∃ c', (m fuel).run c = .ok (.ok (r.text, r.code, r.msg), c') ∧
      AfterResponse c r c'

section Requests

variable {E : NetEnv} {cmd : Text} {m : Nat → NetM (Except Failure (Text × Int × Text))}

/-- A request that ends does so in one of these ways. -/
theorem request_ends {fuel : Nat} {c c' : NetClient} {r : Except Failure (Text × Int × Text)}
    (hrun : (NetM.request E fuel cmd).run c = .ok (r, c')) : RequestEnd E c cmd r c' := by
  rw [NetM.request] at hrun
  obtain ⟨w, c₁, hwrite, hrun⟩ := run_bind_eq_ok.mp hrun
  rcases NetM.socketWrite_cases hwrite with ⟨hguard, rfl, rfl⟩ | ⟨hc, q, sent, hw, rfl⟩
  · cases hrun
    refine .unsent (.inl (hguard.resolve_right ?_)) rfl
    exact List.append_ne_nil_of_right_ne_nil _ (List.cons_ne_nil _ _)
  rw [List.length_append] at hw
  by_cases hret : w.ret = 0
  · rw [if_neg (not_not.mpr hret)] at hrun
    rw [run_bind_of_ok (NetM.unsetLine_run _)] at hrun
    rcases NetM.readResponse_ends hrun with ⟨f, rfl, hf⟩ | ⟨s, htimeout, hs, rfl, h⟩
    · exact .failed (hf.of_errors rfl)
    · refine .replied ⟨hc, w, q, hw, hret, htimeout⟩ hs ?_
      exact h.of_eq rfl rfl rfl rfl
  · rw [if_pos hret] at hrun
    cases hrun
    exact .unsent (.inr ⟨hc, w, q, hw, hret⟩) rfl

/-- A request that cannot be sent ends with an error. -/
theorem request_unsent {c : NetClient} (h : Unsent E c cmd) :
    ∃ n, ∀ fuel, n ≤ fuel → ∃ f c',
      (NetM.request E fuel cmd).run c = .ok (.error f, c') ∧ c'.errors = c.errors := by
  rcases h with hc | ⟨hc, w, q, hw, hret⟩
  · refine ⟨0, fun fuel _ => ⟨.socket einval, { c with errno := einval }, ?_, rfl⟩⟩
    have hwrite : (NetM.socketWrite E fuel (cmd ++ ['\n'])).run c =
        .ok (⟨-1, false, einval⟩, { c with errno := einval }) := by
      show NetM.socketWrite E fuel (cmd ++ ['\n']) c = _
      rw [NetM.socketWrite, if_pos (.inl (by rw [hc]; rfl))]
    rw [NetM.request, run_bind_of_ok hwrite]
    rfl
  · have hlength : (cmd ++ ['\n']).length = cmd.length + 1 := List.length_append
    rw [← hlength] at hw
    obtain ⟨n, hwrite⟩ := NetM.socketWrite_runs hc (by simp) hw
    refine ⟨n, fun fuel hfuel => ?_⟩
    obtain ⟨sent, hwrite⟩ := hwrite fuel hfuel c rfl rfl
    refine ⟨.socket w.errno, { c with writes := q, sent := sent, errno := w.errno }, ?_, rfl⟩
    rw [NetM.request, run_bind_of_ok hwrite, if_pos hret]
    rfl

/-- A request that is answered ends with the response. -/
theorem request_replied {c : NetClient} {r : Response} (h : Sent E c cmd false)
    (hr : Responds E.reads c.reads c.junk r) :
    ∃ n, ∀ fuel, n ≤ fuel → ∃ c',
      (NetM.request E fuel cmd).run c = .ok (.ok (r.text, r.code, r.msg), c') ∧
        AfterResponse c r c' := by
  obtain ⟨hc, w, q, hw, hret, htimeout⟩ := h
  have hlength : (cmd ++ ['\n']).length = cmd.length + 1 := List.length_append
  rw [← hlength] at hw
  obtain ⟨n₁, hwrite⟩ := NetM.socketWrite_runs hc (by simp) hw
  obtain ⟨n₂, hread⟩ := NetM.readResponse_runs hc hr
  refine ⟨max n₁ n₂, fun fuel hfuel => ?_⟩
  obtain ⟨sent, hwrite⟩ := hwrite fuel (le_of_max_le_left hfuel) c rfl rfl
  obtain ⟨c', hrun, hc'⟩ := hread fuel (le_of_max_le_right hfuel)
    { c with writes := q, sent := sent, errno := w.errno } rfl rfl
  refine ⟨c', ?_, hc'.of_eq rfl rfl rfl rfl⟩
  rw [NetM.request, run_bind_of_ok hwrite, if_neg (not_not.mpr hret),
    run_bind_of_ok (NetM.unsetLine_run _), htimeout]
  exact hrun

/-- **A request is described.** -/
theorem request_isRequest : IsRequest E cmd fun fuel => NetM.request E fuel cmd where
  ends := request_ends
  unsent := request_unsent
  replied := request_replied

/-! ### Timeouts

A timeout of its own is put in for the request and taken out behind it.
-/

/-- The client with another timeout. -/
def NetClient.waiting (c : NetClient) (timeout : Int) (htimeout : 0 < timeout) : NetClient :=
  { c with socket := ⟨c.socket.s, timeout, htimeout⟩ }

/-- The old timeout is put back. -/
theorem withTimeout_run {α : Type} {timeout : Int} (htimeout : 0 < timeout) (m : NetM α)
    (c : NetClient) :
    (NetM.withTimeout timeout htimeout m).run c =
      match m.run (c.waiting timeout htimeout) with
      | .ok (a, c') => .ok (a, c'.waiting c.socket.timeout c.socket.timeout_pos)
      | .error e => .error e := by
  have hget : (get : NetM NetClient).run c = .ok (c, c) := rfl
  have hmodify : (modify fun c : NetClient => { c with
      socket := ⟨c.socket.s, timeout, htimeout⟩ } : NetM PUnit).run c =
        .ok (⟨⟩, c.waiting timeout htimeout) := rfl
  rw [NetM.withTimeout, run_bind_of_ok hget, run_bind_of_ok hmodify, StateT.run_bind]
  cases m.run (c.waiting timeout htimeout) with
  | error e => rfl
  | ok r => rfl

/-- A response with another timeout is a response. -/
theorem AfterResponse.waiting {c c' : NetClient} {r : Response} {timeout : Int}
    {htimeout : 0 < timeout}
    (h : AfterResponse (c.waiting timeout htimeout) r c') :
    AfterResponse c r (c'.waiting c.socket.timeout c.socket.timeout_pos) := by
  refine ⟨?_, h.reads, h.errno, h.polls, h.mallocs, h.errors⟩
  show (⟨c'.socket.s, c.socket.timeout, c.socket.timeout_pos⟩ : NetSocket) = c.socket
  rw [h.socket]
  rfl

/-- **A request with a timeout of its own** is a request. -/
theorem IsRequest.withTimeout {timeout : Int} (htimeout : 0 < timeout) (hm : IsRequest E cmd m) :
    IsRequest E cmd fun fuel => NetM.withTimeout timeout htimeout (m fuel) where
  -- neither the outcomes nor their places depend on the timeout
  ends := by
    intro fuel c r c' hrun
    rw [withTimeout_run] at hrun
    split at hrun
    next a c₁ hm' =>
      cases hrun
      cases hm.ends hm' with
      | unsent hunsent herrors => exact .unsent hunsent herrors
      | failed hf => exact .failed ⟨hf.errors, hf.errcode, hf.code⟩
      | replied hsent hr h => exact .replied hsent hr h.waiting
    next => cases hrun
  unsent := by
    intro c hc
    obtain ⟨n, hrun⟩ := hm.unsent (c := c.waiting timeout htimeout) hc
    refine ⟨n, fun fuel hfuel => ?_⟩
    obtain ⟨f, c', hrun, herrors⟩ := hrun fuel hfuel
    refine ⟨f, c'.waiting c.socket.timeout c.socket.timeout_pos, ?_, herrors⟩
    rw [withTimeout_run, hrun]
  replied := by
    intro c r hc hr
    obtain ⟨n, hrun⟩ := hm.replied (c := c.waiting timeout htimeout) hc hr
    refine ⟨n, fun fuel hfuel => ?_⟩
    obtain ⟨c', hrun, hc'⟩ := hrun fuel hfuel
    refine ⟨_, ?_, hc'.waiting⟩
    rw [withTimeout_run, hrun]

end Requests

/-! ### Information

A message that has the information is taken apart; another one fails.
-/

section Information

variable {c c' : NetClient} {info : Text}

/-- A response with the code that is expected, and with information, leads on. -/
theorem infoLine_info {expected : Int} {text : Text} {code : Int} {msg : Text}
    (hcode : code = expected) (hinfo : smarticParseDevinfo msg = some info) (c : NetClient) :
    (NetM.infoLine expected (.ok (text, code, msg))).run c = .ok (.ok info, c) := by
  rw [NetM.infoLine, if_neg (not_not.mpr hcode), hinfo]
  rfl

/-- What leads on is such a response. -/
theorem infoLine_ok {expected : Int} {res : Except Failure (Text × Int × Text)}
    (hrun : (NetM.infoLine expected res).run c = .ok (.ok info, c')) :
    ∃ text msg, res = .ok (text, expected, msg) ∧ smarticParseDevinfo msg = some info ∧ c' = c := by
  rcases res with e | ⟨text, code, msg⟩
  · cases hrun
  rw [NetM.infoLine] at hrun
  split at hrun
  · cases hrun
  next hcode =>
    obtain rfl := not_not.mp hcode
    cases hinfo : smarticParseDevinfo msg with
    | none =>
      rw [hinfo] at hrun
      cases hrun
    | some info' =>
      rw [hinfo] at hrun
      cases hrun
      exact ⟨text, msg, rfl, hinfo, rfl⟩

/-- A message is taken apart without a further call. -/
theorem infoLine_returns (expected : Int) (res : Except Failure (Text × Int × Text))
    (c : NetClient) : ∃ infores c', (NetM.infoLine expected res).run c = .ok (infores, c') := by
  rcases res with e | ⟨text, code, msg⟩
  · exact ⟨_, _, rfl⟩
  rw [NetM.infoLine]
  split
  · exact ⟨_, _, rfl⟩
  split
  · exact ⟨_, _, rfl⟩
  · exact ⟨_, _, rfl⟩

end Information

end BenthosDc

/-
BenthosDc/SmartiTrim.lean

The loop of `smarti_client_xfer` that trims the line of data.

The loop goes back from the end of the line to a character of the encoding.  It has no bound of
its own: on a line without such a character it reads in front of the buffer.

* `smartiClientXfer_inBounds_iff`: when no transfer does so.
-/
import BenthosDc.SmartiRequests

namespace BenthosDc

open CString Hoare

/-! ### Trimming

The loop is a search from the end, and its result is the line without what it has gone over.
-/

/-- The line that has been stored is not trimmed, or has a character at which that ends. -/
def Trimmable (fin : NetOutcome) (buf : Text) : Prop :=
  fin.returns = true → ∃ ch ∈ buf, isB64 ch = true

section Trim

variable {c : NetClient} {data buf : Text} {fin : NetOutcome}

/-- **The trimming loop** ends behind the last character of the encoding, or in front of the
data. -/
theorem trim_run (data : Text) (c : NetClient) {n : Nat} (hn : n ≤ data.length) :
    (NetM.trim data n).run c =
      match (data.take n).rdropWhile fun ch => !isB64 ch with
      | [] => .error .overflow
      | kept => .ok (kept.length, c) := by
  -- on the length: the last character stays, or the rest is trimmed
  induction n with
  | zero => rfl
  | succ n ih =>
    have hlt : n < data.length := hn
    have hget : data.getD n '\x00' = data[n] := List.getD_eq_getElem _ _ hlt
    have htake : data.take (n + 1) = data.take n ++ [data[n]] := by
      rw [List.take_succ_eq_append_getElem hlt]
    rw [NetM.trim, hget, htake]
    by_cases hch : isB64 data[n] = true
    · rw [if_pos hch, List.rdropWhile_concat_neg _ _ _ (by simp [hch])]
      have hlength : (data.take n ++ [data[n]]).length = n + 1 := by
        rw [← htake, List.length_take_of_le hn]
      obtain ⟨b, kept, hkept⟩ := List.exists_cons_of_ne_nil
        (List.append_ne_nil_of_right_ne_nil (data.take n) (List.cons_ne_nil data[n] []))
      rw [hkept] at hlength ⊢
      rw [← hlength]
      rfl
    · rw [if_neg hch, List.rdropWhile_concat_pos _ _ _ (by simp [hch])]
      exact ih (by omega)

/-- Nothing is left of a line without a character of the encoding. -/
theorem rdropWhile_eq_nil_iff (buf : Text) :
    (buf.rdropWhile fun ch => !isB64 ch) = [] ↔ ¬∃ ch ∈ buf, isB64 ch = true := by
  rw [List.rdropWhile_eq_nil_iff]
  simp

/-- A line that has been returned stands in the buffer. -/
theorem lineEnd_getD (buf : Text) (h : fin.returns = true) :
    (lineEnd buf fin).text.getD [] = buf := by
  obtain ⟨hret, htimeout⟩ := lineEnd_returns buf h
  rw [lineEnd_text hret htimeout]
  split
  next hnil => rw [hnil.2]; rfl
  next => rfl

/-- A line of data that is not returned is not trimmed. -/
theorem checkData_refuses (rLen : Nat) (c : NetClient) (buf : Text)
    (h : ¬fin.returns = true) :
    ∃ r c', (NetM.checkData rLen (lineEnd buf fin)).run c = .ok (r, c') := by
  cases fin with
  | failed e => exact ⟨_, _, rfl⟩
  | timedOut =>
    have htimeout := (lineEnd_timeout_iff buf .timedOut).mpr rfl
    have hne : ¬(lineEnd buf .timedOut).ret = -1 := by
      rw [lineEnd_ret_eq_iff]
      rintro ⟨e, he⟩
      cases he
    rw [NetM.checkData, if_neg (not_lt.mpr (lineEnd_nonneg hne)), if_pos htimeout]
    exact ⟨_, _, rfl⟩
  | _ => exact absurd rfl h

/-- **The line of data**: it comes to an end, or the loop reads in front of the buffer. -/
theorem checkData_run (rLen : Nat) (c : NetClient) (buf : Text) (fin : NetOutcome) :
    (Trimmable fin buf →
      ∃ r c', (NetM.checkData rLen (lineEnd buf fin)).run c = .ok (r, c')) ∧
    (¬Trimmable fin buf →
      (NetM.checkData rLen (lineEnd buf fin)).run c = .error .overflow) := by
  by_cases hreturns : fin.returns = true
  case neg =>
    exact ⟨fun _ => checkData_refuses rLen c buf hreturns, fun h => absurd (absurd · hreturns) h⟩
  obtain ⟨hne, htimeout⟩ := lineEnd_returns buf hreturns
  have htrim := trim_run buf c (le_refl buf.length)
  rw [List.take_length] at htrim
  rw [NetM.checkData, if_neg (not_lt.mpr (lineEnd_nonneg hne)), htimeout,
    if_neg Bool.false_ne_true, lineEnd_getD buf hreturns, lineEnd_ret hne, Int.toNat_natCast]
  constructor
  · intro h
    have hkept : (buf.rdropWhile fun ch => !isB64 ch) ≠ [] := fun hnil =>
      (rdropWhile_eq_nil_iff buf).mp hnil (h hreturns)
    obtain ⟨b, kept, hkept⟩ := List.exists_cons_of_ne_nil hkept
    rw [hkept] at htrim
    rw [run_bind_of_ok htrim]
    split
    · exact ⟨_, _, rfl⟩
    · exact ⟨_, _, rfl⟩
  · intro h
    rw [Trimmable, Classical.not_imp] at h
    rw [(rdropWhile_eq_nil_iff buf).mpr h.2] at htrim
    exact run_bind_of_error htrim

end Trim

/-! ### Transfers

The line of data is read with room for the length that the line before has announced.
-/

/-- `b64_len` -/
def dataLength (info : Text) : Nat := strtoulValue info % 2 ^ 32 * 2 % 2 ^ 32

/-- XFER is answered with the code 301 and the length `info`, and a line follows behind that. -/
def DataFollows (E : NetEnv) (c : NetClient) (info line : Text) (fin : NetOutcome) : Prop :=
  ∃ r q, Sent E c "XFER".toList false ∧ Responds E.reads c.reads c.junk r ∧
    r.code = smartiDataFollows ∧ smarticParseDevinfo r.msg = some info ∧
    ReadsLine E.reads r.stop line fin q

section Transfer

variable {E : NetEnv} {fuel : Nat} {c c' : NetClient} {info line : Text} {fin : NetOutcome}
  {r : Response}

/-- No room, no read. -/
theorem socketReadln_zero (E : NetEnv) (fuel : Nat) (c : NetClient) :
    (NetM.socketReadln E fuel 0).run c =
      .ok (⟨-1, false, einval, none⟩, { c with errno := einval }) := by
  show NetM.socketReadln E fuel 0 c = _
  rw [NetM.socketReadln, NetKernel.readln, if_pos (.inr rfl)]
  rfl

/-- The reads in front of the buffer come from such a line. -/
theorem readTransfer_overflows (hrun : (NetM.readTransfer E fuel info).run c = .error .overflow) :
    E.malloc c.mallocs = true ∧ dataLength info ≠ 0 ∧ ∃ line fin q,
      ReadsLine E.reads c.reads line fin q ∧ ¬Trimmable fin (line.take (dataLength info - 1)) := by
  rw [NetM.readTransfer, run_bind_of_ok (NetM.allocate_run E c)] at hrun
  split at hrun
  next => cases hrun
  next hallocated =>
    rw [← dataLength] at hrun
    by_cases hzero : dataLength info = 0
    · rw [hzero, run_bind_of_ok (socketReadln_zero E fuel _)] at hrun
      cases hrun
    rcases run_bind_eq_error.mp hrun with hreadln | ⟨res, c₁, hreadln, hcheck⟩
    · exact absurd (NetM.socketReadln_halts hreadln) (by decide)
    rcases NetM.socketReadln_cases hreadln with ⟨-, rfl, rfl⟩ | ⟨-, line, fin, q, hline, rfl, rfl⟩
    · cases hcheck
    refine ⟨by simpa using hallocated, hzero, line, fin, q, hline, fun htrim => ?_⟩
    obtain ⟨res, c₂, hres⟩ := (checkData_run _ _ _ _).1 htrim
    rw [hres] at hcheck
    cases hcheck

/-- **A transfer whose line has come**: it returns, or the loop reads in front of the buffer. -/
theorem readTransfer_runs {socket : NetSocket} {p q : Nat} (hc : socket.isSelectable = true)
    (hline : ReadsLine E.reads p line fin q) :
    ∃ n, ∀ fuel, n ≤ fuel → ∀ c : NetClient, c.socket = socket → c.reads = p →
      ((E.malloc c.mallocs = true → dataLength info ≠ 0 →
          Trimmable fin (line.take (dataLength info - 1))) →
        ∃ res c', (NetM.readTransfer E fuel info).run c = .ok (res, c')) ∧
      (E.malloc c.mallocs = true → dataLength info ≠ 0 →
          ¬Trimmable fin (line.take (dataLength info - 1)) →
        (NetM.readTransfer E fuel info).run c = .error .overflow) := by
  by_cases hzero : dataLength info = 0
  · -- a buffer of no bytes is refused
    refine ⟨0, fun fuel _ c _ _ => ⟨fun _ => ?_, fun _ h => absurd hzero h⟩⟩
    rw [NetM.readTransfer, run_bind_of_ok (NetM.allocate_run E c)]
    split
    · exact ⟨_, _, rfl⟩
    · rw [← dataLength, hzero, run_bind_of_ok (socketReadln_zero E fuel _)]
      exact ⟨_, _, rfl⟩
  obtain ⟨n, hreadln⟩ := NetM.socketReadln_runs hc hzero hline
  refine ⟨n, fun fuel hfuel c hsocket hreads => ?_⟩
  rw [NetM.readTransfer, run_bind_of_ok (NetM.allocate_run E c)]
  by_cases hallocated : E.malloc c.mallocs = true
  · rw [if_neg (by simp [hallocated]), ← dataLength,
      run_bind_of_ok (hreadln fuel hfuel { c with mallocs := c.mallocs + 1 } hsocket hreads)]
    obtain ⟨hends, hoverflows⟩ := checkData_run (strtoulValue info % 2 ^ 32)
      { c with mallocs := c.mallocs + 1, reads := q, errno := NetM.lineErrno fin }
      (line.take (dataLength info - 1)) fin
    exact ⟨fun h => hends (h hallocated hzero), fun _ _ h => hoverflows h⟩
  · rw [if_pos (by simp [hallocated])]
    exact ⟨fun _ => ⟨_, _, rfl⟩, fun h => absurd h hallocated⟩

/-- XFER is a request with a timeout of a minute. -/
theorem xfer_isRequest : IsRequest E "XFER".toList fun fuel =>
    NetM.withTimeout 60000 (by decide) (NetM.request E fuel "XFER".toList) :=
  request_isRequest.withTimeout (by decide)

/-- Behind a response with a size comes the transfer. -/
theorem smartiClientXfer_transfer (hsent : Sent E c "XFER".toList false)
    (hr : Responds E.reads c.reads c.junk r) (hcode : r.code = smartiDataFollows)
    (hinfo : smarticParseDevinfo r.msg = some info) :
    ∃ n, ∀ fuel, n ≤ fuel → ∃ c₁, AfterResponse c r c₁ ∧
      (NetM.smartiClientXfer E fuel true).run c = (NetM.readTransfer E fuel info).run c₁ := by
  obtain ⟨n, hrun⟩ := xfer_isRequest.replied hsent hr
  refine ⟨n, fun fuel hfuel => ?_⟩
  obtain ⟨c₁, hrun, hc₁⟩ := hrun fuel hfuel
  refine ⟨c₁, hc₁, ?_⟩
  rw [NetM.smartiClientXfer, if_neg (by decide), run_bind_of_ok hrun,
    run_bind_of_ok (infoLine_info hcode hinfo c₁)]

/-- The whole transfer, if it reads in front of the buffer. -/
theorem smartiClientXfer_overflows {out : Bool}
    (hrun : (NetM.smartiClientXfer E fuel out).run c = .error .overflow) :
    out = true ∧ ∃ info line fin, DataFollows E c info line fin ∧ E.malloc c.mallocs = true ∧
      dataLength info ≠ 0 ∧ ¬Trimmable fin (line.take (dataLength info - 1)) := by
  rw [NetM.smartiClientXfer] at hrun
  split at hrun
  next => cases hrun
  next hout =>
    refine ⟨by simpa using hout, ?_⟩
    -- in front of the data the call can only wait
    rcases run_bind_eq_error.mp hrun with hhalt | ⟨res, c₁, hreq, hrest⟩
    · rw [withTimeout_run] at hhalt
      split at hhalt
      next => cases hhalt
      next e he =>
        cases hhalt
        exact absurd (NetM.request_halts he) (by decide)
    obtain ⟨infores, c₂, hinfo⟩ := infoLine_returns smartiDataFollows res c₁
    rw [run_bind_of_ok hinfo] at hrest
    rcases infores with e | info
    · cases hrest
    obtain ⟨text, msg, rfl, hparse, rfl⟩ := infoLine_ok hinfo
    obtain ⟨hmalloc, hlen, line, fin, q, hline, htrim⟩ := readTransfer_overflows hrest
    obtain ⟨r, hsent, hr, hc₁, -, hcode, rfl⟩ := (xfer_isRequest.ends hreq).of_ok
    rw [hc₁.reads] at hline
    rw [hc₁.mallocs] at hmalloc
    exact ⟨info, line, fin, ⟨r, q, hsent, hr, hcode.symm, hparse, hline⟩, hmalloc, hlen, htrim⟩

end Transfer

/-- **A transfer behind its reply**, once there is enough fuel for both lines. -/
theorem smartiClientXfer_runs {E : NetEnv} {c : NetClient} {info line : Text} {fin : NetOutcome}
    (hdata : DataFollows E c info line fin) :
    ∃ n, ∀ fuel, n ≤ fuel →
      ((E.malloc c.mallocs = true → dataLength info ≠ 0 →
          Trimmable fin (line.take (dataLength info - 1))) →
        ∃ res c', (NetM.smartiClientXfer E fuel true).run c = .ok (res, c')) ∧
      (E.malloc c.mallocs = true → dataLength info ≠ 0 →
          ¬Trimmable fin (line.take (dataLength info - 1)) →
        (NetM.smartiClientXfer E fuel true).run c = .error .overflow) := by
  obtain ⟨r, q, hsent, hr, hcode, hinfo, hline⟩ := hdata
  obtain ⟨n₁, hxfer⟩ := smartiClientXfer_transfer hsent hr hcode hinfo
  obtain ⟨n₂, htransfer⟩ := readTransfer_runs hsent.1 hline
  refine ⟨max n₁ n₂, fun fuel hfuel => ?_⟩
  obtain ⟨c₁, hc₁, hrun⟩ := hxfer fuel (le_of_max_le_left hfuel)
  have hends := htransfer fuel (le_of_max_le_right hfuel) c₁ hc₁.socket hc₁.reads
  rw [hc₁.mallocs] at hends
  rw [hrun]
  exact hends

/-- **The trimming stays in the buffer**, and every transfer whose data line comes to an end
returns, if and only if each line of data that is returned has stored a character of the
encoding. -/
theorem smartiClientXfer_inBounds_iff (E : NetEnv) (c : NetClient) (out : Bool) :
    ((∀ fuel, (NetM.smartiClientXfer E fuel out).run c ≠ .error .overflow) ∧
      ∀ info line fin, out = true → DataFollows E c info line fin →
        ∃ n, ∀ fuel, n ≤ fuel → ∃ res c', (NetM.smartiClientXfer E fuel out).run c = .ok (res, c')) ↔
    (out = true → ∀ info line fin, DataFollows E c info line fin → E.malloc c.mallocs = true →
      dataLength info ≠ 0 → Trimmable fin (line.take (dataLength info - 1))) := by
  constructor
  · rintro ⟨hbounds, -⟩ rfl info line fin hdata hmalloc hlen
    by_contra htrim
    obtain ⟨n, hruns⟩ := smartiClientXfer_runs hdata
    exact hbounds n ((hruns n le_rfl).2 hmalloc hlen htrim)
  · intro htrim
    constructor
    · intro fuel hrun
      obtain ⟨rfl, info, line, fin, hdata, hmalloc, hlen, hnot⟩ := smartiClientXfer_overflows hrun
      exact hnot (htrim rfl info line fin hdata hmalloc hlen)
    · rintro info line fin rfl hdata
      obtain ⟨n, hruns⟩ := smartiClientXfer_runs hdata
      exact ⟨n, fun fuel hfuel => (hruns fuel hfuel).1 (htrim rfl info line fin hdata)⟩

/-- A daemon that sends these bytes, and closes the connection. -/
def sendingEnv (bytes : Text) : NetEnv :=
  { closingEnv with
    reads := fun p => match bytes[p]? with
      | some ch => .char ch
      | none => .endOfFile
    writes := fun _ => .wrote 5 }

/-- The line of data in the example. -/
theorem sendingEnv_dataFollows {rest line : Text} {fin : NetOutcome} {q : Nat}
    (h : ReadsLine (sendingEnv ("301 : 4\n".toList ++ rest)).reads 8 line fin q) :
    DataFollows (sendingEnv ("301 : 4\n".toList ++ rest)) staleClient "4".toList line fin := by
  have hreply : ReadsLine (sendingEnv ("301 : 4\n".toList ++ rest)).reads 0 "301 : 4".toList
      (.char '\n') 8 := by
    repeat' first | exact .ends rfl | refine .char rfl (by decide) ?_
  refine ⟨⟨"301 : 4".toList, 301, ": 4".toList, .char '\n', 8⟩, q,
    ⟨rfl, ⟨0, false, 0⟩, 1, ?_, rfl, rfl⟩, ⟨_, hreply, rfl, rfl, by decide⟩, rfl, by decide, h⟩
  exact .wrote rfl .done

/-- And what is made of it. -/
theorem sendingEnv_overflows {rest line : Text} {fin : NetOutcome} {q : Nat}
    (h : ReadsLine (sendingEnv ("301 : 4\n".toList ++ rest)).reads 8 line fin q)
    (htrim : ¬Trimmable fin (line.take 7)) :
    ∃ fuel, (NetM.smartiClientXfer (sendingEnv ("301 : 4\n".toList ++ rest)) fuel true).run
      staleClient = .error .overflow := by
  obtain ⟨n, hruns⟩ := smartiClientXfer_runs (sendingEnv_dataFollows h)
  exact ⟨n, (hruns n le_rfl).2 rfl (by decide) htrim⟩

/-- The announced data never come: at an empty line, at the end of the stream, and at a line
without a character of the encoding the loop reads in front of the buffer. -/
theorem not_smartiClientXfer_inBounds :
    (∃ fuel, (NetM.smartiClientXfer (sendingEnv "301 : 4\n\n".toList) fuel true).run staleClient =
      .error .overflow) ∧
    (∃ fuel, (NetM.smartiClientXfer (sendingEnv "301 : 4\n".toList) fuel true).run staleClient =
      .error .overflow) ∧
    ∃ fuel, (NetM.smartiClientXfer (sendingEnv "301 : 4\n--\n".toList) fuel true).run staleClient =
      .error .overflow := by
  have hdashes : ReadsLine (sendingEnv ("301 : 4\n".toList ++ "--\n".toList)).reads 8 ['-', '-']
      (.char '\n') 11 := by
    repeat' first | exact .ends rfl | refine .char rfl (by decide) ?_
  refine ⟨?_, ?_, ?_⟩
  · exact @sendingEnv_overflows "\n".toList [] (.char '\n') 9 (.ends rfl)
      (by simp [Trimmable, NetOutcome.returns])
  · exact @sendingEnv_overflows [] [] .endOfFile 9 (.ends rfl)
      (by simp [Trimmable, NetOutcome.returns])
  · exact sendingEnv_overflows hdashes (by simp [Trimmable, NetOutcome.returns, isB64])

end BenthosDc

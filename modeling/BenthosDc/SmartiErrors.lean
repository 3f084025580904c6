/-
BenthosDc/SmartiErrors.lean

Whether the error code of the client identifies a failure.

Every exit of a request stores its own error code.  Some of them store none, or the wrong one: a
command that cannot be written, a response without the information that is expected, and in
`smarti_client_enumerate` a line with another code than 230.  And a buffer that has not been
written to is parsed as it is, so that its code may be any.

* `request_identified_iff`: when the error code identifies all failures of a request.

A failure is identified if the code that the application reads afterwards tells which one it
was.  The condition asks for the response alone: there is one, and it has what the request
needs.
-/
import BenthosDc.SmartiRequests

namespace BenthosDc

open CString Hoare

variable {α : Type}

/-- A failure of the request is identified, whatever its buffers have held. -/
def IdentifiesAll (c : NetClient) (m : Nat → NetM (Except Failure α)) : Prop :=
  ∀ junk fuel f c', (m fuel).run { c with junk := junk } = .ok (.error f, c') → Identified f c c'

/-- The command `cmd` does not fail to be written; and if its first response line is read, it has
a byte that is stored, and what is parsed is a response in `P`. -/
def Tells (E : NetEnv) (c : NetClient) (cmd : Text) (P : Response → Prop) : Prop :=
  ¬Unsent E c cmd ∧ (Sent E c cmd false →
    Stores E.reads 1024 c.reads ∧ ∀ r, Responds E.reads c.reads [] r → P r)

section Requests

variable {E : NetEnv} {cmd : Text} {m : Nat → NetM (Except Failure (Text × Int × Text))}
  {c c₁ : NetClient} {P : Response → Prop} {r : Response}

/-- A failure that stores no code is not identified. -/
theorem not_identified_of_errors {f : Failure} {c' : NetClient} (h : c'.errors = c.errors) :
    ¬Identified f c c' := by
  intro hf
  have hlength := congrArg List.length (h.symm.trans hf.errors)
  simp at hlength

/-- **A request and what is made of its response** identify all failures, if and only if the
response tells what has happened.  `P` are the responses behind which the failures are identified;
behind the others 0 is stored. -/
theorem identifiesAll_iff (hm : IsRequest E cmd m)
    {k : Nat → Except Failure (Text × Int × Text) → NetM (Except Failure α)}
    (herror : ∀ fuel f, k fuel (.error f) = pure (.error f))
    (hzero : ∀ r, P r → r.code ≠ 0)
    (htells : ∀ r c₁ fuel f c', P r → AfterResponse c r c₁ →
      (k fuel (.ok (r.text, r.code, r.msg))).run c₁ = .ok (.error f, c') → Identified f c₁ c')
    (hsilent : ∀ r, ¬P r → c.socket.isSelectable = true → ∃ n, ∀ fuel, n ≤ fuel → ∀ c₁,
      AfterResponse c r c₁ → ∃ f c',
        (k fuel (.ok (r.text, r.code, r.msg))).run c₁ = .ok (.error f, c') ∧ c'.errcode = 0) :
    IdentifiesAll c (fun fuel => m fuel >>= k fuel) ↔ Tells E c cmd P := by
  constructor
  · intro h
    -- behind another response 0 is stored, once there is enough fuel for both parts
    have hresponse : ∀ junk r, Sent E c cmd false → Responds E.reads c.reads junk r → P r := by
      intro junk r hsent hr
      by_contra hP
      obtain ⟨n₁, hreply⟩ := hm.replied (c := { c with junk := junk }) hsent hr
      obtain ⟨n₂, hrest⟩ := hsilent r hP hsent.1
      obtain ⟨c₁, hrun, hc₁⟩ := hreply (max n₁ n₂) (le_max_left _ _)
      obtain ⟨f, c', hrun', hzero'⟩ := hrest (max n₁ n₂) (le_max_right _ _) c₁
        (hc₁.of_eq rfl rfl rfl rfl)
      exact (h junk _ f c' ((run_bind_of_ok hrun).trans hrun')).errcode hzero'
    refine ⟨fun hunsent => ?_, fun hsent => ⟨?_, fun r hr => hresponse [] r hsent hr⟩⟩
    · obtain ⟨n, hrun⟩ := hm.unsent (c := { c with junk := [] }) hunsent
      obtain ⟨f, c', hrun, herrors⟩ := hrun n le_rfl
      have hfailed := run_bind_of_ok (f := k n) hrun
      rw [herror] at hfailed
      exact not_identified_of_errors (c := c) herrors (h [] n f c' hfailed)
    · -- what the buffer has held may be a response of the code 0
      by_contra hstores
      have hparse : smarticParseResponse "000 x".toList = some (0, "x".toList) := by decide
      obtain ⟨fin, q, hr⟩ := exists_responds_of_not_stores hstores hparse
      exact hzero _ (hresponse _ _ hsent hr) rfl
  · rintro ⟨hunsent, hresponse⟩ junk fuel f c' hrun
    obtain ⟨res, c₁, hreq, hrest⟩ := run_bind_eq_ok.mp hrun
    cases hm.ends hreq with
    | unsent hun => exact absurd hun hunsent
    | failed hf =>
      rw [herror] at hrest
      cases hrest
      exact hf.of_errors rfl
    | replied hsent hr hc₁ =>
      obtain ⟨hstores, hP⟩ := hresponse hsent
      have hidentified := htells _ _ _ _ _ (hP _ (hr.of_stores hstores))
        (hc₁.of_eq rfl rfl rfl rfl) hrest
      exact hidentified.of_errors hc₁.errors

end Requests

/-! ### Responses with a status or information

The first line decides.  Behind it a request with a status only looks at the code, and one with
information parses the message.
-/

/-- The response tells that `expected` has not been answered, or has been without information. -/
def Response.TellsInfo (expected : Int) (r : Response) : Prop :=
  r.code ≠ 0 ∧
    (r.code = expected → smarticParseDevinfo r.msg = none → NetM.lineErrno r.fin ≠ 0)

section Responses

variable {E : NetEnv} {fuel : Nat} {cmd info : Text} {c c' c₁ : NetClient} {r : Response}
  {f : Failure} {expected : Int}

/-- An exit that stores its own code. -/
theorem fail_identified {code : Int} {msg : Text} {e : Failure} (hcode : code ≠ 0)
    (he : ∀ n ∈ e.code, code = n)
    (hrun : (NetM.fail (α := α) code msg e).run c = .ok (.error f, c')) :
    Identified f c c' := by
  obtain ⟨_, hf, hidentified⟩ := NetM.fail_ends hcode he hrun
  cases hf
  exact hidentified

/-- An exit that stores the code of the system call. -/
theorem setErrno_identified {e : Failure} (hcode : c.errno ≠ 0) (he : ∀ n ∈ e.code, c.errno = n)
    (hrun : (do NetM.setErrno; return .error e : NetM (Except Failure α)).run c =
      .ok (.error f, c')) : Identified f c c' := by
  obtain ⟨_, hf, hidentified⟩ := NetM.setErrno_ends hcode he hrun
  cases hf
  exact hidentified

/-- **The requests with a status**: close, open and set_token. -/
theorem statusRequest_identifies_iff :
    IdentifiesAll c (fun fuel => NetM.statusRequest E fuel cmd) ↔
      Tells E c cmd fun r => r.code ≠ 0 := by
  refine identifiesAll_iff request_isRequest (fun _ _ => rfl) (fun _ h => h) ?_ ?_
  · intro r c₁ fuel f c' hcode _ hrun
    dsimp only at hrun
    split at hrun
    · exact fail_identified hcode (by rintro n ⟨⟩; rfl) hrun
    · cases hrun
  · intro r hcode _
    obtain hcode : r.code = 0 := not_not.mp hcode
    refine ⟨0, fun fuel _ c₁ _ => ?_⟩
    dsimp only
    rw [if_pos (by rw [hcode]; decide)]
    exact ⟨_, _, rfl, hcode⟩

/-- A message with the information. -/
theorem infoLine_identified (htells : r.TellsInfo expected) (hc : AfterResponse c r c₁)
    (hrun : (NetM.infoLine expected (.ok (r.text, r.code, r.msg))).run c₁ = .ok (.error f, c')) :
    Identified f c₁ c' := by
  rw [NetM.infoLine] at hrun
  split at hrun
  next => exact fail_identified htells.1 (by rintro n ⟨⟩; rfl) hrun
  next hcode =>
    split at hrun
    next hinfo =>
      have herrno := htells.2 (not_not.mp hcode) hinfo
      exact setErrno_identified (by rw [hc.errno]; exact herrno) (by rintro n ⟨⟩) hrun
    next => cases hrun

/-- A message without it, which fails and stores nothing. -/
theorem infoLine_silent (hexpected : expected ≠ 0) (htells : ¬r.TellsInfo expected)
    (hc : AfterResponse c r c₁) :
    ∃ f c', (NetM.infoLine expected (.ok (r.text, r.code, r.msg))).run c₁ = .ok (.error f, c') ∧
      c'.errcode = 0 := by
  rw [NetM.infoLine]
  by_cases hzero : r.code = 0
  · rw [if_pos (by rw [hzero]; exact hexpected.symm)]
    exact ⟨_, _, rfl, hzero⟩
  · rw [Response.TellsInfo, not_and_or, not_not, Classical.not_imp, Classical.not_imp] at htells
    obtain ⟨hcode, hinfo, herrno⟩ := htells.resolve_left hzero
    rw [if_neg (not_not.mpr hcode), hinfo]
    exact ⟨_, _, rfl, hc.errno.trans (not_not.mp herrno)⟩

/-- **The requests with a number**: model, serial, size and ticks. -/
theorem infoRequest_identifies_iff {width : Nat} :
    IdentifiesAll c (fun fuel => NetM.infoRequest E fuel cmd width true) ↔
      Tells E c cmd (Response.TellsInfo smartiStatusInfo) := by
  refine identifiesAll_iff request_isRequest (fun _ _ => rfl) (fun _ h => h.1) ?_ ?_
  · intro r c₁ fuel f c' htells hc hrun
    obtain ⟨infores, c₂, hinfo, hrest⟩ := run_bind_eq_ok.mp hrun
    rcases infores with e | info
    · cases hrest
      exact infoLine_identified htells hc hinfo
    · cases hrest
  · intro r htells _
    refine ⟨0, fun fuel _ c₁ hc => ?_⟩
    obtain ⟨f, c', hrun, hzero⟩ := infoLine_silent (by decide) htells hc
    refine ⟨f, c', ?_, hzero⟩
    rw [run_bind_of_ok hrun]
    rfl

/-! ### Transfers

XFER reads a second line, whose failures are those of the socket, of the memory, and of the
data.
-/

/-- Cutting off the padding stores nothing. -/
theorem trim_unchanged {data : Text} {n nr : Nat}
    (hrun : (NetM.trim data n).run c = .ok (nr, c')) : c' = c := by
  induction n with
  | zero => cases hrun
  | succ n ih =>
    rw [NetM.trim] at hrun
    split at hrun
    · cases hrun
      rfl
    · exact ih hrun

/-- Every exit behind the line with the data stores its code. -/
theorem checkData_identified {rLen : Nat} {line : Text} {fin : NetOutcome}
    (hc : c.errno = NetM.lineErrno fin)
    (hrun : (NetM.checkData rLen (lineEnd line fin)).run c = .ok (.error f, c')) :
    Identified f c c' := by
  rw [NetM.checkData] at hrun
  split at hrun
  next hret =>
    have hfailed : (lineEnd line fin).ret = -1 := by
      by_contra hne
      have := lineEnd_nonneg hne
      omega
    obtain ⟨e, rfl⟩ := (lineEnd_ret_eq_iff _ _).mp hfailed
    exact setErrno_identified (by rw [hc]; exact e.2.1) (by rintro n ⟨⟩; exact hc) hrun
  split at hrun
  next => exact fail_identified (by decide) (by rintro n ⟨⟩; rfl) hrun
  next =>
    obtain ⟨nr, c₁, htrim, hrest⟩ := run_bind_eq_ok.mp hrun
    obtain rfl := trim_unchanged htrim
    split at hrest
    · exact fail_identified (by decide) (by rintro n ⟨⟩) hrest
    · cases hrest

/-- Behind the response of a transfer every failure is identified. -/
theorem readTransfer_identified
    (hrun : (NetM.readTransfer E fuel info).run c = .ok (.error f, c')) : Identified f c c' := by
  rw [NetM.readTransfer, run_bind_of_ok (NetM.allocate_run E c)] at hrun
  split at hrun
  next => exact (fail_identified (by decide) (by rintro n ⟨⟩) hrun).of_errors rfl
  next =>
    obtain ⟨res, c₁, hreadln, hcheck⟩ := run_bind_eq_ok.mp hrun
    rcases NetM.socketReadln_cases hreadln with ⟨-, rfl, rfl⟩ | ⟨-, line, fin, q, -, rfl, rfl⟩
    · rw [NetM.checkData, if_pos (by decide)] at hcheck
      refine (setErrno_identified ?_ ?_ hcheck).of_errors rfl
      · show einval ≠ 0
        decide
      · rintro n ⟨⟩
        rfl
    · exact (checkData_identified rfl hcheck).of_errors rfl

/-- XFER as a whole. -/
theorem smartiClientXfer_identifies_iff :
    IdentifiesAll c (fun fuel => NetM.smartiClientXfer E fuel true) ↔
      Tells E c "XFER".toList (Response.TellsInfo smartiDataFollows) := by
  refine identifiesAll_iff (request_isRequest.withTimeout _) (fun _ _ => rfl) (fun _ h => h.1) ?_ ?_
  · intro r c₁ fuel f c' htells hc hrun
    obtain ⟨infores, c₂, hinfo, hrest⟩ := run_bind_eq_ok.mp hrun
    rcases infores with e | info
    · cases hrest
      exact infoLine_identified htells hc hinfo
    · obtain ⟨-, -, -, -, rfl⟩ := infoLine_ok hinfo
      exact readTransfer_identified hrest
  · intro r htells _
    refine ⟨0, fun fuel _ c₁ hc => ?_⟩
    obtain ⟨f, c', hrun, hzero⟩ := infoLine_silent (by decide) htells hc
    refine ⟨f, c', ?_, hzero⟩
    rw [run_bind_of_ok hrun]
    rfl

end Responses

/-! ### Enumerations

ENUM reads lines until it stops.  A line with another code than 230 ends it without a code of
its own.
-/

/-- From the response `r` on, which `polls` looks at the socket precede, an enumeration that has
found `seen` comes to a line with another code than 230. -/
inductive Strays (E : NetEnv) (cb : List Found → Int) : Nat → List Found → Response → Prop
  | here {polls : Nat} {seen : List Found} {r : Response} :
      r.code ≠ smartiStatusInfo → Strays E cb polls seen r
  | next {polls : Nat} {seen : List Found} {r r' : Response} {d : Found} :
      r.code = smartiStatusInfo → smarticParseEnuminfo r.msg = some d → cb (seen ++ [d]) = 0 →
      E.available polls ≠ some 0 → Responds E.reads r.stop r.text r' →
      Strays E cb (polls + 1) (seen ++ [d]) r' → Strays E cb polls seen r

section Enumerate

variable {E : NetEnv} {fuel : Nat} {cb : List Found → Int} {seen : List Found} {c c' : NetClient}
  {r : Response} {f : Failure}

/-- The next line is read. -/
theorem enumNext_run {rLine : Text} {k : Text → Int → Text → NetM (Except Failure Unit)}
    {available : Option Nat} (h : available ≠ some 0) :
    NetM.enumNext E fuel rLine k available = (do
      match ← NetM.readResponse E fuel false rLine with
      | .error e => return .error e
      | .ok (rLine, code, msg) => k rLine code msg) := by
  rcases available with _ | _ | n
  · rfl
  · exact absurd rfl h
  · rfl

/-- A loop without such a line identifies its failure. -/
theorem enumLoop_identified {n : Nat} (hreads : c.reads = r.stop)
    (hstrays : ¬Strays E cb c.polls seen r)
    (hrun : (NetM.enumLoop E fuel cb n seen r.text r.code r.msg).run c = .ok (.error f, c')) :
    Identified f c c' := by
  -- on the passes: the response of the next one strays no more than this one
  induction n generalizing seen r c with
  | zero => cases hrun
  | succ n ih =>
    rw [NetM.enumLoop] at hrun
    split at hrun
    next hcode => exact absurd (.here hcode) hstrays
    next hcode =>
      split at hrun
      next => exact fail_identified (by decide) (by rintro n ⟨⟩) hrun
      next d hd =>
        split at hrun
        next hcb => exact fail_identified hcb (by rintro n ⟨⟩) hrun
        next hcb =>
          rw [run_bind_of_ok (NetM.socketAvailable_run E c)] at hrun
          by_cases hzero : E.available c.polls = some 0
          · rw [hzero] at hrun
            cases hrun
          rw [enumNext_run hzero] at hrun
          obtain ⟨res, c₁, hread, hrest⟩ := run_bind_eq_ok.mp hrun
          rcases NetM.readResponse_ends hread with ⟨f', rfl, hf⟩ | ⟨s, -, hs, rfl, hc₁⟩
          · cases hrest
            exact hf.of_errors rfl
          · refine (ih hc₁.reads ?_ hrest).of_errors hc₁.errors
            rw [hc₁.polls]
            refine fun hnext => hstrays (.next (not_not.mp hcode) hd (not_not.mp hcb) hzero ?_ hnext)
            rw [← hreads]
            exact hs

/-- Where an enumeration strays, it fails and stores 0. -/
theorem enumLoop_silent {socket : NetSocket} (hsocket : socket.isSelectable = true) {polls : Nat}
    (h : Strays E cb polls seen r) :
    ∃ n, ∀ fuel k, n ≤ fuel → n ≤ k → ∀ c : NetClient,
      c.socket = socket → c.reads = r.stop → c.polls = polls → ∃ f c',
        (NetM.enumLoop E fuel cb k seen r.text r.code r.msg).run c = .ok (.error f, c') ∧
          c'.errcode = 0 := by
  -- on the derivation, with the fuel of each line
  induction h with
  | @here polls seen r hcode =>
    refine ⟨1, fun fuel k _ hk c _ _ _ => ?_⟩
    obtain ⟨k, rfl⟩ : ∃ j, k = j + 1 := ⟨k - 1, by omega⟩
    rw [NetM.enumLoop, if_pos hcode]
    exact ⟨_, _, rfl, rfl⟩
  | @next polls seen r r' d hcode hd hcb hzero hr' _ ih =>
    obtain ⟨n₁, hloop⟩ := ih
    obtain ⟨n₂, hread⟩ := NetM.readResponse_runs hsocket hr'
    refine ⟨max n₁ n₂ + 1, fun fuel k hfuel hk c hc hreads hpolls => ?_⟩
    obtain ⟨k, rfl⟩ : ∃ j, k = j + 1 := ⟨k - 1, by omega⟩
    obtain ⟨c₁, hrun, hc₁⟩ := hread fuel (by omega) { c with polls := c.polls + 1 } hc hreads
    obtain ⟨f, c', hrest, herrcode⟩ := hloop fuel k (by omega) (by omega) c₁
      (hc₁.socket.trans hc) hc₁.reads (by rw [hc₁.polls, ← hpolls])
    refine ⟨f, c', ?_, herrcode⟩
    rw [NetM.enumLoop, if_neg (not_not.mpr hcode), hd]
    dsimp only
    rw [if_neg (not_not.mpr hcb), run_bind_of_ok (NetM.socketAvailable_run E c), hpolls,
      enumNext_run hzero, ← hpolls, run_bind_of_ok hrun]
    exact hrest

/-- ENUM as a whole. -/
theorem smartiClientEnumerate_identifies_iff :
    IdentifiesAll c (fun fuel => NetM.smartiClientEnumerate E fuel (some cb)) ↔
      Tells E c "ENUM".toList fun r =>
        r.code = smartiStatusNoDevs ∨ ¬Strays E cb c.polls [] r := by
  refine identifiesAll_iff (request_isRequest.withTimeout _) (fun _ _ => rfl) ?_ ?_ ?_
  · rintro r (hcode | hstrays) hzero
    · rw [hcode] at hzero
      exact absurd hzero (by decide)
    · exact hstrays (.here (by rw [hzero]; decide))
  · intro r c₁ fuel f c' htells hc hrun
    dsimp only at hrun
    split at hrun
    next hcode =>
      exact fail_identified (by rw [hcode]; decide) (by rintro n ⟨⟩; rfl) hrun
    next hcode =>
      have hstrays := htells.resolve_left hcode
      rw [← hc.polls] at hstrays
      exact enumLoop_identified hc.reads hstrays hrun
  · intro r htells hsocket
    rw [not_or, not_not] at htells
    obtain ⟨n, hrun⟩ := enumLoop_silent hsocket htells.2
    refine ⟨n, fun fuel hfuel c₁ hc => ?_⟩
    dsimp only
    rw [if_neg htells.1]
    exact hrun fuel fuel hfuel hfuel c₁ hc.socket hc.reads hc.polls

end Enumerate

/-! ### All requests

A null pointer where a result belongs is refused in silence.
-/

/-- Where the failures of a request are identified: its pointers are given, and its responses tell
what has happened. -/
def Request.Told (E : NetEnv) (c : NetClient) : Request → Prop
  | close => Tells E c "CLOSE".toList fun r => r.code ≠ 0
  | enumerate none => False
  | enumerate (some cb) => Tells E c "ENUM".toList fun r =>
      r.code = smartiStatusNoDevs ∨ ¬Strays E cb c.polls [] r
  | model out => out = true ∧ Tells E c "MODEL".toList (Response.TellsInfo smartiStatusInfo)
  | openDevice addr lsap chunkSize => Tells E c (openCommand addr lsap chunkSize) fun r => r.code ≠ 0
  | serial out => out = true ∧ Tells E c "SERIAL".toList (Response.TellsInfo smartiStatusInfo)
  | setToken token => Tells E c (tokenCommand token) fun r => r.code ≠ 0
  | size out => out = true ∧ Tells E c "SIZE".toList (Response.TellsInfo smartiStatusInfo)
  | ticks out => out = true ∧ Tells E c "TICKS".toList (Response.TellsInfo smartiStatusInfo)
  | xfer out => out = true ∧ Tells E c "XFER".toList (Response.TellsInfo smartiDataFollows)

section All

variable {E : NetEnv} {c : NetClient}

/-- A null pointer fails without a code. -/
theorem nullPointer_not_identifiesAll :
    ¬IdentifiesAll (α := α) c fun _ => NetM.nullPointer := by
  intro h
  have hf := h [] 0 .other { c with junk := [], errno := einval } rfl
  exact absurd hf (not_identified_of_errors rfl)

/-- The result itself does not matter. -/
theorem discard_identifiesAll_iff {m : Nat → NetM (Except Failure α)} :
    IdentifiesAll c (fun fuel => NetM.discard (m fuel)) ↔ IdentifiesAll c m := by
  have hrun : ∀ fuel f (c₁ c' : NetClient), (NetM.discard (m fuel)).run c₁ = .ok (.error f, c') ↔
      (m fuel).run c₁ = .ok (.error f, c') := by
    intro fuel f c₁ c'
    constructor
    · intro h
      obtain ⟨res, c₂, hm, hrest⟩ := run_bind_eq_ok.mp h
      rcases res with e | a
      · cases hrest
        exact hm
      · cases hrest
    · intro h
      rw [NetM.discard, run_bind_of_ok h]
      rfl
  exact forall₄_congr fun junk fuel f c' => imp_congr_left (hrun fuel f _ c')

/-- A request behind a pointer for its result. -/
theorem pointer_identifiesAll_iff {m : Bool → Nat → NetM (Except Failure α)} {out : Bool} {P : Prop}
    (hnull : ∀ fuel, m false fuel = NetM.nullPointer) (hm : IdentifiesAll c (m true) ↔ P) :
    IdentifiesAll c (fun fuel => NetM.discard (m out fuel)) ↔ out = true ∧ P := by
  rw [discard_identifiesAll_iff]
  cases out with
  | false =>
    refine iff_of_false ?_ fun h => Bool.false_ne_true h.1
    rw [funext hnull]
    exact nullPointer_not_identifiesAll
  | true => rw [hm, eq_self, true_and]

/-- The requests with a number. -/
theorem infoRequest_pointer_identifies_iff {cmd : Text} {width : Nat} {out : Bool} :
    IdentifiesAll c (fun fuel => NetM.discard (NetM.infoRequest E fuel cmd width out)) ↔
      out = true ∧ Tells E c cmd (Response.TellsInfo smartiStatusInfo) :=
  pointer_identifiesAll_iff (m := fun out fuel => NetM.infoRequest E fuel cmd width out)
    (fun _ => rfl) infoRequest_identifies_iff

/-- XFER, with or without a place for the data. -/
theorem smartiClientXfer_pointer_identifies_iff {out : Bool} :
    IdentifiesAll c (fun fuel => NetM.discard (NetM.smartiClientXfer E fuel out)) ↔
      out = true ∧ Tells E c "XFER".toList (Response.TellsInfo smartiDataFollows) :=
  pointer_identifiesAll_iff (m := fun out fuel => NetM.smartiClientXfer E fuel out)
    (fun _ => rfl) smartiClientXfer_identifies_iff

end All

/-- **The error code identifies every failure** of a request, whatever its buffers have held and
whatever has failed before, if and only if the command can be written and the responses tell what
has happened. -/
theorem request_identified_iff (E : NetEnv) (c : NetClient) (r : Request) :
    IdentifiesAll c (fun fuel => r.invoke E fuel) ↔ r.Told E c := by
  cases r with
  | close => exact statusRequest_identifies_iff
  | enumerate cb =>
    cases cb with
    | none => exact iff_of_false nullPointer_not_identifiesAll not_false
    | some cb => exact smartiClientEnumerate_identifies_iff
  | model out => exact infoRequest_pointer_identifies_iff
  | openDevice addr lsap chunkSize => exact statusRequest_identifies_iff
  | serial out => exact infoRequest_pointer_identifies_iff
  | setToken token => exact statusRequest_identifies_iff
  | size out => exact infoRequest_pointer_identifies_iff
  | ticks out => exact infoRequest_pointer_identifies_iff
  | xfer out => exact smartiClientXfer_pointer_identifies_iff

/-- A daemon that answers every command with the line `line`, if the command can be written. -/
def answerEnv (line : Text) (fin : SendOutcome) : NetEnv :=
  { closingEnv with
    reads := fun p => .char (line.getD p '\n')
    writes := fun _ => fin }

/-- A client with the error code of an earlier timeout. -/
def failedClient : NetClient := { staleClient with errcode := etimedout, errors := [etimedout] }

/-- The code of the line is returned, and the old error code stays. -/
theorem answerEnv_enumerate : ∃ fuel f c', (NetM.smartiClientEnumerate
    (answerEnv "401 Unknown".toList (.wrote 5)) fuel (some fun _ => 0)).run failedClient =
      .ok (.error f, c') ∧ c'.errcode = 0 := by
  have hline : ReadsLine (answerEnv "401 Unknown".toList (.wrote 5)).reads 0 "401 Unknown".toList
      (.char '\n') 12 := by
    repeat' first | exact .ends rfl | refine .char rfl (by decide) ?_
  have hresponds : Responds (answerEnv "401 Unknown".toList (.wrote 5)).reads 0 failedClient.junk
      ⟨"401 Unknown".toList, 401, "Unknown".toList, .char '\n', 12⟩ :=
    ⟨_, hline, rfl, rfl, by decide⟩
  have hsent : Sent (answerEnv "401 Unknown".toList (.wrote 5)) failedClient "ENUM".toList false :=
    ⟨rfl, ⟨0, false, 0⟩, 1, .wrote rfl .done, rfl, rfl⟩
  obtain ⟨n, hreply⟩ := (request_isRequest.withTimeout (show (0 : Int) < 10000 by decide)).replied
    hsent hresponds
  obtain ⟨c₁, hrun, -⟩ := hreply (n + 1) (Nat.le_succ n)
  refine ⟨n + 1, ?_⟩
  rw [NetM.smartiClientEnumerate, run_bind_of_ok hrun]
  dsimp only
  rw [if_neg (by decide), NetM.enumLoop, if_pos (by decide)]
  exact ⟨_, _, rfl, rfl⟩

/-- CLOSE cannot be written, and the error code is the one of the earlier timeout; ENUM is answered
with 401, and the error code is 0. -/
theorem not_request_identified :
    (∃ c', (Request.close.invoke (answerEnv [] (.failed ⟨32, by decide⟩)) 2).run failedClient =
        .ok (.error (.socket 32), c') ∧ c'.errcode = etimedout ∧
      ¬Identified (.socket 32) failedClient c') ∧
    ∃ fuel f c', ((Request.enumerate (some fun _ => 0)).invoke
        (answerEnv "401 Unknown".toList (.wrote 5)) fuel).run failedClient = .ok (.error f, c') ∧
      c'.errcode = 0 ∧ ¬Identified f failedClient c' := by
  obtain ⟨fuel, f, c', hrun, hzero⟩ := answerEnv_enumerate
  refine ⟨⟨_, rfl, rfl, ?_⟩, fuel, f, c', hrun, hzero, fun hf => hf.errcode hzero⟩
  exact not_identified_of_errors rfl

end BenthosDc

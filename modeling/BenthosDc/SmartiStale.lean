/-
BenthosDc/SmartiStale.lean

What is in the line buffer of a client when it is parsed.

`smartic_socket_readln` writes into the buffer of its caller at a byte that it stores, and at
its end.  It returns 0 for a stream that is over, and for a `select` that fails, before it has
stored a byte, and then it has written nothing: the caller parses what the buffer has held
before.

* `client_parsesReceived_iff`: when what is returned is in the buffer, and when all that the
  calls of a session parse has been received for them.
-/
import BenthosDc.SmartiKernel

namespace BenthosDc

open CString Hoare

variable {α β : Type}

/-! ### One line

What stands in the buffer behind a read, and where it has come from.
-/

/-- What is in the buffer has been received between the positions `p` and `q`. -/
def Received (o : Nat → NetOutcome) (p q : Nat) (r : LineResult) : Prop :=
  ∃ buf line fin, ReadsLine o p line fin q ∧ r.text = some buf ∧ buf <+: line

/-- The buffer holds a string of as many bytes as have been returned, all of them received
between the positions `p` and `q`. -/
def Filled (o : Nat → NetOutcome) (p q : Nat) (r : LineResult) : Prop :=
  ∃ buf line fin, ReadsLine o p line fin q ∧ r.text = some buf ∧ r.ret = buf.length ∧
    '\x00' ∉ buf ∧ buf <+: line

/-- The end of a line at which the function returns early, if it has stored nothing. -/
def NetOutcome.early : NetOutcome → Bool
  | .endOfFile => true
  | .selectFailed _ => true
  | _ => false

/-- From the position `p` on, the stream does not end before there is a byte for a buffer of
`len` bytes, and no `select` fails before that. -/
def Stores (o : Nat → NetOutcome) (len p : Nat) : Prop :=
  ∀ line fin q, ReadsLine o p line fin q → fin.early = true → line.take (len - 1) ≠ []

/-- The same, and no byte for the buffer is NUL. -/
def Fills (o : Nat → NetOutcome) (len p : Nat) : Prop :=
  Stores o len p ∧ ∀ line fin q, ReadsLine o p line fin q → '\x00' ∉ line.take (len - 1)

section Line

variable {o : Nat → NetOutcome} {clock : Nat → Int} {c : NetSocket} {len fuel p q : Nat}
  {r : LineResult} {line : Text} {fin : NetOutcome}

/-- The buffer of a line that is returned. -/
theorem lineEnd_text {buf : Text} (hret : ¬(lineEnd buf fin).ret = -1)
    (htimeout : (lineEnd buf fin).timeout = false) :
    (lineEnd buf fin).text = if fin.early = true ∧ buf = [] then none else some buf := by
  cases fin with
  | timedOut => exact absurd ((endOfLine_timeout buf true).symm.trans htimeout) (by decide)
  | failed e => exact absurd rfl hret
  | endOfFile => simp [lineEnd, endOfLine_text, NetOutcome.early]
  | selectFailed e => simp [lineEnd, endOfLine_text, NetOutcome.early]
  | _ => simp [lineEnd, NetOutcome.early]

/-- A read that does not fail returns a length. -/
theorem lineEnd_nonneg {buf : Text} (h : ¬(lineEnd buf fin).ret = -1) :
    0 ≤ (lineEnd buf fin).ret := by
  rw [lineEnd_ret h]
  exact Int.natCast_nonneg _

/-- What is returned is a reading, of which the buffer holds the beginning if it has been
written to. -/
theorem readln_returned (hrun : (outcomeNet o clock).readln c fuel len p = some (r, q))
    (hret : 0 ≤ r.ret) (htimeout : r.timeout = false) :
    ∃ line fin, ReadsLine o p line fin q ∧
      r.text = (if fin.early = true ∧ line.take (len - 1) = [] then none
        else some (line.take (len - 1))) ∧
      r.ret = (line.take (len - 1)).length := by
  by_cases hguard : (!c.isSelectable) = true ∨ len = 0
  · rw [NetKernel.readln, if_pos hguard] at hrun
    cases hrun
    exact absurd hret (by decide)
  have hc : c.isSelectable = true := by simpa using fun h => hguard (.inl h)
  obtain ⟨line, fin, hline, rfl⟩ := reading_of_readln hc (fun h => hguard (.inr h)) hrun
  have hne : ¬(lineEnd (line.take (len - 1)) fin).ret = -1 := fun h => by omega
  exact ⟨line, fin, hline, lineEnd_text hne htimeout, lineEnd_ret hne⟩

/-- **The buffer holds what has been received**, if and only if a byte is stored. -/
theorem readln_received_iff (hrun : (outcomeNet o clock).readln c fuel len p = some (r, q))
    (hret : 0 ≤ r.ret) (htimeout : r.timeout = false) :
    Received o p q r ↔ Stores o len p := by
  obtain ⟨line, fin, hline, htext, -⟩ := readln_returned hrun hret htimeout
  constructor
  · rintro ⟨buf, -, -, -, hbuf, -⟩ line' fin' q' hline' hearly hnil
    obtain ⟨rfl, rfl, rfl⟩ := hline'.unique hline
    rw [hbuf, if_pos ⟨hearly, hnil⟩] at htext
    cases htext
  · intro hstores
    rw [if_neg fun h => hstores line fin q hline h.1 h.2] at htext
    exact ⟨_, line, fin, hline, htext, List.take_prefix _ _⟩

/-- **One line**: what is returned is in the buffer, if and only if the buffer is filled. -/
theorem readln_filled_iff (hrun : (outcomeNet o clock).readln c fuel len p = some (r, q))
    (hret : 0 ≤ r.ret) (htimeout : r.timeout = false) : Filled o p q r ↔ Fills o len p := by
  have hreceived := readln_received_iff hrun hret htimeout
  obtain ⟨line, fin, hline, htext, hlength⟩ := readln_returned hrun hret htimeout
  constructor
  · rintro ⟨buf, line₁, fin₁, hline₁, hbuf, hret₁, hnul, hprefix⟩
    have hstores := hreceived.mp ⟨buf, line₁, fin₁, hline₁, hbuf, hprefix⟩
    refine ⟨hstores, fun line' fin' q' hline' => ?_⟩
    obtain ⟨rfl, rfl, rfl⟩ := hline'.unique hline
    rw [hbuf, if_neg fun h => hstores line' fin' q' hline h.1 h.2] at htext
    cases htext
    exact hnul
  · rintro ⟨hstores, hnul⟩
    rw [if_neg fun h => hstores line fin q hline h.1 h.2] at htext
    exact ⟨_, line, fin, hline, htext, hlength, hnul line fin q hline, List.take_prefix _ _⟩

end Line

/-! ### The calls

The lines that a client parses are kept in a list, each with its place.  Every call adds lines
to it and changes none.
-/

/-- The line has been returned by `smartic_socket_readln` without an error and without a
timeout. -/
def ParsedLine.Returned (E : NetEnv) (e : ParsedLine) : Prop :=
  0 ≤ e.result.ret ∧ e.result.timeout = false ∧ ∃ socket fuel,
    (outcomeNet E.reads E.clock).readln socket fuel 1024 e.start = some (e.result, e.stop)

/-- All lines that have been parsed have been returned so. -/
def AllReturned (E : NetEnv) (c : NetClient) : Prop := ∀ e ∈ c.parses, e.Returned E

/-- A program that only parses what has been returned. -/
abbrev ParsesReturned (E : NetEnv) (m : NetM α) : Prop :=
  Maintains (AllReturned E) (fun _ => True) (fun _ => True) m

section Calls

variable {E : NetEnv} {fuel : Nat} {m : NetM α}

/-- A change of the state that parses nothing, in front of a program. -/
theorem modify_then_parsesReturned {f : NetClient → NetClient}
    (hf : ∀ c, (f c).parses = c.parses) (hm : ParsesReturned E m) :
    ParsesReturned E (modify f >>= fun _ => m) := by
  intro c hc
  have hc' : AllReturned E (f c) := by
    show ∀ e ∈ (f c).parses, e.Returned E
    rw [hf]
    exact hc
  exact Triple.bind (Triple.modify (Q := fun _ c' => c' = f c) rfl) fun _ c' h => by
    rw [h]
    exact hm _ hc'

/-- An error parses nothing. -/
theorem fail_parsesReturned (code : Int) (msg : Text) (e : Failure) :
    ParsesReturned E (NetM.fail (α := α) code msg e) :=
  modify_then_parsesReturned (fun _ => rfl) (Maintains.pure trivial)

/-- An error code parses nothing. -/
theorem errno_parsesReturned (e : Failure) : ParsesReturned E (do
    NetM.setErrno
    return (.error e : Except Failure α)) := by
  have herrno : ParsesReturned E NetM.setErrno := fun c hc => Triple.of_run rfl ⟨trivial, hc⟩
  exact herrno.bind fun _ _ => Maintains.pure trivial

/-- A null pointer parses nothing. -/
theorem nullPointer_parsesReturned : ParsesReturned E (NetM.nullPointer (α := α)) := fun _ hc =>
  Triple.of_run rfl ⟨trivial, hc⟩

/-- A program of one system call. -/
theorem maintains_of_run {I : NetClient → Prop} {P : α → Prop}
    (hm : ∀ c a c', I c → m.run c = .ok (a, c') → P a ∧ I c') :
    Maintains I P (fun _ => True) m := by
  intro c hc
  cases hrun : m.run c with
  | error e => exact Triple.of_run_error hrun trivial
  | ok r => exact Triple.of_run hrun (hm c r.1 r.2 hc hrun)

/-- A write parses nothing. -/
theorem socketWrite_parsesReturned (buffer : Text) :
    ParsesReturned E (NetM.socketWrite E fuel buffer) := by
  refine maintains_of_run fun c r c' hc hrun => ⟨trivial, ?_⟩
  rcases NetM.socketWrite_cases hrun with ⟨-, -, rfl⟩ | ⟨-, q, sent, -, rfl⟩
  · exact hc
  · exact hc

/-- A read parses nothing. -/
theorem socketReadln_parsesReturned (len : Nat) :
    ParsesReturned E (NetM.socketReadln E fuel len) := by
  refine maintains_of_run fun c r c' hc hrun => ⟨trivial, ?_⟩
  rcases NetM.socketReadln_cases hrun with ⟨-, -, rfl⟩ | ⟨-, line, fin, q, -, -, rfl⟩
  · exact hc
  · exact hc

/-- A line has just been read from `start` on. -/
structure JustRead (E : NetEnv) (start : Nat) (r : LineResult) (c : NetClient) : Prop where
  all : AllReturned E c
  returned : ¬r.ret = -1 → r.timeout = false → ParsedLine.Returned E ⟨start, c.reads, r⟩

/-- The line that has been read. -/
theorem socketReadln_justRead {c : NetClient} (hc : AllReturned E c) :
    Triple (NetM.socketReadln E fuel 1024) c (fun r c' => JustRead E c.reads r c')
      fun _ => True := by
  cases hrun : (NetM.socketReadln E fuel 1024).run c with
  | error e => exact Triple.of_run_error hrun trivial
  | ok r =>
    obtain ⟨r, c'⟩ := r
    apply Triple.of_run hrun
    rcases NetM.socketReadln_cases hrun with ⟨-, rfl, rfl⟩ | ⟨hsel, line, fin, q, hline, rfl, rfl⟩
    · exact ⟨hc, fun hret _ => absurd rfl hret⟩
    · obtain ⟨n, hreadln⟩ := @readln_of_reading E.reads E.clock c.socket 1024 c.reads q line fin hsel
        (by decide) hline
      exact ⟨hc, fun hret htimeout =>
        ⟨lineEnd_nonneg hret, htimeout, c.socket, n, hreadln n le_rfl⟩⟩

/-- The line that is parsed is the one that has been read. -/
theorem parseResponse_returned {start : Nat} {r : LineResult} {c : NetClient}
    (h : JustRead E start r c) (hret : ¬r.ret = -1) (htimeout : r.timeout = false)
    (rLine : Text) :
    Triple (NetM.parseResponse start rLine r) c (fun _ c' => AllReturned E c') fun _ => True := by
  apply Triple.of_run rfl
  show ∀ e ∈ c.parses ++ [⟨start, c.reads, r⟩], e.Returned E
  rw [List.forall_mem_append, List.forall_mem_singleton]
  exact ⟨h.all, h.returned hret htimeout⟩

/-- So it is when it is checked first. -/
theorem checkResponse_returned {timeout : Bool} {start : Nat} {r : LineResult} {c : NetClient}
    (h : JustRead E start r c) (rLine : Text) :
    Triple (NetM.checkResponse timeout start rLine r) c (fun _ c' => AllReturned E c')
      fun _ => True := by
  rw [NetM.checkResponse]
  split
  · exact (errno_parsesReturned _ c h.all).imp fun _ _ h => h.2
  split
  · exact (fail_parsesReturned _ _ _ c h.all).imp fun _ _ h => h.2
  next hret htimeout =>
    rw [Bool.or_eq_true, not_or, Bool.not_eq_true, Bool.not_eq_true] at htimeout
    apply (parseResponse_returned h hret htimeout.2 rLine).bind
    rintro (_ | ⟨code, msg⟩) c' hc'
    · exact (fail_parsesReturned _ _ _ c' hc').imp fun _ _ h => h.2
    · exact Triple.pure hc'

/-- The place of the next read. -/
theorem readPos_spec (c : NetClient) :
    Triple NetM.readPos c (fun start c' => start = c.reads ∧ c' = c) fun _ => True :=
  Triple.of_run rfl ⟨rfl, rfl⟩

/-- **A response line is parsed only if it has been returned** without an error and without a
timeout. -/
theorem readResponse_parsesReturned (timeout : Bool) (rLine : Text) :
    ParsesReturned E (NetM.readResponse E fuel timeout rLine) := by
  intro c hc
  apply (readPos_spec c).bind
  rintro start c₁ ⟨rfl, rfl⟩
  refine (socketReadln_justRead hc).bind fun r c₂ h => ?_
  exact (checkResponse_returned h rLine).imp fun _ _ h => ⟨trivial, h⟩

theorem unsetLine_parsesReturned : ParsesReturned E NetM.unsetLine := fun _ hc =>
  Triple.of_run rfl ⟨trivial, hc⟩

/-- A request parses its response. -/
theorem request_parsesReturned (cmd : Text) : ParsesReturned E (NetM.request E fuel cmd) := by
  refine (socketWrite_parsesReturned _).bind fun w _ => ?_
  split
  · exact Maintains.pure trivial
  · exact unsetLine_parsesReturned.bind fun rLine _ => readResponse_parsesReturned w.timeout rLine

theorem statusRequest_parsesReturned (cmd : Text) :
    ParsesReturned E (NetM.statusRequest E fuel cmd) := by
  apply (request_parsesReturned cmd).bind
  rintro (e | ⟨rLine, code, msg⟩) -
  · exact Maintains.pure trivial
  dsimp only
  split
  · exact fail_parsesReturned _ _ _
  · exact Maintains.pure trivial

theorem infoLine_parsesReturned (expected : Int) (r : Except Failure (Text × Int × Text)) :
    ParsesReturned E (NetM.infoLine expected r) := by
  rcases r with e | ⟨rLine, code, msg⟩
  · exact Maintains.pure trivial
  rw [NetM.infoLine]
  split
  · exact fail_parsesReturned _ _ _
  split
  · exact errno_parsesReturned _
  · exact Maintains.pure trivial

theorem infoRequest_parsesReturned (cmd : Text) (width : Nat) (out : Bool) :
    ParsesReturned E (NetM.infoRequest E fuel cmd width out) := by
  rw [NetM.infoRequest]
  split
  · exact nullPointer_parsesReturned
  refine (request_parsesReturned cmd).bind fun r _ => (infoLine_parsesReturned _ r).bind ?_
  rintro (e | info) -
  · exact Maintains.pure trivial
  · exact Maintains.pure trivial

theorem withTimeout_parsesReturned {timeout : Int} (htimeout : 0 < timeout)
    (hm : ParsesReturned E m) : ParsesReturned E (NetM.withTimeout timeout htimeout m) := by
  have hget : ParsesReturned E (get : NetM NetClient) := fun _ hc => Triple.of_run rfl ⟨trivial, hc⟩
  refine hget.bind fun c _ => modify_then_parsesReturned (fun _ => rfl) ?_
  exact hm.bind fun a _ => modify_then_parsesReturned (fun _ => rfl) (Maintains.pure trivial)

/-- The loop of ENUM parses each line behind its read. -/
theorem enumLoop_parsesReturned (cb : List Found → Int) (n : Nat) (seen : List Found)
    (rLine : Text) (code : Int) (msg : Text) :
    ParsesReturned E (NetM.enumLoop E fuel cb n seen rLine code msg) := by
  -- on the passes: each reads into the buffer of the one before
  induction n generalizing seen rLine code msg with
  | zero => exact Maintains.throw trivial
  | succ n ih =>
    rw [NetM.enumLoop]
    split
    · exact fail_parsesReturned _ _ _
    split
    · exact fail_parsesReturned _ _ _
    next d _ =>
      split
      · exact fail_parsesReturned _ _ _
      have havailable : ParsesReturned E (NetM.socketAvailable E) := fun _ hc =>
        Triple.of_run rfl ⟨trivial, hc⟩
      refine havailable.bind fun r _ => ?_
      unfold NetM.enumNext
      split
      · exact Maintains.pure trivial
      apply (readResponse_parsesReturned false rLine).bind
      rintro (e | ⟨rLine, code, msg⟩) -
      · exact Maintains.pure trivial
      · exact ih _ rLine code msg

theorem smartiClientEnumerate_parsesReturned (cb : Option (List Found → Int)) :
    ParsesReturned E (NetM.smartiClientEnumerate E fuel cb) := by
  cases cb with
  | none => exact nullPointer_parsesReturned
  | some cb =>
    apply (withTimeout_parsesReturned _ (request_parsesReturned _)).bind
    rintro (e | ⟨rLine, code, msg⟩) -
    · exact Maintains.pure trivial
    dsimp only
    split
    · exact fail_parsesReturned _ _ _
    · exact enumLoop_parsesReturned cb fuel [] rLine code msg

theorem trim_parsesReturned (data : Text) (n : Nat) : ParsesReturned E (NetM.trim data n) := by
  induction n with
  | zero => exact Maintains.throw trivial
  | succ n ih =>
    rw [NetM.trim]
    split
    · exact Maintains.pure trivial
    · exact ih

theorem checkData_parsesReturned (rLen : Nat) (r : LineResult) :
    ParsesReturned E (NetM.checkData rLen r) := by
  rw [NetM.checkData]
  split
  · exact errno_parsesReturned _
  split
  · exact fail_parsesReturned _ _ _
  refine (trim_parsesReturned _ _).bind fun nr _ => ?_
  split
  · exact fail_parsesReturned _ _ _
  · exact Maintains.pure trivial

theorem smartiClientXfer_parsesReturned (out : Bool) :
    ParsesReturned E (NetM.smartiClientXfer E fuel out) := by
  rw [NetM.smartiClientXfer]
  split
  · exact nullPointer_parsesReturned
  refine (withTimeout_parsesReturned _ (request_parsesReturned _)).bind fun r _ => ?_
  apply (infoLine_parsesReturned _ r).bind
  rintro (e | info) -
  · exact Maintains.pure trivial
  have hmalloc : ParsesReturned E (NetM.allocate E) := fun _ hc => Triple.of_run rfl ⟨trivial, hc⟩
  refine hmalloc.bind fun ok _ => ?_
  split
  · exact fail_parsesReturned _ _ _
  · exact (socketReadln_parsesReturned _).bind fun r _ => checkData_parsesReturned _ r

theorem connectFirst_parsesReturned (servers : List ServerAddr) :
    ParsesReturned E (NetM.connectFirst servers) := by
  induction servers with
  | nil => exact Maintains.pure trivial
  | cons a rest ih =>
    rw [NetM.connectFirst]
    split
    · exact ih
    refine modify_then_parsesReturned (fun _ => rfl) ?_
    split
    · exact ih
    split
    · exact ih
    · exact Maintains.pure trivial

theorem refuse_parsesReturned (code : Int) (msg : Text) (e : Failure) :
    ParsesReturned E (NetM.refuse code msg e) :=
  modify_then_parsesReturned (fun _ => rfl)
    (modify_then_parsesReturned (fun _ => rfl) (Maintains.pure trivial))

/-- The greeting is parsed behind its read. -/
theorem checkGreeting_returned {start : Nat} {r : LineResult} {c : NetClient}
    (h : JustRead E start r c) (gLine : Text) :
    Triple (NetM.checkGreeting start gLine r) c (fun _ c' => AllReturned E c') fun _ => True := by
  -- the exits that parse nothing
  have hrefused : ParsesReturned E (do
      NetM.smartiClientDisconnect
      NetM.setErrno
      return (.error (.socket r.errno) : Except Failure Unit)) := by
    refine modify_then_parsesReturned (fun _ => rfl) ?_
    exact errno_parsesReturned _
  have hready : ∀ id, ParsesReturned E (do
      modify fun c : NetClient => { c with serverId := some id }
      return (.ok () : Except Failure Unit)) := by
    intro id
    refine modify_then_parsesReturned (fun _ => rfl) ?_
    exact Maintains.pure trivial
  rw [NetM.checkGreeting]
  split
  · exact (hrefused c h.all).imp fun _ _ h => h.2
  split
  · exact (fail_parsesReturned _ _ _ c h.all).imp fun _ _ h => h.2
  next hret htimeout =>
    apply (parseResponse_returned h hret (Bool.eq_false_iff.mpr htimeout) gLine).bind
    rintro (_ | ⟨code, msg⟩) c' hc'
    · exact (refuse_parsesReturned _ _ _ c' hc').imp fun _ _ h => h.2
    dsimp only
    split
    · exact (refuse_parsesReturned _ _ _ c' hc').imp fun _ _ h => h.2
    split
    · exact (refuse_parsesReturned _ _ _ c' hc').imp fun _ _ h => h.2
    · exact (hready _ c' hc').imp fun _ _ h => h.2

theorem greet_parsesReturned (port : UInt16) (fd : Nat) (a : ServerAddr) :
    ParsesReturned E (NetM.greet E fuel port fd a) := by
  rw [NetM.greet]
  refine modify_then_parsesReturned ?_ ?_
  · exact fun _ => rfl
  intro c hc
  apply (readPos_spec c).bind
  rintro start c₁ ⟨rfl, rfl⟩
  have hunset : Triple NetM.unsetLine c₁ (fun _ c' => c' = c₁) fun _ => True := Triple.of_run rfl rfl
  apply hunset.bind
  rintro gLine c₁ rfl
  refine (socketReadln_justRead hc).bind fun r c₂ h => ?_
  exact (checkGreeting_returned h gLine).imp fun _ _ h => ⟨trivial, h⟩

theorem smartiClientConnect_parsesReturned (addr : Text) (port : UInt16) :
    ParsesReturned E (NetM.smartiClientConnect E fuel addr port) := by
  rw [NetM.smartiClientConnect]
  split
  · exact fail_parsesReturned _ _ _
  apply (connectFirst_parsesReturned _).bind
  rintro (_ | ⟨fd, a⟩) -
  · exact fail_parsesReturned _ _ _
  · exact @greet_parsesReturned E fuel port fd a

theorem discard_parsesReturned {m : NetM (Except Failure α)} (hm : ParsesReturned E m) :
    ParsesReturned E (NetM.discard m) := by
  apply hm.bind
  rintro (e | a) -
  · exact Maintains.pure trivial
  · exact Maintains.pure trivial

theorem request_invoke_parsesReturned (r : Request) : ParsesReturned E (r.invoke E fuel) := by
  cases r with
  | close => exact statusRequest_parsesReturned _
  | enumerate cb => exact smartiClientEnumerate_parsesReturned cb
  | model out => exact discard_parsesReturned (infoRequest_parsesReturned _ _ out)
  | openDevice addr lsap chunkSize => exact statusRequest_parsesReturned _
  | serial out => exact discard_parsesReturned (infoRequest_parsesReturned _ _ out)
  | setToken token => exact statusRequest_parsesReturned _
  | size out => exact discard_parsesReturned (infoRequest_parsesReturned _ _ out)
  | ticks out => exact discard_parsesReturned (infoRequest_parsesReturned _ _ out)
  | xfer out => exact discard_parsesReturned (smartiClientXfer_parsesReturned out)

/-- **A session parses what has been returned for it**, and nothing else. -/
theorem clientSession_parsesReturned (calls : List NetCall) :
    ParsesReturned E (clientSession E fuel calls) := by
  refine Maintains.forM (fun call => ?_) trivial calls
  have hcall : ParsesReturned E (call.invoke E fuel) := by
    cases call with
    | connect addr port => exact smartiClientConnect_parsesReturned addr port
    | request r => exact request_invoke_parsesReturned r
    | disconnect => exact modify_then_parsesReturned (fun _ => rfl) (Maintains.pure trivial)
  exact hcall.bind fun _ _ => Maintains.pure trivial

end Calls

/-! ### Sessions

In a session the buffer of one call is not that of the next one.
-/

/-- **A client never parses stale line buffers**, if and only if no stream ends and no `select`
fails in front of the first byte that is stored.  For every line: what is returned without an
error and without a timeout is in the buffer, a string received for it, exactly under this
condition and without a NUL byte.  For every session: all that the calls parse has been received
for them, exactly if the condition holds wherever they begin to read it. -/
theorem client_parsesReceived_iff (E : NetEnv) :
    (∀ socket fuel len p q r,
      (outcomeNet E.reads E.clock).readln socket fuel len p = some (r, q) →
        0 ≤ r.ret → r.timeout = false → (Filled E.reads p q r ↔ Fills E.reads len p)) ∧
    ∀ calls fuel c c', c.parses = [] → (clientSession E fuel calls).run c = .ok ((), c') →
      ((∀ e ∈ c'.parses, Received E.reads e.start e.stop e.result) ↔
        ∀ e ∈ c'.parses, Stores E.reads 1024 e.start) := by
  constructor
  · intro socket fuel len p q r hrun hret htimeout
    exact readln_filled_iff hrun hret htimeout
  · intro calls fuel c c' hc hrun
    have hstart : AllReturned E c := by
      intro e he
      rw [hc] at he
      cases he
    have hall := ((clientSession_parsesReturned calls c hstart).result hrun).2
    -- the log holds where the reading of each line begins
    have hiff : ∀ e ∈ c'.parses,
        (Received E.reads e.start e.stop e.result ↔ Stores E.reads 1024 e.start) := by
      intro e he
      obtain ⟨hret, htimeout, socket, fuel', hreadln⟩ := hall e he
      exact readln_received_iff hreadln hret htimeout
    exact forall₂_congr hiff

/-- A daemon that takes what is sent, and closes the connection. -/
def closingEnv : NetEnv where
  reads _ := .endOfFile
  writes _ := .wrote 6
  available _ := none
  malloc _ := true
  clock _ := 0
  resolve _ _ := .ok []

/-- A client that is connected, with an answer of another call on its stack. -/
def staleClient : NetClient :=
  { NetClient.fresh "210 Ok".toList with
    socket := ⟨3, 2000, (NetM.connectedSocket 3).timeout_pos⟩ }

/-- A daemon that answers as well. -/
def answeringEnv : NetEnv :=
  { closingEnv with reads := fun p => .char ("210 \n".toList.getD p '\n') }

/-- A CLOSE that is answered. -/
theorem client_parsesReceived_iff_answering :
    ∃ c', (clientSession answeringEnv 6 [.request .close]).run staleClient = .ok ((), c') ∧
      c'.parses.length = 1 ∧
      ∀ e ∈ c'.parses, Received answeringEnv.reads e.start e.stop e.result := by
  obtain ⟨c', hrun, hparses⟩ : ∃ c',
      (clientSession answeringEnv 6 [.request .close]).run staleClient = .ok ((), c') ∧
        c'.parses = [⟨0, 5, ⟨4, false, 0, some "210 ".toList⟩⟩] := ⟨_, rfl, rfl⟩
  have hreading : ReadsLine answeringEnv.reads 0 "210 ".toList (.char '\n') 5 := by
    repeat' first | exact .ends rfl | refine .char rfl (by decide) ?_
  refine ⟨c', hrun, by rw [hparses]; rfl, ?_⟩
  apply ((client_parsesReceived_iff answeringEnv).2 _ _ _ _ rfl hrun).mpr
  rw [hparses, List.forall_mem_singleton]
  intro line fin q h hearly
  obtain ⟨-, rfl, -⟩ := h.unique hreading
  cases hearly

/-- At a stream that is over the line has the length 0 and nothing is in the buffer.  CLOSE
parses what has been there before, and succeeds with it. -/
theorem not_client_parsesReceived :
    (outcomeNet closingEnv.reads closingEnv.clock).readln ⟨3, 2000, by decide⟩ 2 1024 0 =
      some (⟨0, false, 0, none⟩, 1) ∧
    ¬Filled closingEnv.reads 0 1 ⟨0, false, 0, none⟩ ∧
    (∃ c', (NetM.smartiClientClose closingEnv 2).run staleClient = .ok (.ok (), c')) ∧
    ∃ c', (clientSession closingEnv 2 [.request .close]).run staleClient = .ok ((), c') ∧
      c'.parses = [⟨0, 1, ⟨0, false, 0, none⟩⟩] ∧
      ¬Received closingEnv.reads 0 1 ⟨0, false, 0, none⟩ := by
  refine ⟨rfl, ?_, ⟨_, rfl⟩, ⟨_, rfl, rfl, ?_⟩⟩
  · rintro ⟨buf, -, -, -, hbuf, -⟩
    cases hbuf
  · rintro ⟨buf, -, -, -, hbuf, -⟩
    cases hbuf

end BenthosDc

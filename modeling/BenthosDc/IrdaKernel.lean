/-
BenthosDc/IrdaKernel.lean

Reading from and writing to an IrDA socket, down to the system calls (`irda.c`).

Both functions wait in the loop that the macros `BEGIN_SELECT_LOOP` and
`END_SELECT_LOOP` open and close: the socket is polled, and if it is ready the call is
made; a call that would block is made again as long as the deadline has not come.  What
the kernel does is a state of type `S` of which nothing is known.

The variable for the result of the call is 0 until a call is made.  A `select` that fails
therefore looks like a call that transferred nothing, unless a call that would have blocked
came right before it.

* `irdaSocket_reportsFailures_iff`: when reading and writing report their failures.

Every call leaves a trace of the events that it has had with the kernel.  What is claimed of a
call is claimed of its trace: `ReadEnds` and `WriteEnds` say how outcome and trace belong
together, and `SelectFailsLate` picks out the traces in which a failed `select` comes right
behind a call that would have blocked, where the leftover result gives the failure away.
-/
import BenthosDc.Irda

namespace BenthosDc

open Loop

variable {S α : Type}

/-! ### System calls -/

/-- How `select` ends: a positive number, 0 or -1.  The errors of `select` are other ones
than EAGAIN. -/
inductive SelectResult
  | ready
  | timedOut
  | failed
  deriving DecidableEq

/-- How `recv` or `send` ends; a call that would block fails with EAGAIN. -/
inductive CallResult (α : Type)
  | count (a : α)
  | again
  | failed
  deriving DecidableEq

/-- The kernel behind a socket.  No call transfers more than it is asked for. -/
structure Kernel (S : Type) where
  /-- `ms_time` -/
  clock : S → Int × S
  select : S → Bool → Int → SelectResult × S
  recv : S → Nat → CallResult (List UInt8) × S
  send : S → List UInt8 → CallResult Nat × S
  recv_le : ∀ {w n bytes w'}, recv w n = (.count bytes, w') → bytes.length ≤ n
  send_le : ∀ {w bytes n w'}, send w bytes = (.count n, w') → n ≤ bytes.length

/-- `struct _irda_t` -/
structure IrdaSocket where
  fd : Int
  timeout : Int
  deriving DecidableEq

/-- The descriptors that fit into a `fd_set`. -/
def fdSetsize : Int := 1024

/-- `IS_SELECTABLE` -/
def IrdaSocket.isSelectable (s : IrdaSocket) : Bool :=
  (0 ≤ s.fd && s.fd < fdSetsize) || s.timeout < 0

/-- A call that the kernel has answered. -/
inductive KernelEvent
  | select (r : SelectResult)
  | call (r : CallResult Nat)
  deriving DecidableEq

/-- `internal_select`; the result 0 is `ready`, 1 is `timedOut`, and -1 is `failed`. -/
def internalSelect (K : Kernel S) (s : IrdaSocket) (writing : Bool) (interval : Int) (w : S) :
    SelectResult × S × List KernelEvent :=
  if s.timeout ≤ 0 ∨ s.fd < 0 then (.ready, w, [])
  -- the deadline is over
  else if interval < 0 then (.timedOut, w, [])
  else
    match K.select w writing interval with
    | (r, w) => (r, w, [.select r])

/-! ### The select loop -/

/-- The number that a call returns. -/
def CallResult.map {β : Type} (f : α → β) : CallResult α → CallResult β
  | .count a => .count (f a)
  | .again => .again
  | .failed => .failed

/-- The state of the loop between `BEGIN_SELECT_LOOP` and `END_SELECT_LOOP`. -/
structure SelectState (S α : Type) where
  world : S
  interval : Int
  /-- The last call; `none` if there was none. -/
  last : Option (CallResult α)
  trace : List KernelEvent

/-- One pass of the loop.  It is left with the value of `timeout`. -/
def selectPass (K : Kernel S) (s : IrdaSocket) (writing : Bool) (deadline : Int)
    (call : S → CallResult α × S) (size : α → Nat) (st : SelectState S α) :
    Iter (SelectState S α) (SelectResult × SelectState S α) :=
  match internalSelect K s writing st.interval st.world with
  | (.timedOut, w, t) => .stop (.timedOut, { st with world := w, trace := st.trace ++ t })
  | (.failed, w, t) => .stop (.failed, { st with world := w, trace := st.trace ++ t })
  | (.ready, w, t) =>
    match call w with
    | (r, w) =>
      let st := { st with
        world := w
        last := some r
        trace := st.trace ++ (t ++ [.call (r.map size)]) }
      if r.map size = .again ∧ 0 < s.timeout then
        let (now, w) := K.clock st.world
        .next { st with world := w, interval := deadline - now }
      else .stop (.ready, st)

/-- The loop as it is entered, with the trace so far. -/
def selectStart (s : IrdaSocket) (trace : List KernelEvent) (w : S) : SelectState S α where
  world := w
  interval := s.timeout
  last := none
  trace := trace

/-- The whole loop, for at most `fuel` passes. -/
def selectLoop (K : Kernel S) (s : IrdaSocket) (writing : Bool) (fuel : Nat)
    (call : S → CallResult α × S) (size : α → Nat) (trace : List KernelEvent) (w : S) :
    Option (SelectResult × SelectState S α) :=
  -- without a timeout there is no deadline
  let (now, w) := if 0 < s.timeout then K.clock w else (0, w)
  match iterate (selectPass K s writing (now + s.timeout) call size) fuel
      (selectStart s trace w) with
  | .stop r => some r
  | .next _ => none

/-! ### Reading -/

/-- The outcome of a read: the return value, whether the timeout flag has been set, the
number in `*size`, and the bytes in the buffer. -/
structure ReadOutcome where
  ret : Int
  timeout : Bool
  size : Nat
  data : List UInt8
  deriving DecidableEq

/-- `irda_socket_read` behind the select loop: `outlen` is 0 if there was no call. -/
def readOutcome (size : Nat) (r : SelectResult) (last : Option (CallResult (List UInt8))) :
    ReadOutcome :=
  match last with
  | none => ⟨0, r = .timedOut, 0, []⟩
  | some (.count bytes) => ⟨0, r = .timedOut, bytes.length, bytes⟩
  | some .again => ⟨-1, r = .timedOut, size, []⟩
  | some .failed => ⟨-1, r = .timedOut, size, []⟩

/-- `irda_socket_read`, with the calls that it has made. -/
def Kernel.irdaSocketRead (K : Kernel S) (s : IrdaSocket) (fuel size : Nat) (w : S) :
    Option (ReadOutcome × List KernelEvent × S) :=
  if s.isSelectable = false then some (⟨-1, false, size, []⟩, [], w)
  else
    match selectLoop K s false fuel (K.recv · size) List.length [] w with
    | none => none
    | some (r, st) => some (readOutcome size r st.last, st.trace, st.world)

/-! ### Writing -/

/-- The outcome of a write; the size is the number of bytes that have been accepted. -/
structure WriteOutcome where
  ret : Int
  timeout : Bool
  size : Nat
  deriving DecidableEq

/-- The bytes that have been taken so far, and the trace. -/
structure WriteState (S : Type) where
  world : S
  nbytes : Nat
  trace : List KernelEvent

/-- One pass of the loop of `irda_socket_write`; `n` is 0 if there was no call.  It is left
with `none` if the select loop has not ended. -/
def writePass (K : Kernel S) (s : IrdaSocket) (fuel : Nat) (data : List UInt8)
    (st : WriteState S) : Iter (WriteState S) (Option (WriteOutcome × List KernelEvent × S)) :=
  if st.nbytes < data.length then
    match selectLoop K s true fuel (K.send · (data.drop st.nbytes)) id st.trace st.world with
    | none => .stop none
    | some (r, ss) =>
      match ss.last with
      | none => .stop (some (⟨0, r = .timedOut, st.nbytes⟩, ss.trace, ss.world))
      | some (.count 0) => .stop (some (⟨0, r = .timedOut, st.nbytes⟩, ss.trace, ss.world))
      | some (.count n) => .next ⟨ss.world, st.nbytes + n, ss.trace⟩
      | some .again => .stop (some (⟨-1, r = .timedOut, st.nbytes⟩, ss.trace, ss.world))
      | some .failed => .stop (some (⟨-1, r = .timedOut, st.nbytes⟩, ss.trace, ss.world))
  else .stop (some (⟨0, false, st.nbytes⟩, st.trace, st.world))

/-- `irda_socket_write`, with the calls that it has made. -/
def Kernel.irdaSocketWrite (K : Kernel S) (s : IrdaSocket) (fuel : Nat) (data : List UInt8)
    (w : S) : Option (WriteOutcome × List KernelEvent × S) :=
  if s.isSelectable = false then some (⟨-1, false, data.length⟩, [], w)
  else
    match iterate (writePass K s fuel data) (data.length + 1) ⟨w, 0, []⟩ with
    | .stop r => r
    | .next _ => none

/-! ### What the select loop can come to -/

/-- Calls that came to nothing. -/
def CameToNothing (t : List KernelEvent) : Prop := ∀ e ∈ t, e = .select .ready ∨ e = .call .again

/-- Two rounds that came to nothing. -/
theorem CameToNothing.append {t t' : List KernelEvent} (h : CameToNothing t)
    (h' : CameToNothing t') : CameToNothing (t ++ t') := by
  intro e he
  rcases List.mem_append.mp he with he | he
  · exact h e he
  · exact h' e he

/-- The rounds that have been made, with the last call: none, or one that would have
blocked. -/
inductive Rounds : List KernelEvent → Option (CallResult α) → Prop
  | none : Rounds [] none
  | again {t : List KernelEvent} : CameToNothing t → Rounds (t ++ [.call .again]) (some .again)

theorem Rounds.idle {t : List KernelEvent} {last : Option (CallResult α)} (h : Rounds t last) :
    CameToNothing t := by
  cases h with
  | none => exact fun e he => (nomatch he)
  | again h =>
    apply h.append
    intro e he
    exact .inr (List.mem_singleton.mp he)

/-- **What the loop can come to**, behind some rounds: a call has been answered, the
deadline has come, or `select` has failed. -/
inductive SelectEnds (call : S → CallResult α × S) (size : α → Nat) :
    SelectResult → Option (CallResult α) → List KernelEvent → Prop
  | called {t sel : List KernelEvent} {w w' : S} {r : CallResult α} : call w = (r, w') →
      CameToNothing t → CameToNothing sel →
      SelectEnds call size .ready (some r) (t ++ (sel ++ [.call (r.map size)]))
  | timedOut {t sel : List KernelEvent} {last : Option (CallResult α)} : Rounds t last →
      (∀ e ∈ sel, e = .select .timedOut) → SelectEnds call size .timedOut last (t ++ sel)
  | failed {t : List KernelEvent} {last : Option (CallResult α)} : Rounds t last →
      SelectEnds call size .failed last (t ++ [.select .failed])

section SelectLoop

variable {K : Kernel S} {s : IrdaSocket} {writing : Bool} {fuel : Nat}
  {call : S → CallResult α × S} {size : α → Nat}

/-- A poll finds the socket ready, or times out, or fails; interrupted calls in front of that came
to nothing. -/
theorem internalSelect_cases (K : Kernel S) (s : IrdaSocket) (writing : Bool) (interval : Int)
    (w : S) :
    (∃ w' t, internalSelect K s writing interval w = (.ready, w', t) ∧ CameToNothing t) ∨
    (∃ w' t, internalSelect K s writing interval w = (.timedOut, w', t) ∧
      ∀ e ∈ t, e = .select .timedOut) ∨
    ∃ w', internalSelect K s writing interval w = (.failed, w', [.select .failed]) := by
  rw [internalSelect]
  split
  · exact .inl ⟨w, [], rfl, fun e he => (nomatch he)⟩
  split
  · exact .inr (.inl ⟨w, [], rfl, fun e he => (nomatch he)⟩)
  rcases K.select w writing interval with ⟨_ | _ | _, w'⟩
  · exact .inl ⟨w', _, rfl, fun e he => .inl (List.mem_singleton.mp he)⟩
  · exact .inr (.inl ⟨w', _, rfl, fun e he => List.mem_singleton.mp he⟩)
  · exact .inr (.inr ⟨w', rfl⟩)

/-- One pass makes another round, or ends the loop. -/
theorem selectPass_cases (deadline : Int) {st : SelectState S α} {trace t : List KernelEvent}
    (htrace : st.trace = trace ++ t) (hrounds : Rounds t st.last) :
    (∃ st' t', selectPass K s writing deadline call size st = .next st' ∧
      st'.trace = trace ++ t' ∧ Rounds t' st'.last) ∨
    ∃ r st' t', selectPass K s writing deadline call size st = .stop (r, st') ∧
      st'.trace = trace ++ t' ∧ SelectEnds call size r st'.last t' := by
  rcases internalSelect_cases K s writing st.interval st.world with
    ⟨w, sel, hsel, hidle⟩ | ⟨w, sel, hsel, htimed⟩ | ⟨w, hsel⟩
  -- the socket is ready: the call is made, and made again only if it would block
  · rcases hcall : call w with ⟨r, w'⟩
    by_cases hagain : r.map size = .again ∧ 0 < s.timeout
    · refine .inl ⟨⟨(K.clock w').2, deadline - (K.clock w').1, some r,
        st.trace ++ (sel ++ [.call (r.map size)])⟩, t ++ sel ++ [.call .again], ?_, ?_, ?_⟩
      · rw [selectPass, hsel]
        dsimp only
        rw [hcall]
        exact if_pos hagain
      · simp [htrace, hagain.1]
      · have hr : r = .again := by
          cases r with
          | again => rfl
          | count a => cases hagain.1
          | failed => cases hagain.1
        rw [hr]
        exact .again (hrounds.idle.append hidle)
    · refine .inr ⟨.ready, ⟨w', st.interval, some r, st.trace ++ (sel ++ [.call (r.map size)])⟩,
        t ++ (sel ++ [.call (r.map size)]), ?_, ?_, ?_⟩
      · rw [selectPass, hsel]
        dsimp only
        rw [hcall]
        exact if_neg hagain
      · simp [htrace]
      · exact .called hcall hrounds.idle hidle
  · refine .inr ⟨.timedOut, { st with world := w, trace := st.trace ++ sel }, t ++ sel, ?_, ?_, ?_⟩
    · rw [selectPass, hsel]
    · simp [htrace]
    · exact .timedOut hrounds htimed
  · refine .inr ⟨.failed, { st with world := w, trace := st.trace ++ [.select .failed] },
      t ++ [.select .failed], ?_, ?_, ?_⟩
    · rw [selectPass, hsel]
    · simp [htrace]
    · exact .failed hrounds

/-- **The select loop** adds what it ends with to the trace. -/
theorem selectLoop_ends {trace : List KernelEvent} {w : S} {r : SelectResult}
    {st : SelectState S α}
    (h : selectLoop K s writing fuel call size trace w = some (r, st)) :
    ∃ t, st.trace = trace ++ t ∧ SelectEnds call size r st.last t := by
  rw [selectLoop] at h
  split at h
  next now w' hclock =>
  split at h
  case h_2 => cases h
  case h_1 hiter =>
    cases h
    -- what has been traced so far are rounds, of which the last one ends the loop
    refine (iterate_stop_returns hiter).invariant
      (I := fun st => ∃ t, st.trace = trace ++ t ∧ Rounds t st.last)
      (Q := fun r => ∃ t, r.2.trace = trace ++ t ∧ SelectEnds call size r.1 r.2.last t) ?_ ?_
      ⟨[], (List.append_nil trace).symm, .none⟩
    · intro st st' ⟨t, htrace, hrounds⟩ hnext
      rcases selectPass_cases (now + s.timeout) htrace hrounds with
        ⟨st₁, t', hpass, hst₁⟩ | ⟨r, st₁, t', hpass, -⟩
      · rw [hpass] at hnext
        cases hnext
        exact ⟨t', hst₁⟩
      · rw [hpass] at hnext
        cases hnext
    · intro st ⟨r, st'⟩ ⟨t, htrace, hrounds⟩ hstop
      rcases selectPass_cases (now + s.timeout) htrace hrounds with
        ⟨st₁, t', hpass, -⟩ | ⟨r, st₁, t', hpass, hst₁⟩
      · rw [hpass] at hstop
        cases hstop
      · rw [hpass] at hstop
        cases hstop
        exact ⟨t', hst₁⟩

end SelectLoop

/-! ### Failures and how they are reported -/

/-- The bytes that have been accepted. -/
def accepted (t : List KernelEvent) : Nat :=
  (t.map fun
    | .call (.count n) => n
    | _ => 0).sum

/-- A read reports its failures: it succeeds for a `recv` that did, and only with the
number of its bytes. -/
structure ReadReports (o : ReadOutcome) (t : List KernelEvent) : Prop where
  success : o.ret = 0 → o.timeout = false → .call (.count o.size) ∈ t
  select : .select .failed ∈ t → o.ret = -1

/-- A write of `size` bytes reports its failures. -/
structure WriteReports (size : Nat) (o : WriteOutcome) (t : List KernelEvent) : Prop where
  success : o.ret = 0 → o.timeout = false →
    (o.size = size ∨ .call (.count 0) ∈ t) ∧ o.size = accepted t
  select : .select .failed ∈ t → o.ret = -1

/-- Where `select` fails, a call that would have blocked comes right before it. -/
def SelectFailsLate (t : List KernelEvent) : Prop :=
  ∀ pre post, t = pre ++ .select .failed :: post → ∃ pre', pre = pre' ++ [.call .again]

section Failures

variable {t t' : List KernelEvent}

/-- Bytes are counted over the whole trace. -/
theorem accepted_append (t t' : List KernelEvent) :
    accepted (t ++ t') = accepted t + accepted t' := by
  rw [accepted, List.map_append, List.sum_append]
  rfl

theorem CameToNothing.accepted (h : CameToNothing t) : accepted t = 0 := by
  rw [BenthosDc.accepted, List.sum_eq_zero_iff_forall_eq_nat]
  intro n hn
  obtain ⟨e, he, rfl⟩ := List.mem_map.mp hn
  rcases h e he with rfl | rfl
  · rfl
  · rfl

theorem CameToNothing.not_failed (h : CameToNothing t) : .select .failed ∉ t := by
  intro hmem
  rcases h _ hmem with h | h
  · cases h
  · cases h

/-- No call returned a count. -/
theorem CameToNothing.not_count (h : CameToNothing t) {n : Nat} : .call (.count n) ∉ t := by
  intro hmem
  rcases h _ hmem with h | h
  · cases h
  · cases h

/-- A call is no failure of `select`. -/
theorem not_failed_concat (h : .select .failed ∉ t) (r : CallResult Nat) :
    .select .failed ∉ t ++ [.call r] := by
  rw [List.mem_append, not_or]
  exact ⟨h, fun h => (nomatch List.mem_singleton.mp h)⟩

/-- Where no `select` fails there is nothing to ask. -/
theorem selectFailsLate_of_not_mem (h : .select .failed ∉ t) : SelectFailsLate t := by
  rintro pre post rfl
  exact absurd (List.mem_append_right pre List.mem_cons_self) h

/-- The one failure is at the end. -/
theorem selectFailsLate_concat (h : .select .failed ∉ t) :
    SelectFailsLate (t ++ [.select .failed]) ↔ ∃ pre, t = pre ++ [.call .again] := by
  constructor
  · exact fun hlate => hlate t [] rfl
  · intro hpre pre post heq
    have hsame : t = pre := by
      rcases List.append_eq_append_iff.mp heq with ⟨a, ha, hb⟩ | ⟨c, hc, hd⟩
      · cases a with
        | nil => rw [ha, List.append_nil]
        | cons x a =>
          have hlen := congrArg List.length hb
          simp at hlen
      · cases c with
        | nil => rw [hc, List.append_nil]
        | cons x c =>
          rw [List.cons_append] at hd
          injection hd with hx
          rw [hc, ← hx] at h
          exact absurd (by simp) h
    rw [← hsame]
    exact hpre

/-- A loop in which `select` has failed, behind calls of which none has come to nothing. -/
theorem selectFailsLate_rounds {last : Option (CallResult α)} (h : Rounds t' last)
    (hpre : .select .failed ∉ t) (hend : ∀ pre, t ≠ pre ++ [.call .again]) :
    SelectFailsLate (t ++ t' ++ [.select .failed]) ↔ last = some .again := by
  have hmem : .select .failed ∉ t ++ t' := by
    rw [List.mem_append, not_or]
    exact ⟨hpre, h.idle.not_failed⟩
  rw [selectFailsLate_concat hmem]
  cases h with
  | none =>
    rw [List.append_nil]
    exact iff_of_false (fun ⟨pre, heq⟩ => hend pre heq) (fun h => (nomatch h))
  | @again t₁ _ => exact iff_of_true ⟨t ++ t₁, (List.append_assoc _ _ _).symm⟩ rfl

end Failures

section Reports

variable {K : Kernel S} {s : IrdaSocket} {fuel : Nat} {w w' : S} {t : List KernelEvent}

/-- A loop that does not end with a failed `select` has none. -/
theorem SelectEnds.not_failed {call : S → CallResult α × S} {size : α → Nat} {r : SelectResult}
    {last : Option (CallResult α)} (h : SelectEnds call size r last t) (hr : r ≠ .failed) :
    .select .failed ∉ t := by
  cases h with
  | called _ hidle hsel =>
    simp only [List.mem_append, List.mem_singleton, reduceCtorEq, or_false, not_or]
    exact ⟨hidle.not_failed, hsel.not_failed⟩
  | timedOut hrounds hsel =>
    rw [List.mem_append, not_or]
    refine ⟨hrounds.idle.not_failed, fun hmem => ?_⟩
    cases hsel _ hmem
  | failed => exact absurd rfl hr

/-- **What a read can come to**: an answer, a failure of `select` that passes for one, or
a failure that is reported. -/
inductive ReadEnds (size : Nat) : ReadOutcome → List KernelEvent → Prop
  | answered {pre : List KernelEvent} {bytes : List UInt8} : bytes.length ≤ size → CameToNothing pre →
      ReadEnds size ⟨0, false, bytes.length, bytes⟩ (pre ++ [.call (.count bytes.length)])
  | select : ReadEnds size ⟨0, false, 0, []⟩ [.select .failed]
  | reported {o : ReadOutcome} {t : List KernelEvent} : (o.ret = 0 → o.timeout = true) →
      (∀ n, .call (.count n) ∉ t) → SelectFailsLate t → (.select .failed ∈ t → o.ret = -1) →
      ReadEnds size o t

/-- No call of a round returned a count. -/
theorem Rounds.not_count {last : Option (CallResult α)} (h : Rounds t last) (n : Nat) :
    .call (.count n) ∉ t := h.idle.not_count

/-- A call that would have blocked, or none, is no answer. -/
theorem readEnds_of_rounds {size : Nat} {last : Option (CallResult (List UInt8))}
    (hrounds : Rounds t last) : ReadEnds size (readOutcome size .failed last)
      (t ++ [.select .failed]) := by
  have hlate := selectFailsLate_rounds hrounds List.not_mem_nil fun pre h =>
    List.append_ne_nil_of_right_ne_nil pre (List.cons_ne_nil _ _) h.symm
  cases hrounds with
  | none => exact .select
  | @again t hidle =>
    refine .reported (fun h => (nomatch h)) ?_ (hlate.mpr rfl) fun _ => rfl
    intro n hmem
    rcases List.mem_append.mp hmem with hmem | hmem
    · exact (Rounds.again (α := List UInt8) hidle).not_count n hmem
    · cases List.mem_singleton.mp hmem

/-- What the loop ends with is an end of reading. -/
theorem SelectEnds.readEnds {size : Nat} {r : SelectResult}
    {last : Option (CallResult (List UInt8))}
    (h : SelectEnds (K.recv · size) List.length r last t) :
    ReadEnds size (readOutcome size r last) t := by
  cases h with
  | failed hrounds => exact readEnds_of_rounds hrounds
  | @timedOut t sel last hrounds hsel =>
    have hloop : SelectEnds (K.recv · size) List.length .timedOut last (t ++ sel) :=
      .timedOut hrounds hsel
    have hnot := hloop.not_failed fun h => (nomatch h)
    refine .reported ?_ ?_ (selectFailsLate_of_not_mem hnot) fun hmem => absurd hmem hnot
    · intro _
      cases last with
      | none => rfl
      | some r => cases r <;> rfl
    · intro n hmem
      rcases List.mem_append.mp hmem with hmem | hmem
      · exact hrounds.not_count n hmem
      · cases hsel _ hmem
  | @called t sel _ _ r hcall hidle hsel =>
    have hpre := hidle.append hsel
    rw [← List.append_assoc]
    -- the other two answers are failures
    have hfails : ∀ c : CallResult Nat, (∀ n, c ≠ .count n) →
        ReadEnds size ⟨-1, false, size, []⟩ (t ++ sel ++ [.call c]) := by
      intro c hc
      have hnot : .select .failed ∉ t ++ sel ++ [.call c] :=
        not_failed_concat hpre.not_failed c
      refine .reported (fun h => (nomatch h)) ?_ (selectFailsLate_of_not_mem hnot) fun hmem =>
        absurd hmem hnot
      intro n hmem
      rcases List.mem_append.mp hmem with hmem | hmem
      · exact hpre.not_count hmem
      · exact hc n (KernelEvent.call.inj (List.mem_singleton.mp hmem)).symm
    cases r with
    | count bytes => exact .answered (K.recv_le hcall) hpre
    | again => exact hfails .again fun n h => (nomatch h)
    | failed => exact hfails .failed fun n h => (nomatch h)

/-- **How a read ends**, with the trace that it leaves. -/
theorem irdaSocketRead_ends {size : Nat} {o : ReadOutcome}
    (h : K.irdaSocketRead s fuel size w = some (o, t, w')) : ReadEnds size o t := by
  rw [Kernel.irdaSocketRead] at h
  split at h
  · cases h
    exact .reported (fun h => (nomatch h)) (fun n hmem => (nomatch hmem))
      (selectFailsLate_of_not_mem List.not_mem_nil) fun hmem => (nomatch hmem)
  split at h
  case h_1 => cases h
  case h_2 r st hloop =>
    cases h
    obtain ⟨t, htrace, hends⟩ := selectLoop_ends hloop
    rw [htrace, List.nil_append]
    exact hends.readEnds

/-- The bare failure of `select`. -/
theorem not_selectFailsLate : ¬SelectFailsLate [.select .failed] := by
  intro h
  obtain ⟨pre, hpre⟩ := h [] [] rfl
  exact List.append_ne_nil_of_right_ne_nil pre (List.cons_ne_nil _ _) hpre.symm

/-- **When a read reports its failures.** -/
theorem ReadEnds.reports_iff {size : Nat} {o : ReadOutcome} (h : ReadEnds size o t) :
    ReadReports o t ↔ SelectFailsLate t := by
  cases h with
  | @answered pre bytes hle hidle =>
    have hnot : .select .failed ∉ pre ++ [.call (.count bytes.length)] :=
      not_failed_concat hidle.not_failed _
    exact iff_of_true
      ⟨fun _ _ => List.mem_append_right _ (List.mem_singleton_self _), fun hmem => absurd hmem hnot⟩
      (selectFailsLate_of_not_mem hnot)
  | select =>
    refine iff_of_false (fun hreports => ?_) not_selectFailsLate
    cases hreports.select (List.mem_singleton_self _)
  | reported hfails hcount hlate hselect =>
    refine iff_of_true ⟨fun hret htimeout => ?_, hselect⟩ hlate
    rw [hfails hret] at htimeout
    cases htimeout

/-- **The invariant of the writing loop.** -/
structure Accepting (data : List UInt8) (st : WriteState S) : Prop where
  nbytes : st.nbytes = accepted st.trace
  le : st.nbytes ≤ data.length
  not_zero : .call (.count 0) ∉ st.trace
  not_failed : .select .failed ∉ st.trace
  not_again : ∀ pre, st.trace ≠ pre ++ [.call .again]

/-- Nothing has been written. -/
theorem Accepting.start (data : List UInt8) (w : S) : Accepting data ⟨w, 0, []⟩ where
  nbytes := rfl
  le := Nat.zero_le _
  not_zero := List.not_mem_nil
  not_failed := List.not_mem_nil
  not_again pre h := List.append_ne_nil_of_right_ne_nil pre (List.cons_ne_nil _ _) h.symm

/-- What has been sent is a part of what was to be sent. -/
theorem SelectEnds.count {data : List UInt8} {r : SelectResult} {n : Nat}
    (h : SelectEnds (K.send · data) id r (some (.count n)) t) :
    r = .ready ∧ n ≤ data.length ∧ accepted t = n ∧
      ∃ pre, CameToNothing pre ∧ t = pre ++ [.call (.count n)] := by
  have hrounds : ∀ {t}, ¬Rounds t (some (.count n) : Option (CallResult Nat)) := by
    rintro _ ⟨⟩
  cases h with
  | @called t sel w _ _ hcall hidle hsel =>
    refine ⟨rfl, K.send_le hcall, ?_, t ++ sel, hidle.append hsel, (List.append_assoc _ _ _).symm⟩
    rw [accepted_append, accepted_append, hidle.accepted, hsel.accepted, Nat.zero_add, Nat.zero_add]
    rfl
  | timedOut h => exact absurd h hrounds
  | failed h => exact absurd h hrounds

/-- A pass that goes on has written a part. -/
theorem writePass_next {data : List UInt8} {st st' : WriteState S} (h : Accepting data st)
    (hpass : writePass K s fuel data st = .next st') : Accepting data st' := by
  rw [writePass] at hpass
  split at hpass
  case isFalse => cases hpass
  case isTrue hlt =>
    split at hpass
    case h_1 => cases hpass
    case h_2 r ss hloop =>
      obtain ⟨t, htrace, hends⟩ := selectLoop_ends hloop
      split at hpass
      case h_3 n hzero hlast =>
        -- the only pass that goes on is one in which `send` has taken some bytes
        cases hpass
        rw [hlast] at hends
        obtain ⟨rfl, hle, haccepted, pre, hidle, rfl⟩ := hends.count
        have hnot := hends.not_failed fun hr => (nomatch hr)
        rw [List.length_drop] at hle
        refine ⟨?_, ?_, ?_, ?_, ?_⟩
        · show st.nbytes + n = accepted ss.trace
          rw [htrace, accepted_append, haccepted, h.nbytes]
        · show st.nbytes + n ≤ data.length
          omega
        · show _ ∉ ss.trace
          rw [htrace]
          intro hmem
          rcases List.mem_append.mp hmem with hmem | hmem
          · exact h.not_zero hmem
          · rcases List.mem_append.mp hmem with hmem | hmem
            · exact hidle.not_count hmem
            · cases List.mem_singleton.mp hmem
              exact hzero rfl
        · show _ ∉ ss.trace
          rw [htrace, List.mem_append, not_or]
          exact ⟨h.not_failed, hnot⟩
        -- the trace now ends in this `send`
        · intro pre' heq
          have hend := congrArg List.getLast? (htrace.symm.trans heq)
          rw [← List.append_assoc, List.getLast?_concat, List.getLast?_concat] at hend
          cases hend
      all_goals cases hpass

/-- **What a write can come to**: everything is sent, a `send` takes nothing, a failure of
`select` passes for one that does, or a failure is reported. -/
inductive WriteEnds (size : Nat) : WriteOutcome → List KernelEvent → Prop
  | complete {t : List KernelEvent} : accepted t = size → .call (.count 0) ∉ t →
      .select .failed ∉ t → WriteEnds size ⟨0, false, accepted t⟩ t
  | zero {t : List KernelEvent} : accepted t < size → .select .failed ∉ t →
      WriteEnds size ⟨0, false, accepted t⟩ (t ++ [.call (.count 0)])
  | select {t : List KernelEvent} : accepted t < size → .select .failed ∉ t →
      (∀ pre, t ≠ pre ++ [.call .again]) →
      WriteEnds size ⟨0, false, accepted t⟩ (t ++ [.select .failed])
  | reported {o : WriteOutcome} {t : List KernelEvent} : (o.ret = 0 → o.timeout = true) →
      SelectFailsLate t → (.select .failed ∈ t → o.ret = -1) → WriteEnds size o t

/-- The select loop that ends the writing loop without a call that has failed. -/
theorem writeEnds_none {data : List UInt8} {st : WriteState S} (h : Accepting data st)
    (hlt : st.nbytes < data.length) {rest : List UInt8} {r : SelectResult}
    (hends : SelectEnds (K.send · rest) id r none t) :
    WriteEnds data.length ⟨0, r = .timedOut, st.nbytes⟩ (st.trace ++ t) := by
  have hloop := hends
  cases hends with
  | @timedOut t sel _ hrounds hsel =>
    have hnot : .select .failed ∉ st.trace ++ (t ++ sel) := by
      rw [List.mem_append, not_or]
      exact ⟨h.not_failed, hloop.not_failed fun h => (nomatch h)⟩
    exact .reported (fun _ => rfl) (selectFailsLate_of_not_mem hnot) fun hmem => absurd hmem hnot
  | failed hrounds =>
    cases hrounds with
    | none =>
      rw [h.nbytes] at hlt ⊢
      exact .select hlt h.not_failed h.not_again

/-- A `send` that takes nothing ends the loop. -/
theorem writeEnds_zero {data : List UInt8} {st : WriteState S} (h : Accepting data st)
    (hlt : st.nbytes < data.length) {rest : List UInt8} {r : SelectResult}
    (hends : SelectEnds (K.send · rest) id r (some (.count 0)) t) :
    WriteEnds data.length ⟨0, r = .timedOut, st.nbytes⟩ (st.trace ++ t) := by
  obtain ⟨rfl, -, -, pre, hidle, rfl⟩ := hends.count
  have haccepted : st.nbytes = accepted (st.trace ++ pre) := by
    rw [accepted_append, hidle.accepted, h.nbytes]
    rfl
  rw [haccepted] at hlt ⊢
  rw [← List.append_assoc]
  refine .zero hlt ?_
  rw [List.mem_append, not_or]
  exact ⟨h.not_failed, hidle.not_failed⟩

/-- So does one that fails. -/
theorem writeEnds_failed {data : List UInt8} {st : WriteState S} (h : Accepting data st)
    {rest : List UInt8} {r : SelectResult} {last : CallResult Nat} (hlast : ∀ n, last ≠ .count n)
    (hends : SelectEnds (K.send · rest) id r (some last) t) :
    WriteEnds data.length ⟨-1, r = .timedOut, st.nbytes⟩ (st.trace ++ t) := by
  refine .reported (fun h => (nomatch h)) ?_ fun _ => rfl
  by_cases hr : r = .failed
  · subst hr
    cases hends with
    | failed hrounds =>
      rw [← List.append_assoc]
      rw [selectFailsLate_rounds hrounds h.not_failed h.not_again]
      cases hrounds
      rfl
  · apply selectFailsLate_of_not_mem
    rw [List.mem_append, not_or]
    exact ⟨h.not_failed, hends.not_failed hr⟩

/-- The pass that ends the writing loop. -/
theorem writePass_stop {data : List UInt8} {st : WriteState S} (h : Accepting data st)
    {o : WriteOutcome} (hpass : writePass K s fuel data st = .stop (some (o, t, w'))) :
    WriteEnds data.length o t := by
  rw [writePass] at hpass
  split at hpass
  -- nothing is left to send
  case isFalse hle =>
    cases hpass
    have hall : accepted st.trace = data.length :=
      h.nbytes.symm.trans (Nat.le_antisymm h.le (Nat.le_of_not_lt hle))
    rw [h.nbytes]
    exact .complete hall h.not_zero h.not_failed
  case isTrue hlt =>
    split at hpass
    case h_1 => cases hpass
    case h_2 r ss hloop =>
      obtain ⟨t, htrace, hends⟩ := selectLoop_ends hloop
      -- by what the last `send` has returned
      split at hpass
      case h_1 hlast =>
        cases hpass
        rw [hlast] at hends
        rw [htrace]
        exact writeEnds_none h hlt hends
      case h_2 hlast =>
        cases hpass
        rw [hlast] at hends
        rw [htrace]
        exact writeEnds_zero h hlt hends
      case h_3 => cases hpass
      case h_4 hlast =>
        cases hpass
        rw [hlast] at hends
        rw [htrace]
        exact writeEnds_failed h (fun _ hn => by cases hn) hends
      case h_5 hlast =>
        cases hpass
        rw [hlast] at hends
        rw [htrace]
        exact writeEnds_failed h (fun _ hn => by cases hn) hends

/-- **How a write ends**, with the trace that it leaves. -/
theorem irdaSocketWrite_ends {data : List UInt8} {o : WriteOutcome}
    (h : K.irdaSocketWrite s fuel data w = some (o, t, w')) : WriteEnds data.length o t := by
  rw [Kernel.irdaSocketWrite] at h
  split at h
  · cases h
    exact .reported (fun h => (nomatch h)) (selectFailsLate_of_not_mem List.not_mem_nil) fun hmem =>
      (nomatch hmem)
  split at h
  case h_2 => cases h
  case h_1 r hiter =>
    subst h
    refine (iterate_stop_returns hiter).invariant (I := Accepting data)
      (Q := fun r => ∀ o t w', r = some (o, t, w') → WriteEnds data.length o t) ?_ ?_
      (Accepting.start data w) o t w' rfl
    · exact fun st st' hst hnext => writePass_next hst hnext
    · rintro st _ hst hstop o t w' rfl
      exact writePass_stop hst hstop

/-- **When a write reports its failures.** -/
theorem WriteEnds.reports_iff {size : Nat} {o : WriteOutcome} (h : WriteEnds size o t) :
    WriteReports size o t ↔ SelectFailsLate t := by
  cases h with
  | complete hall hzero hnot =>
    exact iff_of_true ⟨fun _ _ => ⟨.inl hall, rfl⟩, fun hmem => absurd hmem hnot⟩
      (selectFailsLate_of_not_mem hnot)
  | @zero t hlt hnot =>
    have hnot' : .select .failed ∉ t ++ [.call (.count 0)] := not_failed_concat hnot _
    refine iff_of_true ⟨fun _ _ => ⟨.inr ?_, ?_⟩, fun hmem => absurd hmem hnot'⟩
      (selectFailsLate_of_not_mem hnot')
    · exact List.mem_append_right _ (List.mem_singleton_self _)
    · rw [accepted_append]
      rfl
  -- the failure passes for a `send` that takes nothing
  | select hlt hnot hend =>
    refine iff_of_false (fun hreports => ?_) ?_
    · cases hreports.select (List.mem_append_right _ (List.mem_singleton_self _))
    · rw [selectFailsLate_concat hnot]
      exact fun ⟨pre, hpre⟩ => hend pre hpre
  | reported hfails hlate hselect =>
    refine iff_of_true ⟨fun hret htimeout => ?_, hselect⟩ hlate
    rw [hfails hret] at htimeout
    cases htimeout

/-- **Reading and writing report their failures** exactly if each `select` that fails comes
right behind a call that would have blocked; otherwise the failure passes for a call that
has transferred nothing. -/
theorem irdaSocket_reportsFailures_iff (K : Kernel S) (s : IrdaSocket) (fuel : Nat) :
    (∀ size w o t w', K.irdaSocketRead s fuel size w = some (o, t, w') →
      (ReadReports o t ↔ SelectFailsLate t)) ∧
    (∀ data w o t w', K.irdaSocketWrite s fuel data w = some (o, t, w') →
      (WriteReports data.length o t ↔ SelectFailsLate t)) :=
  ⟨fun _ _ _ _ _ h => (irdaSocketRead_ends h).reports_iff,
    fun _ _ _ _ _ h => (irdaSocketWrite_ends h).reports_iff⟩

end Reports

/-! ### Short counts -/

section Counts

variable {t : List KernelEvent} {size : Nat}

/-- A read has been answered, or seems to. -/
def ReadAnswered (t : List KernelEvent) : Prop := (∃ n, .call (.count n) ∈ t) ∨ ¬SelectFailsLate t

/-- A read reports success without a timeout if it has been answered. -/
theorem ReadEnds.answered_iff {o : ReadOutcome} (h : ReadEnds size o t) :
    o.ret = 0 ∧ o.timeout = false ↔ ReadAnswered t := by
  cases h with
  | answered =>
    exact iff_of_true ⟨rfl, rfl⟩ (.inl ⟨_, List.mem_append_right _ (List.mem_singleton_self _)⟩)
  | select => exact iff_of_true ⟨rfl, rfl⟩ (.inr not_selectFailsLate)
  | reported hfails hcount hlate =>
    refine iff_of_false ?_ ?_
    · intro ⟨hret, htimeout⟩
      rw [hfails hret] at htimeout
      cases htimeout
    · rintro (⟨n, hmem⟩ | hnot)
      · exact hcount n hmem
      · exact hnot hlate

/-- **How long an answer is.** -/
theorem ReadEnds.length_data {o : ReadOutcome} (h : ReadEnds size o t) (hanswered : ReadAnswered t) :
    o.data.length = accepted t ∧ accepted t ≤ size ∧
      (accepted t = size ↔
        (∀ n, .call (.count n) ∈ t → n = size) ∧ (SelectFailsLate t ∨ size = 0)) := by
  cases h with
  | @answered pre bytes hle hidle =>
    have haccepted : accepted (pre ++ [.call (.count bytes.length)]) = bytes.length := by
      rw [accepted_append, hidle.accepted, Nat.zero_add]
      rfl
    have hnot : .select .failed ∉ pre ++ [.call (.count bytes.length)] :=
      not_failed_concat hidle.not_failed _
    refine ⟨haccepted.symm, haccepted.le.trans hle, ?_⟩
    rw [haccepted]
    constructor
    · intro heq
      refine ⟨fun n hmem => ?_, .inl (selectFailsLate_of_not_mem hnot)⟩
      rcases List.mem_append.mp hmem with hmem | hmem
      · exact absurd hmem hidle.not_count
      · cases List.mem_singleton.mp hmem
        exact heq
    -- the only count in the trace is that of the answer
    · intro ⟨hcount, _⟩
      exact hcount _ (List.mem_append_right _ (List.mem_singleton_self _))
  | select =>
    refine ⟨rfl, Nat.zero_le size, ?_⟩
    constructor
    · rintro rfl
      exact ⟨fun n hmem => (nomatch List.mem_singleton.mp hmem), .inr rfl⟩
    · intro ⟨_, hlate⟩
      exact (hlate.resolve_left not_selectFailsLate).symm
  | reported hfails hcount hlate =>
    rcases hanswered with ⟨n, hmem⟩ | hnot
    · exact absurd hmem (hcount n)
    · exact absurd hlate hnot

/-- **The end of the stream is a success** with no bytes. -/
theorem ReadEnds.endOfStream {o : ReadOutcome} (h : ReadEnds size o t)
    (hend : .call (.count 0) ∈ t) : o = ⟨0, false, 0, []⟩ := by
  cases h with
  | @answered pre bytes hle hidle =>
    rcases List.mem_append.mp hend with hmem | hmem
    · exact absurd hmem hidle.not_count
    · have hlen : 0 = bytes.length :=
        CallResult.count.inj (KernelEvent.call.inj (List.mem_singleton.mp hmem))
      rw [List.length_eq_zero_iff.mp hlen.symm]
      rfl
  | select => rfl
  | reported _ hcount => exact absurd hend (hcount 0)

/-- **How much a write sends** that reports no failure. -/
theorem WriteEnds.accepted_iff {o : WriteOutcome} (h : WriteEnds size o t) (hret : o.ret = 0)
    (htimeout : o.timeout = false) :
    accepted t = size ↔ .call (.count 0) ∉ t ∧ SelectFailsLate t := by
  cases h with
  | complete hall hzero hnot => exact iff_of_true hall ⟨hzero, selectFailsLate_of_not_mem hnot⟩
  | zero hlt hnot =>
    refine iff_of_false ?_ fun h => h.1 (List.mem_append_right _ (List.mem_singleton_self _))
    rw [accepted_append]
    exact hlt.ne
  | select hlt hnot hend =>
    refine iff_of_false ?_ fun h => ?_
    · rw [accepted_append]
      exact hlt.ne
    · obtain ⟨pre, hpre⟩ := (selectFailsLate_concat hnot).mp h.2
      exact hend pre hpre
  | reported hfails =>
    rw [hfails hret] at htimeout
    cases htimeout

end Counts

/-- A kernel in which `select` fails. -/
def selectFailsKernel : Kernel Unit where
  clock _ := (0, ())
  select _ _ _ := (.failed, ())
  recv _ _ := (.failed, ())
  send _ _ := (.failed, ())
  recv_le h := nomatch h
  send_le h := nomatch h

/-- A read and a write succeed although `select` has failed, and nothing has been
received or sent. -/
theorem not_reportsFailures_select :
    ¬∀ (K : Kernel Unit) (s : IrdaSocket) (fuel : Nat), 0 < s.timeout →
      (∀ size w o t w', K.irdaSocketRead s fuel size w = some (o, t, w') → ReadReports o t) ∧
      (∀ data w o t w', K.irdaSocketWrite s fuel data w = some (o, t, w') →
        WriteReports data.length o t) := by
  intro h
  obtain ⟨hread, -⟩ := h selectFailsKernel ⟨3, 2000⟩ 1 (by decide)
  have hreports := hread 4 () ⟨0, false, 0, []⟩ [.select .failed] () (by rfl)
  have hret := hreports.select (List.mem_singleton_self _)
  cases hret

end BenthosDc

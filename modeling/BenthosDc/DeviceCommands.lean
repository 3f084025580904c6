/-
BenthosDc/DeviceCommands.lean

Commands of a Smart device, down to the system calls (`smart_io.c`, `smartid_device.c`).

The two implementations of `smart_driver_cmd` differ in their error codes only.  Neither
looks at the counts that come back through the lengths: a command that has been cut short
is followed by a read, and an answer that has been cut short is an answer.

* `smartDriverCmd_allOrNothing_iff`: when a command is all or nothing.
* `driverCmd_kernel`, `smartDriverCmd_kernel`: the commands of the local driver and of the
  daemon are these.

The kernel hands back how many bytes it has taken or given, and the socket functions pass that
on through their length parameter.  `Undivided` is the condition on these counts under which
the protocol of the device, in which a command is taken as a whole and answered as a whole, is
met.
-/
import BenthosDc.IrdaKernel
import BenthosDc.SmartTransfers

namespace BenthosDc

open Hoare Lifetime Loop

variable {S : Type}

/-! ### A command -/

/-- The return values of a command that fails. -/
structure CmdCodes where
  write : Int
  read : Int
  timeout : Int

/-- What a command comes to: the return value 0 with the memory of the answer, or an error;
the calls of the write and of the read, and the bytes that were read. -/
structure CommandRun (S : Type) where
  result : Except Int (List UInt8)
  sent : List KernelEvent
  received : List KernelEvent
  data : List UInt8
  world : S

/-- The part of `smart_driver_cmd` behind the null checks.  `ans` is what the memory for the
answer holds before. -/
def Kernel.command (K : Kernel S) (s : IrdaSocket) (codes : CmdCodes) (fuel : Nat)
    (cmd ans : List UInt8) (w : S) : Option (CommandRun S) :=
  match K.irdaSocketWrite s fuel cmd w with
  | none => none
  | some (o, t, w) =>
    if o.ret ≠ 0 then some ⟨.error codes.write, t, [], [], w⟩
    else if o.timeout then some ⟨.error codes.timeout, t, [], [], w⟩
    else
      match K.irdaSocketRead s fuel ans.length w with
      | none => none
      | some (o, t', w) =>
        if o.ret ≠ 0 then some ⟨.error codes.read, t, t', o.data, w⟩
        else if o.timeout then some ⟨.error codes.timeout, t, t', o.data, w⟩
        else some ⟨.ok (received o.data ans), t, t', o.data, w⟩

/-- `smart_driver_cmd` of the local driver -/
def Kernel.localCmd (K : Kernel S) (s : IrdaSocket) :
    Nat → List UInt8 → List UInt8 → S → Option (CommandRun S) :=
  K.command s ⟨driverErrWrite, driverErrRead, driverErrTimeout⟩

/-- `smart_driver_cmd` of the daemon -/
def Kernel.daemonCmd (K : Kernel S) (s : IrdaSocket) :
    Nat → List UInt8 → List UInt8 → S → Option (CommandRun S) :=
  K.command s ⟨smartiErrorIo, smartiErrorIo, smartiErrorTimeout⟩

/-! ### All or nothing -/

/-- A command that succeeds has been sent whole, and its whole answer is in the memory. -/
def AllOrNothing (cmd ans : List UInt8) (r : CommandRun S) : Prop :=
  ∀ a, r.result = .ok a →
    accepted r.sent = cmd.length ∧ accepted r.received = ans.length ∧ a = r.data

/-- If the read is answered, no `send` has taken nothing, the answer has `n` bytes, and no
failure of `select` has passed for a transfer. -/
def Undivided (n : Nat) (sent received : List KernelEvent) : Prop :=
  ReadAnswered received →
    (.call (.count 0) ∉ sent ∧ SelectFailsLate sent) ∧
    (∀ k, .call (.count k) ∈ received → k = n) ∧ (SelectFailsLate received ∨ n = 0)

section Command

variable {K : Kernel S} {s : IrdaSocket} {codes : CmdCodes} {fuel : Nat} {cmd ans : List UInt8}
  {w : S} {r : CommandRun S}

/-- An answer has to be read. -/
theorem not_answered_nil : ¬ReadAnswered [] := by
  rintro (⟨n, hmem⟩ | hnot)
  · cases hmem
  · exact hnot (selectFailsLate_of_not_mem List.not_mem_nil)

/-- Nothing is promised of a command that fails without an answer. -/
theorem allOrNothing_error {rc : Int} {t t' : List KernelEvent} {data : List UInt8} {w : S}
    (h : ¬ReadAnswered t') :
    AllOrNothing cmd ans ⟨.error rc, t, t', data, w⟩ ↔ Undivided ans.length t t' :=
  iff_of_true (fun _ ha => nomatch ha) fun ha => absurd ha h

/-- **A command is all or nothing** exactly if the kernel divides neither it nor its answer. -/
theorem command_allOrNothing_iff (h : K.command s codes fuel cmd ans w = some r) :
    AllOrNothing cmd ans r ↔ Undivided ans.length r.sent r.received := by
  rw [Kernel.command] at h
  split at h
  case h_1 => cases h
  case h_2 o t w₁ hwrite =>
    split at h
    case isTrue =>
      cases h
      exact allOrNothing_error not_answered_nil
    case isFalse hret =>
    split at h
    case isTrue =>
      cases h
      exact allOrNothing_error not_answered_nil
    case isFalse htimeout =>
    -- from here on the write has returned 0
    have hsent := (irdaSocketWrite_ends hwrite).accepted_iff (not_not.mp hret)
      (Bool.eq_false_of_not_eq_true htimeout)
    split at h
    case h_1 => cases h
    case h_2 o' t' w₂ hread =>
      have hends := irdaSocketRead_ends hread
      have hanswered := hends.answered_iff
      split at h
      case isTrue hret' =>
        cases h
        exact allOrNothing_error fun ha => hret' (hanswered.mpr ha).1
      case isFalse hret' =>
      split at h
      case isTrue htimeout' =>
        cases h
        refine allOrNothing_error fun ha => ?_
        rw [(hanswered.mpr ha).2] at htimeout'
        cases htimeout'
      case isFalse htimeout' =>
        cases h
        -- the read has returned 0 as well, and the command with it
        have ha := hanswered.mp ⟨not_not.mp hret', Bool.eq_false_of_not_eq_true htimeout'⟩
        obtain ⟨hdata, -, hwhole⟩ := hends.length_data ha
        constructor
        · intro hall _
          obtain ⟨hcmd, hans, -⟩ := hall _ rfl
          exact ⟨hsent.mp hcmd, hwhole.mp hans⟩
        · intro hundivided a heq
          obtain ⟨hcmd, hans⟩ := hundivided ha
          have hlen : accepted t' = ans.length := hwhole.mpr hans
          refine ⟨hsent.mpr hcmd, hlen, ?_⟩
          rw [← Except.ok.inj heq]
          exact received_of_length (hdata.trans hlen)

end Command

/-- **When a command is all or nothing**, for both implementations: exactly if no read is
answered behind a `send` that took nothing, with fewer bytes than the answer has, or, for
all the caller can see, by a `select` that failed. -/
theorem smartDriverCmd_allOrNothing_iff (K : Kernel S) (s : IrdaSocket) (fuel : Nat)
    (cmd ans : List UInt8) (w : S) :
    (∀ r, K.localCmd s fuel cmd ans w = some r →
      (AllOrNothing cmd ans r ↔ Undivided ans.length r.sent r.received)) ∧
    (∀ r, K.daemonCmd s fuel cmd ans w = some r →
      (AllOrNothing cmd ans r ↔ Undivided ans.length r.sent r.received)) :=
  ⟨fun _ h => command_allOrNothing_iff h, fun _ h => command_allOrNothing_iff h⟩

/-- A device whose answers arrive byte by byte. -/
def byteKernel : Kernel Unit where
  clock _ := (0, ())
  select _ _ _ := (.ready, ())
  recv _ n := (.count (List.replicate (min n 1) 7), ())
  send _ bytes := (.count bytes.length, ())
  recv_le h := by
    cases h
    rw [List.length_replicate]
    exact Nat.min_le_left _ _
  send_le h := by
    cases h
    exact le_rfl

/-- The ticks of the device are asked for: the first byte of four is taken for the answer. -/
theorem not_allOrNothing_ticks :
    ¬∀ (K : Kernel Unit) (s : IrdaSocket) (fuel : Nat) (cmd ans : List UInt8) (w : Unit),
      (∀ r, K.localCmd s fuel cmd ans w = some r → AllOrNothing cmd ans r) ∧
      (∀ r, K.daemonCmd s fuel cmd ans w = some r → AllOrNothing cmd ans r) := by
  intro h
  obtain ⟨hlocal, -⟩ := h byteKernel ⟨3, 2000⟩ 1 [0x1a] [0, 0, 0, 0] ()
  obtain ⟨-, hreceived, -⟩ := hlocal ⟨.ok [7, 0, 0, 0],
    [.select .ready, .call (.count 1)], [.select .ready, .call (.count 1)], [7], ()⟩
    rfl [7, 0, 0, 0] rfl
  exact absurd hreceived (by decide)

/-! ### The socket of the drivers -/

/-- The result of a read, as the drivers tell it. -/
def ReadOutcome.result (o : ReadOutcome) : IoResult (List UInt8) :=
  if o.ret ≠ 0 then .failed else if o.timeout then .timedOut else .done o.data

/-- The result of a write, as the drivers tell it. -/
def WriteOutcome.result (o : WriteOutcome) : IoResult Nat :=
  if o.ret ≠ 0 then .failed else if o.timeout then .timedOut else .done o.size

/-- The socket `s` of the kernel is behind the operations: each of them comes back within
`fuel` passes. -/
structure Irda.RunsOn (W : Irda S) (K : Kernel S) (s : IrdaSocket) (fuel : Nat) : Prop where
  write : ∀ w data, ∃ o t w', K.irdaSocketWrite s fuel data w = some (o, t, w') ∧
    W.write w data = (o.result, w')
  read : ∀ w n, ∃ o t w', K.irdaSocketRead s fuel n w = some (o, t, w') ∧
    W.read w n = (o.result, w')

section RunsOn

variable {W : Irda S} {K : Kernel S} {s : IrdaSocket} {fuel : Nat}

/-- **Where the stream has ended**, a read is a success with no bytes. -/
theorem Irda.RunsOn.read_endOfStream (hW : W.RunsOn K s fuel) {w w' : S} {n : Nat}
    {o : ReadOutcome} {t : List KernelEvent}
    (h : K.irdaSocketRead s fuel n w = some (o, t, w')) (hend : .call (.count 0) ∈ t) :
    W.read w n = (.done [], w') := by
  obtain ⟨o', t', w'', hread, hW⟩ := hW.read w n
  rw [h] at hread
  cases hread
  rw [hW, (irdaSocketRead_ends h).endOfStream hend]
  rfl

/-- What a driver makes of a command: `write` and `read` are the outcomes of the socket. -/
theorem command_eq (hW : W.RunsOn K s fuel) (codes : CmdCodes) (cmd ans : List UInt8) (w : S) :
    (∃ w₁ r, W.write w cmd = (.failed, w₁) ∧ K.command s codes fuel cmd ans w = some r ∧
      r.result = .error codes.write ∧ r.world = w₁) ∨
    (∃ w₁ r, W.write w cmd = (.timedOut, w₁) ∧ K.command s codes fuel cmd ans w = some r ∧
      r.result = .error codes.timeout ∧ r.world = w₁) ∨
    ∃ n w₁ res r, W.write w cmd = (.done n, w₁) ∧ W.read w₁ ans.length = (res, r.world) ∧
      K.command s codes fuel cmd ans w = some r ∧
      r.result = match res with
        | .failed => .error codes.read
        | .timedOut => .error codes.timeout
        | .done bytes => .ok (received bytes ans) := by
  -- the tests of the source in their order: the return value, then the timeout flag
  obtain ⟨o, t, w₁, hwrite, hsent⟩ := hW.write w cmd
  rw [WriteOutcome.result] at hsent
  unfold Kernel.command
  simp only [hwrite]
  by_cases hret : o.ret ≠ 0
  · rw [if_pos hret] at hsent ⊢
    exact .inl ⟨w₁, _, hsent, rfl, rfl, rfl⟩
  rw [if_neg hret] at hsent ⊢
  by_cases htimeout : o.timeout = true
  · rw [if_pos htimeout] at hsent ⊢
    exact .inr (.inl ⟨w₁, _, hsent, rfl, rfl, rfl⟩)
  rw [if_neg htimeout] at hsent ⊢
  obtain ⟨o', t', w₂, hread, hreceived⟩ := hW.read w₁ ans.length
  rw [ReadOutcome.result] at hreceived
  simp only [hread]
  right
  right
  by_cases hret' : o'.ret ≠ 0
  · rw [if_pos hret'] at hreceived ⊢
    exact ⟨o.size, w₁, _, _, hsent, hreceived, rfl, rfl⟩
  rw [if_neg hret'] at hreceived ⊢
  by_cases htimeout' : o'.timeout = true
  · rw [if_pos htimeout'] at hreceived ⊢
    exact ⟨o.size, w₁, _, _, hsent, hreceived, rfl, rfl⟩
  · rw [if_neg htimeout'] at hreceived ⊢
    exact ⟨o.size, w₁, _, _, hsent, hreceived, rfl, rfl⟩

/-- **The command of the daemon.** -/
theorem smartDriverCmd_kernel (hW : W.RunsOn K s fuel) (c : Conn S) (cmd ans : List UInt8) :
    ∃ r, K.daemonCmd s fuel cmd ans c.world = some r ∧
      (smartDriverCmd W cmd ans).run c = .ok (r.result, { c with world := r.world }) := by
  rcases command_eq hW ⟨smartiErrorIo, smartiErrorIo, smartiErrorTimeout⟩ cmd ans c.world with
    ⟨w₁, r, hwrite, hr, hresult, rfl⟩ | ⟨w₁, r, hwrite, hr, hresult, rfl⟩ |
      ⟨n, w₁, res, r, hwrite, hread, hr, hresult⟩
  · refine ⟨r, hr, run_bind_eq_ok.mpr ⟨_, _, irdaCall_run hwrite, ?_⟩⟩
    rw [hresult]
    rfl
  · refine ⟨r, hr, run_bind_eq_ok.mpr ⟨_, _, irdaCall_run hwrite, ?_⟩⟩
    rw [hresult]
    rfl
  · refine ⟨r, hr, run_bind_eq_ok.mpr ⟨_, _, irdaCall_run hwrite, ?_⟩⟩
    refine run_bind_eq_ok.mpr ⟨_, _, irdaCall_run hread, ?_⟩
    rw [hresult]
    cases res <;> rfl

end RunsOn

/-- **The command of the local driver.** -/
theorem driverCmd_kernel {H : SmartHost S} {K : Kernel S} {s : IrdaSocket} {fuel : Nat}
    (hH : H.toIrda.RunsOn K s fuel) {dev csize : Nat} {w : S} {d : Desk (SmartProc S)}
    (hd : SmartAt dev csize w d) (cmd ans : List UInt8) {E : Halt → Prop} :
    ∃ r, K.localCmd s fuel cmd ans w = some r ∧
      Triple (Smart.driverCmd H cmd ans) d
        (fun a d' => a = r.result ∧ SmartAt dev csize r.world d') E := by
  rcases command_eq hH ⟨driverErrWrite, driverErrRead, driverErrTimeout⟩ cmd ans w with
    ⟨w₁, r, hwrite, hr, hresult, rfl⟩ | ⟨w₁, r, hwrite, hr, hresult, rfl⟩ |
      ⟨n, w₁, res, r, hwrite, hread, hr, hresult⟩
  all_goals
    refine ⟨r, hr, (getDev_at hd).bind ?_⟩
    rintro a _ ⟨-, hs, rfl⟩
    rw [if_neg hs, hresult]
    apply (onSocket_at hd _ hwrite).bind
    rintro _ d₁ ⟨rfl, hd₁⟩
  · exact failWith_at hd₁ _ _ _
  · exact failWith_at hd₁ _ _ _
  · apply (onSocket_at (f := fun w => H.read w ans.length) hd₁ _ hread).bind
    rintro out d₂ ⟨rfl, hd₂⟩
    cases out with
    | failed => exact failWith_at hd₂ _ _ _
    | timedOut => exact failWith_at hd₂ _ _ _
    | done bytes => exact Triple.pure ⟨rfl, hd₂⟩

end BenthosDc

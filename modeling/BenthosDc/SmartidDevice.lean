/-
BenthosDc/SmartidDevice.lean

The operations on a Smart device (`smartid_device.c`).

An operation returns an error code or a value.  Answers are read into the
memory the caller names: an answer that is cut short leaves the rest of it as
it was.
-/
import BenthosDc.Smartid

namespace BenthosDc

open CString Hoare Lifetime Loop

variable {S α : Type} (W : Irda S)

/-! ### Commands

A command is written and its answer is read.  Each of the two may fail or time out.
-/

/-- `ans` is what the memory for the answer holds before. -/
def smartDriverCmd (cmd ans : List UInt8) : Daemon S (Except Int (List UInt8)) := do
  match ← irdaSocketWrite W cmd with
  | .failed => return .error smartiErrorIo
  | .timedOut => return .error smartiErrorTimeout
  | .done _ =>
    match ← irdaSocketRead W ans.length with
    | .failed => return .error smartiErrorIo
    | .timedOut => return .error smartiErrorTimeout
    | .done bytes => return .ok (received bytes ans)

/-- A value of one byte. -/
def smartReadUchar (cmd ans : List UInt8) : Daemon S (Except Int Nat) := do
  match ← smartDriverCmd W cmd ans with
  | .error rv => return .error rv
  | .ok ans => return .ok (octet ans 0)

/-- A value of four bytes. -/
def smartReadUlong (cmd ans : List UInt8) : Daemon S (Except Int Nat) := do
  match ← smartDriverCmd W cmd ans with
  | .error rv => return .error rv
  | .ok ans => return .ok (uint32Le ans 0)

/-- Two commands, each answered with 1. -/
def smartDriverHandshake : Daemon S Int := do
  match ← smartDriverCmd W [0x1b] (← junkBytes W 1) with
  | .error _ => return -1
  | .ok ans =>
    if octet ans 0 ≠ 1 then return -1
    else
      match ← smartDriverCmd W [0x1c, 0x10, 0x27, 0, 0] ans with
      | .error _ => return -1
      | .ok ans =>
        if octet ans 0 ≠ 1 then return -1
        else return 0

/-! ### Operations on a handle

An operation looks the structure up under its handle.  A null pointer is refused.
-/

/-- A null pointer for a null socket. -/
def smartidDevAlloc (irda : Bool) : Daemon S (Option Nat) := fun c =>
  if irda then
    .ok (some c.next, { c with
      heap := Function.update c.heap c.next (some {})
      next := c.next + 1
      events := c.events ++ [.alloc c.next] })
  else .ok (none, c)

/-- The structure is gone; its socket is not closed here. -/
def smartidDevDispose (dev : Option Nat) : Daemon S Unit := do
  match dev with
  | none => return ()
  | some h =>
    let _ ← deref h
    setHeap h none
    record (.dispose h)

/-- An operation is entered: its null check, and the structure behind the handle. -/
def withDevice (dev : Option Nat) (op : Nat → SmartDevice → Daemon S (Except Int α)) :
    Daemon S (Except Int α) := do
  match dev with
  | none => return .error smartiErrorInternal
  | some h =>
    let d ← deref h
    record (.use h)
    op h d

/-- The socket is connected and the values of the device are read. -/
def smartidDevConnect (dev : Option Nat) (addr lsap chunkSize : Nat) :
    Daemon S (Except Int Unit) :=
  withDevice dev fun h d => do
    let chunkSize := if chunkSize < 2 then 2 else chunkSize
    let chunkSize := if chunkSize > 32 then 32 else chunkSize
    let d := { d with epaddr := addr, lsap := lsap, csize := chunkSize }
    setHeap h (some d)
    match ← irdaSocketConnectLsap W addr lsap with
    | .failed => return .error smartiErrorConnect
    | .timedOut => return .error smartiErrorTimeout
    | .done _ =>
      if (← smartDriverHandshake W) ≠ 0 then return .error smartiErrorHandshake
      else
        match ← smartReadUlong W [0x1a] (uint32Bytes d.ticks) with
        | .error rv => return .error rv
        | .ok ticks =>
          let hstime := (← timeNow W) * 2
          setHeap h (some { d with ticks := ticks, tcorr := u32 (hstime + (2 ^ 32 - ticks)) })
          return .ok ()

/-- The device is asked. -/
def smartidDevModel (dev : Option Nat) : Daemon S (Except Int Nat) :=
  withDevice dev fun _ _ => do smartReadUchar W [0x10] (← junkBytes W 1)

/-- The device is asked. -/
def smartidDevSerial (dev : Option Nat) : Daemon S (Except Int Nat) :=
  withDevice dev fun _ _ => do smartReadUlong W [0x14] (← junkBytes W 4)

/-- The value has been computed when the device was connected. -/
def smartidDevTcorr (dev : Option Nat) : Daemon S (Except Int Nat) :=
  withDevice dev fun _ d => return .ok d.tcorr

/-- The value has been read when the device was connected. -/
def smartidDevTicks (dev : Option Nat) : Daemon S (Except Int Nat) :=
  withDevice dev fun _ d => return .ok d.ticks

/-- The token is stored and not sent. -/
def smartidDevSetToken (dev : Option Nat) (token : Nat) : Daemon S (Except Int Unit) :=
  withDevice dev fun h d => do
    setHeap h (some { d with token := token })
    return .ok ()

/-- The size for the stored token. -/
def smartidDevXferSize (dev : Option Nat) : Daemon S (Except Int Nat) :=
  withDevice dev fun _ d => do smartReadUlong W (tokenCmd 0xc6 d.token) (← junkBytes W 4)

/-- `free(buf)` frees the address of the caller's variable, not the buffer. -/
def freeForeign : Daemon S Unit := fun c =>
  if W.foreignFree then .ok ((), c) else .error .foreignFree

/-- The loop that reads the block, for at most `fuel` passes. -/
def readBlock (fuel csize len : Nat) : Daemon S (IoResult (List UInt8)) := fun c =>
  match iterate (readChunk W csize) fuel (c.world, [], len) with
  | .next _ => .error .pending
  | .stop (r, w) => .ok (r, { c with world := w })

/-- The part of a transfer behind the answer `nb`. -/
def receiveBlock (fuel csize nb : Nat) : Daemon S (Except Int (List UInt8)) :=
  if nb = 4 then return .error smartiStatusNoData
  else if nb < 4 then return .error smartiErrorDevice
  else do
    match ← readBlock W fuel csize (nb - 4) with
    | .failed =>
      freeForeign W
      return .error smartiErrorIo
    | .timedOut =>
      freeForeign W
      return .error smartiErrorTimeout
    | .done buf => return .ok buf

/-- The data for the stored token, with their length in front. -/
def smartidDevXferData (fuel : Nat) (dev : Option Nat) : Daemon S (Except Int (List UInt8)) :=
  withDevice dev fun _ d => do
    match ← smartReadUlong W (tokenCmd 0xc4 d.token) (← junkBytes W 4) with
    | .error rv => return .error rv
    | .ok nb => receiveBlock W fuel d.csize nb

/-! ### Runs

What the operations come to, from what the socket says.
-/

section Runs

variable {W} {c : Conn S} {h : Nat} {d : SmartDevice} {cmd ans bytes : List UInt8} {n : Nat}
  {w₁ w₂ : S}

/-- A command that is taken and answered. -/
theorem smartDriverCmd_run (hw : W.write c.world cmd = (.done n, w₁))
    (hr : W.read w₁ ans.length = (.done bytes, w₂)) :
    (smartDriverCmd W cmd ans).run c = .ok (.ok (received bytes ans), { c with world := w₂ }) := by
  refine run_bind_eq_ok.mpr ⟨_, _, irdaCall_run hw, ?_⟩
  exact run_bind_eq_ok.mpr ⟨_, _, irdaCall_run hr, rfl⟩

/-- A value that is read. -/
theorem smartReadUlong_run (hw : W.write c.world cmd = (.done n, w₁))
    (hr : W.read w₁ ans.length = (.done bytes, w₂)) :
    (smartReadUlong W cmd ans).run c =
      .ok (.ok (uint32Le (received bytes ans) 0), { c with world := w₂ }) :=
  run_bind_eq_ok.mpr ⟨_, _, smartDriverCmd_run hw hr, rfl⟩

/-- **What a command can come to**: an answer, cut short or not, or an error. -/
theorem smartDriverCmd_cases (cmd ans : List UInt8) (c : Conn S) :
    (∃ n w₁ bytes w₂, W.write c.world cmd = (.done n, w₁) ∧
      W.read w₁ ans.length = (.done bytes, w₂)) ∨
    ((∀ n w₁ bytes w₂, W.write c.world cmd = (.done n, w₁) →
        W.read w₁ ans.length ≠ (.done bytes, w₂)) ∧
      ∃ rv c', (smartDriverCmd W cmd ans).run c = .ok (.error rv, c')) := by
  rcases hw : W.write c.world cmd with ⟨_ | _ | n, w₁⟩
  · exact .inr ⟨fun _ _ _ _ h => (nomatch h),
      _, _, run_bind_eq_ok.mpr ⟨_, _, irdaCall_run hw, rfl⟩⟩
  · exact .inr ⟨fun _ _ _ _ h => (nomatch h),
      _, _, run_bind_eq_ok.mpr ⟨_, _, irdaCall_run hw, rfl⟩⟩
  -- the command has been sent, and the answer is read
  rcases hr : W.read w₁ ans.length with ⟨_ | _ | bytes, w₂⟩
  · refine .inr ⟨?_, _, _, run_bind_eq_ok.mpr ⟨_, _, irdaCall_run hw,
      run_bind_eq_ok.mpr ⟨_, _, irdaCall_run hr, rfl⟩⟩⟩
    rintro _ _ _ _ heq hread
    cases heq
    rw [hr] at hread
    cases hread
  · refine .inr ⟨?_, _, _, run_bind_eq_ok.mpr ⟨_, _, irdaCall_run hw,
      run_bind_eq_ok.mpr ⟨_, _, irdaCall_run hr, rfl⟩⟩⟩
    rintro _ _ _ _ heq hread
    cases heq
    rw [hr] at hread
    cases hread
  · exact .inl ⟨n, w₁, bytes, w₂, rfl, hr⟩

/-- An operation on a device that is there. -/
theorem withDevice_run {op : Nat → SmartDevice → Daemon S (Except Int α)}
    (hd : c.heap h = some d) :
    (withDevice (some h) op).run c = (op h d).run { c with events := c.events ++ [.use h] } := by
  show (deref h >>= fun d => record (.use h) >>= fun _ => op h d).run c = _
  rw [StateT.run_bind, deref_run hd]
  rfl

/-- Memory that has not been written holds some bytes. -/
theorem junkBytes_bind_run {n : Nat} {f : List UInt8 → Daemon S α} :
    (junkBytes W n >>= f).run c = (f ((List.range n).map (W.junk c.world))).run c := rfl

/-- With its size answered, the data is read block by block. -/
theorem smartidDevXferData_run {len : Nat} {c' : Conn S} (hd : c.heap h = some d) (fuel : Nat)
    (hlen : (smartReadUlong W (tokenCmd 0xc4 d.token) ((List.range 4).map (W.junk c.world))).run
      { c with events := c.events ++ [.use h] } = .ok (.ok len, c')) :
    (smartidDevXferData W fuel (some h)).run c = (receiveBlock W fuel d.csize len).run c' := by
  rw [smartidDevXferData, withDevice_run hd, junkBytes_bind_run]
  exact run_bind_of_ok hlen

/-- A transfer without a length. -/
theorem smartidDevXferData_run_error {rv : Int} {c' : Conn S} (hd : c.heap h = some d) (fuel : Nat)
    (hrv : (smartReadUlong W (tokenCmd 0xc4 d.token) ((List.range 4).map (W.junk c.world))).run
      { c with events := c.events ++ [.use h] } = .ok (.error rv, c')) :
    (smartidDevXferData W fuel (some h)).run c = .ok (.error rv, c') := by
  rw [smartidDevXferData, withDevice_run hd, junkBytes_bind_run]
  exact run_bind_of_ok hrv

/-- Freeing the address of a variable goes well only where C lets it. -/
theorem freeForeign_run_iff {u : Unit} {c' : Conn S} :
    (freeForeign W).run c = .ok (u, c') ↔ W.foreignFree ∧ c' = c := by
  show freeForeign W c = _ ↔ _
  rw [freeForeign]
  split
  next hfree =>
    constructor
    · intro hrun
      cases hrun
      exact ⟨hfree, rfl⟩
    · rintro ⟨-, rfl⟩
      rfl
  next hfree => exact iff_of_false (fun h => (nomatch h)) fun h => hfree h.1

/-- Reading a block ends with what the loop returns. -/
theorem readBlock_run_iff {csize len : Nat} {r : IoResult (List UInt8)} {c' : Conn S} :
    (∃ fuel, (readBlock W fuel csize len).run c = .ok (r, c')) ↔
      ∃ w, Returns (readChunk W csize) (c.world, [], len) (r, w) ∧ c' = { c with world := w } := by
  constructor
  · rintro ⟨fuel, hrun⟩
    have hrun : readBlock W fuel csize len c = _ := hrun
    rw [readBlock] at hrun
    split at hrun
    · cases hrun
    next hiter =>
    cases hrun
    exact ⟨_, iterate_stop_returns hiter, rfl⟩
  · rintro ⟨w, hret, rfl⟩
    obtain ⟨fuel, hiter⟩ := hret.exists_iterate
    refine ⟨fuel, ?_⟩
    show readBlock W fuel csize len c = _
    rw [readBlock, hiter]

end Runs

/-! ### Each operation keeps the handles in order

The operations use the device and never dispose of it.
-/

section Keeps

variable {W} {o : Option Nat} {h : Nat} {E : Halt → Prop}

/-- The socket is no handle. -/
theorem smartDriverCmd_keeps (cmd ans : List UInt8) : Keeps o E (smartDriverCmd W cmd ans) := by
  apply (irdaCall_keeps _).bind
  rintro (_ | _ | _)
  · exact Keeps.pure _
  · exact Keeps.pure _
  · apply (irdaCall_keeps _).bind
    rintro (_ | _ | _)
    · exact Keeps.pure _
    · exact Keeps.pure _
    · exact Keeps.pure _

theorem smartReadUchar_keeps (cmd ans : List UInt8) : Keeps o E (smartReadUchar W cmd ans) := by
  apply (smartDriverCmd_keeps cmd ans).bind
  rintro (_ | _)
  · exact Keeps.pure _
  · exact Keeps.pure _

theorem smartReadUlong_keeps (cmd ans : List UInt8) : Keeps o E (smartReadUlong W cmd ans) := by
  apply (smartDriverCmd_keeps cmd ans).bind
  rintro (_ | _)
  · exact Keeps.pure _
  · exact Keeps.pure _

/-- The handshake is two commands. -/
theorem smartDriverHandshake_keeps : Keeps o E (smartDriverHandshake W) := by
  refine (irdaCall_keeps _).bind fun ans => (smartDriverCmd_keeps _ ans).bind ?_
  rintro (_ | ans)
  · exact Keeps.pure _
  show Keeps o E (if _ then _ else _)
  split
  · exact Keeps.pure _
  apply (smartDriverCmd_keeps _ ans).bind
  rintro (_ | ans)
  · exact Keeps.pure _
  show Keeps o E (if _ then _ else _)
  split
  · exact Keeps.pure _
  · exact Keeps.pure _

/-- The device is looked up. -/
theorem withDevice_keeps {op : Nat → SmartDevice → Daemon S (Except Int α)}
    (hop : ∀ d, Keeps (some h) E (op h d)) : Keeps (some h) E (withDevice (some h) op) :=
  deref_keeps.bind fun d => record_use_keeps.bind fun _ => hop d

/-- The device is written. -/
theorem smartidDevConnect_keeps (addr lsap chunkSize : Nat) :
    Keeps (some h) E (smartidDevConnect W (some h) addr lsap chunkSize) := by
  refine withDevice_keeps fun d => (setHeap_keeps _).bind fun _ => (irdaCall_keeps _).bind ?_
  rintro (_ | _ | _)
  · exact Keeps.pure _
  · exact Keeps.pure _
  refine smartDriverHandshake_keeps.bind fun rv => ?_
  show Keeps _ E (if _ then _ else _)
  split
  · exact Keeps.pure _
  apply (smartReadUlong_keeps _ _).bind
  rintro (_ | ticks)
  · exact Keeps.pure _
  · exact (irdaCall_keeps _).bind fun _ => (setHeap_keeps _).bind fun _ => Keeps.pure _

theorem smartidDevModel_keeps : Keeps (some h) E (smartidDevModel W (some h)) :=
  withDevice_keeps fun _ => (irdaCall_keeps _).bind fun _ => smartReadUchar_keeps _ _

theorem smartidDevSerial_keeps : Keeps (some h) E (smartidDevSerial W (some h)) :=
  withDevice_keeps fun _ => (irdaCall_keeps _).bind fun _ => smartReadUlong_keeps _ _

theorem smartidDevTcorr_keeps : Keeps (S := S) (some h) E (smartidDevTcorr (some h)) :=
  withDevice_keeps fun _ => Keeps.pure _

theorem smartidDevTicks_keeps : Keeps (S := S) (some h) E (smartidDevTicks (some h)) :=
  withDevice_keeps fun _ => Keeps.pure _

theorem smartidDevSetToken_keeps (token : Nat) :
    Keeps (S := S) (some h) E (smartidDevSetToken (some h) token) :=
  withDevice_keeps fun _ => (setHeap_keeps _).bind fun _ => Keeps.pure _

theorem smartidDevXferSize_keeps : Keeps (some h) E (smartidDevXferSize W (some h)) :=
  withDevice_keeps fun _ => (irdaCall_keeps _).bind fun _ => smartReadUlong_keeps _ _

/-- The address is no handle. -/
theorem freeForeign_keeps (hE : E .foreignFree) : Keeps o E (freeForeign W) := by
  intro c hc
  by_cases hfree : W.foreignFree
  · have hrun : (freeForeign W).run c = .ok ((), c) := if_pos hfree
    exact Triple.of_run hrun ⟨hc, Quiet.refl c⟩
  · exact Triple.of_run_error (if_neg hfree) hE

/-- The loop over the chunks. -/
theorem readBlock_spec {c : Conn S} (hc : Owns c o) (hE : E .pending) (fuel csize len : Nat) :
    Triple (readBlock W fuel csize len) c
      (fun r c' => (Owns c' o ∧ Quiet c c') ∧ ∀ data, r = .done data → data.length = len) E := by
  cases hrun : iterate (readChunk W csize) fuel (c.world, [], len) with
  | next s =>
    refine Triple.of_run_error (e := .pending) ?_ hE
    show readBlock W fuel csize len c = _
    rw [readBlock, hrun]
  | stop r =>
    obtain ⟨r, w⟩ := r
    have hread : (readBlock W fuel csize len).run c = .ok (r, { c with world := w }) := by
      show readBlock W fuel csize len c = _
      rw [readBlock, hrun]
    refine Triple.of_run hread ⟨⟨⟨hc.sound, hc.live, hc.heap, hc.fresh⟩, ⟨rfl, rfl, rfl⟩⟩, ?_⟩
    rintro data rfl
    exact (length_of_readChunk_returns (iterate_stop_returns hrun)).trans (Nat.zero_add len)

/-- A transfer that succeeds returns data. -/
theorem receiveBlock_spec {c : Conn S} (hc : Owns c o) (hpending : E .pending)
    (hfree : E .foreignFree) (fuel csize nb : Nat) :
    Triple (receiveBlock W fuel csize nb) c
      (fun r c' => (Owns c' o ∧ Quiet c c') ∧ ∀ data, r = .ok data → data ≠ []) E := by
  rw [receiveBlock]
  split
  · exact Triple.pure ⟨⟨hc, Quiet.refl c⟩, fun data hdata => nomatch hdata⟩
  split
  · exact Triple.pure ⟨⟨hc, Quiet.refl c⟩, fun data hdata => nomatch hdata⟩
  next hne hlt =>
  apply (readBlock_spec hc hpending fuel csize (nb - 4)).bind
  rintro (_ | _ | buf) c₁ ⟨⟨hc₁, hq₁⟩, hlen⟩
  · apply (freeForeign_keeps hfree c₁ hc₁).bind
    rintro _ c₂ ⟨hc₂, hq₂⟩
    exact Triple.pure ⟨⟨hc₂, hq₁.trans hq₂⟩, fun data hdata => nomatch hdata⟩
  · apply (freeForeign_keeps hfree c₁ hc₁).bind
    rintro _ c₂ ⟨hc₂, hq₂⟩
    exact Triple.pure ⟨⟨hc₂, hq₁.trans hq₂⟩, fun data hdata => nomatch hdata⟩
  · refine Triple.pure ⟨⟨hc₁, hq₁⟩, ?_⟩
    rintro data hdata rfl
    cases hdata
    -- a block of no bytes would be one of length 4
    have hzero : 0 = nb - 4 := hlen [] rfl
    omega

/-- The transfer with its buffer. -/
theorem smartidDevXferData_spec {c : Conn S} (hc : Owns c (some h)) (hpending : E .pending)
    (hfree : E .foreignFree) (fuel : Nat) :
    Triple (smartidDevXferData W fuel (some h)) c
      (fun r c' => (Owns c' (some h) ∧ Quiet c c') ∧ ∀ data, r = .ok data → data ≠ []) E := by
  refine (deref_keeps c hc).bind fun d c₁ ⟨hc₁, hq₁⟩ => ?_
  refine (record_use_keeps c₁ hc₁).bind fun _ c₂ ⟨hc₂, hq₂⟩ => ?_
  refine (irdaCall_keeps _ c₂ hc₂).bind fun junk c₃ ⟨hc₃, hq₃⟩ => ?_
  apply (smartReadUlong_keeps _ _ c₃ hc₃).bind
  have hq : Quiet c c₃ := (hq₁.trans hq₂).trans hq₃
  rintro (rv | nb) c₄ ⟨hc₄, hq₄⟩
  · exact Triple.pure ⟨⟨hc₄, hq.trans hq₄⟩, fun data hdata => nomatch hdata⟩
  · apply (receiveBlock_spec hc₄ hpending hfree fuel d.csize nb).imp
    rintro r c₅ ⟨⟨hc₅, hq₅⟩, hdata⟩
    exact ⟨⟨hc₅, (hq.trans hq₄).trans hq₅⟩, hdata⟩

/-- A token is always stored. -/
theorem smartidDevSetToken_ok {c : Conn S} (hc : Owns c (some h)) (token : Nat) :
    Triple (smartidDevSetToken (some h) token) c (fun r _ => r = .ok ()) E :=
  (deref_keeps c hc).bind fun _ _ _ => Triple.of_run rfl rfl

/-! ### Allocation and disposal

A structure gets a handle that was never used.
-/

theorem smartidDevAlloc_spec {c : Conn S} (hc : Owns c none) :
    Triple (smartidDevAlloc true) c
      (fun dev c' => ∃ k, dev = some k ∧ Owns c' dev ∧ Quiet c c') E := by
  have hnew : .alloc c.next ∉ c.events := fun hmem => absurd (hc.fresh _ hmem) (lt_irrefl _)
  refine Triple.of_run rfl ⟨c.next, rfl, ⟨hc.sound.alloc hnew, ?_, ?_, ?_⟩, ⟨rfl, rfl, rfl⟩⟩
  · intro k
    rw [hc.sound.live_alloc hnew, hc.live, Option.some_inj, eq_comm (a := k)]
    exact or_iff_right (fun h => (nomatch h))
  · intro k
    show (Function.update c.heap c.next (some {}) k).isSome ↔ _
    by_cases hk : k = c.next
    · subst hk
      simp
    · rw [Function.update_of_ne hk, hc.heap, Option.some_inj]
      exact ⟨fun h => (nomatch h), fun h => absurd h.symm hk⟩
  · intro k hmem
    rw [List.mem_append, List.mem_singleton] at hmem
    rcases hmem with hmem | hmem
    · exact Nat.lt_succ_of_lt (hc.fresh k hmem)
    · cases hmem
      exact Nat.lt_succ_self _

/-- The device is gone. -/
theorem smartidDevDispose_spec {c : Conn S} (hc : Owns c (some h)) :
    Triple (smartidDevDispose (some h)) c (fun _ c' => Owns c' none ∧ Quiet c c') E := by
  have hlive : Live c.events h := (hc.live h).mpr rfl
  obtain ⟨d, hd⟩ := hc.exists_device
  apply (Triple.of_run (Q := fun _ c' => c' = c) (deref_run hd) rfl).bind
  rintro d c rfl
  refine Triple.of_run rfl ⟨⟨hc.sound.dispose hlive, ?_, ?_, ?_⟩, ⟨rfl, rfl, rfl⟩⟩
  · intro k
    rw [live_dispose, hc.live, Option.some_inj]
    exact ⟨fun ⟨heq, hne⟩ => absurd heq.symm hne, fun h => (nomatch h)⟩
  · intro k
    show (Function.update c.heap h none k).isSome ↔ _
    by_cases hk : k = h
    · subst hk
      simp
    · rw [Function.update_of_ne hk, hc.heap, Option.some_inj]
      exact ⟨fun h => absurd h.symm hk, fun h => (nomatch h)⟩
  · intro k hmem
    rw [List.mem_append, List.mem_singleton] at hmem
    rcases hmem with hmem | hmem
    · exact hc.fresh k hmem
    · cases hmem

end Keeps

end BenthosDc

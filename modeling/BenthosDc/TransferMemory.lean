/-
BenthosDc/TransferMemory.lean

Transfers with their memory and without (`smart_driver_transfer` of `smart_driver.c`,
`smartid_dev_xfer_data` of `smartid_device.c`).

`smartDriverTransfer` and `smartidDevXferData` give back the data, and have neither the block
nor the caller's variables; `localTransfer` and `daemonTransfer` have these, and neither the
device structure nor the connection.  They are two readings of the same functions: where
`malloc` does not fail, both come to the same result, and the block holds the data.

* `daemonTransfer_agrees` and `localTransfer_agrees`.

The relation between the two is kept chunk by chunk: the block holds the bytes so far, and as
many are to come.
-/
import BenthosDc.SmartTransfers
import BenthosDc.TransferCleanup

namespace BenthosDc

open CString Hoare Loop

variable {S : Type} {E : Halt → Prop}

/-! ### Results

A result agrees with memory if the code is the same and, for a success, the block holds the
data.
-/

/-- `*buffer` is the block, which holds `data`, and `*size` is `size`. -/
structure XferMemory.Contains (m : XferMemory) (size : Nat) (data : List UInt8) : Prop where
  buffer : m.buffer = .block
  size : m.size = size
  block : m.block = fun i => data[i]?

/-- The result of a transfer: the return value with the memory, and the data with its size. -/
inductive TransferAgrees : Int → XferMemory → Except Int (Nat × List UInt8) → Prop
  | failed {rc : Int} {mem : XferMemory} : rc ≠ 0 → TransferAgrees rc mem (.error rc)
  | nothing {mem : XferMemory} : mem.size = 0 → TransferAgrees 0 mem (.ok (0, []))
  | received {mem : XferMemory} {data : List UInt8} : mem.Contains data.length data →
      TransferAgrees 0 mem (.ok (data.length, data))

namespace XferMemory

variable {m : XferMemory} {size : Nat} {data : List UInt8}

/-- The next bytes are stored behind the others. -/
theorem Contains.store (h : m.Contains size data) (bytes : List UInt8) :
    (m.store data.length bytes).Contains size (data ++ bytes) where
  buffer := h.buffer
  size := h.size
  block := by
    funext i
    show (if _ then _ else m.block i) = (data ++ bytes)[i]?
    rw [h.block]
    by_cases hi : data.length ≤ i ∧ i < data.length + bytes.length
    · rw [if_pos hi, List.getElem?_append_right hi.1]
    · rw [if_neg hi]
      by_cases hlt : i < data.length
      · exact (List.getElem?_append_left hlt).symm
      · -- behind both of them there is nothing
        have hend : (data ++ bytes).length ≤ i := by
          rw [List.length_append]
          omega
        rw [List.getElem?_eq_none hend]
        exact List.getElem?_eq_none (by omega)

/-- A call of the callback changes no byte. -/
theorem Contains.called (h : m.Contains size data) (calls : List (Nat × Nat)) :
    (m.called calls).Contains size data := ⟨h.buffer, h.size, h.block⟩

/-- The block when it has been allocated. -/
theorem malloc_contains (hblock : m.block = fun _ => none) :
    (m.malloc true).Contains m.size [] := ⟨rfl, rfl, hblock⟩

end XferMemory

/-! ### The daemon

Two loops in step, one over the block and one over the bytes.
-/

section Daemon

variable {W : Irda S} {csize fuel size : Nat} {c : Conn S} {mem : XferMemory}

/-- Both loops stand at the same place, with `size` bytes to read in all. -/
structure ChunkAgrees (size : Nat) (st : ChunkState S) (s : S × List UInt8 × Nat) : Prop where
  world : st.world = s.1
  pos : st.pos = s.2.1.length
  len : st.len = s.2.2
  mem : st.mem.Contains size s.2.1
  total : s.2.1.length + s.2.2 = size

/-- How both loops are left. -/
inductive BlockAgrees : Int × ChunkState S → IoResult (List UInt8) × S → Prop
  | received {st : ChunkState S} {data : List UInt8} : st.mem.Contains data.length data →
      BlockAgrees (0, st) (.done data, st.world)
  | failed {st : ChunkState S} : BlockAgrees (smartiErrorIo, st) (.failed, st.world)
  | timedOut {st : ChunkState S} : BlockAgrees (smartiErrorTimeout, st) (.timedOut, st.world)

theorem daemonChunk_agrees (W : Irda S) (csize : Nat) {st : ChunkState S}
    {s : S × List UInt8 × Nat} (h : ChunkAgrees size st s) :
    IterRel (ChunkAgrees size) (BlockAgrees) (daemonChunk W csize st) (readChunk W csize s) := by
  obtain ⟨w, buf, len⟩ := s
  obtain ⟨w', mem, pos, len'⟩ := st
  obtain ⟨hworld, hpos, hlen, hmem, htotal⟩ := h
  dsimp only at hworld hpos hlen hmem htotal
  subst hworld hpos hlen
  rw [daemonChunk, readChunk]
  dsimp only
  split
  · next hlen =>
    rw [hlen, Nat.add_zero] at htotal
    rw [← htotal] at hmem
    exact .stop (.received hmem)
  rcases W.read w' (chunkLength csize len') with ⟨_ | _ | bytes, w⟩
  · exact .stop .failed
  · exact .stop .timedOut
  · refine .next ⟨rfl, List.length_append.symm, rfl, hmem.store _, ?_⟩
    -- no more bytes are taken than there are to come
    have htake := List.length_take_le (chunkLength csize len') bytes
    have hle := chunkLength_le csize len'
    show (buf ++ _).length + (len' - _) = size
    rw [List.length_append]
    omega

/-- Both loops from the allocation on. -/
theorem daemonReadBlock_agrees (hmem : mem.Contains size []) (W : Irda S) (fuel csize : Nat)
    (c : Conn S) :
    Triple (readBlock W fuel csize size) c
      (fun o c' => ∃ rv st, daemonReadBlock W fuel csize mem c.world = some (rv, st) ∧
        st.world = c'.world ∧ BlockAgrees (rv, st) (o, c'.world))
      (fun e => e = .pending ∧ daemonReadBlock W fuel csize mem c.world = none) := by
  have hstart : ChunkAgrees size ⟨c.world, mem, 0, mem.size⟩ (c.world, [], size) :=
    ⟨rfl, rfl, hmem.size, hmem, Nat.zero_add size⟩
  have hboth := IterRel.iterate (fun _ _ h => daemonChunk_agrees W csize h) hstart fuel
  have hrun : (readBlock W fuel csize size).run c = readBlock W fuel csize size c := rfl
  rw [Triple, hrun, readBlock, daemonReadBlock]
  -- both loops have run out of fuel, or both have been left
  revert hboth
  generalize iterate (daemonChunk W csize) fuel _ = x, iterate (readChunk W csize) fuel _ = y
  intro hboth
  cases hboth with
  | next h => exact ⟨rfl, rfl⟩
  | @stop r r' h =>
    obtain ⟨o, w⟩ := r'
    cases h with
    | received h => exact ⟨_, _, rfl, rfl, .received h⟩
    | failed => exact ⟨_, _, rfl, rfl, .failed⟩
    | timedOut => exact ⟨_, _, rfl, rfl, .timedOut⟩

/-- The part of a transfer behind the answer. -/
theorem daemonAllocate_agrees (hfree : W.foreignFree = true) (fuel csize nb : Nat) (c : Conn S)
    (mem : XferMemory) (hblock : mem.block = fun _ => none) :
    Triple (receiveBlock W fuel csize nb) c
      (fun r c' => ∃ rv mem',
        daemonAllocate W (fun _ => true) fuel csize nb mem c.world = some (rv, mem', c'.world) ∧
          TransferAgrees rv mem' (r.map fun data => (data.length, data)))
      (fun e => e = .pending ∧
        daemonAllocate W (fun _ => true) fuel csize nb mem c.world = none) := by
  have hforeign : ∀ c : Conn S, (freeForeign W).run c = .ok ((), c) := by
    intro c
    show freeForeign W c = _
    rw [freeForeign, if_pos hfree]
  rw [receiveBlock, daemonAllocate]
  split
  · exact Triple.pure ⟨_, _, rfl, .failed (by decide)⟩
  split
  · exact Triple.pure ⟨_, _, rfl, .failed (by decide)⟩
  have hmem : (({ mem with size := nb - 4 } : XferMemory).malloc true).Contains (nb - 4) [] :=
    XferMemory.malloc_contains hblock
  rw [if_neg (fun h => by rw [hmem.buffer] at h; cases h)]
  refine ((daemonReadBlock_agrees hmem W fuel csize c).mono (fun _ _ h => h) ?_).bind ?_
  · rintro e ⟨he, hnone⟩
    rw [hnone]
    exact ⟨he, rfl⟩
  rintro o c' ⟨rv, st, hsome, hworld, hagrees⟩
  rw [← hworld] at hagrees
  rw [hsome]
  dsimp only
  rw [hworld]
  cases hagrees with
  | received h => exact Triple.pure ⟨_, _, rfl, .received h⟩
  | failed => exact Triple.of_run (run_bind_of_ok (hforeign c')) ⟨_, _, rfl, .failed (by decide)⟩
  | timedOut => exact Triple.of_run (run_bind_of_ok (hforeign c')) ⟨_, _, rfl, .failed (by decide)⟩

/-- The number that a command is answered with. -/
theorem smartReadUlong_command (W : Irda S) (cmd ans : List UInt8) (c : Conn S) :
    (smartReadUlong W cmd ans).run c =
      match W.command ⟨smartiErrorIo, smartiErrorIo, smartiErrorTimeout⟩ cmd ans c.world with
      | (.error rv, w) => .ok (.error rv, { c with world := w })
      | (.ok nb, w) => .ok (.ok (uint32Le nb 0), { c with world := w }) := by
  rw [Irda.command]
  rcases hwrite : W.write c.world cmd with ⟨_ | _ | n, w₁⟩
  · exact run_bind_eq_ok.mpr ⟨_, _, run_bind_eq_ok.mpr ⟨_, _, irdaCall_run hwrite, rfl⟩, rfl⟩
  · exact run_bind_eq_ok.mpr ⟨_, _, run_bind_eq_ok.mpr ⟨_, _, irdaCall_run hwrite, rfl⟩, rfl⟩
  dsimp only
  rcases hread : W.read w₁ ans.length with ⟨_ | _ | bytes, w₂⟩
  · exact run_bind_eq_ok.mpr ⟨_, _, run_bind_eq_ok.mpr ⟨_, _, irdaCall_run hwrite,
      run_bind_eq_ok.mpr ⟨_, _, irdaCall_run hread, rfl⟩⟩, rfl⟩
  · exact run_bind_eq_ok.mpr ⟨_, _, run_bind_eq_ok.mpr ⟨_, _, irdaCall_run hwrite,
      run_bind_eq_ok.mpr ⟨_, _, irdaCall_run hread, rfl⟩⟩, rfl⟩
  · exact smartReadUlong_run hwrite hread

/-- **The transfer of the daemon**, with its memory and without. -/
theorem daemonTransfer_agrees (hfree : W.foreignFree = true) (fuel : Nat) {h : Nat}
    {d : SmartDevice} (hd : c.heap h = some d) (buffer : BufferPtr) (size : Nat) :
    Triple (smartidDevXferData W fuel (some h)) c
      (fun r c' => ∃ rv mem, daemonTransfer W (fun _ => true) fuel (some d)
          (.entered buffer size) c.world = some (rv, mem, c'.world) ∧
        TransferAgrees rv mem (r.map fun data => (data.length, data)))
      (fun e => e = .pending ∧ daemonTransfer W (fun _ => true) fuel (some d)
        (.entered buffer size) c.world = none) := by
  set c₁ : Conn S := { c with events := c.events ++ [.use h] }
  have hcommand := smartReadUlong_command W (tokenCmd 0xc4 d.token) (W.unset c.world) c₁
  rw [show c₁.world = c.world from rfl] at hcommand
  rcases hcmd : W.command ⟨smartiErrorIo, smartiErrorIo, smartiErrorTimeout⟩
    (tokenCmd 0xc4 d.token) (W.unset c.world) c.world with ⟨rv | nb, w⟩
  · have hrv : rv ≠ 0 := by
      rcases command_error hcmd with rfl | rfl | rfl <;> decide
    rw [hcmd] at hcommand
    rw [daemonTransfer_unanswered hcmd]
    exact Triple.of_run (smartidDevXferData_run_error hd fuel hcommand) ⟨rv, _, rfl, .failed hrv⟩
  · have hdaemon : daemonTransfer W (fun _ => true) fuel (some d) (.entered buffer size) c.world =
        daemonAllocate W (fun _ => true) fuel d.csize (uint32Le nb 0) (.entered buffer size) w := by
      rw [daemonTransfer, hcmd]
    rw [hcmd] at hcommand
    dsimp only at hcommand
    generalize uint32Le nb 0 = n at hcommand hdaemon
    rw [hdaemon]
    apply Triple.of_run_eq (smartidDevXferData_run hd fuel hcommand)
    exact daemonAllocate_agrees hfree fuel d.csize n { c₁ with world := w } _ rfl

end Daemon

/-! ### The local driver

The callbacks of the two readings are given in different ways: as a function, and as what it
answers from call to call.
-/

/-- A callback that looks at the last call only. -/
def lastCall (p : TransferCallback) : ProgressCallback := fun calls =>
  match calls.getLast? with
  | none => false
  | some (n, size) => p n size

/-- What the device callback gives back, if the memory of the token is the driver's. -/
def tokenAnswer (base : SmartBase) (freeToken : Bool) (dcb : DeviceCallback) : TokenAnswer where
  rc := (dcb base.model base.serial base.ticks).1
  stoken := (dcb base.model base.serial base.ticks).2
  freeToken := freeToken

/-- Whether a callback cancels the transfer. -/
def cancelsAt (pcb : Option TransferCallback) (pos size : Nat) : Bool :=
  match pcb with
  | none => false
  | some p => p pos size

/-- The callback is called with the place that has been reached. -/
theorem report_lastCall (pcb : Option TransferCallback) (mem : XferMemory) (pos : Nat) :
    ∃ calls, report (pcb.map lastCall) mem pos =
      (cancelsAt pcb pos mem.size, mem.called calls) := by
  cases pcb with
  | none => exact ⟨[], Prod.ext rfl (mem.called_nil).symm⟩
  | some p =>
    refine ⟨[(pos, mem.size)], Prod.ext ?_ rfl⟩
    show lastCall p (mem.progress ++ [(pos, mem.size)]) = p pos mem.size
    rw [lastCall, List.getLast?_concat]

/-- The token is that of the callback. -/
theorem localToken_tokenAnswer (dcb : Option DeviceCallback) (base : SmartBase) (freeToken : Bool)
    (mem : XferMemory) :
    (localToken (dcb.map (tokenAnswer base freeToken)) mem).1 = (transferToken dcb base).2 := by
  cases dcb with
  | none => rfl
  | some dcb =>
    rcases hdcb : dcb base.model base.serial base.ticks with ⟨rc, stoken⟩
    have hanswer : tokenAnswer base freeToken dcb = ⟨rc, stoken, freeToken⟩ := by
      rw [tokenAnswer, hdcb]
    rw [Option.map_some, hanswer, localToken, transferToken, hdcb]
    dsimp only
    split
    · rfl
    cases stoken with
    | none => rfl
    | some stoken =>
      dsimp only
      cases strtoul (cstr stoken) with
      | none => rfl
      | some token => rfl

section Local

variable {H : SmartHost S} {dev csize fuel size : Nat} {w w' : S} {d : Desk (SmartProc S)}
  {mem : XferMemory} {buf : List UInt8}

/-- What a command comes to. -/
theorem driverCmd_command (hd : SmartAt dev csize w d) (cmd ans : List UInt8) :
    Triple (Smart.driverCmd H cmd ans) d
      (fun r d' => ∃ w', H.toIrda.localCommand ⟨true, csize⟩ cmd ans w = (r, w') ∧
        SmartAt dev csize w' d') E := by
  rw [Irda.localCommand, if_pos rfl, Irda.command]
  apply (getDev_at hd).bind
  rintro a _ ⟨-, hs, rfl⟩
  -- the write, and behind it the read, with an error that is put down for each failure
  rw [if_neg hs]
  rcases hwrite : H.write w cmd with ⟨_ | _ | n, w₁⟩
  · apply (onSocket_at hd _ hwrite).bind
    rintro _ d₁ ⟨rfl, hd₁⟩
    apply (failWith_at hd₁ _ _ _).imp
    rintro _ d₂ ⟨rfl, hd₂⟩
    exact ⟨w₁, rfl, hd₂⟩
  · apply (onSocket_at hd _ hwrite).bind
    rintro _ d₁ ⟨rfl, hd₁⟩
    apply (failWith_at hd₁ _ _ _).imp
    rintro _ d₂ ⟨rfl, hd₂⟩
    exact ⟨w₁, rfl, hd₂⟩
  apply (onSocket_at hd _ hwrite).bind
  rintro _ d₁ ⟨rfl, hd₁⟩
  dsimp only
  rcases hread : H.toIrda.read w₁ ans.length with ⟨_ | _ | bytes, w₂⟩
  all_goals
    apply (onSocket_at (f := fun w => H.read w ans.length) hd₁ _ hread).bind
    rintro _ d₂ ⟨rfl, hd₂⟩
  · apply (failWith_at hd₂ _ _ _).imp
    rintro _ d₃ ⟨rfl, hd₃⟩
    exact ⟨w₂, rfl, hd₃⟩
  · apply (failWith_at hd₂ _ _ _).imp
    rintro _ d₃ ⟨rfl, hd₃⟩
    exact ⟨w₂, rfl, hd₃⟩
  · exact Triple.pure ⟨w₂, rfl, hd₂⟩

/-- A pass in which bytes have been received. -/
theorem localChunk_received {W : Irda S} (pcb : Option TransferCallback) {len : Nat}
    {bytes piece : List UInt8} (hmem : mem.Contains size buf) (hlen : len ≠ 0)
    (hread : W.read w (chunkLength csize len) = (.done bytes, w'))
    (hpiece : bytes.take (chunkLength csize len) = piece) :
    ∃ mem', mem'.Contains size (buf ++ piece) ∧
      localChunk W csize (pcb.map lastCall) ⟨w, mem, buf.length, len⟩ =
        if cancelsAt pcb (buf ++ piece).length size then
          .stop (driverErrCancelled, ⟨w', mem', (buf ++ piece).length, len - piece.length⟩)
        else .next ⟨w', mem', (buf ++ piece).length, len - piece.length⟩ := by
  subst hpiece
  have hstored := hmem.store (bytes.take (chunkLength csize len))
  obtain ⟨calls, hreport⟩ := report_lastCall pcb
    (mem.store buf.length (bytes.take (chunkLength csize len)))
    (buf.length + (bytes.take (chunkLength csize len)).length)
  refine ⟨_, hstored.called calls, ?_⟩
  rw [localChunk, if_neg hlen, hread]
  dsimp only [ChunkState.advance]
  rw [hreport, hstored.size, ← List.length_append]

/-- Both loops, from any place on. -/
theorem smartDriverReadData_agrees (H : SmartHost S) (pcb : Option TransferCallback) {len : Nat}
    (hd : SmartAt dev csize w d) (hmem : mem.Contains size buf) (htotal : buf.length + len = size)
    (fuel : Nat) :
    Triple (smartDriverReadData H pcb size fuel buf len) d
      (fun r d' => ∃ rc st, iterate (localChunk H.toIrda csize (pcb.map lastCall)) fuel
          ⟨w, mem, buf.length, len⟩ = .stop (rc, st) ∧ SmartAt dev csize st.world d' ∧
        TransferAgrees rc st.mem (r.map fun data => (size, data)))
      (fun e => e = .pending ∧ ∃ st, iterate (localChunk H.toIrda csize (pcb.map lastCall)) fuel
        ⟨w, mem, buf.length, len⟩ = .next st) := by
  induction fuel generalizing w mem buf len d with
  | zero => exact Triple.throw ⟨rfl, _, rfl⟩
  | succ fuel ih =>
    rw [smartDriverReadData]
    by_cases hlen : len = 0
    · -- the block is complete
      have hstop : localChunk H.toIrda csize (pcb.map lastCall) ⟨w, mem, buf.length, len⟩ =
          .stop (driverErrSuccess, ⟨w, mem, buf.length, len⟩) := by
        rw [localChunk, if_pos hlen]
      rw [hlen, Nat.add_zero] at htotal
      rw [← htotal] at hmem
      rw [if_pos hlen, ← htotal]
      exact Triple.pure ⟨_, _, iterate_succ_stop hstop fuel, hd, .received hmem⟩
    rw [if_neg hlen]
    apply (getDev_at hd).bind
    rintro a _ ⟨hcsize, -, rfl⟩
    dsimp only
    rw [hcsize]
    rcases hread : H.toIrda.read w (chunkLength csize len) with ⟨_ | _ | bytes, w₁⟩
    all_goals
      apply (onSocket_at (f := fun w => H.read w _) hd _ hread).bind
      rintro _ d₁ ⟨rfl, hd₁⟩
    · apply (failWith_at hd₁ _ _ _).imp
      rintro _ d₂ ⟨rfl, hd₂⟩
      exact ⟨_, _, iterate_succ_stop (localChunk_failed hlen hread) fuel, hd₂, .failed (by decide)⟩
    · apply (failWith_at hd₁ _ _ _).imp
      rintro _ d₂ ⟨rfl, hd₂⟩
      exact ⟨_, _, iterate_succ_stop (localChunk_timedOut hlen hread) fuel, hd₂,
        .failed (by decide)⟩
    -- a chunk has been received, and the callback is called
    obtain ⟨mem', hmem', hchunk⟩ := localChunk_received pcb hmem hlen hread rfl
    change Triple (if cancelsAt pcb _ size then _ else _) d₁ _ _
    split
    next hcancel =>
      rw [if_pos hcancel] at hchunk
      apply (failWith_at hd₁ _ _ _).imp
      rintro _ d₂ ⟨rfl, hd₂⟩
      exact ⟨_, _, iterate_succ_stop hchunk fuel, hd₂, .failed (by decide)⟩
    next hcancel =>
      rw [if_neg hcancel] at hchunk
      rw [iterate_succ_next hchunk]
      apply ih hd₁ hmem'
      have htake := List.length_take_le (chunkLength csize len) bytes
      have hle := chunkLength_le csize len
      rw [List.length_append]
      omega

/-- The part of a transfer behind the size. -/
theorem localAllocate_agrees (pcb : Option TransferCallback) (hd : SmartAt dev csize w d)
    (mem : XferMemory) (hblock : mem.block = fun _ => none) (fuel token : Nat) :
    Triple (smartDriverReadBlock H fuel token mem.size pcb) d
      (fun r d' => ∃ rc mem' w', localAllocate H.toIrda (fun _ => true) fuel ⟨true, csize⟩ token
          (pcb.map lastCall) mem w = some (rc, mem', w') ∧
        SmartAt dev csize w' d' ∧ TransferAgrees rc mem' r)
      (fun e => e = .pending ∧ localAllocate H.toIrda (fun _ => true) fuel ⟨true, csize⟩ token
        (pcb.map lastCall) mem w = none) := by
  have hmem : (mem.malloc true).Contains mem.size [] := XferMemory.malloc_contains hblock
  have hjunk : (Smart.junk H 4).run d = .ok (H.toIrda.unset d.state.world, d) := rfl
  rw [hd.world] at hjunk
  apply (Triple.of_run (Q := fun a d' => a = H.toIrda.unset w ∧ d' = d) hjunk ⟨rfl, rfl⟩).bind
  rintro _ _ ⟨rfl, rfl⟩
  apply (driverCmd_command hd _ _).bind
  rintro r d₁ ⟨w₁, hcmd, hd₁⟩
  cases r with
  | error rc =>
    rw [localAllocate_noData rfl hcmd]
    exact Triple.pure ⟨_, _, _, rfl, hd₁, .failed (by decide)⟩
  | ok nb =>
    rw [localAllocate_announced rfl hcmd]
    dsimp only
    generalize uint32Le nb 0 = n
    by_cases hn : n ≠ u32 (mem.size + 4)
    · rw [if_pos hn, if_pos hn]
      apply (failWith_at hd₁ _ _ _).imp
      rintro _ d₂ ⟨rfl, hd₂⟩
      exact ⟨_, _, _, rfl, hd₂, .failed (by decide)⟩
    rw [if_neg hn, if_neg hn]
    -- the callback is asked before the first chunk
    obtain ⟨calls, hreport⟩ := report_lastCall pcb (mem.malloc true) 0
    rw [hmem.size] at hreport
    rw [localReadBlock, hreport]
    change Triple (if cancelsAt pcb 0 mem.size then _ else _) d₁ _ _
    dsimp only
    cases hcancel : cancelsAt pcb 0 mem.size with
    | true =>
      apply (failWith_at hd₁ _ _ _).imp
      rintro _ d₂ ⟨rfl, hd₂⟩
      exact ⟨_, _, _, rfl, hd₂, .failed (by decide)⟩
    | false =>
      rw [if_neg Bool.false_ne_true]
      have hread :=
        smartDriverReadData_agrees H pcb hd₁ (hmem.called calls) (Nat.zero_add _) fuel
      have hsize : ((mem.malloc true).called calls).size = mem.size := rfl
      rw [hsize]
      refine (hread.mono (fun _ _ h => h) ?_).bind ?_
      · rintro e ⟨he, st, hnext⟩
        rw [List.length_nil] at hnext
        rw [hnext]
        exact ⟨he, rfl⟩
      · rintro r d₂ ⟨rc, st, hstop, hd₂, hagrees⟩
        rw [List.length_nil] at hstop
        rw [hstop]
        cases r with
        | error rc' => exact Triple.pure ⟨_, _, _, rfl, hd₂, hagrees⟩
        | ok data => exact Triple.pure ⟨_, _, _, rfl, hd₂, hagrees⟩

/-- **The transfer of the local driver**, with its memory and without. -/
theorem localTransfer_agrees (hd : SmartAt dev csize w d) (dcb : Option DeviceCallback)
    (freeToken : Bool) (pcb : Option TransferCallback) (fuel : Nat) (buffer : BufferPtr)
    (size : Nat) :
    Triple (smartDriverTransfer H fuel dev size dcb pcb) d
      (fun r d' => ∃ rc mem w', localTransfer H.toIrda (fun _ => true) fuel ⟨true, csize⟩
          (dcb.map (tokenAnswer d.state.dev.base freeToken)) (pcb.map lastCall)
          (.entered buffer size) w = some (rc, mem, w') ∧
        SmartAt dev csize w' d' ∧ TransferAgrees rc mem r)
      (fun e => e = .pending ∧ localTransfer H.toIrda (fun _ => true) fuel ⟨true, csize⟩
          (dcb.map (tokenAnswer d.state.dev.base freeToken)) (pcb.map lastCall)
          (.entered buffer size) w = none) := by
  have htoken := localToken_tokenAnswer dcb d.state.dev.base freeToken (.entered buffer size)
  refine (useHandle_spec (Q := fun _ d' => d'.state = d.state ∧ SmartAt dev csize w d')
    (hd.owns.live (Set.mem_insert dev _)) fun l hl =>
      ⟨rfl, hd.owns.of_eq hl, hd.csize, hd.world⟩).bind ?_
  rintro _ d₁ ⟨hstate, hd₁⟩
  have hget : Smart.getDev.run d₁ = .ok (d₁.state.dev, d₁) := rfl
  apply (Triple.of_run (Q := fun a d' => a = d₁.state.dev ∧ d' = d₁) hget ⟨rfl, rfl⟩).bind
  rintro _ _ ⟨rfl, rfl⟩
  dsimp only
  rw [hstate]
  -- the token may leave an error in the device structure
  refine (setDev_at hd₁ ?_ ?_).bind ?_
  · exact fun _ => rfl
  · exact fun _ => rfl
  intro _ d₂ hd₂
  cases hresult : (transferToken dcb d.state.dev.base).2 with
  | error rc =>
    rw [hresult] at htoken
    rw [localTransfer_error htoken]
    exact Triple.pure ⟨_, _, _, rfl, hd₂, .failed (localToken_error htoken).2⟩
  | ok token =>
    rw [hresult] at htoken
    dsimp only
    apply (driverCmd_command hd₂ _ _).bind
    rintro r d₃ ⟨w₁, hcmd, hd₃⟩
    cases r with
    | error rc =>
      rw [localTransfer_unanswered htoken hcmd]
      exact Triple.pure ⟨_, _, _, rfl, hd₃, .failed (by decide)⟩
    | ok ans =>
      rw [localTransfer_sized ⟨htoken, ans, hcmd, rfl⟩]
      dsimp only
      generalize uint32Le ans 0 = n
      by_cases hn : n = 0
      · rw [if_pos hn, if_pos hn]
        exact Triple.pure ⟨_, _, _, rfl, hd₃, .nothing hn⟩
      · rw [if_neg hn, if_neg hn]
        have hblock : (sizedMemory (dcb.map (tokenAnswer d.state.dev.base freeToken)) buffer size
            n).block = fun _ => none := by
          rw [sizedMemory, XferMemory.tokened]
          split <;> rfl
        exact localAllocate_agrees pcb hd₃ _ hblock fuel token

end Local

end BenthosDc

/-
BenthosDc/BlockTransfers.lean

The two transfers of a block, with the memory that they leave behind (`smart_driver_transfer`
of `smart_driver.c`, `smartid_dev_xfer_data` of `smartid_device.c`).

The block is allocated by the call, filled at its position in chunks, and handed out through
the caller's variables `*buffer` and `*size`.  What `free` is given is on record, and so are
the calls of the progress callback.

* `chunks_reassemble`: the data do not depend on how the link cuts them.
* `chunks_returnError_iff`: when a loop ends with an error.
* `transfers_leaveNothing_iff`: when a transfer that fails has cleaned up.

A read that returns no bytes is taken for progress by both loops: nothing is left behind, and
the same number of bytes is asked for again.  A device that has gone away and reads as empty
keeps the loop running (`Irda.FallsSilent`), and `ReadsEnd`, which says how a loop ends, holds
for no end then.
-/
import BenthosDc.DeviceCommands
import BenthosDc.SmartAnswers

namespace BenthosDc

open CString Delivery Loop

variable {S : Type}

/-! ### Memory -/

/-- `*buffer`: null, the block that the call has allocated, or what the caller has left
there. -/
inductive BufferPtr
  | null
  | block
  | before
  deriving DecidableEq

/-- What `free` is given: the block, the token of the device callback, or the address of the
caller's variable. -/
inductive FreeArg
  | block
  | token
  | variable
  deriving DecidableEq

/-- The memory of a transfer. -/
structure XferMemory where
  /-- `*buffer` -/
  buffer : BufferPtr
  /-- `*size` -/
  size : Nat
  /-- Whether `malloc` has returned the block. -/
  allocated : Bool
  /-- The bytes that have been stored in the block, by their positions. -/
  block : Nat → Option UInt8
  /-- The arguments of `free`, in order. -/
  frees : List FreeArg
  /-- The calls of the progress callback, in order. -/
  progress : List (Nat × Nat)

/-- The memory as a transfer finds it. -/
def XferMemory.entered (buffer : BufferPtr) (size : Nat) : XferMemory where
  buffer := buffer
  size := size
  allocated := false
  block := fun _ => none
  frees := []
  progress := []

namespace XferMemory

/-- Bytes are received at the position `pos` of the block. -/
def store (m : XferMemory) (pos : Nat) (bytes : List UInt8) : XferMemory :=
  { m with block := fun i =>
      if pos ≤ i ∧ i < pos + bytes.length then bytes[i - pos]? else m.block i }

/-- `(* buffer) = malloc(* size)`; `ok` is whether there is memory. -/
def malloc (m : XferMemory) (ok : Bool) : XferMemory :=
  { m with buffer := if ok then .block else .null, allocated := ok }

/-- `free(arg); (* buffer) = 0; (* size) = 0;` -/
def release (m : XferMemory) (arg : FreeArg) : XferMemory :=
  { m with buffer := .null, size := 0, frees := m.frees ++ [arg] }

/-- Calls of the progress callback. -/
def called (m : XferMemory) (calls : List (Nat × Nat)) : XferMemory :=
  { m with progress := m.progress ++ calls }

theorem called_nil (m : XferMemory) : m.called [] = m := by
  rw [called, List.append_nil]

theorem called_append (m : XferMemory) (a b : List (Nat × Nat)) :
    (m.called a).called b = m.called (a ++ b) := by
  simp only [called, List.append_assoc]

/-- The bytes and the calls of the callback are kept apart. -/
theorem store_called (m : XferMemory) (calls : List (Nat × Nat)) (pos : Nat) (bytes : List UInt8) :
    (m.called calls).store pos bytes = (m.store pos bytes).called calls := rfl

theorem store_nil (m : XferMemory) (pos : Nat) : m.store pos [] = m := by
  have hblock : (m.store pos []).block = m.block := by
    funext i
    exact if_neg fun ⟨hle, hlt⟩ => absurd hlt (Nat.not_lt.mpr hle)
  show { m with block := (m.store pos []).block } = m
  rw [hblock]

theorem store_append (m : XferMemory) (pos : Nat) (a b : List UInt8) :
    (m.store pos a).store (pos + a.length) b = m.store pos (a ++ b) := by
  have hblock : ((m.store pos a).store (pos + a.length) b).block = (m.store pos (a ++ b)).block := by
    funext i
    show (if _ then _ else if _ then _ else _) = if _ then _ else _
    rw [List.length_append]
    by_cases hb : pos + a.length ≤ i ∧ i < pos + a.length + b.length
    · rw [if_pos hb, if_pos (by omega), List.getElem?_append_right (by omega)]
      congr 1
      omega
    · rw [if_neg hb]
      by_cases ha : pos ≤ i ∧ i < pos + a.length
      · rw [if_pos ha, if_pos (by omega), List.getElem?_append_left (by omega)]
      · rw [if_neg ha, if_neg (by omega)]
  show { m with block := ((m.store pos a).store (pos + a.length) b).block } =
    { m with block := (m.store pos (a ++ b)).block }
  rw [hblock]

end XferMemory

/-! ### The loops -/

/-- Whether the transfer is to be cancelled, by the calls of the progress callback so far. -/
abbrev ProgressCallback := List (Nat × Nat) → Bool

/-- A call of the callback, if there is one: whether it cancels, and the memory behind it. -/
def report (pcb : Option ProgressCallback) (mem : XferMemory) (pos : Nat) : Bool × XferMemory :=
  match pcb with
  | none => (false, mem)
  | some cb => (cb (mem.called [(pos, mem.size)]).progress, mem.called [(pos, mem.size)])

/-- The world, the memory, the position in the block and the bytes that are still to come. -/
structure ChunkState (S : Type) where
  world : S
  mem : XferMemory
  pos : Nat
  len : Nat

/-- The bytes of a chunk have been received. -/
def ChunkState.advance (st : ChunkState S) (w : S) (bytes : List UInt8) : ChunkState S where
  world := w
  mem := st.mem.store st.pos bytes
  pos := st.pos + bytes.length
  len := st.len - bytes.length

/-- One pass of the loop of `smart_driver_transfer`. -/
def localChunk (W : Irda S) (csize : Nat) (pcb : Option ProgressCallback) (st : ChunkState S) :
    Iter (ChunkState S) (Int × ChunkState S) :=
  if st.len = 0 then .stop (driverErrSuccess, st)
  else
    match W.read st.world (chunkLength csize st.len) with
    | (.failed, w) => .stop (driverErrRead, { st with world := w })
    | (.timedOut, w) => .stop (driverErrTimeout, { st with world := w })
    | (.done bytes, w) =>
      let st := st.advance w (bytes.take (chunkLength csize st.len))
      let (cancel, mem) := report pcb st.mem st.pos
      if cancel then .stop (driverErrCancelled, { st with mem := mem })
      else .next { st with mem := mem }

/-- One pass of the loop of `smartid_dev_xfer_data`; it frees `buf` where it means
`* buf`. -/
def daemonChunk (W : Irda S) (csize : Nat) (st : ChunkState S) :
    Iter (ChunkState S) (Int × ChunkState S) :=
  if st.len = 0 then .stop (0, st)
  else
    match W.read st.world (chunkLength csize st.len) with
    | (.failed, w) => .stop (smartiErrorIo, { st with world := w, mem := st.mem.release .variable })
    | (.timedOut, w) =>
      .stop (smartiErrorTimeout, { st with world := w, mem := st.mem.release .variable })
    | (.done bytes, w) => .next (st.advance w (bytes.take (chunkLength csize st.len)))

/-- The part of `smart_driver_transfer` behind the two answers. -/
def localReadBlock (W : Irda S) (fuel csize : Nat) (pcb : Option ProgressCallback)
    (mem : XferMemory) (w : S) : Option (Int × ChunkState S) :=
  let (cancel, mem) := report pcb mem 0
  if cancel then some (driverErrCancelled, ⟨w, mem, 0, mem.size⟩)
  else
    match iterate (localChunk W csize pcb) fuel ⟨w, mem, 0, mem.size⟩ with
    | .stop r => some r
    | .next _ => none

/-- The part of `smartid_dev_xfer_data` behind the allocation. -/
def daemonReadBlock (W : Irda S) (fuel csize : Nat) (mem : XferMemory) (w : S) :
    Option (Int × ChunkState S) :=
  match iterate (daemonChunk W csize) fuel ⟨w, mem, 0, mem.size⟩ with
  | .stop r => some r
  | .next _ => none

/-! ### Reassembly -/

/-- The callback never cancels. -/
def KeepsOn (pcb : Option ProgressCallback) : Prop := ∀ cb, pcb = some cb → ∀ calls, cb calls = false

/-- Without a callback nobody cancels. -/
theorem keepsOn_none : KeepsOn none := by
  intro cb h
  cases h

/-- The block holds the first `n` bytes of the stream, and nothing has been written behind
them. -/
structure Reassembled (stream : List UInt8) (n : Nat) (st : ChunkState S) : Prop where
  pos : st.pos = n
  len : st.len = 0
  block : st.mem.block = fun i => (stream.take n)[i]?

/-- The calls of the progress callback from the position `pos` to the position `stop`. -/
inductive Advances (size : Nat) : Nat → Nat → List (Nat × Nat) → Prop
  | done {pos : Nat} : Advances size pos pos []
  | more {pos next stop : Nat} {calls : List (Nat × Nat)} : pos < next →
      Advances size next stop calls → Advances size pos stop ((next, size) :: calls)

/-- The calls of the progress callback in a complete transfer. -/
structure ProgressComplete (n : Nat) (calls : List (Nat × Nat)) : Prop where
  first : calls.head? = some (0, n)
  increasing : (calls.map Prod.fst).Pairwise (· < ·)
  total : ∀ c ∈ calls, c.2 = n
  last : calls.getLast? = some (n, n)
  once : calls.count (n, n) = 1

section Progress

variable {size pos stop : Nat} {calls : List (Nat × Nat)}

/-- The position does not go back. -/
theorem Advances.le (h : Advances size pos stop calls) : pos ≤ stop := by
  induction h with
  | done => exact Nat.le_refl _
  | more hlt _ ih => exact Nat.le_trans (Nat.le_of_lt hlt) ih

/-- Each call tells of a position that has been reached, and of the size. -/
theorem Advances.mem (h : Advances size pos stop calls) :
    ∀ c ∈ calls, pos < c.1 ∧ c.2 = size := by
  induction h with
  | done =>
    intro c hc
    cases hc
  | more hlt _ ih =>
    intro c hc
    rcases List.mem_cons.mp hc with rfl | hc
    · exact ⟨hlt, rfl⟩
    · exact ⟨Nat.lt_trans hlt (ih c hc).1, (ih c hc).2⟩

/-- **Progress is reported in increasing order.** -/
theorem Advances.increasing (h : Advances size pos stop calls) :
    (calls.map Prod.fst).Pairwise (· < ·) := by
  induction h with
  | done => exact List.Pairwise.nil
  | more hlt hcalls ih =>
    rw [List.map_cons]
    apply List.Pairwise.cons _ ih
    intro next hnext
    obtain ⟨c, hc, rfl⟩ := List.mem_map.mp hnext
    exact (hcalls.mem c hc).1

/-- The last report is of the position reached. -/
theorem Advances.last (h : Advances size pos stop calls) (hlt : pos < stop) :
    calls.getLast? = some (stop, size) := by
  induction h with
  | done => exact absurd hlt (Nat.lt_irrefl _)
  | @more pos next stop calls _ hcalls ih =>
    rcases Nat.eq_or_lt_of_le hcalls.le with rfl | hlt
    · cases hcalls with
      | done => rfl
      | more hlt hcalls => exact absurd (Nat.lt_of_lt_of_le hlt hcalls.le) (Nat.lt_irrefl _)
    · rw [List.getLast?_cons, ih hlt]
      rfl

/-- From the call with the position 0 on. -/
theorem Advances.complete (h : Advances size 0 size calls) (hsize : 0 < size) :
    ProgressComplete size ((0, size) :: calls) := by
  have hlast : ((0, size) :: calls).getLast? = some (size, size) := by
    rw [List.getLast?_cons, h.last hsize]
    rfl
  have hincreasing : (((0, size) :: calls).map Prod.fst).Pairwise (· < ·) := by
    rw [List.map_cons]
    apply List.Pairwise.cons _ h.increasing
    intro next hnext
    obtain ⟨c, hc, rfl⟩ := List.mem_map.mp hnext
    exact (h.mem c hc).1
  have hnodup : ((0, size) :: calls).Nodup :=
    List.Nodup.of_map Prod.fst (hincreasing.imp Nat.ne_of_lt)
  refine ⟨rfl, hincreasing, ?_, hlast, ?_⟩
  · intro c hc
    rcases List.mem_cons.mp hc with rfl | hc
    · rfl
    · exact (h.mem c hc).2
  · exact List.count_eq_one_of_mem hnodup (List.mem_of_getLast? hlast)

end Progress

/-- A report to a callback that does not cancel. -/
theorem report_keepsOn {pcb : Option ProgressCallback} (hpcb : KeepsOn pcb) (mem : XferMemory)
    (pos : Nat) :
    ∃ calls, report pcb mem pos = (false, mem.called calls) ∧
      (pcb.isSome → calls = [(pos, mem.size)]) := by
  cases pcb with
  | none =>
    refine ⟨[], ?_, fun h => absurd h Bool.false_ne_true⟩
    rw [XferMemory.called_nil]
    rfl
  | some cb =>
    refine ⟨[(pos, mem.size)], ?_, fun _ => rfl⟩
    rw [report, hpcb cb rfl]

section Reassembly

variable {W : Irda S} {csize fuel : Nat} {w w' : S} {data : List UInt8}

theorem iterate_daemonChunk {len : Nat} (h : Gathered W.Gets (chunkLength csize) len w data w')
    (hfuel : len < fuel) (mem : XferMemory) (pos : Nat) :
    iterate (daemonChunk W csize) fuel ⟨w, mem, pos, len⟩ =
      .stop (0, ⟨w', mem.store pos data, pos + len, 0⟩) := by
  obtain ⟨fuel, rfl⟩ : ∃ n, fuel = n + 1 := ⟨fuel - 1, by omega⟩
  induction h generalizing mem pos fuel with
  | @done w =>
    have hstop : daemonChunk W csize ⟨w, mem, pos, 0⟩ = .stop (0, ⟨w, mem, pos, 0⟩) := rfl
    rw [XferMemory.store_nil]
    exact iterate_succ_stop hstop fuel
  | @more len w w₁ w' piece data hlen hread hne hle _ ih =>
    have hpiece : 0 < piece.length := List.length_pos_iff.mpr hne
    have hpass : daemonChunk W csize ⟨w, mem, pos, len⟩ =
        .next ⟨w₁, mem.store pos piece, pos + piece.length, len - piece.length⟩ := by
      rw [daemonChunk, if_neg hlen, show W.read w _ = _ from hread]
      dsimp only
      rw [List.take_of_length_le hle]
      rfl
    -- what is stored piece by piece is stored at once
    rw [iterate_succ_next hpass]
    obtain ⟨fuel, rfl⟩ : ∃ n, fuel = n + 1 := ⟨fuel - 1, by omega⟩
    have hpos : pos + piece.length + (len - piece.length) = pos + len := by
      have := chunkLength_le csize len
      omega
    rw [ih _ _ fuel (by omega), XferMemory.store_append, hpos]

/-- Without a cancellation the loop of the local driver stores the same bytes, and tells the
callback where it has got to. -/
theorem iterate_localChunk {pcb : Option ProgressCallback} (hpcb : KeepsOn pcb) {len : Nat}
    (h : Gathered W.Gets (chunkLength csize) len w data w') (hfuel : len < fuel)
    (mem : XferMemory) (pos : Nat) :
    ∃ calls, iterate (localChunk W csize pcb) fuel ⟨w, mem, pos, len⟩ =
        .stop (0, ⟨w', (mem.store pos data).called calls, pos + len, 0⟩) ∧
      (pcb.isSome → Advances mem.size pos (pos + len) calls) := by
  obtain ⟨fuel, rfl⟩ : ∃ n, fuel = n + 1 := ⟨fuel - 1, by omega⟩
  induction h generalizing mem pos fuel with
  | @done w =>
    have hstop : localChunk W csize pcb ⟨w, mem, pos, 0⟩ = .stop (0, ⟨w, mem, pos, 0⟩) := rfl
    refine ⟨[], ?_, fun _ => .done⟩
    rw [XferMemory.store_nil, XferMemory.called_nil]
    exact iterate_succ_stop hstop fuel
  | @more len w w₁ w' piece data hlen hread hne hle _ ih =>
    have hpiece : 0 < piece.length := List.length_pos_iff.mpr hne
    have hposlen : pos + piece.length + (len - piece.length) = pos + len := by
      have := chunkLength_le csize len
      omega
    -- the callback is told the position behind the piece
    obtain ⟨call, hreport, hcall⟩ := report_keepsOn hpcb (mem.store pos piece) (pos + piece.length)
    have hpass : localChunk W csize pcb ⟨w, mem, pos, len⟩ =
        .next ⟨w₁, (mem.store pos piece).called call, pos + piece.length, len - piece.length⟩ := by
      rw [localChunk, if_neg hlen, show W.read w _ = _ from hread]
      dsimp only
      rw [List.take_of_length_le hle]
      have hreport : report pcb (ChunkState.advance ⟨w, mem, pos, len⟩ w₁ piece).mem
          (ChunkState.advance ⟨w, mem, pos, len⟩ w₁ piece).pos = _ := hreport
      rw [hreport]
      rfl
    rw [iterate_succ_next hpass]
    obtain ⟨fuel, rfl⟩ : ∃ n, fuel = n + 1 := ⟨fuel - 1, by omega⟩
    obtain ⟨calls, hrun, hcalls⟩ :=
      ih ((mem.store pos piece).called call) (pos + piece.length) fuel (by omega)
    rw [hposlen] at hrun hcalls
    refine ⟨call ++ calls, ?_, ?_⟩
    · rw [hrun, XferMemory.store_called, XferMemory.store_append, XferMemory.called_append]
    · intro hsome
      rw [hcall hsome]
      exact .more (by omega) (hcalls hsome)

/-- **Both loops reassemble the stream.**  However the reads cut it, the loop ends with the
first `n` bytes in the block, each at its position. -/
theorem chunks_reassemble {W : Irda S} {csize n : Nat} (hcsize : 2 ≤ csize ∧ csize ≤ 32)
    (hn : 0 < n) {stream : List UInt8} {w : S} (hstream : HandsOut W.Gets stream w)
    (hlen : n ≤ stream.length) {mem : XferMemory} (hsize : mem.size = n)
    (hblock : mem.block = fun _ => none) (hprogress : mem.progress = [])
    {pcb : Option ProgressCallback} (hpcb : KeepsOn pcb) {fuel : Nat} (hfuel : n < fuel) :
    (∃ st, localReadBlock W fuel csize pcb mem w = some (0, st) ∧ Reassembled stream n st ∧
      (pcb.isSome → ProgressComplete n st.mem.progress)) ∧
    ∃ st, daemonReadBlock W fuel csize mem w = some (0, st) ∧ Reassembled stream n st := by
  have hpos : 0 < csize := Nat.lt_of_lt_of_le Nat.two_pos hcsize.1
  obtain ⟨w', hgathered⟩ := gathered_chunks hpos hstream hlen
  -- the block was empty, and the bytes fill it from its beginning
  have hstored : (mem.store 0 (stream.take n)).block = fun i => (stream.take n)[i]? := by
    funext i
    show (if _ then _ else mem.block i) = _
    rw [hblock]
    split
    · rfl
    next hout =>
      rw [List.getElem?_eq_none]
      omega
  constructor
  · obtain ⟨call, hreport, hcall⟩ := report_keepsOn hpcb mem 0
    obtain ⟨calls, hrun, hcalls⟩ := iterate_localChunk hpcb hgathered hfuel (mem.called call) 0
    rw [Nat.zero_add] at hrun hcalls
    refine ⟨⟨w', ((mem.called call).store 0 (stream.take n)).called calls, n, 0⟩, ?_,
      ⟨rfl, rfl, hstored⟩, ?_⟩
    · rw [localReadBlock, hreport]
      dsimp only
      rw [if_neg Bool.false_ne_true, show (mem.called call).size = n from hsize, hrun]
    · intro hsome
      show ProgressComplete n (mem.progress ++ call ++ calls)
      rw [hprogress, hcall hsome, hsize]
      have hcalls : Advances mem.size 0 n calls := hcalls hsome
      rw [hsize] at hcalls
      exact hcalls.complete hn
  · refine ⟨⟨w', mem.store 0 (stream.take n), n, 0⟩, ?_, ⟨rfl, rfl, hstored⟩⟩
    rw [daemonReadBlock, hsize, iterate_daemonChunk hgathered hfuel, Nat.zero_add]

end Reassembly

/-- Three bytes, of which two are asked for at a time. -/
theorem chunks_reassemble_three :
    (∃ st, localReadBlock (queueHost oneByte).toIrda 4 2 (some fun _ => false)
        ((XferMemory.entered .before 3).malloc true) [1, 2, 3] = some (0, st) ∧
      Reassembled [1, 2, 3] 3 st ∧ (true → ProgressComplete 3 st.mem.progress)) ∧
    ∃ st, daemonReadBlock (queueHost oneByte).toIrda 4 2
        ((XferMemory.entered .before 3).malloc true) [1, 2, 3] = some (0, st) ∧
      Reassembled [1, 2, 3] 3 st := by
  apply chunks_reassemble
  · decide
  · decide
  · exact queueHost_handsOut oneByte [1, 2, 3]
  · decide
  · rfl
  · rfl
  · rfl
  · rintro _ ⟨⟩ calls
    rfl
  · decide

/-! ### The end of a loop -/

/-- How the reading of a block ends. -/
inductive BlockEnd
  | complete
  | failed
  | timedOut
  | cancelled
  deriving DecidableEq

def BlockEnd.localCode : BlockEnd → Int
  | complete => driverErrSuccess
  | failed => driverErrRead
  | timedOut => driverErrTimeout
  | cancelled => driverErrCancelled

/-- There is nobody who cancels in the daemon. -/
def BlockEnd.daemonCode : BlockEnd → Int
  | failed => smartiErrorIo
  | timedOut => smartiErrorTimeout
  | complete | cancelled => 0

/-- The callback cancels the transfer in the last of these calls. -/
def Cancels (pcb : Option ProgressCallback) (calls : List (Nat × Nat)) : Prop :=
  ∃ cb, pcb = some cb ∧ cb calls = true

/-- What the reads of a block come to: `len` bytes of it are to come, and `calls` have been
made of the callback. -/
inductive ReadsEnd (W : Irda S) (csize : Nat) (pcb : Option ProgressCallback) (size : Nat) :
    BlockEnd → S → Nat → Nat → List (Nat × Nat) → Prop
  | complete {w : S} {pos : Nat} {calls : List (Nat × Nat)} :
      ReadsEnd W csize pcb size .complete w pos 0 calls
  | failed {w w' : S} {pos len : Nat} {calls : List (Nat × Nat)} : len ≠ 0 →
      W.read w (chunkLength csize len) = (.failed, w') →
      ReadsEnd W csize pcb size .failed w pos len calls
  | timedOut {w w' : S} {pos len : Nat} {calls : List (Nat × Nat)} : len ≠ 0 →
      W.read w (chunkLength csize len) = (.timedOut, w') →
      ReadsEnd W csize pcb size .timedOut w pos len calls
  | cancelled {w w' : S} {bytes : List UInt8} {pos len nt : Nat} {calls : List (Nat × Nat)} :
      len ≠ 0 → W.read w (chunkLength csize len) = (.done bytes, w') →
      nt = (bytes.take (chunkLength csize len)).length →
      Cancels pcb (calls ++ [(pos + nt, size)]) →
      ReadsEnd W csize pcb size .cancelled w pos len calls
  | more {e : BlockEnd} {w w' : S} {bytes : List UInt8} {pos len nt : Nat}
      {calls : List (Nat × Nat)} :
      len ≠ 0 → W.read w (chunkLength csize len) = (.done bytes, w') →
      nt = (bytes.take (chunkLength csize len)).length →
      ¬Cancels pcb (calls ++ [(pos + nt, size)]) →
      ReadsEnd W csize pcb size e w' (pos + nt) (len - nt) (calls ++ [(pos + nt, size)]) →
      ReadsEnd W csize pcb size e w pos len calls

/-- Before the last byte a read fails or times out, or the callback cancels. -/
def Interrupted (W : Irda S) (csize : Nat) (pcb : Option ProgressCallback) (mem : XferMemory)
    (w : S) (n : Nat) : Prop :=
  ∃ e, e ≠ .complete ∧ ReadsEnd W csize pcb mem.size e w 0 n mem.progress

/-- All the bytes come before anything of this happens. -/
def AllArrive (W : Irda S) (csize : Nat) (pcb : Option ProgressCallback) (mem : XferMemory)
    (w : S) (n : Nat) : Prop :=
  ReadsEnd W csize pcb mem.size .complete w 0 n mem.progress

/-- The memory that the caller knows of is as before. -/
structure XferMemory.Untouched (m m' : XferMemory) : Prop where
  buffer : m'.buffer = m.buffer
  size : m'.size = m.size
  allocated : m'.allocated = m.allocated
  frees : m'.frees = m.frees

/-- Nothing has been done. -/
theorem XferMemory.Untouched.refl (m : XferMemory) : m.Untouched m := ⟨rfl, rfl, rfl, rfl⟩

/-- One part after the other. -/
theorem XferMemory.Untouched.trans {m m' m'' : XferMemory} (h : m.Untouched m')
    (h' : m'.Untouched m'') : m.Untouched m'' :=
  ⟨h'.buffer.trans h.buffer, h'.size.trans h.size, h'.allocated.trans h.allocated,
    h'.frees.trans h.frees⟩

/-- The memory when the daemon has freed the wrong pointer. -/
def XferMemory.Released (m m' : XferMemory) : Prop := (m.release .variable).Untouched m'

/-- What has been released in the end has been untouched until then. -/
theorem XferMemory.Untouched.released {m m' m'' : XferMemory} (h : m.Untouched m')
    (h' : m'.Released m'') : m.Released m'' := by
  refine ⟨h'.buffer, h'.size, h'.allocated.trans h.allocated, h'.frees.trans ?_⟩
  show m'.frees ++ _ = m.frees ++ _
  rw [h.frees]

section Ends

variable {W : Irda S} {csize size pos len : Nat} {pcb : Option ProgressCallback} {w w' : S}
  {mem : XferMemory} {e : BlockEnd} {calls : List (Nat × Nat)} {bytes : List UInt8}

/-- A report to any callback: it may cancel, and the memory is untouched. -/
theorem report_cases (pcb : Option ProgressCallback) (mem : XferMemory) (pos : Nat)
    {calls : List (Nat × Nat)} (hcalls : ∀ cb, pcb = some cb → mem.progress = calls) :
    ∃ cancel mem', report pcb mem pos = (cancel, mem') ∧ mem.Untouched mem' ∧
      (cancel = true ↔ Cancels pcb (calls ++ [(pos, mem.size)])) ∧
      ∀ cb, pcb = some cb → mem'.progress = calls ++ [(pos, mem.size)] := by
  -- without a callback nothing is cancelled and nothing is reported
  cases pcb with
  | none =>
    refine ⟨false, mem, rfl, .refl mem, ?_, fun cb h => (nomatch h)⟩
    constructor
    · intro h
      cases h
    · rintro ⟨cb, h, -⟩
      cases h
  | some cb =>
    have hprogress : (mem.called [(pos, mem.size)]).progress = calls ++ [(pos, mem.size)] := by
      rw [XferMemory.called, hcalls cb rfl]
    refine ⟨_, _, rfl, ⟨rfl, rfl, rfl, rfl⟩, ?_, fun _ _ => hprogress⟩
    rw [hprogress]
    constructor
    · intro h
      exact ⟨cb, rfl, h⟩
    · rintro ⟨_, ⟨⟩, h⟩
      exact h

theorem localChunk_failed (hlen : len ≠ 0)
    (hread : W.read w (chunkLength csize len) = (.failed, w')) :
    localChunk W csize pcb ⟨w, mem, pos, len⟩ = .stop (driverErrRead, ⟨w', mem, pos, len⟩) := by
  rw [localChunk, if_neg hlen, hread]

/-- The read times out. -/
theorem localChunk_timedOut (hlen : len ≠ 0)
    (hread : W.read w (chunkLength csize len) = (.timedOut, w')) :
    localChunk W csize pcb ⟨w, mem, pos, len⟩ =
      .stop (driverErrTimeout, ⟨w', mem, pos, len⟩) := by
  rw [localChunk, if_neg hlen, hread]

/-- A pass of the local loop in which bytes have been received. -/
theorem localChunk_done (hlen : len ≠ 0)
    (hread : W.read w (chunkLength csize len) = (.done bytes, w')) (pos : Nat)
    (hcalls : ∀ cb, pcb = some cb → mem.progress = calls) {nt : Nat}
    (hnt : nt = (bytes.take (chunkLength csize len)).length) :
    ∃ mem', mem.Untouched mem' ∧
      (∀ cb, pcb = some cb → mem'.progress = calls ++ [(pos + nt, mem.size)]) ∧
      (Cancels pcb (calls ++ [(pos + nt, mem.size)]) →
        localChunk W csize pcb ⟨w, mem, pos, len⟩ =
          .stop (driverErrCancelled, ⟨w', mem', pos + nt, len - nt⟩)) ∧
      (¬Cancels pcb (calls ++ [(pos + nt, mem.size)]) →
        localChunk W csize pcb ⟨w, mem, pos, len⟩ = .next ⟨w', mem', pos + nt, len - nt⟩) := by
  subst hnt
  obtain ⟨cancel, mem', hreport, hmem', hcancel, hprogress⟩ :=
    report_cases pcb (mem.store pos (bytes.take (chunkLength csize len)))
      (pos + (bytes.take (chunkLength csize len)).length) hcalls
  have hreport : report pcb
      (ChunkState.advance ⟨w, mem, pos, len⟩ w' (bytes.take (chunkLength csize len))).mem
      (ChunkState.advance ⟨w, mem, pos, len⟩ w' (bytes.take (chunkLength csize len))).pos =
        (cancel, mem') := hreport
  refine ⟨mem', ⟨hmem'.buffer, hmem'.size, hmem'.allocated, hmem'.frees⟩, hprogress, ?_, ?_⟩
  all_goals
    intro h
    rw [localChunk, if_neg hlen, hread]
    dsimp only
    rw [hreport]
    dsimp only
  · rw [if_pos (hcancel.mpr h)]
    rfl
  · rw [if_neg (mt hcancel.mp h)]
    rfl

/-- The loop of the local driver ends as the reads do. -/
theorem localChunk_returns_of_readsEnd (h : ReadsEnd W csize pcb size e w pos len calls)
    (hsize : mem.size = size) (hcalls : ∀ cb, pcb = some cb → mem.progress = calls) :
    ∃ st, Returns (localChunk W csize pcb) ⟨w, mem, pos, len⟩ (e.localCode, st) ∧
      mem.Untouched st.mem := by
  induction h generalizing mem with
  | complete => exact ⟨_, Returns.of_stop rfl, .refl mem⟩
  | @failed w w' pos len calls hlen hread =>
    exact ⟨⟨w', mem, pos, len⟩, Returns.of_stop (localChunk_failed hlen hread), .refl mem⟩
  | @timedOut w w' pos len calls hlen hread =>
    exact ⟨⟨w', mem, pos, len⟩, Returns.of_stop (localChunk_timedOut hlen hread), .refl mem⟩
  | cancelled hlen hread hnt hcancels =>
    obtain ⟨mem', hmem', -, hstop, -⟩ := localChunk_done hlen hread _ hcalls hnt
    rw [hsize] at hstop
    exact ⟨_, Returns.of_stop (hstop hcancels), hmem'⟩
  | more hlen hread hnt hcancels _ ih =>
    obtain ⟨mem', hmem', hprogress, -, hnext⟩ := localChunk_done hlen hread _ hcalls hnt
    rw [hsize] at hprogress hnext
    obtain ⟨st, hreturns, hst⟩ := ih (hmem'.size.trans hsize) hprogress
    exact ⟨st, hreturns.head (hnext hcancels), hmem'.trans hst⟩

/-- Where it ends, the reads have ended so. -/
theorem readsEnd_of_localChunk {st : ChunkState S} {rc : Int} {fuel : Nat}
    (h : iterate (localChunk W csize pcb) fuel ⟨w, mem, pos, len⟩ = .stop (rc, st))
    (hcalls : ∀ cb, pcb = some cb → mem.progress = calls) :
    ∃ e, ReadsEnd W csize pcb mem.size e w pos len calls ∧ rc = e.localCode := by
  induction fuel generalizing w mem pos len calls with
  | zero => cases h
  | succ fuel ih =>
    by_cases hlen : len = 0
    · subst hlen
      cases h
      exact ⟨.complete, .complete, rfl⟩
    rcases hread : W.read w (chunkLength csize len) with ⟨_ | _ | bytes, w'⟩
    · rw [iterate_succ_stop (localChunk_failed hlen hread)] at h
      cases h
      exact ⟨.failed, .failed hlen hread, rfl⟩
    · rw [iterate_succ_stop (localChunk_timedOut hlen hread)] at h
      cases h
      exact ⟨.timedOut, .timedOut hlen hread, rfl⟩
    -- a chunk has come: the callback decides whether the loop goes on
    obtain ⟨mem', hmem', hprogress, hcancelled, hnext⟩ := localChunk_done hlen hread pos hcalls rfl
    by_cases hcancels : Cancels pcb
      (calls ++ [(pos + (bytes.take (chunkLength csize len)).length, mem.size)])
    · rw [iterate_succ_stop (hcancelled hcancels)] at h
      cases h
      exact ⟨.cancelled, .cancelled hlen hread rfl hcancels, rfl⟩
    · rw [iterate_succ_next (hnext hcancels)] at h
      obtain ⟨e, he, rfl⟩ := ih h hprogress
      rw [hmem'.size] at he
      exact ⟨e, .more hlen hread rfl hcancels he, rfl⟩

theorem untouched_of_localChunk {st : ChunkState S} {rc : Int} {fuel : Nat}
    (h : iterate (localChunk W csize pcb) fuel ⟨w, mem, pos, len⟩ = .stop (rc, st))
    (hcalls : ∀ cb, pcb = some cb → mem.progress = calls) : mem.Untouched st.mem := by
  obtain ⟨e, he, rfl⟩ := readsEnd_of_localChunk h hcalls
  obtain ⟨st', hst', hmem⟩ := localChunk_returns_of_readsEnd he rfl hcalls
  cases (iterate_stop_returns h).unique hst'
  exact hmem

/-! ### The daemon -/

/-- Without a callback nobody cancels. -/
theorem not_cancels_none : ¬Cancels none calls := by
  rintro ⟨cb, h, -⟩
  cases h

/-- The read fails, and the variable of the caller is freed. -/
theorem daemonChunk_failed (hlen : len ≠ 0)
    (hread : W.read w (chunkLength csize len) = (.failed, w')) :
    daemonChunk W csize ⟨w, mem, pos, len⟩ =
      .stop (smartiErrorIo, ⟨w', mem.release .variable, pos, len⟩) := by
  rw [daemonChunk, if_neg hlen, hread]

/-- The same when the read times out. -/
theorem daemonChunk_timedOut (hlen : len ≠ 0)
    (hread : W.read w (chunkLength csize len) = (.timedOut, w')) :
    daemonChunk W csize ⟨w, mem, pos, len⟩ =
      .stop (smartiErrorTimeout, ⟨w', mem.release .variable, pos, len⟩) := by
  rw [daemonChunk, if_neg hlen, hread]

/-- Bytes have been read. -/
theorem daemonChunk_done (hlen : len ≠ 0)
    (hread : W.read w (chunkLength csize len) = (.done bytes, w')) (mem : XferMemory) (pos : Nat)
    {nt : Nat} (hnt : nt = (bytes.take (chunkLength csize len)).length) :
    ∃ mem', mem.Untouched mem' ∧
      daemonChunk W csize ⟨w, mem, pos, len⟩ = .next ⟨w', mem', pos + nt, len - nt⟩ := by
  subst hnt
  refine ⟨mem.store pos (bytes.take (chunkLength csize len)), ⟨rfl, rfl, rfl, rfl⟩, ?_⟩
  rw [daemonChunk, if_neg hlen, hread]
  rfl

/-- The loop of the daemon ends as the reads do, and frees on every end but the good one. -/
theorem daemonChunk_returns_of_readsEnd (h : ReadsEnd W csize none size e w pos len calls)
    (mem : XferMemory) :
    ∃ st, Returns (daemonChunk W csize) ⟨w, mem, pos, len⟩ (e.daemonCode, st) ∧
      if e = .complete then mem.Untouched st.mem else mem.Released st.mem := by
  induction h generalizing mem with
  | complete => exact ⟨_, Returns.of_stop rfl, .refl mem⟩
  | @failed w w' pos len calls hlen hread =>
    exact ⟨⟨w', mem.release .variable, pos, len⟩,
      Returns.of_stop (daemonChunk_failed hlen hread), .refl _⟩
  | @timedOut w w' pos len calls hlen hread =>
    exact ⟨⟨w', mem.release .variable, pos, len⟩,
      Returns.of_stop (daemonChunk_timedOut hlen hread), .refl _⟩
  | cancelled _ _ _ hcancels => exact absurd hcancels not_cancels_none
  | @more e _ _ _ _ _ _ _ hlen hread hnt _ _ ih =>
    obtain ⟨mem', hmem', hnext⟩ := daemonChunk_done hlen hread mem _ hnt
    obtain ⟨st, hreturns, hst⟩ := ih mem'
    refine ⟨st, hreturns.head hnext, ?_⟩
    -- the memory is that of the rest of the loop: complete, or released
    by_cases he : e = .complete
    · rw [if_pos he] at hst ⊢
      exact hmem'.trans hst
    · rw [if_neg he] at hst ⊢
      exact hmem'.released hst

/-- Where it ends, the reads have ended so. -/
theorem readsEnd_of_daemonChunk {st : ChunkState S} {rc : Int} {fuel : Nat}
    (h : iterate (daemonChunk W csize) fuel ⟨w, mem, pos, len⟩ = .stop (rc, st))
    (size : Nat) (calls : List (Nat × Nat)) :
    ∃ e, ReadsEnd W csize none size e w pos len calls ∧ rc = e.daemonCode := by
  induction fuel generalizing w mem pos len calls with
  | zero => cases h
  | succ fuel ih =>
    by_cases hlen : len = 0
    · subst hlen
      cases h
      exact ⟨.complete, .complete, rfl⟩
    rcases hread : W.read w (chunkLength csize len) with ⟨_ | _ | bytes, w'⟩
    · rw [iterate_succ_stop (daemonChunk_failed hlen hread)] at h
      cases h
      exact ⟨.failed, .failed hlen hread, rfl⟩
    · rw [iterate_succ_stop (daemonChunk_timedOut hlen hread)] at h
      cases h
      exact ⟨.timedOut, .timedOut hlen hread, rfl⟩
    obtain ⟨mem', -, hnext⟩ := daemonChunk_done hlen hread mem pos rfl
    rw [iterate_succ_next hnext] at h
    obtain ⟨e, he, rfl⟩ := ih h _
    exact ⟨e, .more hlen hread rfl not_cancels_none he, rfl⟩

/-- What the loop of the daemon leaves behind. -/
theorem memory_of_daemonChunk {st : ChunkState S} {fuel : Nat}
    (h : iterate (daemonChunk W csize) fuel ⟨w, mem, pos, len⟩ = .stop (e.daemonCode, st))
    (he : ReadsEnd W csize none size e w pos len calls) :
    if e = .complete then mem.Untouched st.mem else mem.Released st.mem := by
  obtain ⟨st', hst', hmem⟩ := daemonChunk_returns_of_readsEnd he mem
  cases (iterate_stop_returns h).unique hst'
  exact hmem

/-! ### A device that goes away -/

/-- The socket only reports the end of the stream. -/
def Irda.Silent (W : Irda S) (w : S) : Prop :=
  ∀ (asked : List Nat) (n : Nat),
    (W.read (asked.foldl (fun w n => (W.read w n).2) w) n).1 = .done []

/-- From some point on the socket only reports the end of the stream, whatever it is asked
for. -/
inductive Irda.FallsSilent (W : Irda S) : S → Prop
  | silent {w : S} : W.Silent w → Irda.FallsSilent W w
  | later {w : S} : (∀ n, 0 < n → Irda.FallsSilent W (W.read w n).2) → Irda.FallsSilent W w

/-- The loop that is entered in `s` ends, and the code is one of an error. -/
def EndsWithError (f : ChunkState S → Iter (ChunkState S) (Int × ChunkState S))
    (s : ChunkState S) : Prop :=
  ∃ rc st, Returns f s (rc, st) ∧ rc ≠ 0

/-- A silent device stays silent. -/
theorem Irda.Silent.read (h : W.Silent w) (n : Nat) :
    ∃ w', W.read w n = (.done [], w') ∧ W.Silent w' := by
  have hend : (W.read w n).1 = .done [] := h [] n
  refine ⟨(W.read w n).2, by rw [← hend], fun asked m => ?_⟩
  exact h (n :: asked) m

/-- **The silence is endless for the loops**: with bytes to come and nobody who cancels, the
reading of the block does not end. -/
theorem Irda.Silent.not_readsEnd (hsilent : W.Silent w) (hlen : len ≠ 0) (hpcb : KeepsOn pcb) :
    ¬ReadsEnd W csize pcb size e w pos len calls := by
  intro h
  induction h with
  | complete => exact hlen rfl
  | failed _ hread =>
    obtain ⟨w', hread', -⟩ := hsilent.read (chunkLength csize _)
    rw [hread'] at hread
    cases hread
  | timedOut _ hread =>
    obtain ⟨w', hread', -⟩ := hsilent.read (chunkLength csize _)
    rw [hread'] at hread
    cases hread
  | cancelled _ _ _ hcancels =>
    obtain ⟨cb, hcb, hcancels⟩ := hcancels
    rw [hpcb cb hcb] at hcancels
    cases hcancels
  | more _ hread hnt _ _ ih =>
    obtain ⟨w', hread', hw'⟩ := hsilent.read (chunkLength csize _)
    rw [hread'] at hread
    cases hread
    -- no byte has come, and as many are to come as before
    apply ih hw'
    rw [hnt, List.take_nil]
    exact hlen

/-- Only a complete block is a success of the local driver. -/
theorem localCode_eq_zero_iff (e : BlockEnd) : e.localCode = 0 ↔ e = .complete := by
  cases e <;> decide

/-- Only a complete block is a success of the daemon. -/
theorem daemonCode_eq_zero_iff (h : ReadsEnd W csize none size e w pos len calls) :
    e.daemonCode = 0 ↔ e = .complete := by
  have hcancelled : e ≠ .cancelled := by
    rintro rfl
    -- without a callback nobody cancels
    generalize hend : BlockEnd.cancelled = e at h
    induction h with
    | cancelled _ _ _ hcancels => exact not_cancels_none hcancels
    | more _ _ _ _ _ ih => exact ih hend
    | _ => cases hend
  cases e with
  | cancelled => exact absurd rfl hcancelled
  | _ => decide

/-- **When the local loop ends**, and with which code. -/
theorem localChunk_returns_iff (hcalls : ∀ cb, pcb = some cb → mem.progress = calls) {rc : Int} :
    (∃ st, Returns (localChunk W csize pcb) ⟨w, mem, pos, len⟩ (rc, st)) ↔
      ∃ e, ReadsEnd W csize pcb mem.size e w pos len calls ∧ rc = e.localCode := by
  constructor
  · rintro ⟨st, h⟩
    obtain ⟨fuel, h⟩ := h.exists_iterate
    exact readsEnd_of_localChunk h hcalls
  · rintro ⟨e, he, rfl⟩
    obtain ⟨st, hst, -⟩ := localChunk_returns_of_readsEnd he rfl hcalls
    exact ⟨st, hst⟩

/-- **When the loop of the daemon ends**, and with which code. -/
theorem daemonChunk_returns_iff {rc : Int} :
    (∃ st, Returns (daemonChunk W csize) ⟨w, mem, pos, len⟩ (rc, st)) ↔
      ∃ e, ReadsEnd W csize none size e w pos len calls ∧ rc = e.daemonCode := by
  constructor
  · rintro ⟨st, h⟩
    obtain ⟨fuel, h⟩ := h.exists_iterate
    exact readsEnd_of_daemonChunk h size calls
  · rintro ⟨e, he, rfl⟩
    obtain ⟨st, hst, -⟩ := daemonChunk_returns_of_readsEnd he mem
    exact ⟨st, hst⟩

/-- A loop that returns the code of each way in which the reads can end. -/
theorem endsWithError_iff_of_returns
    {f : ChunkState S → Iter (ChunkState S) (Int × ChunkState S)} {st : ChunkState S}
    {code : BlockEnd → Int} {n : Nat}
    (hreturns : ∀ rc, (∃ st', Returns f st (rc, st')) ↔
      ∃ e, ReadsEnd W csize pcb mem.size e w 0 n mem.progress ∧ rc = code e)
    (hcode : ∀ e, ReadsEnd W csize pcb mem.size e w 0 n mem.progress →
      (code e = 0 ↔ e = .complete)) :
    (EndsWithError f st ↔ Interrupted W csize pcb mem w n) ∧
      ((∃ st', Returns f st (0, st')) ↔ AllArrive W csize pcb mem w n) := by
  constructor
  · constructor
    · rintro ⟨rc, st', hst, hrc⟩
      obtain ⟨e, he, rfl⟩ := (hreturns rc).mp ⟨st', hst⟩
      exact ⟨e, mt (hcode e he).mpr hrc, he⟩
    · rintro ⟨e, hne, he⟩
      obtain ⟨st', hst⟩ := (hreturns _).mpr ⟨e, he, rfl⟩
      exact ⟨_, st', hst, mt (hcode e he).mp hne⟩
  · rw [hreturns]
    constructor
    · rintro ⟨e, he, hrc⟩
      rw [(hcode e he).mp hrc.symm] at he
      exact he
    · intro h
      exact ⟨_, h, ((hcode _ h).mpr rfl).symm⟩

/-- **When the loops end**: with an error exactly if a read fails or times out, or the callback
cancels, while there are bytes to come; without one exactly if all of them have come.  The end
of the stream is neither. -/
theorem chunks_endWithError_iff (W : Irda S) (csize : Nat) (pcb : Option ProgressCallback)
    (mem : XferMemory) (w : S) (n : Nat) :
    ((EndsWithError (localChunk W csize pcb) ⟨w, mem, 0, n⟩ ↔ Interrupted W csize pcb mem w n) ∧
      ((∃ st, Returns (localChunk W csize pcb) ⟨w, mem, 0, n⟩ (0, st)) ↔
        AllArrive W csize pcb mem w n)) ∧
    ((EndsWithError (daemonChunk W csize) ⟨w, mem, 0, n⟩ ↔ Interrupted W csize none mem w n) ∧
      ((∃ st, Returns (daemonChunk W csize) ⟨w, mem, 0, n⟩ (0, st)) ↔
        AllArrive W csize none mem w n)) := by
  constructor
  · apply endsWithError_iff_of_returns
    · exact fun rc => localChunk_returns_iff fun _ _ => rfl
    · exact fun e _ => localCode_eq_zero_iff e
  · apply endsWithError_iff_of_returns
    · exact fun rc => daemonChunk_returns_iff
    · exact fun e he => daemonCode_eq_zero_iff he

end Ends

/-! ### A device that goes away after one byte -/

/-- A device that has handed out everything is silent. -/
theorem queueHost_silent : (queueHost oneByte).toIrda.Silent [] := by
  have hempty : ∀ asked : List Nat,
      asked.foldl (fun w n => ((queueHost oneByte).toIrda.read w n).2) [] = [] := by
    intro asked
    induction asked with
    | nil => rfl
    | cons n asked ih =>
      rw [List.foldl_cons, show ((queueHost oneByte).toIrda.read [] n).2 = [] from List.drop_nil]
      exact ih
  intro asked n
  rw [hempty]
  exact congrArg IoResult.done List.take_nil

/-- After its one byte this device is silent. -/
theorem queueHost_fallsSilent : (queueHost oneByte).toIrda.FallsSilent [7] := by
  refine .later fun n hn => .silent ?_
  rw [show ((queueHost oneByte).toIrda.read [7] n).2 = [] from List.drop_of_length_le hn]
  exact queueHost_silent

/-- Of two bytes one comes. -/
theorem not_readsEnd_oneOfTwo (e : BlockEnd) (pos : Nat) (calls : List (Nat × Nat)) :
    ¬ReadsEnd (queueHost oneByte).toIrda 8 none 2 e [7] pos 2 calls := by
  intro h
  cases h with
  | failed _ hread => cases hread
  | timedOut _ hread => cases hread
  | cancelled _ _ _ hcancels => exact not_cancels_none hcancels
  | more _ hread hnt _ h =>
    cases hread
    subst hnt
    exact queueHost_silent.not_readsEnd Nat.one_ne_zero keepsOn_none h

/-- Neither loop ends when the device goes away after one of two bytes. -/
theorem not_chunks_endWithError :
    ¬((queueHost oneByte).toIrda.FallsSilent [7] →
      EndsWithError (localChunk (queueHost oneByte).toIrda 8 none)
        ⟨[7], (XferMemory.entered .null 2).malloc true, 0, 2⟩) ∧
    ¬((queueHost oneByte).toIrda.FallsSilent [7] →
      EndsWithError (daemonChunk (queueHost oneByte).toIrda 8)
        ⟨[7], (XferMemory.entered .null 2).malloc true, 0, 2⟩) := by
  constructor
  · intro hends
    obtain ⟨rc, st, hst, -⟩ := hends queueHost_fallsSilent
    obtain ⟨e, he, -⟩ := (localChunk_returns_iff fun _ _ => rfl).mp ⟨st, hst⟩
    exact not_readsEnd_oneOfTwo e 0 [] he
  · intro hends
    obtain ⟨rc, st, hst, -⟩ := hends queueHost_fallsSilent
    obtain ⟨e, he, -⟩ := daemonChunk_returns_iff.mp ⟨st, hst⟩
    exact not_readsEnd_oneOfTwo e 0 [] he

end BenthosDc

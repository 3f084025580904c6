/-
BenthosDc/TransferCleanup.lean

What a transfer that fails leaves behind (`smart_driver_transfer` of `smart_driver.c`,
`smartid_dev_xfer_data` of `smartid_device.c`).

Both hand out a block through the caller's variables `*buffer` and `*size`, and both have
many ways out.  The caller's variables and the arguments of `free` are compared with what
has been allocated:

* the local driver frees the block where the two lengths differ, and nowhere else;
* the daemon frees `buf` where it means `* buf`.

`free` is taken to return, whatever it is given.  The errors in the device structure are
those of `smartDriverTransfer`, and left out here.
-/
import BenthosDc.BlockTransfers

namespace BenthosDc

open CString Delivery Loop

variable {S : Type}

/-! ### Commands

A command gives an answer or a code.  The codes differ between the two programs.
-/

/-- A command and its answer; `ans` is what the memory for the answer holds before. -/
def Irda.command (W : Irda S) (codes : CmdCodes) (cmd ans : List UInt8) (w : S) :
    Except Int (List UInt8) × S :=
  match W.write w cmd with
  | (.failed, w) => (.error codes.write, w)
  | (.timedOut, w) => (.error codes.timeout, w)
  | (.done _, w) =>
    match W.read w ans.length with
    | (.failed, w) => (.error codes.read, w)
    | (.timedOut, w) => (.error codes.timeout, w)
    | (.done bytes, w) => (.ok (received bytes ans), w)

/-- The four bytes of `nb` before it is set. -/
def Irda.unset (W : Irda S) (w : S) : List UInt8 := (List.range 4).map (W.junk w)

/-! ### The local driver

The variables of the caller are written as soon as the size is known, and cleared again only
where the two lengths differ.
-/

/-- The device structure, as far as a transfer reads it. -/
structure LocalDevice where
  /-- Whether `dev->s` is set. -/
  opened : Bool
  csize : Nat

/-- A command of the local driver, which has no socket before the device is opened. -/
def Irda.localCommand (W : Irda S) (dev : LocalDevice) (cmd ans : List UInt8) (w : S) :
    Except Int (List UInt8) × S :=
  if dev.opened then W.command ⟨driverErrWrite, driverErrRead, driverErrTimeout⟩ cmd ans w
  else (.error driverErrInvalid, w)

/-- What the device callback gives back. -/
structure TokenAnswer where
  rc : Int
  stoken : Option Text
  freeToken : Bool

/-- The token of the device callback, and its memory. -/
def localToken (dcb : Option TokenAnswer) (mem : XferMemory) : Except Int Nat × XferMemory :=
  match dcb with
  | none => (.ok 0, mem)
  | some answer =>
    if answer.rc ≠ driverErrSuccess then (.error answer.rc, mem)
    else
      match answer.stoken with
      | none => (.ok 0, mem)
      | some stoken =>
        match strtoul (cstr stoken) with
        | none => (.error driverErrInvalid, mem)
        | some (token, _) =>
          (.ok (u32 token),
            if answer.freeToken then { mem with frees := mem.frees ++ [.token] } else mem)

/-- The part of `smart_driver_transfer` behind the size. -/
def localAllocate (W : Irda S) (mallocs : Nat → Bool) (fuel : Nat) (dev : LocalDevice)
    (token : Nat) (pcb : Option ProgressCallback) (mem : XferMemory) (w : S) :
    Option (Int × XferMemory × S) :=
  let mem := mem.malloc (mallocs mem.size)
  if mem.buffer = .null then some (driverErrInternal, mem, w)
  else
    match W.localCommand dev (tokenCmd 0xc4 token) (W.unset w) w with
    | (.error _, w) => some (-1, mem, w)
    | (.ok nb, w) =>
      if uint32Le nb 0 ≠ u32 (mem.size + 4) then some (driverErrInternal, mem.release .block, w)
      else
        match localReadBlock W fuel dev.csize pcb mem w with
        | some (rc, st) => some (rc, st.mem, st.world)
        | none => none

/-- `smart_driver_transfer`; `mallocs` is for which sizes there is memory. -/
def localTransfer (W : Irda S) (mallocs : Nat → Bool) (fuel : Nat) (dev : LocalDevice)
    (dcb : Option TokenAnswer) (pcb : Option ProgressCallback) (mem : XferMemory) (w : S) :
    Option (Int × XferMemory × S) :=
  match localToken dcb mem with
  | (.error rc, mem) => some (rc, mem, w)
  | (.ok token, mem) =>
    -- the answer is received in the caller's variable
    match W.localCommand dev (tokenCmd 0xc6 token) (uint32Bytes mem.size) w with
    | (.error _, w) => some (-1, mem, w)
    | (.ok ans, w) =>
      let mem := { mem with size := uint32Le ans 0 }
      if mem.size = 0 then some (0, mem, w)
      else localAllocate W mallocs fuel dev token pcb mem w

/-! ### The daemon

The same block, in the words of the daemon.
-/

/-- The part of `smartid_dev_xfer_data` behind the answer. -/
def daemonAllocate (W : Irda S) (mallocs : Nat → Bool) (fuel csize nb : Nat) (mem : XferMemory)
    (w : S) : Option (Int × XferMemory × S) :=
  if nb = 4 then some (smartiStatusNoData, { mem with buffer := .null, size := 0 }, w)
  else if nb < 4 then some (smartiErrorDevice, mem, w)
  else
    let mem := { mem with size := nb - 4 }
    let mem := mem.malloc (mallocs mem.size)
    if mem.buffer = .null then some (smartiErrorInternal, mem, w)
    else
      match daemonReadBlock W fuel csize mem w with
      | some (rv, st) => some (rv, st.mem, st.world)
      | none => none

/-- `smartid_dev_xfer_data` -/
def daemonTransfer (W : Irda S) (mallocs : Nat → Bool) (fuel : Nat) (dev : Option SmartDevice)
    (mem : XferMemory) (w : S) : Option (Int × XferMemory × S) :=
  match dev with
  | none => some (smartiErrorInternal, mem, w)
  | some dev =>
    match W.command ⟨smartiErrorIo, smartiErrorIo, smartiErrorTimeout⟩ (tokenCmd 0xc4 dev.token)
        (W.unset w) w with
    | (.error rv, w) => some (rv, mem, w)
    | (.ok nb, w) => daemonAllocate W mallocs fuel dev.csize (uint32Le nb 0) mem w

/-! ### The ways out

Each return of the function has a name, with the conditions under which it is taken and with
what it must leave behind to be clean.
-/

/-- Nothing of the transfer is left: the caller's variables are cleared, and the block is
freed, if there is one, and nothing else. -/
structure XferMemory.LeavesNothing (m : XferMemory) : Prop where
  buffer : m.buffer = .null
  size : m.size = 0
  frees : m.frees = if m.allocated then [.block] else []

/-- The ways out of `smart_driver_transfer`. -/
inductive LocalEnd
  /-- The device callback fails, or its token is no number. -/
  | noToken
  /-- The device does not send the size. -/
  | unanswered
  | empty
  | noMemory
  /-- The device does not send the data. -/
  | noData
  | mismatch
  /-- The progress callback cancels before the first byte. -/
  | cancelled
  | block (e : BlockEnd)

section LocalEnds

variable (W : Irda S) (mallocs : Nat → Bool) (dev : LocalDevice) (dcb : Option TokenAnswer)
  (pcb : Option ProgressCallback) (mem : XferMemory) (w : S)

/-- The callback gives a token, for which the device announces `n` bytes. -/
def LocalSized (token n : Nat) (w₁ : S) : Prop :=
  (localToken dcb mem).1 = .ok token ∧
    ∃ ans, W.localCommand dev (tokenCmd 0xc6 token) (uint32Bytes mem.size) w = (.ok ans, w₁) ∧
      uint32Le ans 0 = n

/-- There is memory for the data, and the device announces it with the length `nb`. -/
def LocalAnnounced (n nb : Nat) (w₂ : S) : Prop :=
  ∃ token w₁ ans, LocalSized W dev dcb mem w token n w₁ ∧ n ≠ 0 ∧ mallocs n = true ∧
    W.localCommand dev (tokenCmd 0xc4 token) (W.unset w₁) w₁ = (.ok ans, w₂) ∧
    uint32Le ans 0 = nb

/-- How a transfer ends, by what the callbacks, the device and `malloc` do. -/
inductive LocalEnds : LocalEnd → Prop
  | noToken {rc : Int} : (localToken dcb mem).1 = .error rc → LocalEnds .noToken
  | unanswered {token : Nat} {rc : Int} {w₁ : S} : (localToken dcb mem).1 = .ok token →
      W.localCommand dev (tokenCmd 0xc6 token) (uint32Bytes mem.size) w = (.error rc, w₁) →
      LocalEnds .unanswered
  | empty {token : Nat} {w₁ : S} : LocalSized W dev dcb mem w token 0 w₁ → LocalEnds .empty
  | noMemory {token n : Nat} {w₁ : S} : LocalSized W dev dcb mem w token n w₁ → n ≠ 0 →
      mallocs n = false → LocalEnds .noMemory
  | noData {token n : Nat} {rc : Int} {w₁ w₂ : S} : LocalSized W dev dcb mem w token n w₁ →
      n ≠ 0 → mallocs n = true →
      W.localCommand dev (tokenCmd 0xc4 token) (W.unset w₁) w₁ = (.error rc, w₂) →
      LocalEnds .noData
  | mismatch {n nb : Nat} {w₂ : S} : LocalAnnounced W mallocs dev dcb mem w n nb w₂ →
      nb ≠ u32 (n + 4) → LocalEnds .mismatch
  | cancelled {n nb : Nat} {w₂ : S} : LocalAnnounced W mallocs dev dcb mem w n nb w₂ →
      nb = u32 (n + 4) → Cancels pcb [(0, n)] → LocalEnds .cancelled
  | block {n nb : Nat} {w₂ : S} {e : BlockEnd} : LocalAnnounced W mallocs dev dcb mem w n nb w₂ →
      nb = u32 (n + 4) → ¬Cancels pcb [(0, n)] →
      ReadsEnd W dev.csize pcb n e w₂ 0 n [(0, n)] → LocalEnds (.block e)

end LocalEnds

/-- Whether the memory of the token is freed. -/
def freesToken : Option TokenAnswer → Bool
  | some ⟨rc, some stoken, freeToken⟩ =>
    rc == driverErrSuccess && (strtoul (cstr stoken)).isSome && freeToken
  | _ => false

/-- Where the local driver leaves nothing behind; `buffer` and `size` are what the caller's
variables hold before. -/
def LocalEnd.Clean (dcb : Option TokenAnswer) (buffer : BufferPtr) (size : Nat) : LocalEnd → Prop
  | noToken => buffer = .null ∧ size = 0
  | unanswered => buffer = .null ∧ size = 0 ∧ freesToken dcb = false
  | empty => True
  | noMemory | noData | cancelled => False
  | mismatch => freesToken dcb = false
  | block e => e = .complete

/-- A call has returned `rc`, and unless this is success, it has left nothing behind exactly
if `clean` holds. -/
structure Exits (clean : Prop) (rc : Int) (mem : XferMemory) : Prop where
  success : rc = 0 → clean
  failure : rc ≠ 0 → (mem.LeavesNothing ↔ clean)

/-- The memory behind the device callback. -/
def XferMemory.tokened (m : XferMemory) (dcb : Option TokenAnswer) : XferMemory :=
  if freesToken dcb then { m with frees := m.frees ++ [.token] } else m

/-- The token is found, or there is an error. -/
theorem localToken_cases (dcb : Option TokenAnswer) (mem : XferMemory) :
    (∃ rc, localToken dcb mem = (.error rc, mem) ∧ rc ≠ 0) ∨
    ∃ token, localToken dcb mem = (.ok token, mem.tokened dcb) := by
  rcases dcb with _ | ⟨rc, stoken, freeToken⟩
  · exact .inr ⟨0, rfl⟩
  by_cases hrc : rc = driverErrSuccess
  · subst hrc
    rcases stoken with _ | stoken
    · exact .inr ⟨0, rfl⟩
    rcases hscan : strtoul (cstr stoken) with _ | ⟨token, rest⟩
    · refine .inl ⟨driverErrInvalid, ?_, by decide⟩
      rw [localToken, if_neg (fun h => h rfl)]
      dsimp only
      rw [hscan]
    · refine .inr ⟨u32 token, ?_⟩
      rw [localToken, if_neg (fun h => h rfl)]
      dsimp only
      rw [hscan, XferMemory.tokened, freesToken, hscan]
      cases freeToken <;> rfl
  · refine .inl ⟨rc, ?_, hrc⟩
    rw [localToken, if_pos hrc]

/-- An error leaves the memory alone. -/
theorem localToken_error {dcb : Option TokenAnswer} {mem : XferMemory} {rc : Int}
    (h : (localToken dcb mem).1 = .error rc) : localToken dcb mem = (.error rc, mem) ∧ rc ≠ 0 := by
  rcases localToken_cases dcb mem with ⟨rc', heq, hrc⟩ | ⟨token, heq⟩
  · rw [heq] at h ⊢
    cases h
    exact ⟨rfl, hrc⟩
  · rw [heq] at h
    cases h

/-- A token leaves the memory as it says. -/
theorem localToken_ok {dcb : Option TokenAnswer} {mem : XferMemory} {token : Nat}
    (h : (localToken dcb mem).1 = .ok token) :
    localToken dcb mem = (.ok token, mem.tokened dcb) := by
  rcases localToken_cases dcb mem with ⟨rc', heq, hrc⟩ | ⟨token, heq⟩
  · rw [heq] at h
    cases h
  · rw [heq] at h ⊢
    cases h
    rfl

section LocalRuns

variable {W : Irda S} {mallocs : Nat → Bool} {fuel : Nat} {dev : LocalDevice}
  {dcb : Option TokenAnswer} {pcb : Option ProgressCallback} {buffer : BufferPtr} {size : Nat}
  {w w' : S} {mem : XferMemory} {rc : Int}

/-- The token of the caller is freed or not. -/
theorem tokened_frees_eq_nil :
    ((XferMemory.entered buffer size).tokened dcb).frees = [] ↔ freesToken dcb = false := by
  rw [XferMemory.tokened]
  split
  next hfree =>
    rw [hfree]
    exact ⟨fun h => (nomatch h), fun h => (nomatch h)⟩
  next hfree => exact ⟨fun _ => Bool.eq_false_of_not_eq_true hfree, fun _ => rfl⟩

/-- The callback touches nothing of the caller's. -/
theorem tokened_fields (m : XferMemory) (dcb : Option TokenAnswer) :
    (m.tokened dcb).buffer = m.buffer ∧ (m.tokened dcb).size = m.size ∧
      (m.tokened dcb).allocated = m.allocated ∧ (m.tokened dcb).progress = m.progress := by
  rw [XferMemory.tokened]
  split
  · exact ⟨rfl, rfl, rfl, rfl⟩
  · exact ⟨rfl, rfl, rfl, rfl⟩

/-- The memory of the local driver with `n` in `*size`. -/
def sizedMemory (dcb : Option TokenAnswer) (buffer : BufferPtr) (size n : Nat) : XferMemory :=
  { (XferMemory.entered buffer size).tokened dcb with size := n }

/-- The memory of the local driver when the block has been allocated. -/
def allocatedMemory (dcb : Option TokenAnswer) (buffer : BufferPtr) (size n : Nat) : XferMemory :=
  (sizedMemory dcb buffer size n).malloc true

/-- The transfer ends with the error of the token. -/
theorem localTransfer_error (h : (localToken dcb (.entered buffer size)).1 = .error rc) :
    localTransfer W mallocs fuel dev dcb pcb (.entered buffer size) w =
      some (rc, .entered buffer size, w) := by
  rw [localTransfer, (localToken_error h).1]

/-- The device does not tell the size. -/
theorem localTransfer_unanswered {token : Nat} {w₁ : S}
    (h : (localToken dcb (.entered buffer size)).1 = .ok token)
    (hcmd : W.localCommand dev (tokenCmd 0xc6 token) (uint32Bytes size) w = (.error rc, w₁)) :
    localTransfer W mallocs fuel dev dcb pcb (.entered buffer size) w =
      some (-1, (XferMemory.entered buffer size).tokened dcb, w₁) := by
  have hsize : ((XferMemory.entered buffer size).tokened dcb).size = size :=
    (tokened_fields _ dcb).2.1
  rw [localTransfer, localToken_ok h]
  dsimp only
  rw [hsize, hcmd]

/-- The device tells the size. -/
theorem localTransfer_sized {token n : Nat} {w₁ : S}
    (h : LocalSized W dev dcb (.entered buffer size) w token n w₁) :
    localTransfer W mallocs fuel dev dcb pcb (.entered buffer size) w =
      if n = 0 then some (0, sizedMemory dcb buffer size n, w₁)
      else localAllocate W mallocs fuel dev token pcb (sizedMemory dcb buffer size n) w₁ := by
  obtain ⟨htoken, ans, hcmd, rfl⟩ := h
  have hcmd : W.localCommand dev (tokenCmd 0xc6 token) (uint32Bytes size) w = (.ok ans, w₁) := hcmd
  have hsize : ((XferMemory.entered buffer size).tokened dcb).size = size :=
    (tokened_fields _ dcb).2.1
  rw [localTransfer, localToken_ok htoken]
  dsimp only
  rw [hsize, hcmd]
  rfl

/-- There is no memory for the block. -/
theorem localAllocate_noMemory {token : Nat} (hmem : mallocs mem.size = false) :
    localAllocate W mallocs fuel dev token pcb mem w =
      some (driverErrInternal, mem.malloc false, w) := by
  rw [localAllocate, hmem]
  rfl

/-- The device does not tell the length. -/
theorem localAllocate_noData {token : Nat} {w₁ : S} (hmem : mallocs mem.size = true)
    (hcmd : W.localCommand dev (tokenCmd 0xc4 token) (W.unset w) w = (.error rc, w₁)) :
    localAllocate W mallocs fuel dev token pcb mem w = some (-1, mem.malloc true, w₁) := by
  rw [localAllocate, hmem, hcmd]
  rfl

/-- The device tells the length. -/
theorem localAllocate_announced {token : Nat} {ans : List UInt8} {w₁ : S}
    (hmem : mallocs mem.size = true)
    (hcmd : W.localCommand dev (tokenCmd 0xc4 token) (W.unset w) w = (.ok ans, w₁)) :
    localAllocate W mallocs fuel dev token pcb mem w =
      if uint32Le ans 0 ≠ u32 (mem.size + 4) then
        some (driverErrInternal, (mem.malloc true).release .block, w₁)
      else
        match localReadBlock W fuel dev.csize pcb (mem.malloc true) w₁ with
        | some (rc, st) => some (rc, st.mem, st.world)
        | none => none := by
  have hblock : (mem.malloc true).buffer ≠ .null := fun h => nomatch h
  rw [localAllocate, hmem, if_neg hblock, hcmd]
  rfl

/-! ### What each way out leaves

The variables and the calls of `free` are compared with what has been allocated.
-/

/-- A block is left. -/
theorem not_leavesNothing_of_block (h : mem.buffer = .block) : ¬mem.LeavesNothing := by
  intro hclean
  rw [hclean.buffer] at h
  cases h

/-- The variables are as the caller had them, which is clean if they were. -/
theorem exits_entered (hrc : rc ≠ 0) :
    Exits (buffer = .null ∧ size = 0) rc (XferMemory.entered buffer size) := by
  refine ⟨fun h => absurd h hrc, fun _ => ?_⟩
  constructor
  · intro hclean
    exact ⟨hclean.buffer, hclean.size⟩
  · rintro ⟨hbuffer, hsize⟩
    exact ⟨hbuffer, hsize, rfl⟩

/-- The size has not been written. -/
theorem exits_unanswered :
    Exits (LocalEnd.unanswered.Clean dcb buffer size) (-1)
      ((XferMemory.entered buffer size).tokened dcb) := by
  obtain ⟨hbuffer, hsize, hallocated, -⟩ := tokened_fields (XferMemory.entered buffer size) dcb
  have hfrees : (if ((XferMemory.entered buffer size).tokened dcb).allocated then [FreeArg.block]
      else []) = [] := by
    rw [hallocated]
    rfl
  refine ⟨fun h => (nomatch h), fun _ => ?_⟩
  constructor
  · intro hclean
    refine ⟨hbuffer.symm.trans hclean.buffer, hsize.symm.trans hclean.size, ?_⟩
    exact tokened_frees_eq_nil.mp (hclean.frees.trans hfrees)
  · rintro ⟨hnull, hzero, hfree⟩
    refine ⟨hbuffer.trans hnull, hsize.trans hzero, ?_⟩
    exact (tokened_frees_eq_nil.mpr hfree).trans hfrees.symm

/-- The size has been written. -/
theorem exits_of_size (h : mem.size ≠ 0) (hrc : rc ≠ 0) : Exits False rc mem := by
  refine ⟨hrc, fun _ => ?_⟩
  constructor
  · intro hclean
    exact h hclean.size
  · exact False.elim

/-- The block is handed out although the transfer has failed. -/
theorem exits_of_block (h : mem.buffer = .block) (hrc : rc ≠ 0) : Exits False rc mem :=
  ⟨hrc, fun _ => ⟨not_leavesNothing_of_block h, False.elim⟩⟩

/-- The block is freed, and the variables are cleared. -/
theorem exits_mismatch {n : Nat} :
    Exits (LocalEnd.mismatch.Clean dcb buffer size) driverErrInternal
      ((allocatedMemory dcb buffer size n).release .block) := by
  have hfrees : ((allocatedMemory dcb buffer size n).release .block).frees =
      ((XferMemory.entered buffer size).tokened dcb).frees ++ [.block] := rfl
  refine ⟨fun h => (nomatch h), fun _ => ?_⟩
  constructor
  · intro hclean
    apply tokened_frees_eq_nil.mp
    have hclean := hfrees.symm.trans hclean.frees
    exact List.append_left_eq_self.mp hclean
  · intro hfree
    refine ⟨rfl, rfl, ?_⟩
    rw [hfrees, tokened_frees_eq_nil.mpr hfree]
    rfl

/-! ### The local driver leaves by one of its ways out

Both directions: each way is taken under its conditions, and a transfer that returns has taken
one.
-/

/-- The user cancels before the first byte. -/
theorem localReadBlock_cancelled {csize : Nat} (hprogress : mem.progress = [])
    (hcancels : Cancels pcb [(0, mem.size)]) :
    ∃ st, localReadBlock W fuel csize pcb mem w = some (driverErrCancelled, st) ∧
      mem.Untouched st.mem := by
  obtain ⟨cancel, mem', hreport, hmem', hcancel, -⟩ :=
    report_cases pcb mem 0 fun _ _ => hprogress
  refine ⟨⟨w, mem', 0, mem'.size⟩, ?_, hmem'⟩
  rw [localReadBlock, hreport]
  dsimp only
  rw [if_pos (hcancel.mpr hcancels)]

/-- The user does not. -/
theorem localReadBlock_started {csize : Nat} (hprogress : mem.progress = [])
    (hcancels : ¬Cancels pcb [(0, mem.size)]) :
    ∃ mem', mem.Untouched mem' ∧ (∀ cb, pcb = some cb → mem'.progress = [(0, mem.size)]) ∧
      ∀ fuel, localReadBlock W fuel csize pcb mem w =
        match iterate (localChunk W csize pcb) fuel ⟨w, mem', 0, mem.size⟩ with
        | .stop r => some r
        | .next _ => none := by
  obtain ⟨cancel, mem', hreport, hmem', hcancel, hcalls⟩ :=
    report_cases pcb mem 0 fun _ _ => hprogress
  refine ⟨mem', hmem', hcalls, fun fuel => ?_⟩
  rw [localReadBlock, hreport]
  dsimp only
  rw [if_neg (mt hcancel.mp hcancels)]
  exact hmem'.size ▸ rfl

theorem allocatedMemory_fields (dcb : Option TokenAnswer) (n : Nat) :
    (allocatedMemory dcb buffer size n).buffer = .block ∧
      (allocatedMemory dcb buffer size n).size = n ∧
      (allocatedMemory dcb buffer size n).progress = [] :=
  ⟨rfl, rfl, (tokened_fields _ dcb).2.2.2⟩

/-- Behind the length comes the block. -/
theorem localTransfer_announced {n nb : Nat} {w₂ : S}
    (h : LocalAnnounced W mallocs dev dcb (.entered buffer size) w n nb w₂) :
    localTransfer W mallocs fuel dev dcb pcb (.entered buffer size) w =
      if nb ≠ u32 (n + 4) then
        some (driverErrInternal, (allocatedMemory dcb buffer size n).release .block, w₂)
      else
        match localReadBlock W fuel dev.csize pcb (allocatedMemory dcb buffer size n) w₂ with
        | some (rc, st) => some (rc, st.mem, st.world)
        | none => none := by
  obtain ⟨token, w₁, ans, hsized, hn, hmalloc, hcmd, rfl⟩ := h
  rw [localTransfer_sized hsized, if_neg hn]
  exact localAllocate_announced hmalloc hcmd

/-- What the end of the block means for the caller. -/
theorem exits_block {e : BlockEnd} (h : mem.buffer = .block) :
    Exits (e = .complete) e.localCode mem := by
  refine ⟨(localCode_eq_zero_iff e).mp, fun hrc => ?_⟩
  constructor
  · intro hclean
    exact absurd hclean (not_leavesNothing_of_block h)
  · intro hcomplete
    exact absurd ((localCode_eq_zero_iff e).mpr hcomplete) hrc

/-- A way out is taken. -/
theorem localTransfer_of_ends {e : LocalEnd}
    (h : LocalEnds W mallocs dev dcb pcb (.entered buffer size) w e) :
    ∃ fuel rc mem w', localTransfer W mallocs fuel dev dcb pcb (.entered buffer size) w =
      some (rc, mem, w') ∧ Exits (e.Clean dcb buffer size) rc mem := by
  cases h with
  | noToken htoken =>
    exact ⟨0, _, _, _, localTransfer_error htoken, exits_entered (localToken_error htoken).2⟩
  | unanswered htoken hcmd =>
    exact ⟨0, _, _, _, localTransfer_unanswered htoken hcmd, exits_unanswered⟩
  | @empty token w₁ hsized =>
    refine ⟨0, _, _, w₁, (localTransfer_sized hsized).trans (if_pos rfl), ?_⟩
    exact ⟨fun _ => trivial, fun h => absurd rfl h⟩
  | @noMemory token n w₁ hsized hn hmalloc =>
    refine ⟨0, driverErrInternal, (sizedMemory dcb buffer size n).malloc false, w₁,
      (localTransfer_sized hsized).trans ?_, exits_of_size hn (by decide)⟩
    rw [if_neg hn]
    exact localAllocate_noMemory hmalloc
  | @noData token n rc w₁ w₂ hsized hn hmalloc hcmd =>
    refine ⟨0, -1, allocatedMemory dcb buffer size n, w₂, (localTransfer_sized hsized).trans ?_,
      exits_of_block rfl (by decide)⟩
    rw [if_neg hn]
    exact localAllocate_noData hmalloc hcmd
  | @mismatch n nb w₂ hannounced hnb =>
    refine ⟨0, _, _, w₂, (localTransfer_announced hannounced).trans (if_pos hnb), exits_mismatch⟩
  | @cancelled n nb w₂ hannounced hnb hcancels =>
    obtain ⟨hbuffer, hsize, hprogress⟩ := allocatedMemory_fields dcb n
    obtain ⟨st, hst, huntouched⟩ := localReadBlock_cancelled hprogress hcancels
    refine ⟨0, driverErrCancelled, st.mem, st.world, (localTransfer_announced hannounced).trans ?_,
      exits_of_block (huntouched.buffer.trans hbuffer) (by decide)⟩
    rw [if_neg (not_not_intro hnb), hst]
  | @block n nb w₂ e hannounced hnb hcancels hends =>
    obtain ⟨hbuffer, hsize, hprogress⟩ := allocatedMemory_fields dcb n
    obtain ⟨mem', hmem', hcalls, hrun⟩ := localReadBlock_started hprogress hcancels
    obtain ⟨st, hst, huntouched⟩ := localChunk_returns_of_readsEnd hends hmem'.size hcalls
    obtain ⟨fuel, hiter⟩ := hst.exists_iterate
    -- the fuel is what the loop takes
    refine ⟨fuel, e.localCode, st.mem, st.world, (localTransfer_announced hannounced).trans ?_,
      exits_block ((huntouched.buffer.trans hmem'.buffer).trans hbuffer)⟩
    have hiter : iterate (localChunk W dev.csize pcb) fuel
        ⟨w₂, mem', 0, (allocatedMemory dcb buffer size n).size⟩ = .stop (e.localCode, st) := hiter
    rw [if_neg (not_not_intro hnb), hrun, hiter]

/-- What is taken behind the length. -/
theorem ends_of_announced {n nb : Nat} {w₂ : S}
    (hannounced : LocalAnnounced W mallocs dev dcb (.entered buffer size) w n nb w₂)
    (h : localTransfer W mallocs fuel dev dcb pcb (.entered buffer size) w = some (rc, mem, w')) :
    ∃ e, LocalEnds W mallocs dev dcb pcb (.entered buffer size) w e ∧
      Exits (e.Clean dcb buffer size) rc mem := by
  -- behind both answers: the lengths differ, the callback cancels, or the block is read
  obtain ⟨hbuffer, hsize, hprogress⟩ := allocatedMemory_fields dcb n
  rw [localTransfer_announced hannounced] at h
  by_cases hnb : nb = u32 (n + 4)
  · rw [if_neg (not_not_intro hnb)] at h
    by_cases hcancels : Cancels pcb [(0, n)]
    · obtain ⟨st, hst, huntouched⟩ := localReadBlock_cancelled hprogress hcancels
      rw [hst] at h
      cases h
      exact ⟨.cancelled, .cancelled hannounced hnb hcancels,
        exits_of_block (huntouched.buffer.trans hbuffer) (by decide)⟩
    · obtain ⟨mem', hmem', hcalls, hrun⟩ := localReadBlock_started hprogress hcancels
      rw [hrun] at h
      split at h
      case h_2 => cases h
      case h_1 hread =>
        cases h
        split at hread
        case h_2 => cases hread
        case h_1 hiter =>
          cases hread
          obtain ⟨e, he, rfl⟩ := readsEnd_of_localChunk hiter hcalls
          have huntouched := untouched_of_localChunk hiter hcalls
          rw [hmem'.size] at he
          exact ⟨.block e, .block hannounced hnb hcancels he,
            exits_block ((huntouched.buffer.trans hmem'.buffer).trans hbuffer)⟩
  · rw [if_pos hnb] at h
    cases h
    exact ⟨.mismatch, .mismatch hannounced hnb, exits_mismatch⟩

/-- A transfer that returns has taken a way out. -/
theorem ends_of_localTransfer
    (h : localTransfer W mallocs fuel dev dcb pcb (.entered buffer size) w = some (rc, mem, w')) :
    ∃ e, LocalEnds W mallocs dev dcb pcb (.entered buffer size) w e ∧
      Exits (e.Clean dcb buffer size) rc mem := by
  -- the ways out in the order of the source
  rcases htoken : (localToken dcb (.entered buffer size)).1 with rc₁ | token
  · rw [localTransfer_error htoken] at h
    cases h
    exact ⟨.noToken, .noToken htoken, exits_entered (localToken_error htoken).2⟩
  rcases hcmd : W.localCommand dev (tokenCmd 0xc6 token) (uint32Bytes size) w with ⟨rc₁ | ans, w₁⟩
  · rw [localTransfer_unanswered htoken hcmd] at h
    cases h
    exact ⟨.unanswered, .unanswered htoken hcmd, exits_unanswered⟩
  obtain ⟨n, hans⟩ : ∃ n, uint32Le ans 0 = n := ⟨_, rfl⟩
  have hsized : LocalSized W dev dcb (.entered buffer size) w token n w₁ :=
    ⟨htoken, ans, hcmd, hans⟩
  by_cases hn : n = 0
  · rw [localTransfer_sized hsized, if_pos hn] at h
    cases h
    rw [hn] at hsized
    exact ⟨.empty, .empty hsized, fun _ => trivial, fun h => absurd rfl h⟩
  cases hmalloc : mallocs n with
  | false =>
    rw [localTransfer_sized hsized, if_neg hn, localAllocate_noMemory hmalloc] at h
    cases h
    exact ⟨.noMemory, .noMemory hsized hn hmalloc, exits_of_size hn (by decide)⟩
  | true =>
    rcases hcmd₂ : W.localCommand dev (tokenCmd 0xc4 token) (W.unset w₁) w₁ with ⟨rc₂ | nb, w₂⟩
    · rw [localTransfer_sized hsized, if_neg hn, localAllocate_noData hmalloc hcmd₂] at h
      cases h
      exact ⟨.noData, .noData hsized hn hmalloc hcmd₂, exits_of_block rfl (by decide)⟩
    · exact ends_of_announced ⟨token, w₁, nb, hsized, hn, hmalloc, hcmd₂, rfl⟩ h

end LocalRuns

/-! ### The ways out of the daemon

The daemon has fewer of them, as it does not ask for the size here.
-/

/-- The ways out of `smartid_dev_xfer_data`. -/
inductive DaemonEnd
  | noDevice
  | unanswered
  /-- The device has no data. -/
  | noData
  | tooShort
  | noMemory
  | block (e : BlockEnd)

section DaemonEnds

variable (W : Irda S) (mallocs : Nat → Bool) (dev : Option SmartDevice) (w : S)

/-- The device of the connection announces data with the length `nb`. -/
def DaemonAnnounced (d : SmartDevice) (nb : Nat) (w₁ : S) : Prop :=
  dev = some d ∧ ∃ ans, W.command ⟨smartiErrorIo, smartiErrorIo, smartiErrorTimeout⟩
    (tokenCmd 0xc4 d.token) (W.unset w) w = (.ok ans, w₁) ∧ uint32Le ans 0 = nb

/-- How a transfer of the daemon ends, by what the device and `malloc` do. -/
inductive DaemonEnds : DaemonEnd → Prop
  | noDevice : dev = none → DaemonEnds .noDevice
  | unanswered {d : SmartDevice} {rv : Int} {w₁ : S} : dev = some d →
      W.command ⟨smartiErrorIo, smartiErrorIo, smartiErrorTimeout⟩ (tokenCmd 0xc4 d.token)
        (W.unset w) w = (.error rv, w₁) → DaemonEnds .unanswered
  | noData {d : SmartDevice} {w₁ : S} : DaemonAnnounced W dev w d 4 w₁ → DaemonEnds .noData
  | tooShort {d : SmartDevice} {nb : Nat} {w₁ : S} : DaemonAnnounced W dev w d nb w₁ → nb < 4 →
      DaemonEnds .tooShort
  | noMemory {d : SmartDevice} {nb : Nat} {w₁ : S} : DaemonAnnounced W dev w d nb w₁ → 4 < nb →
      mallocs (nb - 4) = false → DaemonEnds .noMemory
  | block {d : SmartDevice} {nb : Nat} {w₁ : S} {e : BlockEnd} :
      DaemonAnnounced W dev w d nb w₁ → 4 < nb → mallocs (nb - 4) = true →
      ReadsEnd W d.csize none (nb - 4) e w₁ 0 (nb - 4) [] → DaemonEnds (.block e)

end DaemonEnds

/-- Where the daemon leaves nothing behind. -/
def DaemonEnd.Clean (buffer : BufferPtr) (size : Nat) : DaemonEnd → Prop
  | noDevice | unanswered | tooShort => buffer = .null ∧ size = 0
  | noData => True
  | noMemory => False
  | block e => e = .complete

/-- A command that fails has one of its codes. -/
theorem command_error {W : Irda S} {codes : CmdCodes} {cmd ans : List UInt8} {w w' : S} {rc : Int}
    (h : W.command codes cmd ans w = (.error rc, w')) :
    rc = codes.write ∨ rc = codes.read ∨ rc = codes.timeout := by
  rw [Irda.command] at h
  split at h
  · cases h
    exact .inl rfl
  · cases h
    exact .inr (.inr rfl)
  · split at h
    · cases h
      exact .inr (.inl rfl)
    · cases h
      exact .inr (.inr rfl)
    · cases h

section DaemonRuns

variable {W : Irda S} {mallocs : Nat → Bool} {fuel : Nat} {dev : Option SmartDevice}
  {buffer : BufferPtr} {size nb : Nat} {w w' w₁ : S} {mem : XferMemory} {rc : Int}
  {d : SmartDevice}

/-- The device does not tell the length. -/
theorem daemonTransfer_unanswered
    (hcmd : W.command ⟨smartiErrorIo, smartiErrorIo, smartiErrorTimeout⟩ (tokenCmd 0xc4 d.token)
      (W.unset w) w = (.error rc, w₁)) :
    daemonTransfer W mallocs fuel (some d) mem w = some (rc, mem, w₁) := by
  rw [daemonTransfer, hcmd]

/-- The device tells the length. -/
theorem daemonTransfer_announced (h : DaemonAnnounced W dev w d nb w₁) :
    daemonTransfer W mallocs fuel dev mem w = daemonAllocate W mallocs fuel d.csize nb mem w₁ := by
  obtain ⟨rfl, ans, hcmd, rfl⟩ := h
  rw [daemonTransfer, hcmd]

/-- There is no memory for the block. -/
theorem daemonAllocate_noMemory {csize : Nat} (hnb : 4 < nb) (hmalloc : mallocs (nb - 4) = false) :
    daemonAllocate W mallocs fuel csize nb mem w =
      some (smartiErrorInternal, { mem with size := nb - 4 }.malloc false, w) := by
  rw [daemonAllocate, if_neg (Nat.ne_of_gt hnb), if_neg (Nat.lt_asymm hnb)]
  dsimp only
  rw [hmalloc]
  rfl

/-- The block is read. -/
theorem daemonAllocate_read {csize : Nat} (hnb : 4 < nb) (hmalloc : mallocs (nb - 4) = true) :
    daemonAllocate W mallocs fuel csize nb mem w =
      match daemonReadBlock W fuel csize ({ mem with size := nb - 4 }.malloc true) w with
      | some (rv, st) => some (rv, st.mem, st.world)
      | none => none := by
  have hblock : ({ mem with size := nb - 4 }.malloc true).buffer ≠ .null := fun h => nomatch h
  rw [daemonAllocate, if_neg (Nat.ne_of_gt hnb), if_neg (Nat.lt_asymm hnb)]
  dsimp only
  rw [hmalloc, if_neg hblock]

/-- The block is never what is freed. -/
theorem exits_daemonBlock {e : BlockEnd} {st : ChunkState S} {pos len : Nat}
    {calls : List (Nat × Nat)} {csize : Nat} (hmem : mem.allocated = true) (hfrees : mem.frees = [])
    (he : ReadsEnd W csize none size e w pos len calls)
    (hst : if e = .complete then mem.Untouched st.mem else mem.Released st.mem) :
    Exits (e = .complete) e.daemonCode st.mem := by
  refine ⟨(daemonCode_eq_zero_iff he).mp, fun hrc => ?_⟩
  have hcomplete := mt (daemonCode_eq_zero_iff he).mpr hrc
  rw [if_neg hcomplete] at hst
  constructor
  · intro hclean
    -- it has freed the address of the variable, which is no block
    have hfreed : st.mem.frees = [.variable] := by
      rw [hst.frees]
      show mem.frees ++ _ = _
      rw [hfrees]
      rfl
    have hallocated : st.mem.allocated = true := hst.allocated.trans hmem
    rw [hclean.frees, hallocated] at hfreed
    cases hfreed
  · intro h
    exact absurd h hcomplete

/-- A way out is taken. -/
theorem daemonTransfer_of_ends {e : DaemonEnd} (h : DaemonEnds W mallocs dev w e) :
    ∃ fuel rc mem w', daemonTransfer W mallocs fuel dev (.entered buffer size) w =
      some (rc, mem, w') ∧ Exits (e.Clean buffer size) rc mem := by
  cases h with
  | noDevice hdev =>
    subst hdev
    exact ⟨0, smartiErrorInternal, _, w, rfl, exits_entered (by decide)⟩
  | unanswered hdev hcmd =>
    subst hdev
    refine ⟨0, _, _, _, daemonTransfer_unanswered hcmd, exits_entered ?_⟩
    rcases command_error hcmd with rfl | rfl | rfl <;> decide
  | @noData d w₁ hannounced =>
    refine ⟨0, _, _, w₁, (daemonTransfer_announced hannounced).trans (if_pos rfl), ?_⟩
    exact ⟨fun _ => trivial, fun _ => ⟨fun _ => trivial, fun _ => ⟨rfl, rfl, rfl⟩⟩⟩
  | @tooShort d nb w₁ hannounced hnb =>
    refine ⟨0, smartiErrorDevice, _, w₁, (daemonTransfer_announced hannounced).trans ?_,
      exits_entered (by decide)⟩
    rw [daemonAllocate, if_neg (Nat.ne_of_lt hnb), if_pos hnb]
  | @noMemory d nb w₁ hannounced hnb hmalloc =>
    refine ⟨0, _, _, w₁,
      (daemonTransfer_announced hannounced).trans (daemonAllocate_noMemory hnb hmalloc),
      exits_of_size ?_ (by decide)⟩
    exact Nat.sub_ne_zero_of_lt hnb
  | @block d nb w₁ e hannounced hnb hmalloc hends =>
    obtain ⟨st, hst, hleft⟩ := daemonChunk_returns_of_readsEnd hends
      ({ XferMemory.entered buffer size with size := nb - 4 }.malloc true)
    obtain ⟨fuel, hiter⟩ := hst.exists_iterate
    -- the fuel is what the loop takes
    refine ⟨fuel, e.daemonCode, st.mem, st.world, (daemonTransfer_announced hannounced).trans ?_,
      exits_daemonBlock rfl rfl hends hleft⟩
    have hiter : iterate (daemonChunk W d.csize) fuel
        ⟨w₁, { XferMemory.entered buffer size with size := nb - 4 }.malloc true, 0,
          ({ XferMemory.entered buffer size with size := nb - 4 }.malloc true).size⟩ =
        .stop (e.daemonCode, st) := hiter
    rw [daemonAllocate_read hnb hmalloc, daemonReadBlock, hiter]

/-- What is taken behind the length. -/
theorem ends_of_daemonAnnounced (hannounced : DaemonAnnounced W dev w d nb w₁)
    (h : daemonAllocate W mallocs fuel d.csize nb (.entered buffer size) w₁ = some (rc, mem, w')) :
    ∃ e, DaemonEnds W mallocs dev w e ∧ Exits (e.Clean buffer size) rc mem := by
  -- the answer counts four bytes of its own
  by_cases hempty : nb = 4
  · subst hempty
    cases h
    refine ⟨.noData, .noData hannounced, ?_⟩
    exact ⟨fun _ => trivial, fun _ => ⟨fun _ => trivial, fun _ => ⟨rfl, rfl, rfl⟩⟩⟩
  by_cases hshort : nb < 4
  · rw [daemonAllocate, if_neg hempty, if_pos hshort] at h
    cases h
    exact ⟨.tooShort, .tooShort hannounced hshort, exits_entered (by decide)⟩
  have hnb : 4 < nb := by omega
  cases hmalloc : mallocs (nb - 4) with
  | false =>
    rw [daemonAllocate_noMemory hnb hmalloc] at h
    cases h
    exact ⟨.noMemory, .noMemory hannounced hnb hmalloc,
      exits_of_size (Nat.sub_ne_zero_of_lt hnb) (by decide)⟩
  | true =>
    rw [daemonAllocate_read hnb hmalloc, daemonReadBlock] at h
    split at h
    case h_2 => cases h
    case h_1 hread =>
      cases h
      split at hread
      case h_2 => cases hread
      case h_1 hiter =>
        cases hread
        obtain ⟨e, he, rfl⟩ := readsEnd_of_daemonChunk hiter (nb - 4) []
        exact ⟨.block e, .block hannounced hnb hmalloc he,
          exits_daemonBlock rfl rfl he (memory_of_daemonChunk hiter he)⟩

/-- A transfer that returns has taken a way out. -/
theorem ends_of_daemonTransfer
    (h : daemonTransfer W mallocs fuel dev (.entered buffer size) w = some (rc, mem, w')) :
    ∃ e, DaemonEnds W mallocs dev w e ∧ Exits (e.Clean buffer size) rc mem := by
  cases dev with
  | none =>
    cases h
    exact ⟨.noDevice, .noDevice rfl, exits_entered (by decide)⟩
  | some d =>
    rcases hcmd : W.command ⟨smartiErrorIo, smartiErrorIo, smartiErrorTimeout⟩
      (tokenCmd 0xc4 d.token) (W.unset w) w with ⟨rv | ans, w₁⟩
    · rw [daemonTransfer_unanswered hcmd] at h
      cases h
      refine ⟨.unanswered, .unanswered rfl hcmd, exits_entered ?_⟩
      rcases command_error hcmd with rfl | rfl | rfl <;> decide
    · obtain ⟨nb, hans⟩ : ∃ nb, uint32Le ans 0 = nb := ⟨_, rfl⟩
      have hannounced : DaemonAnnounced W (some d) w d nb w₁ := ⟨rfl, ans, hcmd, hans⟩
      rw [daemonTransfer_announced hannounced] at h
      exact ends_of_daemonAnnounced hannounced h

end DaemonRuns

/-! ### Both transfers

The same condition for both, with their own ways out.
-/

/-- Whenever the local transfer returns an error, nothing is left behind. -/
def LocalLeavesNothing (W : Irda S) (mallocs : Nat → Bool) (dev : LocalDevice)
    (dcb : Option TokenAnswer) (pcb : Option ProgressCallback) (buffer : BufferPtr) (size : Nat)
    (w : S) : Prop :=
  ∀ fuel rc mem w',
    localTransfer W mallocs fuel dev dcb pcb (.entered buffer size) w = some (rc, mem, w') →
      rc ≠ 0 → mem.LeavesNothing

/-- Whenever the transfer of the daemon returns an error, nothing is left behind. -/
def DaemonLeavesNothing (W : Irda S) (mallocs : Nat → Bool) (dev : Option SmartDevice)
    (buffer : BufferPtr) (size : Nat) (w : S) : Prop :=
  ∀ fuel rc mem w',
    daemonTransfer W mallocs fuel dev (.entered buffer size) w = some (rc, mem, w') →
      rc ≠ 0 → mem.LeavesNothing

/-- A transfer that takes each of its ways out, and no other: it leaves nothing behind exactly
if it can only take clean ones. -/
theorem leavesNothing_iff {Way : Type} {Takes Clean : Way → Prop}
    {run : Nat → Option (Int × XferMemory × S)}
    (htakes : ∀ e, Takes e → ∃ fuel rc mem w', run fuel = some (rc, mem, w') ∧
      Exits (Clean e) rc mem)
    (hways : ∀ fuel rc mem w', run fuel = some (rc, mem, w') → ∃ e, Takes e ∧
      Exits (Clean e) rc mem) :
    (∀ fuel rc mem w', run fuel = some (rc, mem, w') → rc ≠ 0 → mem.LeavesNothing) ↔
      ∀ e, Takes e → Clean e := by
  constructor
  · intro hnothing e he
    obtain ⟨fuel, rc, mem, w', hrun, hexits⟩ := htakes e he
    by_cases hrc : rc = 0
    · exact hexits.success hrc
    · exact (hexits.failure hrc).mp (hnothing fuel rc mem w' hrun hrc)
  · intro hclean fuel rc mem w' hrun hrc
    obtain ⟨e, he, hexits⟩ := hways fuel rc mem w' hrun
    exact (hexits.failure hrc).mpr (hclean e he)

/-- **When a transfer that fails leaves nothing behind**, for the local driver and for the daemon:
exactly if it leaves by a way out that is clean, which is decided by what the device answers, by
`malloc` and by what the variables of the caller have held. -/
theorem transfers_leaveNothing_iff (W : Irda S) (mallocs : Nat → Bool) (buffer : BufferPtr)
    (size : Nat) (w : S) :
    (∀ dev dcb pcb, LocalLeavesNothing W mallocs dev dcb pcb buffer size w ↔
      ∀ e, LocalEnds W mallocs dev dcb pcb (.entered buffer size) w e →
        e.Clean dcb buffer size) ∧
    ∀ dev, DaemonLeavesNothing W mallocs dev buffer size w ↔
      ∀ e, DaemonEnds W mallocs dev w e → e.Clean buffer size := by
  constructor
  · intro dev dcb pcb
    apply leavesNothing_iff
    · exact fun e he => localTransfer_of_ends he
    · exact fun fuel rc mem w' hrun => ends_of_localTransfer hrun
  · intro dev
    apply leavesNothing_iff
    · exact fun e he => daemonTransfer_of_ends he
    · exact fun fuel rc mem w' hrun => ends_of_daemonTransfer hrun

/-! ### A read that fails

The device stops in the middle of its block.
-/

/-- A socket whose reads come to the outcomes of a list, and fail behind it. -/
def scriptedIrda : Irda (List (IoResult (List UInt8))) where
  discover w := (some [], w)
  connectLsap w _ _ := (.done (), w)
  write w cmd := (.done cmd.length, w)
  read
    | [], _ => (.failed, [])
    | r :: w, _ => (r, w)
  time w := (0, w)
  junk _ _ := 0
  foreignFree := true

/-- One byte is announced, and the read of it fails: the local driver keeps the block, and the
daemon frees the wrong pointer. -/
theorem not_leaveNothing_readFails :
    ¬LocalLeavesNothing scriptedIrda (fun _ => true) ⟨true, 8⟩ none none .null 0
      [.done [1, 0, 0, 0], .done [5, 0, 0, 0]] ∧
    ¬DaemonLeavesNothing scriptedIrda (fun _ => true) (some { csize := 8 }) .null 0
      [.done [5, 0, 0, 0]] := by
  constructor
  · intro hnothing
    have hclean := hnothing 2 driverErrRead _ _ rfl (by decide)
    exact not_leavesNothing_of_block rfl hclean
  · intro hnothing
    have hclean := hnothing 2 smartiErrorIo _ _ rfl (by decide)
    exact nomatch hclean.frees

end BenthosDc

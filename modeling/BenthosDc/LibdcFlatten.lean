/-
BenthosDc/LibdcFlatten.lean

Flattening and extraction of the dives from libdivecomputer (`libdc_driver.c`).

`join_dive_list` copies from the address *of* the two pointers of a list element and not
from where they point to, so that the flattened dives are bytes of the element itself
and of what is behind it in memory; `libdc_driver_extract` cuts the buffer correctly,
and ends with `DRIVER_ERR_UNSUPPORTED` (`libdcDriverExtract_joinDiveList`).  The two are
inverse for no list of dives (`not_flattenInverse`).

A `size_t` has 8 bytes.

The element is written as it lies in memory: the lengths, the two pointers and the link to the
next one.  What is copied from there is known but for the values of the pointers and what is
behind the element, which is `Memory`.
-/
import BenthosDc.Base64
import BenthosDc.SmartExtract

namespace BenthosDc

open CString Loop

/-! ### Little-endian words -/

/-- The `k` bytes of a number, the lowest first. -/
def leBytes : Nat → Nat → List UInt8
  | 0, _ => []
  | k + 1, n => UInt8.ofNat n :: leBytes k (n / 256)

/-- `memcpy` of the `k` bytes from `i` on into a number. -/
def loadLe (mem : Memory) : Nat → Nat → Nat
  | 0, _ => 0
  | k + 1, i => (mem i).toNat + 256 * loadLe mem k (i + 1)

/-- A word of `k` bytes. -/
@[simp] theorem length_leBytes (k n : Nat) : (leBytes k n).length = k := by
  induction k generalizing n with
  | zero => rfl
  | succ k ih => rw [leBytes, List.length_cons, ih]

theorem loadLe_drop {buffer : List UInt8} {behind : Memory} {k n pos : Nat} {rest : List UInt8}
    (hn : n < 256 ^ k) (h : buffer.drop pos = leBytes k n ++ rest) :
    loadLe (loaded buffer behind) k pos = n := by
  induction k generalizing n pos with
  | zero =>
    rw [Nat.pow_zero, Nat.lt_one_iff] at hn
    exact hn.symm
  | succ k ih =>
    have hfirst : loaded buffer behind pos = UInt8.ofNat n := loaded_drop h (Nat.zero_lt_succ _)
    have hrest : buffer.drop (pos + 1) = leBytes k (n / 256) ++ rest := by
      rw [← List.drop_drop, h]
      rfl
    have hdiv : n / 256 < 256 ^ k := by
      rw [Nat.div_lt_iff_lt_mul (by decide), ← Nat.pow_succ]
      exact hn
    rw [loadLe, hfirst, ih hdiv hrest, UInt8.toNat_ofNat']
    exact Nat.mod_add_div n 256

/-- The `n` bytes from `pos` on. -/
def copied (mem : Memory) (pos n : Nat) : List UInt8 := (List.range n).map fun i => mem (pos + i)

/-- As many bytes as are asked for. -/
@[simp] theorem length_copied (mem : Memory) (pos n : Nat) : (copied mem pos n).length = n := by
  simp [copied]

/-- Bytes of the buffer are copied from where they stand. -/
theorem copied_drop {buffer : List UInt8} {behind : Memory} {pos : Nat} {bytes rest : List UInt8}
    (h : buffer.drop pos = bytes ++ rest) :
    copied (loaded buffer behind) pos bytes.length = bytes := by
  apply List.ext_getElem
  · simp
  · intro i _ hi
    simp [copied, loaded_drop h hi]

/-! ### Flattening -/

/-- `dive_list_t`, with the bytes its pointers point to, the pointers themselves, and the
bytes behind the structure in memory. -/
structure DiveList where
  data : List UInt8
  token : List UInt8
  dataPtr : BitVec 64
  tokenPtr : BitVec 64
  next : BitVec 64
  behind : Memory

/-- The bytes of a `size_t`. -/
def sizeT : Nat := 8

/-- The memory from the field `data` of the structure on. -/
def DiveList.fromData (d : DiveList) : Memory :=
  loaded (leBytes sizeT d.dataPtr.toNat ++ leBytes sizeT d.token.length ++
    leBytes sizeT d.tokenPtr.toNat ++ leBytes sizeT d.next.toNat) d.behind

/-- `memcpy` from `& cur->data` -/
def DiveList.copiedData (d : DiveList) : List UInt8 := copied d.fromData 0 d.data.length

/-- `memcpy` from `& cur->token`; the field is 16 bytes behind `data`. -/
def DiveList.copiedToken (d : DiveList) : List UInt8 := copied d.fromData 16 d.token.length

/-- What one pass of the second loop stores. -/
def DiveList.stored (d : DiveList) : List UInt8 :=
  leBytes sizeT d.data.length ++ d.copiedData ++ leBytes sizeT d.token.length ++ d.copiedToken

/-- The first loop; `* size` is a `uint32_t`. -/
def joinSize (l : List DiveList) : Nat :=
  l.foldl (fun size d => u32 (u32 (u32 (size + 2 * sizeT) + d.data.length) + d.token.length)) 0

/-- `join_dive_list`: the bytes stored in the buffer, and its size. -/
def joinDiveList (l : List DiveList) : List UInt8 × Nat := (l.flatMap DiveList.stored, joinSize l)

/-! ### Extraction -/

/-- A call of the dive data callback: the data, and the token in base64. -/
abbrev DiveCall := List UInt8 × Option Text

/-- The position in the buffer, and the dives that have been handed out. -/
structure LibdcState where
  pos : Nat
  calls : List DiveCall

/-- The return value, the error set in the device, and the calls of the callback. -/
structure LibdcResult where
  ret : Int
  error : Option (Int × String)
  calls : List DiveCall

/-- The end with `DRIVER_ERR_INVALID`. -/
def libdcInvalid (msg : String) (calls : List DiveCall) : LibdcResult :=
  ⟨-1, some (driverErrInvalid, msg), calls⟩

/-- The message for a dive that goes on behind the end. -/
def pastEnd : String := "Length of dive extends past end of received data in libdc_driver_extract"

/-- One iteration of the loop of `libdc_driver_extract`.  The tests keep `pos` from passing
`size`, so that `size - pos` does not wrap around. -/
def libdcExtractStep (mem : Memory) (size : Nat) (s : LibdcState) : Iter LibdcState LibdcResult :=
  if s.pos < size then
    if size - s.pos < sizeT then .stop (libdcInvalid pastEnd s.calls)
    else
      let dlen := loadLe mem sizeT s.pos
      let data := u32 (s.pos + sizeT)
      if size - data < dlen then .stop (libdcInvalid pastEnd s.calls)
      else
        let pos := u32 (data + dlen)
        if size - pos < sizeT then .stop (libdcInvalid pastEnd s.calls)
        else
          let tlen := loadLe mem sizeT pos
          let token := u32 (pos + sizeT)
          if size - token < tlen then .stop (libdcInvalid pastEnd s.calls)
          else
            .next ⟨u32 (token + tlen),
              s.calls ++ [(copied mem data dlen, base64Encode (copied mem token tlen))]⟩
  else if s.pos ≠ size then
    .stop (libdcInvalid "Found additional bytes at end of received data in libdc_driver_extract"
      s.calls)
  else .stop ⟨driverErrUnsupported, none, s.calls⟩

/-- `libdc_driver_extract` returns with `r`, for a device that is not null. -/
def LibdcDriverExtract (mem : Memory) (size : Nat) (r : LibdcResult) : Prop :=
  if size < sizeT then r = libdcInvalid "Invalid or corrupt data in smart_transfer" []
  else Returns (libdcExtractStep mem size) ⟨0, []⟩ r

/-! ### What is extracted from a flattened list -/

/-- The number of bytes of the flattened list. -/
def flatSize (l : List DiveList) : Nat :=
  (l.map fun d => 2 * sizeT + d.data.length + d.token.length).sum

/-- Two lengths, the data and the token. -/
theorem length_stored (d : DiveList) :
    d.stored.length = 2 * sizeT + d.data.length + d.token.length := by
  simp only [DiveList.stored, DiveList.copiedData, DiveList.copiedToken, List.length_append,
    length_leBytes, length_copied]
  ring

/-- The dives take as many bytes as they have been counted. -/
theorem length_flatMap_stored (l : List DiveList) :
    (l.flatMap DiveList.stored).length = flatSize l := by
  rw [List.length_flatMap, flatSize]
  exact congrArg List.sum (List.map_congr_left fun d _ => length_stored d)

/-- The sum of the sizes is taken modulo `2 ^ 32`. -/
theorem joinSize_eq_mod (l : List DiveList) : joinSize l = flatSize l % 2 ^ 32 := by
  have hfold : ∀ (l : List DiveList) (n : Nat),
      l.foldl (fun size d => u32 (u32 (u32 (size + 2 * sizeT) + d.data.length) + d.token.length))
        (n % 2 ^ 32) = (n + flatSize l) % 2 ^ 32 := by
    intro l
    induction l with
    | nil => exact fun n => rfl
    | cons d l ih =>
      intro n
      have hcons : flatSize (d :: l) = 2 * sizeT + d.data.length + d.token.length + flatSize l := by
        simp [flatSize]
      have hstep : u32 (u32 (u32 (n % 2 ^ 32 + 2 * sizeT) + d.data.length) + d.token.length) =
          (n + 2 * sizeT + d.data.length + d.token.length) % 2 ^ 32 := by
        simp only [u32]
        omega
      rw [List.foldl_cons, hstep, ih, hcons]
      congr 1
      ring
  have hzero := hfold l 0
  rwa [Nat.zero_mod, Nat.zero_add] at hzero

/-- The size that is allocated, if it does not overflow. -/
theorem joinSize_eq {l : List DiveList} (h : flatSize l < 2 ^ 32) : joinSize l = flatSize l := by
  rw [joinSize_eq_mod, Nat.mod_eq_of_lt h]

/-- The state behind an element of the list. -/
def takeStored (s : LibdcState) (d : DiveList) : LibdcState :=
  ⟨s.pos + d.stored.length, s.calls ++ [(d.copiedData, base64Encode d.copiedToken)]⟩

/-- In front of a stored element the loop takes it in. -/
theorem libdcExtractStep_stored {buffer : List UInt8} {behind : Memory}
    (hsize : buffer.length < 2 ^ 32) {s : LibdcState} (d : DiveList) {rest : List UInt8}
    (h : buffer.drop s.pos = d.stored ++ rest) :
    libdcExtractStep (loaded buffer behind) buffer.length s = .next (takeStored s d) := by
  have hlen := congrArg List.length h
  rw [List.length_drop, List.length_append, length_stored] at hlen
  have hsizeT : sizeT = 8 := rfl
  -- the four pieces of the element
  have hdata : d.copiedData.length = d.data.length := length_copied _ _ _
  have htoken : d.copiedToken.length = d.token.length := length_copied _ _ _
  have h₀ : buffer.drop s.pos = leBytes sizeT d.data.length ++ (d.copiedData ++
      (leBytes sizeT d.token.length ++ (d.copiedToken ++ rest))) := by
    rw [h, DiveList.stored]
    simp only [List.append_assoc]
  have h₁ : buffer.drop (s.pos + sizeT) = d.copiedData ++
      (leBytes sizeT d.token.length ++ (d.copiedToken ++ rest)) := by
    rw [← List.drop_drop, h₀, List.drop_left' (length_leBytes _ _)]
  have h₂ : buffer.drop (s.pos + sizeT + d.data.length) =
      leBytes sizeT d.token.length ++ (d.copiedToken ++ rest) := by
    rw [← List.drop_drop, h₁, List.drop_left' hdata]
  have h₃ : buffer.drop (s.pos + sizeT + d.data.length + sizeT) = d.copiedToken ++ rest := by
    rw [← List.drop_drop, h₂, List.drop_left' (length_leBytes _ _)]
  have hdlen : loadLe (loaded buffer behind) sizeT s.pos = d.data.length :=
    loadLe_drop (by rw [hsizeT]; omega) h₀
  have htlen : loadLe (loaded buffer behind) sizeT (s.pos + sizeT + d.data.length) =
      d.token.length := loadLe_drop (by rw [hsizeT]; omega) h₂
  have hcopydata : copied (loaded buffer behind) (s.pos + sizeT) d.data.length = d.copiedData := by
    rw [← hdata]
    exact copied_drop h₁
  have hcopytoken : copied (loaded buffer behind) (s.pos + sizeT + d.data.length + sizeT)
      d.token.length = d.copiedToken := by
    rw [← htoken]
    exact copied_drop h₃
  have hpos : u32 (s.pos + sizeT) = s.pos + sizeT := u32_of_lt (by omega)
  have hpos₂ : u32 (s.pos + sizeT + d.data.length) = s.pos + sizeT + d.data.length :=
    u32_of_lt (by omega)
  have hpos₃ : u32 (s.pos + sizeT + d.data.length + sizeT) =
      s.pos + sizeT + d.data.length + sizeT := u32_of_lt (by omega)
  have hpos₄ : u32 (s.pos + sizeT + d.data.length + sizeT + d.token.length) =
      s.pos + d.stored.length := by
    rw [length_stored, u32_of_lt (by omega)]
    ring
  unfold libdcExtractStep
  simp only [hdlen, hpos, hpos₂, htlen, hpos₃, hpos₄, hcopydata, hcopytoken]
  rw [if_pos (by omega), if_neg (by omega), if_neg (by omega), if_neg (by omega),
    if_neg (by omega)]
  rfl

/-- Records that are taken one after the other. -/
theorem foldl_takeStored (l : List DiveList) (s : LibdcState) :
    l.foldl takeStored s = ⟨s.pos + (l.flatMap DiveList.stored).length,
      s.calls ++ l.map fun d => (d.copiedData, base64Encode d.copiedToken)⟩ := by
  induction l generalizing s with
  | nil => simp
  | cons d l ih =>
    rw [List.foldl_cons, ih]
    simp [takeStored, Nat.add_assoc]

/-- **Extraction calls the callback once for each element, with the bytes that flattening
has copied, and reports that it is not supported.** -/
theorem libdcDriverExtract_joinDiveList {l : List DiveList} (hne : l ≠ [])
    (hsize : flatSize l < 2 ^ 32) (behind : Memory) (r : LibdcResult) :
    LibdcDriverExtract (loaded (joinDiveList l).1 behind) (joinDiveList l).2 r ↔
      r = ⟨driverErrUnsupported, none,
        l.map fun d => (d.copiedData, base64Encode d.copiedToken)⟩ := by
  have hlen : (joinDiveList l).2 = (l.flatMap DiveList.stored).length := by
    show joinSize l = _
    rw [joinSize_eq hsize, length_flatMap_stored]
  have hge : ¬(joinDiveList l).2 < sizeT := by
    obtain ⟨d, l', rfl⟩ := List.exists_cons_of_ne_nil hne
    rw [hlen, List.flatMap_cons, List.length_append, length_stored]
    omega
  have hstored : (l.flatMap DiveList.stored).drop (LibdcState.pos ⟨0, []⟩) =
      (l.map DiveList.stored).flatten ++ [] := by
    rw [List.append_nil, ← List.flatMap_def]
    rfl
  -- one iteration for each element
  obtain ⟨hreach, -, -⟩ := reaches_foldl (·.pos) takeStored (I := fun _ => True)
    (f := libdcExtractStep (loaded (l.flatMap DiveList.stored) behind)
      (l.flatMap DiveList.stored).length)
    (fun s d rest _ h => libdcExtractStep_stored (by rwa [length_flatMap_stored]) d h)
    (fun _ _ => rfl) (fun _ _ _ => trivial) trivial l hstored
  rw [foldl_takeStored, Nat.zero_add, List.nil_append] at hreach
  -- at the end of the buffer the loop falls into the last return
  have hstop : libdcExtractStep (loaded (l.flatMap DiveList.stored) behind)
      (l.flatMap DiveList.stored).length ⟨(l.flatMap DiveList.stored).length,
        l.map fun d => (d.copiedData, base64Encode d.copiedToken)⟩ =
      .stop ⟨driverErrUnsupported, none,
        l.map fun d => (d.copiedData, base64Encode d.copiedToken)⟩ := by
    rw [libdcExtractStep, if_neg (Nat.lt_irrefl _), if_neg (not_not.mpr rfl)]
  rw [LibdcDriverExtract, if_neg hge, hlen]
  exact ⟨fun h => h.unique ⟨_, hreach, hstop⟩, fun h => h ▸ ⟨_, hreach, hstop⟩⟩

/-- Extraction gives back the data of every dive of the list, in order, and succeeds. -/
def FlattenInverse (l : List DiveList) (behind : Memory) : Prop :=
  ∃ r, LibdcDriverExtract (loaded (joinDiveList l).1 behind) (joinDiveList l).2 r ∧
    r.calls.map (·.1) = l.map (·.data) ∧ r.ret = 0

/-- **Flattening and extraction are inverse for no list of dives.**  The extraction does not end
with success, whatever the list is, and so the two are not inverse even where the bytes come out
right. -/
theorem not_flattenInverse {l : List DiveList} (hne : l ≠ []) (hsize : flatSize l < 2 ^ 32)
    (behind : Memory) : ¬FlattenInverse l behind := by
  rintro ⟨r, hr, -, hret⟩
  rw [(libdcDriverExtract_joinDiveList hne hsize behind r).mp hr] at hret
  have hzero : driverErrUnsupported = 0 := hret
  exact absurd hzero (by decide)

/-- A dive of one byte, in an element without a successor. -/
def oneByteDive : DiveList := ⟨[7], [], 0x1000, 0x2000, 0, fun _ => 0⟩

/-- One dive with one byte is enough for the inverse to fail. -/
theorem not_flattenInverse_oneByteDive :
    [oneByteDive] ≠ [] ∧ flatSize [oneByteDive] < 2 ^ 32 ∧
      ¬FlattenInverse [oneByteDive] fun _ => 0 :=
  ⟨by simp, by decide, not_flattenInverse (by simp) (by decide) _⟩

/-- The callback gets the lowest byte of the pointer, and the return value is not 0. -/
theorem not_flattenInverse_pointer : ¬FlattenInverse [oneByteDive] fun _ => 0 := by
  rintro ⟨r, hr, hdata, -⟩
  rw [(libdcDriverExtract_joinDiveList (by simp) (by decide) _ r).mp hr] at hdata
  exact absurd hdata (by decide)

end BenthosDc

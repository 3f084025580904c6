/-
BenthosDc/LibdcTiling.lean

Cutting any buffer with `libdc_driver_extract`.

A length has 64 bits and a position 32; each length is compared with what is left of the
buffer before it is added, so that no sum wraps around and every iteration goes on by
sixteen bytes at least (`libdcExtractStep_next`).  Whatever the buffer holds, the loop is
left, nothing outside the buffer is read, and the records that are reported lie end to
end from its start (`libdcDriverExtract_tiles`).

That nothing outside is read is said by a change of memory: two memories that agree on the
ranges which an iteration reads lead to the same iteration (`AgreeOn`).
-/
import BenthosDc.LibdcFlatten

namespace BenthosDc

open CString Loop Tiling

/-! ### Records -/

/-- A record of the buffer: where it is, and its two lengths. -/
structure LibdcRecord where
  pos : Nat
  dlen : Nat
  tlen : Nat
  deriving DecidableEq

namespace LibdcRecord

/-- Length, data, length and token, end to end. -/
def ranges (rec : LibdcRecord) : List (Nat × Nat) :=
  [(rec.pos, sizeT), (rec.pos + sizeT, rec.dlen), (rec.pos + sizeT + rec.dlen, sizeT),
    (rec.pos + sizeT + rec.dlen + sizeT, rec.tlen)]

/-- The position behind the record. -/
def stop (rec : LibdcRecord) : Nat := rec.pos + sizeT + rec.dlen + sizeT + rec.tlen

/-- The two length words hold the lengths. -/
structure Holds (rec : LibdcRecord) (mem : Memory) : Prop where
  dlen : loadLe mem sizeT rec.pos = rec.dlen
  tlen : loadLe mem sizeT (rec.pos + sizeT + rec.dlen) = rec.tlen

/-- The call of the callback for the record. -/
def call (rec : LibdcRecord) (mem : Memory) : DiveCall :=
  (copied mem (rec.pos + sizeT) rec.dlen,
    base64Encode (copied mem (rec.pos + sizeT + rec.dlen + sizeT) rec.tlen))

end LibdcRecord

/-! ### What an iteration reads -/

/-- The ranges that an iteration at `pos` reads: the lengths, the token, which is encoded, and
the data, which the callback is given. -/
def libdcStepReads (mem : Memory) (size pos : Nat) : List (Nat × Nat) :=
  if pos < size then
    if size - pos < sizeT then []
    else
      let dlen := loadLe mem sizeT pos
      let data := u32 (pos + sizeT)
      (pos, sizeT) ::
        if size - data < dlen then []
        else
          let pos := u32 (data + dlen)
          if size - pos < sizeT then []
          else
            let tlen := loadLe mem sizeT pos
            let token := u32 (pos + sizeT)
            (pos, sizeT) :: if size - token < tlen then [] else [(token, tlen), (data, dlen)]
  else []

/-- Two memories agree on a range. -/
def AgreeOn (mem mem' : Memory) (range : Nat × Nat) : Prop :=
  ∀ i, range.1 ≤ i → i < range.1 + range.2 → mem i = mem' i

variable {mem mem' : Memory} {size pos n k : Nat} {s s' : LibdcState} {r : LibdcResult}

/-- A word is read alike. -/
theorem AgreeOn.loadLe_eq (h : AgreeOn mem mem' (pos, n)) : loadLe mem n pos = loadLe mem' n pos := by
  induction n generalizing pos with
  | zero => rfl
  | succ n ih =>
    have hrest : AgreeOn mem mem' (pos + 1, n) := by
      intro i hlo hhi
      have hlo : pos + 1 ≤ i := hlo
      have hhi : i < pos + 1 + n := hhi
      exact h i (by show pos ≤ i; omega) (by show i < pos + (n + 1); omega)
    have hfirst : mem pos = mem' pos := h pos le_rfl (Nat.lt_add_of_pos_right (Nat.succ_pos n))
    rw [loadLe, loadLe, ih hrest, hfirst]

/-- So are bytes. -/
theorem AgreeOn.copied_eq (h : AgreeOn mem mem' (pos, n)) : copied mem pos n = copied mem' pos n := by
  refine List.map_congr_left fun i hi => ?_
  exact h _ (Nat.le_add_right _ _) (Nat.add_lt_add_left (List.mem_range.mp hi) _)

/-- **An iteration depends on the memory only through what it reads.** -/
theorem libdcExtractStep_congr
    (h : ∀ range ∈ libdcStepReads mem size s.pos, AgreeOn mem mem' range) :
    libdcExtractStep mem' size s = libdcExtractStep mem size s := by
  unfold libdcStepReads at h
  unfold libdcExtractStep
  by_cases hpos : s.pos < size
  · rw [if_pos hpos] at h ⊢
    rw [if_pos hpos]
    by_cases hword : size - s.pos < sizeT
    · rw [if_pos hword, if_pos hword]
    · rw [if_neg hword] at h ⊢
      rw [if_neg hword, ← (h _ List.mem_cons_self).loadLe_eq]
      replace h := fun range hrange => h range (List.mem_cons_of_mem _ hrange)
      -- the data, and the length word behind it
      by_cases hdata : size - u32 (s.pos + sizeT) < loadLe mem sizeT s.pos
      · simp only [if_pos hdata]
      · simp only [if_neg hdata] at h ⊢
        by_cases hword' : size - u32 (u32 (s.pos + sizeT) + loadLe mem sizeT s.pos) < sizeT
        · simp only [if_pos hword']
        · simp only [if_neg hword'] at h ⊢
          rw [← (h _ List.mem_cons_self).loadLe_eq]
          replace h := fun range hrange => h range (List.mem_cons_of_mem _ hrange)
          split
          · rfl
          · next htoken =>
            rw [if_neg htoken] at h
            rw [(h _ List.mem_cons_self).copied_eq,
              (h _ (List.mem_cons_of_mem _ List.mem_cons_self)).copied_eq]
  · rw [if_neg hpos, if_neg hpos]

/-! ### One iteration -/

/-- **Where the loop goes on, there is a record inside the buffer**, and it goes on behind it. -/
theorem libdcExtractStep_next (hsize : size < 2 ^ 32) (h : libdcExtractStep mem size s = .next s') :
    ∃ rec : LibdcRecord, rec.pos = s.pos ∧ rec.Holds mem ∧ rec.stop ≤ size ∧
      s' = ⟨rec.stop, s.calls ++ [rec.call mem]⟩ := by
  have hsizeT : sizeT = 8 := rfl
  unfold libdcExtractStep at h
  by_cases hlt : s.pos < size
  · rw [if_pos hlt] at h
    by_cases hword : size - s.pos < sizeT
    · rw [if_pos hword] at h
      cases h
    · rw [if_neg hword] at h
      have hdata : u32 (s.pos + sizeT) = s.pos + sizeT := u32_of_lt (by omega)
      simp only [hdata] at h
      split at h
      · cases h
      · next hdlen =>
        have hpos' : u32 (s.pos + sizeT + loadLe mem sizeT s.pos) =
            s.pos + sizeT + loadLe mem sizeT s.pos := u32_of_lt (by omega)
        rw [hpos'] at h
        split at h
        · cases h
        · next hword' =>
          have htoken : u32 (s.pos + sizeT + loadLe mem sizeT s.pos + sizeT) =
              s.pos + sizeT + loadLe mem sizeT s.pos + sizeT := u32_of_lt (by omega)
          rw [htoken] at h
          split at h
          · cases h
          · next htlen =>
            refine ⟨⟨s.pos, loadLe mem sizeT s.pos,
              loadLe mem sizeT (s.pos + sizeT + loadLe mem sizeT s.pos)⟩, rfl, ⟨rfl, rfl⟩, ?_, ?_⟩
            · show s.pos + sizeT + loadLe mem sizeT s.pos + sizeT +
                loadLe mem sizeT (s.pos + sizeT + loadLe mem sizeT s.pos) ≤ size
              omega
            · obtain rfl := Iter.next.inj h
              rw [u32_of_lt (by omega)]
              rfl
  · rw [if_neg hlt] at h
    split at h
    · cases h
    · cases h

/-- The loop is left with an error about a length inside the buffer, or without one at its end. -/
theorem libdcExtractStep_stop (hpos : s.pos ≤ size) (h : libdcExtractStep mem size s = .stop r) :
    (s.pos < size ∧ r = libdcInvalid pastEnd s.calls) ∨
      (s.pos = size ∧ r = ⟨driverErrUnsupported, none, s.calls⟩) := by
  unfold libdcExtractStep at h
  by_cases hlt : s.pos < size
  · rw [if_pos hlt] at h
    refine .inl ⟨hlt, ?_⟩
    -- each of the four tests ends the loop in the same way
    split at h
    · exact (Iter.stop.inj h).symm
    · simp only at h
      split at h
      · exact (Iter.stop.inj h).symm
      · split at h
        · exact (Iter.stop.inj h).symm
        · split at h
          · exact (Iter.stop.inj h).symm
          · cases h
  · have hend : s.pos = size := Nat.le_antisymm hpos (Nat.le_of_not_lt hlt)
    rw [if_neg hlt, if_neg (not_not.mpr hend)] at h
    exact .inr ⟨hend, (Iter.stop.inj h).symm⟩

/-- **An iteration reads nothing outside the buffer.** -/
theorem libdcStepReads_inside (hsize : size < 2 ^ 32) :
    ∀ range ∈ libdcStepReads mem size pos, range.1 + range.2 ≤ size := by
  have hsizeT : sizeT = 8 := rfl
  intro range hrange
  unfold libdcStepReads at hrange
  split at hrange
  case isFalse => cases hrange
  split at hrange
  case isTrue => cases hrange
  rename_i hlt hword
  have hdata : u32 (pos + sizeT) = pos + sizeT := u32_of_lt (by omega)
  simp only [hdata] at hrange
  rcases List.mem_cons.mp hrange with rfl | hrange
  · show pos + sizeT ≤ size
    omega
  split at hrange
  case isTrue => cases hrange
  rename_i hdlen
  have hpos' : u32 (pos + sizeT + loadLe mem sizeT pos) = pos + sizeT + loadLe mem sizeT pos :=
    u32_of_lt (by omega)
  rw [hpos'] at hrange
  split at hrange
  case isTrue => cases hrange
  rename_i hword'
  have htoken : u32 (pos + sizeT + loadLe mem sizeT pos + sizeT) =
      pos + sizeT + loadLe mem sizeT pos + sizeT := u32_of_lt (by omega)
  rw [htoken] at hrange
  rcases List.mem_cons.mp hrange with rfl | hrange
  · show pos + sizeT + loadLe mem sizeT pos + sizeT ≤ size
    omega
  split at hrange
  case isTrue => cases hrange
  rename_i htlen
  -- the token and the data end in front of what has been tested
  rcases List.mem_cons.mp hrange with rfl | hrange
  · show pos + sizeT + loadLe mem sizeT pos + sizeT + _ ≤ size
    omega
  · rw [List.mem_singleton.mp hrange]
    show pos + sizeT + loadLe mem sizeT pos ≤ size
    omega

/-! ### The whole buffer -/

/-- The parts of a record lie end to end. -/
theorem LibdcRecord.tiles (rec : LibdcRecord) : Tiles rec.pos rec.ranges rec.stop :=
  .cons (.cons (.cons (.cons (.nil _))))

/-- The records that have been taken in tile the buffer up to the position of the loop. -/
structure Tiled (mem : Memory) (size : Nat) (recs : List LibdcRecord) (s : LibdcState) : Prop where
  tiles : Tiles 0 (recs.flatMap LibdcRecord.ranges) s.pos
  holds : ∀ rec ∈ recs, rec.Holds mem
  calls : s.calls = recs.map fun rec => rec.call mem
  inside : s.pos ≤ size

/-- An iteration adds a record. -/
theorem Tiled.next {recs : List LibdcRecord} (hsize : size < 2 ^ 32) (h : Tiled mem size recs s)
    (hnext : libdcExtractStep mem size s = .next s') :
    ∃ rec, Tiled mem size (recs ++ [rec]) s' := by
  obtain ⟨rec, hpos, hholds, hinside, rfl⟩ := libdcExtractStep_next hsize hnext
  refine ⟨rec, ?_, ?_, ?_, hinside⟩
  · rw [List.flatMap_append, List.flatMap_singleton]
    exact h.tiles.append (hpos ▸ rec.tiles)
  · intro rec' hrec'
    rcases List.mem_append.mp hrec' with hrec' | hrec'
    · exact h.holds rec' hrec'
    · rwa [List.mem_singleton.mp hrec']
  · rw [List.map_append, ← h.calls]
    rfl

/-- **What has been reported tiles what has been read.** -/
theorem Tiled.reaches (hsize : size < 2 ^ 32)
    (h : Reaches (libdcExtractStep mem size) ⟨0, []⟩ s) : ∃ recs, Tiled mem size recs s := by
  refine h.invariant (I := fun s => ∃ recs, Tiled mem size recs s) ?_ ⟨[], .nil 0, nofun, rfl, Nat.zero_le _⟩
  rintro s s' ⟨recs, hs⟩ hnext
  obtain ⟨rec, hs'⟩ := hs.next hsize hnext
  exact ⟨_, hs'⟩

/-- The bytes behind the position become fewer. -/
theorem exists_libdcDriverExtract (hsize : size < 2 ^ 32) :
    ∃ r, Returns (libdcExtractStep mem size) ⟨0, []⟩ r := by
  have hstep : ∀ s s', s.pos ≤ size → libdcExtractStep mem size s = .next s' →
      s'.pos ≤ size ∧ size - s'.pos < size - s.pos := by
    intro s s' hs hnext
    obtain ⟨rec, hpos, -, hinside, rfl⟩ := libdcExtractStep_next hsize hnext
    have hsizeT : sizeT = 8 := rfl
    have hstop : rec.stop = rec.pos + sizeT + rec.dlen + sizeT + rec.tlen := rfl
    refine ⟨hinside, ?_⟩
    show size - rec.stop < size - s.pos
    omega
  obtain ⟨r, hr⟩ := Loop.iterate_of_measure (fun s : LibdcState => size - s.pos) hstep
    (show (⟨0, []⟩ : LibdcState).pos ≤ size from Nat.zero_le _) (Nat.lt_succ_self _)
  exact ⟨r, iterate_stop_returns hr⟩

/-- **The result depends on the bytes of the buffer only.** -/
theorem libdcDriverExtract_congr (hsize : size < 2 ^ 32) (h : ∀ i < size, mem i = mem' i)
    (hr : LibdcDriverExtract mem size r) : LibdcDriverExtract mem' size r := by
  unfold LibdcDriverExtract at hr ⊢
  split
  · next hshort => rwa [if_pos hshort] at hr
  · next hlong =>
    rw [if_neg hlong] at hr
    obtain ⟨s, hs, hstop⟩ := hr
    have hsame : ∀ t, libdcExtractStep mem' size t = libdcExtractStep mem size t := by
      intro t
      refine libdcExtractStep_congr fun range hrange i _ hi => h i ?_
      exact hi.trans_le (libdcStepReads_inside hsize range hrange)
    refine ⟨s, ?_, (hsame s).trans hstop⟩
    clear hstop
    induction hs with
    | refl => exact .refl
    | tail _ hnext ih => exact ih.tail ((hsame _).trans hnext)

/-- What `libdc_driver_extract` makes of a buffer: the records are those of a part of it from the
start on, which is the whole buffer unless a length is in error. -/
structure ExtractTiles (mem : Memory) (size : Nat) (r : LibdcResult) (recs : List LibdcRecord)
    (stop : Nat) : Prop where
  tiles : Tiles 0 (recs.flatMap LibdcRecord.ranges) stop
  holds : ∀ rec ∈ recs, rec.Holds mem
  calls : r.calls = recs.map fun rec => rec.call mem
  inside : stop ≤ size
  whole : stop = size ↔ r ≠ libdcInvalid pastEnd r.calls

/-- **Any buffer is cut safely**: the loop is left, it reads nothing outside the buffer, and the
records that it reports tile a part of the buffer from the start on. -/
theorem libdcDriverExtract_tiles (mem : Memory) (size : Nat) (hmin : 8 ≤ size) (hsize : size < 2 ^ 32) :
    (∃ r, LibdcDriverExtract mem size r) ∧
      (∀ s, Reaches (libdcExtractStep mem size) ⟨0, []⟩ s →
        ∀ range ∈ libdcStepReads mem size s.pos, range.1 + range.2 ≤ size) ∧
      ∀ r, LibdcDriverExtract mem size r → ∃ recs stop, ExtractTiles mem size r recs stop := by
  have hextract : ∀ r, LibdcDriverExtract mem size r ↔
      Returns (libdcExtractStep mem size) ⟨0, []⟩ r := by
    intro r
    have hlong : ¬size < sizeT := Nat.not_lt.mpr hmin
    rw [LibdcDriverExtract, if_neg hlong]
  refine ⟨?_, ?_, ?_⟩
  · obtain ⟨r, hr⟩ : ∃ r, Returns (libdcExtractStep mem size) ⟨0, []⟩ r :=
      exists_libdcDriverExtract hsize
    exact ⟨r, (hextract r).mpr hr⟩
  · exact fun _ _ => libdcStepReads_inside hsize
  · intro r hr
    obtain ⟨s, hs, hstop⟩ := (hextract r).mp hr
    obtain ⟨recs, htiled⟩ := Tiled.reaches hsize hs
    refine ⟨recs, s.pos, htiled.tiles, htiled.holds, ?_, htiled.inside, ?_⟩
    · rcases libdcExtractStep_stop htiled.inside hstop with ⟨-, rfl⟩ | ⟨-, rfl⟩
      · exact htiled.calls
      · exact htiled.calls
    · rcases libdcExtractStep_stop htiled.inside hstop with ⟨hlt, rfl⟩ | ⟨hend, rfl⟩
      · exact iff_of_false hlt.ne (not_not.mpr rfl)
      · refine iff_of_true hend fun h => ?_
        exact absurd (congrArg LibdcResult.error h) (by simp [libdcInvalid])

/-- Sixteen bytes: a length of 0, and one of `2 ^ 64 - 1`. -/
theorem libdcDriverExtract_tiles_huge :
    ∃ r, LibdcDriverExtract (fun i => if i < 8 then 0 else 255) 16 r :=
  (libdcDriverExtract_tiles _ 16 (by decide) (by decide)).1

end BenthosDc

/-
BenthosDc/SmartExtract.lean

Cutting the transferred data into dives (`smart_extract.c`).

`smart_extract_dives` reads its buffer as memory: the magic bytes, the length
word and the token word of a dive are read before anything is known about the
end of the buffer.  What is behind the buffer is arbitrary here, and the places
read are recorded in `examined`.  The loop need not end (a zero length word),
so its value is a relation, `SmartExtractDives`.

* `smartExtractDives_concat`: extraction undoes concatenation;
* `extractPartitions_iff`: the reported ranges partition the buffer exactly if
  no length word makes the position wrap around.
-/
import BenthosDc.Lib.Tiling
import BenthosDc.SmartHeader

namespace BenthosDc

open Loop Tiling

/-- The bytes from the start of the buffer on. -/
abbrev Memory := Nat → UInt8

/-- The buffer in memory, with the bytes `behind` it. -/
def loaded (buffer : List UInt8) (behind : Memory) : Memory := fun i =>
  buffer.getD i (behind i)

/-- `*(uint32_t *)(& mem[i])` on a little-endian host. -/
def loadWord (mem : Memory) (i : Nat) : Nat :=
  (mem i).toNat + (mem (i + 1)).toNat <<< 8 + (mem (i + 2)).toNat <<< 16 +
    (mem (i + 3)).toNat <<< 24

/-- The magic bytes of a dive. -/
def diveHdr : List UInt8 := [0xa5, 0xa5, 0x5a, 0x5a]

/-- `strncmp` with a string that has no NUL: whether the bytes from `i` on are
equal to it, and the places read up to the first difference. -/
def strncmpEq (mem : Memory) : Nat → List UInt8 → Bool × List Nat
  | _, [] => (true, [])
  | i, b :: bs =>
      if mem i = b then
        let (eq, places) := strncmpEq mem (i + 1) bs
        (eq, i :: places)
      else (false, [i])

/-- The arguments of a call of the dive data callback; the buffer pointer is
given by its position. -/
structure DiveReport where
  pos : Nat
  len : Nat
  token : String
  deriving DecidableEq

/-- The variables of the loop: the position, the dives reported so far, and the places read so
far. -/
structure ExtractState where
  pos : Nat
  reports : List DiveReport
  examined : List Nat
  deriving DecidableEq

/-- The codes of `smart_extract.h`. -/
def extractSuccess : Int := 0
def extractInvalid : Int := 1
def extractCorrupt : Int := 2
def extractTooShort : Int := 3
def extractExtraData : Int := 4

/-- What a call returns, and what it has done until then. -/
structure ExtractResult where
  ret : Int
  reports : List DiveReport
  examined : List Nat
  deriving DecidableEq

/-- The four places of a word. -/
def wordPlaces (i : Nat) : List Nat := [i, i + 1, i + 2, i + 3]

/-- The length word of the dive at `pos`; `pos + 4` is a `uint32_t`. -/
def diveLength (mem : Memory) (pos : Nat) : Nat := loadWord mem (u32 (pos + 4))

/-- The token word of the dive at `pos`. -/
def diveToken (mem : Memory) (pos : Nat) : Nat := loadWord mem (u32 (pos + 8))

/-- One iteration of the loop of `smart_extract_dives`. -/
def extractStep (mem : Memory) (size : Nat) (s : ExtractState) : Iter ExtractState ExtractResult :=
  if s.pos < size then
    let (eq, places) := strncmpEq mem s.pos diveHdr
    if eq = false then .stop ⟨extractCorrupt, s.reports, s.examined ++ places⟩
    else
      let dlen := diveLength mem s.pos
      let examined := s.examined ++ places ++ wordPlaces (u32 (s.pos + 4))
      -- the sum is a `uint32_t`
      if u32 (s.pos + dlen) > size then .stop ⟨extractTooShort, s.reports, examined⟩
      else
        let token := toString (diveToken mem s.pos)
        .next ⟨u32 (s.pos + dlen), s.reports ++ [⟨s.pos, dlen, token⟩],
          examined ++ wordPlaces (u32 (s.pos + 8))⟩
  else if s.pos ≠ size then .stop ⟨extractExtraData, s.reports, s.examined⟩
  else .stop ⟨extractSuccess, s.reports, s.examined⟩

/-- The loop starts at the first byte. -/
def extractStart : ExtractState := ⟨0, [], []⟩

/-- `smart_extract_dives` returns with `r`; `buffer` is `none` for a null
pointer. -/
def SmartExtractDives (buffer : Option Memory) (size : Nat) (r : ExtractResult) : Prop :=
  match buffer with
  | none => r = ⟨extractInvalid, [], []⟩
  | some mem => Returns (extractStep mem size) extractStart r

/-! ### Memory

The buffer is memory, and what lies behind it is some function.  A result that depends on the
bytes of the buffer only holds for each such function.
-/

section Memory

variable {buffer : List UInt8} {behind : Memory}

/-- Bytes that stand in the buffer are read there. -/
theorem loaded_drop {pos : Nat} {bytes rest : List UInt8} (h : buffer.drop pos = bytes ++ rest)
    {i : Nat} (hi : i < bytes.length) : loaded buffer behind (pos + i) = bytes[i] := by
  have hlen := congrArg List.length h
  rw [List.length_drop, List.length_append] at hlen
  have hget : buffer[pos + i]? = some bytes[i] := by
    rw [← List.getElem?_drop, h, List.getElem?_append_left hi, List.getElem?_eq_getElem hi]
  rw [loaded, List.getD_eq_getElem?_getD, hget]
  rfl

theorem loadWord_drop {pos i : Nat} {bytes rest : List UInt8} (h : buffer.drop pos = bytes ++ rest)
    (hi : i + 4 ≤ bytes.length) (hsmall : i + 4 ≤ 2 ^ 32) :
    loadWord (loaded buffer behind) (pos + i) = uint32Le bytes i := by
  have hbyte : ∀ j < 4, (loaded buffer behind (pos + i + j)).toNat = octet bytes (u32 (i + j)) := by
    intro j hj
    rw [u32_of_lt (by omega), Nat.add_assoc, loaded_drop h (by omega), octet,
      List.getD_eq_getElem]
  have e₀ := hbyte 0 (by decide)
  have e₁ := hbyte 1 (by decide)
  have e₂ := hbyte 2 (by decide)
  have e₃ := hbyte 3 (by decide)
  rw [Nat.add_zero (pos + i)] at e₀
  rw [uint32Le_eq]
  unfold loadWord
  rw [e₀, e₁, e₂, e₃]

/-- A word has 32 bits. -/
theorem loadWord_lt (mem : Memory) (i : Nat) : loadWord mem i < 2 ^ 32 :=
  leWord_lt (UInt8.toNat_lt _) (UInt8.toNat_lt _) (UInt8.toNat_lt _) (UInt8.toNat_lt _)

end Memory

/-! ### Dives laid end to end

A dive carries its magic bytes and its length in a structure, so that a list of dives is a
buffer without further conditions.
-/

/-- A dive as the device sends it. -/
structure Dive where
  bytes : List UInt8
  length_ge : 12 ≤ bytes.length
  magic : bytes.take 4 = diveHdr
  length_word : uint32Le bytes 4 = bytes.length

/-- The state behind the dive `d`. -/
def takeDive (s : ExtractState) (d : Dive) : ExtractState :=
  ⟨s.pos + d.bytes.length,
    s.reports ++ [⟨s.pos, d.bytes.length, toString (uint32Le d.bytes 8)⟩],
    s.examined ++ wordPlaces s.pos ++ wordPlaces (s.pos + 4) ++ wordPlaces (s.pos + 8)⟩

/-- The magic bytes of a dive are found at its start. -/
theorem strncmpEq_magic {buffer : List UInt8} {behind : Memory} {pos : Nat}
    {hdr rest : List UInt8} (h : buffer.drop pos = hdr ++ rest) :
    strncmpEq (loaded buffer behind) pos hdr = (true, List.range' pos hdr.length) := by
  induction hdr generalizing pos with
  | nil => rfl
  | cons b hdr ih =>
    have hb : loaded buffer behind pos = b := loaded_drop h (Nat.zero_lt_succ _)
    have hrest : buffer.drop (pos + 1) = hdr ++ rest := by
      rw [← List.drop_drop, h]
      rfl
    rw [strncmpEq, if_pos hb, ih hrest]
    rfl

/-- In front of a dive the loop takes the dive in. -/
theorem extractStep_dive {buffer : List UInt8} {behind : Memory} (hsize : buffer.length < 2 ^ 32)
    {s : ExtractState} (d : Dive) {rest : List UInt8}
    (h : buffer.drop s.pos = d.bytes ++ rest) :
    extractStep (loaded buffer behind) buffer.length s = .next (takeDive s d) := by
  have hge := d.length_ge
  have hlen := congrArg List.length h
  rw [List.length_drop, List.length_append] at hlen
  have hmagic : buffer.drop s.pos = diveHdr ++ (d.bytes.drop 4 ++ rest) := by
    rw [h, ← d.magic, ← List.append_assoc, List.take_append_drop]
  have hdlen : diveLength (loaded buffer behind) s.pos = d.bytes.length := by
    rw [diveLength, u32_of_lt (by omega), loadWord_drop h (by omega) (by decide), d.length_word]
  have htoken : diveToken (loaded buffer behind) s.pos = uint32Le d.bytes 8 := by
    rw [diveToken, u32_of_lt (by omega), loadWord_drop h (by omega) (by decide)]
  rw [extractStep, if_pos (by omega), strncmpEq_magic hmagic]
  simp only [hdlen, htoken]
  rw [if_neg (by decide), u32_of_lt (by omega), if_neg (by omega), u32_of_lt (by omega),
    u32_of_lt (by omega)]
  rfl

/-- The bytes a report passes to the callback. -/
def DiveReport.bytes (rep : DiveReport) (mem : Memory) : List UInt8 :=
  (List.range rep.len).map fun i => mem (rep.pos + i)

/-- The report as it ought to be for the dive `d`. -/
def ReportsDive (mem : Memory) (rep : DiveReport) (d : Dive) : Prop :=
  rep.bytes mem = d.bytes ∧ rep.len = d.bytes.length ∧ rep.token = toString (uint32Le d.bytes 8)

/-- What is reported is the dive. -/
theorem reportsDive_takeDive {buffer : List UInt8} {behind : Memory} {pos : Nat} (d : Dive)
    {rest : List UInt8} (h : buffer.drop pos = d.bytes ++ rest) :
    ReportsDive (loaded buffer behind)
      ⟨pos, d.bytes.length, toString (uint32Le d.bytes 8)⟩ d := by
  refine ⟨?_, rfl, rfl⟩
  apply List.ext_getElem
  · simp [DiveReport.bytes]
  · intro i _ hi
    simp [DiveReport.bytes, loaded_drop h hi]

/-- The dives are reported in order, one report for each. -/
theorem reports_foldl {buffer : List UInt8} (behind : Memory) (ds : List Dive) {s : ExtractState}
    {rest : List UInt8} (h : buffer.drop s.pos = (ds.map Dive.bytes).flatten ++ rest) :
    ∃ news, (ds.foldl takeDive s).reports = s.reports ++ news ∧
      List.Forall₂ (ReportsDive (loaded buffer behind)) news ds := by
  induction ds generalizing s with
  | nil => exact ⟨[], by simp, .nil⟩
  | cons d ds ih =>
    rw [List.map_cons, List.flatten_cons, List.append_assoc] at h
    have hrest : buffer.drop (takeDive s d).pos = (ds.map Dive.bytes).flatten ++ rest := by
      show buffer.drop (s.pos + d.bytes.length) = _
      rw [← List.drop_drop, h, List.drop_left]
    obtain ⟨news, hnews, hall⟩ := ih hrest
    refine ⟨_ :: news, ?_, .cons (reportsDive_takeDive d h) hall⟩
    rw [List.foldl_cons, hnews]
    simp [takeDive]

/-- Each report belongs to a dive. -/
theorem exists_dive_of_mem {mem : Memory} {reps : List DiveReport} {ds : List Dive}
    (h : List.Forall₂ (ReportsDive mem) reps ds) {rep : DiveReport} (hrep : rep ∈ reps) :
    ∃ d, ReportsDive mem rep d := by
  induction h with
  | nil => cases hrep
  | cons hd _ ih =>
    rcases List.mem_cons.mp hrep with rfl | hrep
    · exact ⟨_, hd⟩
    · exact ih hrep

/-- The position is behind the dives taken. -/
theorem pos_foldl (ds : List Dive) (s : ExtractState) :
    (ds.foldl takeDive s).pos = s.pos + (ds.map Dive.bytes).flatten.length := by
  induction ds generalizing s with
  | nil => rfl
  | cons d ds ih =>
    rw [List.foldl_cons, ih, List.map_cons, List.flatten_cons, List.length_append]
    exact Nat.add_assoc _ _ _

/-- Behind the last dive the loop ends with success. -/
theorem extractStep_end {mem : Memory} {size : Nat} {s : ExtractState} (h : s.pos = size) :
    extractStep mem size s = .stop ⟨extractSuccess, s.reports, s.examined⟩ := by
  rw [extractStep, if_neg (by omega), if_neg (not_not.mpr h)]

/-- The buffer passes the test of its size word that the header parser and the
profile parser of every model begin with. -/
def PassesSizeCheck (buffer : List UInt8) : Prop :=
  ∀ m, smartCheckBuffer m buffer ≠
    some "Data buffer size does not match header-specified data size"

/-- A single dive passes the check of the parser. -/
theorem Dive.passesSizeCheck (d : Dive) : PassesSizeCheck d.bytes := by
  intro m
  rw [smartCheckBuffer, if_neg (not_not.mpr d.length_word)]
  split
  · decide
  · decide

/-- **Dive extraction undoes concatenation.**  Of dives laid end to end one report is made for
each, in their order, with its bytes and its token, and each of them passes the check of the
size word that the parser makes.  What lies behind the buffer does not matter. -/
theorem smartExtractDives_concat (ds : List Dive) (behind : Memory)
    (hsize : (ds.map Dive.bytes).flatten.length < 2 ^ 32) :
    ∃ r, SmartExtractDives (some (loaded (ds.map Dive.bytes).flatten behind))
        (ds.map Dive.bytes).flatten.length r ∧
      r.ret = extractSuccess ∧
      List.Forall₂ (ReportsDive (loaded (ds.map Dive.bytes).flatten behind)) r.reports ds ∧
      ∀ rep ∈ r.reports, PassesSizeCheck (rep.bytes (loaded (ds.map Dive.bytes).flatten behind)) := by
  set buffer := (ds.map Dive.bytes).flatten with hbuffer
  have hstart : buffer.drop extractStart.pos = (ds.map Dive.bytes).flatten ++ [] := by
    rw [List.append_nil]
    rfl
  -- one iteration for each dive
  obtain ⟨hreach, -, -⟩ := reaches_foldl (·.pos) takeDive (I := fun _ => True)
    (f := extractStep (loaded buffer behind) buffer.length)
    (fun s d rest _ h => extractStep_dive hsize d h) (fun _ _ => rfl) (fun _ _ _ => trivial)
    trivial ds hstart
  have hend : (ds.foldl takeDive extractStart).pos = buffer.length := by
    rw [pos_foldl, ← hbuffer]
    exact Nat.zero_add _
  obtain ⟨news, hnews, hall⟩ := reports_foldl behind ds hstart
  have hreports : (ds.foldl takeDive extractStart).reports = news := hnews
  refine ⟨_, ⟨_, hreach, extractStep_end hend⟩, rfl, ?_, ?_⟩
  · rw [hreports]
    exact hall
  · intro rep hrep
    rw [hreports] at hrep
    obtain ⟨d, hbytes, -⟩ := exists_dive_of_mem hall hrep
    rw [hbytes]
    exact d.passesSizeCheck

/-- The shortest dive, with token `0x01020304`. -/
def shortDive : Dive where
  bytes := [0xa5, 0xa5, 0x5a, 0x5a, 12, 0, 0, 0, 4, 3, 2, 1]
  length_ge := by decide
  magic := rfl
  length_word := rfl

/-- Two dives of twelve bytes. -/
theorem smartExtractDives_concat_two :
    ∃ r, SmartExtractDives (some (loaded (shortDive.bytes ++ shortDive.bytes) fun _ => 0)) 24 r ∧
      r.ret = extractSuccess ∧
      List.Forall₂ (ReportsDive (loaded (shortDive.bytes ++ shortDive.bytes) fun _ => 0)) r.reports
        [shortDive, shortDive] ∧
      ∀ rep ∈ r.reports,
        PassesSizeCheck (rep.bytes (loaded (shortDive.bytes ++ shortDive.bytes) fun _ => 0)) :=
  smartExtractDives_concat [shortDive, shortDive] (fun _ => 0) (by decide)

/-! ### Corrupt buffers

Nothing is known of the buffer now.  What the loop does is read off the words of length that it
meets from the start on, and these are bytes of the memory.
-/

section Corrupt

variable {mem : Memory} {size : Nat} {s s' : ExtractState}

/-- The range of a report. -/
def DiveReport.range (rep : DiveReport) : Nat × Nat := (rep.pos, rep.len)

/-- Every range reported lies in the buffer, and when the function returns
success the ranges reported partition the buffer. -/
def ExtractPartitions (mem : Memory) (size : Nat) : Prop :=
  (∀ s, Reaches (extractStep mem size) extractStart s →
      ∀ rep ∈ s.reports, rep.pos + rep.len ≤ size) ∧
    ∀ r, SmartExtractDives (some mem) size r →
      (∀ rep ∈ r.reports, rep.pos + rep.len ≤ size) ∧
        (r.ret = extractSuccess → Partitions (r.reports.map DiveReport.range) size)

/-- A dive begins at `pos`. -/
def MagicAt (mem : Memory) (size pos : Nat) : Prop :=
  pos < size ∧ (strncmpEq mem pos diveHdr).1 = true

/-- The positions reached from 0 by the length words of dives that end inside
the buffer. -/
inductive DiveStart (mem : Memory) (size : Nat) : Nat → Prop
  | zero : DiveStart mem size 0
  | next {pos : Nat} : DiveStart mem size pos → MagicAt mem size pos →
      pos + diveLength mem pos ≤ size → DiveStart mem size (pos + diveLength mem pos)

/-- The length word of some dive reaches past the 32-bit positions. -/
def LengthWraps (mem : Memory) (size : Nat) : Prop :=
  ∃ pos, DiveStart mem size pos ∧ MagicAt mem size pos ∧ 2 ^ 32 ≤ pos + diveLength mem pos

/-- What one iteration that goes on does. -/
theorem extractStep_next (h : extractStep mem size s = .next s') :
    MagicAt mem size s.pos ∧ u32 (s.pos + diveLength mem s.pos) ≤ size ∧
      s'.pos = u32 (s.pos + diveLength mem s.pos) ∧
      s'.reports = s.reports ++
        [⟨s.pos, diveLength mem s.pos, toString (diveToken mem s.pos)⟩] := by
  rw [extractStep] at h
  split at h
  case isFalse =>
    split at h
    · cases h
    · cases h
  case isTrue hpos =>
    dsimp only at h
    split at h
    case isTrue => cases h
    case isFalse hmagic =>
      split at h
      case isTrue => cases h
      case isFalse hle =>
        rw [← Iter.next.inj h]
        exact ⟨⟨hpos, by simpa using hmagic⟩, Nat.le_of_not_lt hle, rfl, rfl⟩

/-- Conversely, where a dive begins and the bound check passes the loop goes
on. -/
theorem exists_extractStep_next (hm : MagicAt mem size s.pos)
    (hle : u32 (s.pos + diveLength mem s.pos) ≤ size) :
    ∃ s', extractStep mem size s = .next s' := by
  cases h : extractStep mem size s with
  | next s' => exact ⟨s', rfl⟩
  | stop r =>
    have hlt : ¬u32 (s.pos + diveLength mem s.pos) > size := Nat.not_lt.mpr hle
    simp only [extractStep, hm.1, hm.2, hlt, if_true, if_false, reduceCtorEq] at h

/-- A step that stops adds no dive, and it has come to the end of the data if it says success. -/
theorem extractStep_stop {r : ExtractResult} (h : extractStep mem size s = .stop r) :
    r.reports = s.reports ∧ (r.ret = extractSuccess → s.pos = size) := by
  have herr : extractCorrupt ≠ extractSuccess ∧ extractTooShort ≠ extractSuccess ∧
      extractExtraData ≠ extractSuccess := by
    decide
  rw [extractStep] at h
  split at h
  -- at the end of the data: all of it taken, or a length that wraps
  case isFalse hpos =>
    split at h
    case isTrue =>
      rw [← Iter.stop.inj h]
      exact ⟨rfl, fun hret => absurd hret herr.2.2⟩
    case isFalse hend =>
      rw [← Iter.stop.inj h]
      exact ⟨rfl, fun _ => not_not.mp hend⟩
  case isTrue =>
    dsimp only at h
    split at h
    · rw [← Iter.stop.inj h]
      exact ⟨rfl, fun hret => absurd hret herr.1⟩
    · split at h
      · rw [← Iter.stop.inj h]
        exact ⟨rfl, fun hret => absurd hret herr.2.1⟩
      · cases h

/-- A dive of length zero keeps the loop where it is. -/
theorem not_returns_of_diveLength_zero (hm : MagicAt mem size s.pos) (hsize : size < 2 ^ 32)
    (hzero : diveLength mem s.pos = 0) (r : ExtractResult) :
    ¬Returns (extractStep mem size) s r := by
  rintro ⟨t, ht, hstop⟩
  have hsum : u32 (s.pos + diveLength mem s.pos) = s.pos := by
    rw [hzero, Nat.add_zero]
    exact u32_of_lt (hm.1.trans hsize)
  have hpos : t.pos = s.pos := by
    refine Reaches.invariant (I := fun t => t.pos = s.pos) ?_ ht rfl
    intro u u' hu hnext
    obtain ⟨-, -, hu', -⟩ := extractStep_next hnext
    rw [hu', hu, hsum]
  obtain ⟨t', ht'⟩ := exists_extractStep_next (s := t) (hpos ▸ hm) (by
    rw [hpos, hsum]
    exact hm.1.le)
  rw [ht'] at hstop
  cases hstop

/-- A run that comes to an end reports no empty range. -/
theorem reports_nonempty (hsize : size < 2 ^ 32) {r : ExtractResult}
    (h : Returns (extractStep mem size) s r) (hs : ∀ rep ∈ s.reports, 0 < rep.len) :
    ∀ rep ∈ r.reports, 0 < rep.len := by
  obtain ⟨t, ht, hstop⟩ := h
  induction ht using Relation.ReflTransGen.head_induction_on with
  | refl =>
    rw [(extractStep_stop hstop).1]
    exact hs
  | @head u u' hnext hreach ih =>
    obtain ⟨hm, -, -, hreports⟩ := extractStep_next hnext
    apply ih
    intro rep hrep
    rw [hreports, List.mem_append, List.mem_singleton] at hrep
    rcases hrep with hrep | rfl
    · exact hs rep hrep
    · refine Nat.pos_of_ne_zero fun hzero => ?_
      exact not_returns_of_diveLength_zero hm hsize hzero r
        (Returns.head hnext ⟨t, hreach, hstop⟩)

/-- The state of the loop as long as no position wraps around. -/
structure Advanced (mem : Memory) (size : Nat) (s : ExtractState) : Prop where
  start : DiveStart mem size s.pos
  tiles : Tiles 0 (s.reports.map DiveReport.range) s.pos
  le : s.pos ≤ size

/-- An iteration keeps it, if no length wraps around. -/
theorem Advanced.next (hwraps : ¬LengthWraps mem size)
    (hs : Advanced mem size s) (h : extractStep mem size s = .next s') :
    Advanced mem size s' := by
  obtain ⟨hm, hle, hpos, hreports⟩ := extractStep_next h
  have hlt : s.pos + diveLength mem s.pos < 2 ^ 32 :=
    Nat.lt_of_not_le fun hge => hwraps ⟨s.pos, hs.start, hm, hge⟩
  rw [u32_of_lt hlt] at hle hpos
  refine ⟨?_, ?_, ?_⟩
  · rw [hpos]
    exact .next hs.start hm hle
  · rw [hpos, hreports, List.map_append]
    exact hs.tiles.concat _
  · rw [hpos]
    exact hle

/-- As long as no position wraps around the loop visits every dive. -/
theorem DiveStart.reaches (hsize : size < 2 ^ 32) {pos : Nat} (h : DiveStart mem size pos) :
    ∃ s, Reaches (extractStep mem size) extractStart s ∧ s.pos = pos := by
  induction h with
  | zero => exact ⟨extractStart, Relation.ReflTransGen.refl, rfl⟩
  | @next pos _ hm hle ih =>
    obtain ⟨s, hreach, rfl⟩ := ih
    have hu : u32 (s.pos + diveLength mem s.pos) = s.pos + diveLength mem s.pos :=
      u32_of_lt (hle.trans_lt hsize)
    obtain ⟨s', hs'⟩ := exists_extractStep_next hm (by rwa [hu])
    obtain ⟨-, -, hpos, -⟩ := extractStep_next hs'
    exact ⟨s', hreach.tail hs', by rw [hpos, hu]⟩

/-- **Corrupt buffers.**  The bound check adds two 32-bit numbers, so the
reports partition the buffer exactly if no length word carries the sum past the
32-bit positions. -/
theorem extractPartitions_iff (mem : Memory) (size : Nat) (hsize : size < 2 ^ 32) :
    ExtractPartitions mem size ↔ ¬LengthWraps mem size := by
  constructor
  · rintro ⟨hrange, -⟩ ⟨pos, hstart, hm, hwrap⟩
    obtain ⟨s, hreach, rfl⟩ := hstart.reaches hsize
    have hword : diveLength mem s.pos < 2 ^ 32 := loadWord_lt mem _
    have hle : u32 (s.pos + diveLength mem s.pos) ≤ size := by
      have := hm.1
      rw [u32]
      omega
    obtain ⟨s', hs'⟩ := exists_extractStep_next hm hle
    obtain ⟨-, -, -, hreports⟩ := extractStep_next hs'
    -- the report of this pass would end behind the buffer
    have hin := hrange s' (hreach.tail hs')
      ⟨s.pos, diveLength mem s.pos, toString (diveToken mem s.pos)⟩ (by rw [hreports]; simp)
    exact absurd hin (Nat.not_le.mpr (hsize.trans_le hwrap))
  · intro hwraps
    -- without such a length the reports tile what is behind the position
    have hinv : ∀ s, Reaches (extractStep mem size) extractStart s → Advanced mem size s := by
      intro s hreach
      apply hreach.invariant (fun s s' hs h => hs.next hwraps h)
      exact ⟨.zero, .nil 0, Nat.zero_le size⟩
    have hrange : ∀ s, Reaches (extractStep mem size) extractStart s →
        ∀ rep ∈ s.reports, rep.pos + rep.len ≤ size := by
      intro s hreach rep hrep
      have hs := hinv s hreach
      exact (hs.tiles.mem_bounds (List.mem_map_of_mem hrep)).2.trans hs.le
    refine ⟨hrange, ?_⟩
    intro r hr
    have hne := reports_nonempty hsize hr (fun rep hrep => by cases hrep)
    obtain ⟨s, hreach, hstop⟩ := hr
    obtain ⟨hreports, hend⟩ := extractStep_stop hstop
    rw [hreports] at hne ⊢
    refine ⟨hrange s hreach, fun hret => ?_⟩
    have htiles := (hinv s hreach).tiles
    rw [hend hret] at htiles
    apply htiles.partitions
    intro rg hrg
    obtain ⟨rep, hrep, rfl⟩ := List.mem_map.mp hrg
    exact hne rep hrep

theorem extractPartitions_iff_shortDive :
    ExtractPartitions (loaded shortDive.bytes fun _ => 0) 12 ↔
      ¬LengthWraps (loaded shortDive.bytes fun _ => 0) 12 :=
  extractPartitions_iff (loaded shortDive.bytes fun _ => 0) 12 (by decide)

/-- A dive, and behind it a header with the length word `2 ^ 32 - 12`. -/
def wrappingBuffer : List UInt8 :=
  shortDive.bytes ++ [0xa5, 0xa5, 0x5a, 0x5a, 0xf4, 0xff, 0xff, 0xff, 0, 0, 0, 0]

/-- The second dive of the buffer is reported with a range of nearly 4 GiB. -/
theorem not_extractPartitions_wrappingBuffer :
    ¬∀ (mem : Memory) (size : Nat), size < 2 ^ 32 → ExtractPartitions mem size := by
  intro h
  have hrun : iterate (extractStep (loaded wrappingBuffer fun _ => 0) 24) 2 extractStart =
      .next ⟨0, [⟨0, 12, "16909060"⟩, ⟨12, 4294967284, "0"⟩], List.range 24⟩ := by
    decide +kernel
  have hin := (h (loaded wrappingBuffer fun _ => 0) 24 (by decide)).1 _ (iterate_next_reaches hrun)
    ⟨12, 4294967284, "0"⟩ (by simp)
  exact absurd hin (by decide)

end Corrupt

end BenthosDc

/-
BenthosDc/SmartExtractRuns.lean

How the loop of `smart_extract_dives` runs on data that may be corrupt.

The loop goes from position to position by the length words of the dives (`Hop`).  It is
left unless it comes back to a dive, and it stays inside the buffer unless the data ends
in the first twelve bytes of a dive.

* `extractTerminates_iff`: on which buffers the function returns;
* `extractReadsInside_iff`: on which buffers it reads the bytes of the buffer only.

Both conditions speak of the bytes: which dives are led to from the first one, and what their
words of length are.
-/
import BenthosDc.SmartExtract

namespace BenthosDc

open Loop Relation

variable {mem : Memory} {size pos : Nat} {s s' : ExtractState}

/-! ### From dive to dive

The positions of the loop are a walk along the words of length.  The step function follows the
relation, so that its runs are the paths of the relation.
-/

/-- The loop goes on behind the dive at `pos`; its end is a 32-bit number. -/
structure Hop (mem : Memory) (size pos next : Nat) : Prop where
  magic : MagicAt mem size pos
  le : u32 (pos + diveLength mem pos) ≤ size
  next : next = u32 (pos + diveLength mem pos)

/-- The length words lead from one position to another. -/
abbrev Leads (mem : Memory) (size : Nat) : Nat → Nat → Prop := ReflTransGen (Hop mem size)

/-- **The loop follows the words of length.** -/
theorem extractStep_follows :
    Follows (extractStep mem size) (fun s => s.pos) (Hop mem size) where
  hop_of_next h := by
    obtain ⟨hm, hle, hpos, -⟩ := extractStep_next h
    exact ⟨hm, hle, hpos⟩
  not_hop_of_stop hstop hhop := by
    obtain ⟨s', hs'⟩ := exists_extractStep_next hhop.magic hhop.le
    rw [hstop] at hs'
    cases hs'
  unique h h' := h.next.trans h'.next.symm

/-- A dive that the loop does not leave behind: it has no length, or its end lies in front
of it, at a position that leads to the dive again. -/
def RunsBack (mem : Memory) (size pos : Nat) : Prop :=
  MagicAt mem size pos ∧ (diveLength mem pos = 0 ∨
    2 ^ 32 ≤ pos + diveLength mem pos ∧ Leads mem size (u32 (pos + diveLength mem pos)) pos)

/-- The end of a dive lies behind its beginning if and only if it has a length and the sum
fits in 32 bits. -/
theorem lt_u32_add_iff (hm : MagicAt mem size pos) (hsize : size < 2 ^ 32) :
    pos < u32 (pos + diveLength mem pos) ↔
      diveLength mem pos ≠ 0 ∧ pos + diveLength mem pos < 2 ^ 32 := by
  have hpos := hm.1
  have hword : diveLength mem pos < 2 ^ 32 := loadWord_lt mem _
  rw [u32]
  omega

/-- Where the sum wraps around the bound check passes. -/
theorem u32_add_le_of_wraps (hm : MagicAt mem size pos) (hsize : size < 2 ^ 32)
    (h : 2 ^ 32 ≤ pos + diveLength mem pos) : u32 (pos + diveLength mem pos) ≤ size := by
  have hpos := hm.1
  have hword : diveLength mem pos < 2 ^ 32 := loadWord_lt mem _
  rw [u32]
  omega

/-- A dive that runs back lies on a circle. -/
theorem RunsBack.cycle (h : RunsBack mem size pos) (hsize : size < 2 ^ 32) :
    TransGen (Hop mem size) pos pos := by
  obtain ⟨hm, hzero | ⟨hwraps, hback⟩⟩ := h
  · apply TransGen.single
    have hsum : u32 (pos + diveLength mem pos) = pos := by
      rw [hzero, Nat.add_zero, u32_of_lt (hm.1.trans hsize)]
    exact ⟨hm, hsum.symm ▸ hm.1.le, hsum.symm⟩
  · exact TransGen.head' ⟨hm, u32_add_le_of_wraps hm hsize hwraps, rfl⟩ hback

/-- A dive that leads back to itself without going forward runs back. -/
theorem runsBack_of_not_lt (hm : MagicAt mem size pos) (hsize : size < 2 ^ 32)
    (hle : ¬pos < u32 (pos + diveLength mem pos))
    (hback : Leads mem size (u32 (pos + diveLength mem pos)) pos) : RunsBack mem size pos := by
  rw [lt_u32_add_iff hm hsize, not_and_or, not_not, Nat.not_lt] at hle
  refine ⟨hm, ?_⟩
  rcases hle with hzero | hwraps
  · left
    exact hzero
  · right
    exact ⟨hwraps, hback⟩

/-- A way back begins somewhere to run back. -/
theorem exists_runsBack_of_cycle (hsize : size < 2 ^ 32)
    (h : TransGen (Hop mem size) pos pos) :
    ∃ k, Leads mem size pos k ∧ RunsBack mem size k := by
  by_contra hnone
  -- without such a dive each hop on the way goes forward
  have hforward : ∀ k, TransGen (Hop mem size) pos k → Leads mem size k pos → pos < k := by
    intro k hk
    induction hk with
    | single hhop =>
      intro hback
      rw [hhop.next] at hback ⊢
      by_contra hle
      exact hnone ⟨pos, .refl, runsBack_of_not_lt hhop.magic hsize hle hback⟩
    | @tail k l hk hhop ih =>
      intro hback
      have hlt : pos < k := ih (ReflTransGen.head hhop hback)
      rw [hhop.next] at hback ⊢
      by_contra hle
      have hback' : Leads mem size (u32 (k + diveLength mem k)) k :=
        hback.trans hk.to_reflTransGen
      have hnot : ¬k < u32 (k + diveLength mem k) := fun h => hle (hlt.trans h)
      exact hnone ⟨k, hk.to_reflTransGen, runsBack_of_not_lt hhop.magic hsize hnot hback'⟩
  exact Nat.lt_irrefl pos (hforward pos h .refl)

/-! ### Termination

The loop runs for ever exactly if it is led around a circle.  Where every hop goes forward
there is no circle, so that a dive that runs back lies on each of them.
-/

/-- The function returns. -/
def ExtractTerminates (mem : Memory) (size : Nat) : Prop :=
  ∃ r, SmartExtractDives (some mem) size r

/-- Every iteration of the loop brings it nearer to the end of the buffer. -/
def ExtractProgresses (mem : Memory) (size : Nat) : Prop :=
  ∀ s s', Reaches (extractStep mem size) extractStart s →
    extractStep mem size s = .next s' → size - s'.pos < size - s.pos

/-- The walk ends unless it meets a dive that leads back. -/
theorem extractTerminates_iff_not_runsBack (hsize : size < 2 ^ 32) :
    ExtractTerminates mem size ↔ ¬∃ k, Leads mem size 0 k ∧ RunsBack mem size k := by
  have hbounded : ∀ {k l}, Hop mem size k l → l ∈ Finset.range (size + 1) := by
    intro k l hhop
    rw [Finset.mem_range, hhop.next]
    exact Nat.lt_succ_of_le hhop.le
  have hcycles := extractStep_follows.exists_returns_iff (s := extractStart) hbounded
  show (∃ r, Returns (extractStep mem size) extractStart r) ↔ _
  rw [hcycles, not_iff_not]
  constructor
  · intro ⟨k, hk, hcycle⟩
    obtain ⟨l, hl, hback⟩ := exists_runsBack_of_cycle hsize hcycle
    exact ⟨l, hk.trans hl, hback⟩
  · intro ⟨k, hk, hback⟩
    exact ⟨k, hk, hback.cycle hsize⟩

/-- Each iteration goes forward exactly if each dive that is met does. -/
theorem extractProgresses_iff (hsize : size < 2 ^ 32) :
    ExtractProgresses mem size ↔
      ∀ k, Leads mem size 0 k → MagicAt mem size k →
        u32 (k + diveLength mem k) ≤ size →
          diveLength mem k ≠ 0 ∧ k + diveLength mem k < 2 ^ 32 := by
  constructor
  · intro h k hk hm hle
    obtain ⟨s, hreach, rfl⟩ := extractStep_follows.exists_reaches (s := extractStart) hk
    obtain ⟨s', hs'⟩ := exists_extractStep_next hm hle
    obtain ⟨-, -, hpos, -⟩ := extractStep_next hs'
    have hless := h s s' hreach hs'
    rw [hpos] at hless
    exact (lt_u32_add_iff hm hsize).mp (by omega)
  · intro h s s' hreach hs'
    obtain ⟨hm, hle, hpos, -⟩ := extractStep_next hs'
    have hlt := (lt_u32_add_iff hm hsize).mpr
      (h s.pos (extractStep_follows.reflTransGen hreach) hm hle)
    have hpos' := hm.1
    rw [hpos]
    omega

/-- **Extraction returns if and only if** the length words never lead to a dive that they
lead back to; and every iteration goes forward if and only if no dive on the way has the
length zero or an end beyond the 32-bit positions. -/
theorem extractTerminates_iff (mem : Memory) (size : Nat) (hsize : size < 2 ^ 32) :
    (ExtractTerminates mem size ↔ ¬∃ k, Leads mem size 0 k ∧ RunsBack mem size k) ∧
      (ExtractProgresses mem size ↔
        ∀ k, Leads mem size 0 k → MagicAt mem size k →
          u32 (k + diveLength mem k) ≤ size →
            diveLength mem k ≠ 0 ∧ k + diveLength mem k < 2 ^ 32) :=
  ⟨extractTerminates_iff_not_runsBack hsize, extractProgresses_iff hsize⟩

/-- The first twelve bytes of a dive with the length word zero. -/
def emptyDive : List UInt8 := [0xa5, 0xa5, 0x5a, 0x5a, 0, 0, 0, 0, 0, 0, 0, 0]

theorem extractTerminates_iff_emptyDive :
    (ExtractTerminates (loaded emptyDive fun _ => 0) 12 ↔
        ¬∃ k, Leads (loaded emptyDive fun _ => 0) 12 0 k ∧
          RunsBack (loaded emptyDive fun _ => 0) 12 k) ∧
      (ExtractProgresses (loaded emptyDive fun _ => 0) 12 ↔
        ∀ k, Leads (loaded emptyDive fun _ => 0) 12 0 k →
          MagicAt (loaded emptyDive fun _ => 0) 12 k →
            u32 (k + diveLength (loaded emptyDive fun _ => 0) k) ≤ 12 →
              diveLength (loaded emptyDive fun _ => 0) k ≠ 0 ∧
                k + diveLength (loaded emptyDive fun _ => 0) k < 2 ^ 32) :=
  extractTerminates_iff (loaded emptyDive fun _ => 0) 12 (by decide)

/-- The empty dive is reported for ever. -/
theorem not_extractTerminates_emptyDive :
    ¬∀ (mem : Memory) (size : Nat), size < 2 ^ 32 → ExtractTerminates mem size := by
  intro h
  obtain ⟨r, hr⟩ := h (loaded emptyDive fun _ => 0) 12 (by decide)
  have hmagic : MagicAt (loaded emptyDive fun _ => 0) 12 extractStart.pos :=
    ⟨by decide, by decide +kernel⟩
  exact not_returns_of_diveLength_zero hmagic (by decide) (by decide +kernel) r hr

/-! ### Places

The places that an iteration reads are those of the comparison, which ends at the first
difference, and of the two words.
-/

/-- The places read in one iteration. -/
def stepPlaces (mem : Memory) (size pos : Nat) : List Nat :=
  if pos < size then
    (strncmpEq mem pos diveHdr).2 ++
      if (strncmpEq mem pos diveHdr).1 = true then
        wordPlaces (u32 (pos + 4)) ++
          if u32 (pos + diveLength mem pos) ≤ size then wordPlaces (u32 (pos + 8)) else []
      else []
  else []

/-- The places that an outcome of an iteration has recorded. -/
def examinedOf : Iter ExtractState ExtractResult → List Nat
  | .next s => s.examined
  | .stop r => r.examined

/-- An iteration adds its places to those read before. -/
theorem examinedOf_extractStep :
    examinedOf (extractStep mem size s) = s.examined ++ stepPlaces mem size s.pos := by
  by_cases hpos : s.pos < size
  · cases hmagic : (strncmpEq mem s.pos diveHdr).1 with
    | false =>
      simp [extractStep, stepPlaces, hpos, hmagic, examinedOf]
    | true =>
      by_cases hle : u32 (s.pos + diveLength mem s.pos) ≤ size
      · have hnot : ¬size < u32 (s.pos + diveLength mem s.pos) := Nat.not_lt.mpr hle
        simp [extractStep, stepPlaces, hpos, hmagic, hle, hnot, examinedOf]
      · have hlt : size < u32 (s.pos + diveLength mem s.pos) := Nat.lt_of_not_le hle
        simp [extractStep, stepPlaces, hpos, hmagic, hle, hlt, examinedOf]
  · by_cases hend : s.pos = size
    · simp [extractStep, stepPlaces, hend, examinedOf]
    · simp [extractStep, stepPlaces, hpos, hend, examinedOf]

/-- A comparison reads up to the first difference. -/
theorem mem_strncmpEq (i k : Nat) (hdr : List UInt8) :
    k ∈ (strncmpEq mem i hdr).2 ↔
      ∃ j, ∃ h : j < hdr.length, k = i + j ∧ ∀ l, ∀ hl : l < j, mem (i + l) = hdr[l] := by
  induction hdr generalizing i with
  | nil => simp [strncmpEq]
  | cons b hdr ih =>
    by_cases hb : mem i = b
    · rw [strncmpEq, if_pos hb]
      simp only [List.mem_cons, ih]
      constructor
      · rintro (rfl | ⟨j, hj, rfl, hall⟩)
        · exact ⟨0, Nat.zero_lt_succ _, rfl, fun l hl => absurd hl (Nat.not_lt_zero l)⟩
        · refine ⟨j + 1, Nat.succ_lt_succ hj, by omega, fun l hl => ?_⟩
          cases l with
          | zero => exact hb
          | succ l =>
            have hplace : i + (l + 1) = i + 1 + l := by omega
            rw [hplace]
            exact hall l (Nat.lt_of_succ_lt_succ hl)
      · rintro ⟨j, hj, rfl, hall⟩
        cases j with
        | zero => exact .inl rfl
        | succ j =>
          refine .inr ⟨j, Nat.lt_of_succ_lt_succ hj, by omega, fun l hl => ?_⟩
          have hplace : i + 1 + l = i + (l + 1) := by omega
          rw [hplace]
          exact hall (l + 1) (Nat.succ_lt_succ hl)
    · -- the comparison ends at its first byte
      rw [strncmpEq, if_neg hb]
      simp only [List.mem_singleton]
      constructor
      · rintro rfl
        exact ⟨0, Nat.zero_lt_succ _, rfl, fun l hl => absurd hl (Nat.not_lt_zero l)⟩
      · rintro ⟨j, hj, rfl, hall⟩
        cases j with
        | zero => rfl
        | succ j => exact absurd (hall 0 (Nat.zero_lt_succ j)) hb

/-- The comparison holds if all bytes are equal. -/
theorem strncmpEq_eq_true (i : Nat) (hdr : List UInt8) :
    (strncmpEq mem i hdr).1 = true ↔ ∀ l, ∀ hl : l < hdr.length, mem (i + l) = hdr[l] := by
  induction hdr generalizing i with
  | nil => simp [strncmpEq]
  | cons b hdr ih =>
    by_cases hb : mem i = b
    · rw [strncmpEq, if_pos hb]
      simp only [ih]
      constructor
      · intro h l hl
        cases l with
        | zero => exact hb
        | succ l =>
          have hplace : i + (l + 1) = i + 1 + l := by omega
          rw [hplace]
          exact h l (Nat.lt_of_succ_lt_succ hl)
      · intro h l hl
        have hplace : i + 1 + l = i + (l + 1) := by omega
        rw [hplace]
        exact h (l + 1) (Nat.succ_lt_succ hl)
    · rw [strncmpEq, if_neg hb]
      exact iff_of_false Bool.false_ne_true fun h => hb (h 0 (Nat.zero_lt_succ _))

/-! ### Reads inside the buffer

A place outside is read only where the data ends in the first twelve bytes of a dive.
-/

/-- The bytes from `pos` on, as far as they are in the buffer, agree with the magic. -/
def BeginsMagic (mem : Memory) (size pos : Nat) : Prop :=
  ∀ j, ∀ hj : j < diveHdr.length, pos + j < size → mem (pos + j) = diveHdr[j]

/-- The data ends in the first twelve bytes of a dive: in front of the end of its length
word, or in front of the end of its token word though the length word ends it inside. -/
def Overreads (mem : Memory) (size pos : Nat) : Prop :=
  pos < size ∧ BeginsMagic mem size pos ∧
    (size < pos + 8 ∨ size < pos + 12 ∧ u32 (pos + diveLength mem pos) ≤ size)

/-- Every byte that is read is one of the buffer, and a dive that is cut off in its first
twelve bytes is an error. -/
structure ExtractReadsInside (mem : Memory) (size : Nat) : Prop where
  inside : ∀ s, Reaches (extractStep mem size) extractStart s →
    ∀ i ∈ examinedOf (extractStep mem size s), i < size
  truncated : ∀ s, Reaches (extractStep mem size) extractStart s → s.pos < size →
    size < s.pos + 12 → ∃ r, extractStep mem size s = .stop r ∧ r.ret ≠ extractSuccess

/-- With four bytes left, the comparison sees all of the magic bytes. -/
theorem beginsMagic_iff (h : pos + 4 ≤ size) :
    BeginsMagic mem size pos ↔ (strncmpEq mem pos diveHdr).1 = true := by
  rw [strncmpEq_eq_true]
  constructor
  · intro hbegins j hj
    have hj' : j < 4 := hj
    exact hbegins j hj (by omega)
  · intro hall j hj _
    exact hall j hj

/-- A word is four bytes. -/
theorem mem_wordPlaces {i k : Nat} : k ∈ wordPlaces i ↔ i ≤ k ∧ k < i + 4 := by
  simp only [wordPlaces, List.mem_cons, List.not_mem_nil, or_false]
  omega

/-- In front of a whole magic all places are read that the magic, the length word and, if
the dive ends inside, the token word take. -/
theorem mem_stepPlaces_of_magic (hpos : pos < size)
    (hmagic : (strncmpEq mem pos diveHdr).1 = true) {k : Nat} :
    k ∈ stepPlaces mem size pos ↔ (pos ≤ k ∧ k < pos + 4) ∨
      (u32 (pos + 4) ≤ k ∧ k < u32 (pos + 4) + 4) ∨
        (u32 (pos + diveLength mem pos) ≤ size ∧ u32 (pos + 8) ≤ k ∧ k < u32 (pos + 8) + 4) := by
  -- the magic is there, so that the comparison reads all of it
  have hfirst : k ∈ (strncmpEq mem pos diveHdr).2 ↔ pos ≤ k ∧ k < pos + 4 := by
    rw [mem_strncmpEq]
    constructor
    · rintro ⟨j, hj, rfl, -⟩
      have hj' : j < 4 := hj
      omega
    · intro hk
      have hj : k - pos < diveHdr.length := by
        show k - pos < 4
        omega
      refine ⟨k - pos, hj, by omega, fun l hl => ?_⟩
      exact (strncmpEq_eq_true pos diveHdr).mp hmagic l (hl.trans hj)
  rw [stepPlaces, if_pos hpos, if_pos hmagic, List.mem_append, List.mem_append, hfirst,
    mem_wordPlaces]
  by_cases hle : u32 (pos + diveLength mem pos) ≤ size
  · simp only [hle, if_true, true_and, mem_wordPlaces]
  · simp only [hle, if_false, false_and, List.not_mem_nil]

/-- Behind the magic bytes the two words are read. -/
theorem stepPlaces_inside_of_magic (hsize : size < 2 ^ 32) (hpos : pos < size)
    (hmagic : (strncmpEq mem pos diveHdr).1 = true) :
    (∀ k ∈ stepPlaces mem size pos, k < size) ↔ ¬Overreads mem size pos := by
  have hbegins : BeginsMagic mem size pos := fun j hj _ =>
    (strncmpEq_eq_true pos diveHdr).mp hmagic j hj
  simp only [mem_stepPlaces_of_magic hpos hmagic, Overreads, hpos, hbegins, true_and]
  constructor
  · intro hall hover
    rcases hover with hshort | ⟨hshort, hle⟩
    · -- the length word, or the magic itself
      by_cases hfour : pos + 4 ≤ size
      · have hword : u32 (pos + 4) = pos + 4 := u32_of_lt (by omega)
        have := hall (pos + 7) (.inr (.inl (by omega)))
        omega
      · have := hall (pos + 3) (.inl (by omega))
        omega
    · -- the token behind a length that fits
      by_cases height : pos + 8 ≤ size
      · have hword : u32 (pos + 8) = pos + 8 := u32_of_lt (by omega)
        have := hall (pos + 11) (.inr (.inr ⟨hle, by omega⟩))
        omega
      · by_cases hfour : pos + 4 ≤ size
        · have hword : u32 (pos + 4) = pos + 4 := u32_of_lt (by omega)
          have := hall (pos + 7) (.inr (.inl (by omega)))
          omega
        · have := hall (pos + 3) (.inl (by omega))
          omega
  · intro hnot k hk
    rw [not_or, Nat.not_lt] at hnot
    -- the positions do not wrap, since the data goes on behind them
    have hfour : u32 (pos + 4) = pos + 4 := u32_of_lt (by omega)
    have height : u32 (pos + 8) = pos + 8 := u32_of_lt (by omega)
    rw [hfour, height] at hk
    rcases hk with hk | hk | ⟨hle, hk⟩
    · omega
    · omega
    · have hlong : ¬size < pos + 12 := fun h => hnot.2 ⟨h, hle⟩
      omega

/-- Without them, the comparison reads up to the first difference. -/
theorem stepPlaces_inside_of_not_magic (hpos : pos < size)
    (hmagic : ¬(strncmpEq mem pos diveHdr).1 = true) :
    (∀ k ∈ stepPlaces mem size pos, k < size) ↔ ¬Overreads mem size pos := by
  -- the comparison ends at the first difference
  have hplaces : stepPlaces mem size pos = (strncmpEq mem pos diveHdr).2 := by
    rw [stepPlaces, if_pos hpos, if_neg hmagic, List.append_nil]
  rw [hplaces]
  constructor
  · intro hall ⟨_, hbegins, _⟩
    have hnot : ¬pos + 4 ≤ size := fun h => hmagic ((beginsMagic_iff h).mp hbegins)
    have hj : size - pos < diveHdr.length := by
      show size - pos < 4
      omega
    have hread : size ∈ (strncmpEq mem pos diveHdr).2 := by
      rw [mem_strncmpEq]
      refine ⟨size - pos, hj, by omega, fun l hl => ?_⟩
      exact hbegins l (hl.trans hj) (by omega)
    exact Nat.lt_irrefl size (hall size hread)
  · intro hnot k hk
    rw [mem_strncmpEq] at hk
    obtain ⟨j, hj, rfl, hall⟩ := hk
    -- had it gone on past the data, the data would end in a beginning of the magic
    by_contra hout
    have hbegins : BeginsMagic mem size pos := fun l hl hin => hall l (by omega)
    have hj' : j < 4 := hj
    exact hnot ⟨hpos, hbegins, .inl (by omega)⟩

/-- **One iteration reads the bytes of the buffer only if and only if** the data does not
end in a dive there. -/
theorem stepPlaces_inside_iff (hsize : size < 2 ^ 32) :
    (∀ k ∈ stepPlaces mem size pos, k < size) ↔ ¬Overreads mem size pos := by
  by_cases hpos : pos < size
  case neg =>
    have hnone : stepPlaces mem size pos = [] := by rw [stepPlaces, if_neg hpos]
    simp [hnone, Overreads, hpos]
  case pos =>
  by_cases hmagic : (strncmpEq mem pos diveHdr).1 = true
  · exact stepPlaces_inside_of_magic hsize hpos hmagic
  · exact stepPlaces_inside_of_not_magic hpos hmagic

/-- **Extraction reads the bytes of the buffer only if and only if** the length words lead
to no dive in whose first twelve bytes the data ends. -/
theorem extractReadsInside_iff (mem : Memory) (size : Nat) (hsize : size < 2 ^ 32) :
    ExtractReadsInside mem size ↔ ∀ k, Leads mem size 0 k → ¬Overreads mem size k := by
  constructor
  · intro h k hk
    obtain ⟨s, hreach, rfl⟩ := extractStep_follows.exists_reaches (s := extractStart) hk
    rw [← stepPlaces_inside_iff hsize]
    intro i hi
    apply h.inside s hreach
    rw [examinedOf_extractStep]
    exact List.mem_append_right _ hi
  · intro h
    have hplaces : ∀ s, Reaches (extractStep mem size) extractStart s →
        ∀ i ∈ stepPlaces mem size s.pos, i < size := by
      intro s hreach
      exact (stepPlaces_inside_iff hsize).mpr (h _ (extractStep_follows.reflTransGen hreach))
    -- what has been read before is inside as well
    have hbefore : ∀ s, Reaches (extractStep mem size) extractStart s →
        ∀ i ∈ s.examined, i < size := by
      intro s hreach
      induction hreach with
      | refl =>
        intro i hi
        cases hi
      | @tail s s' hreach hnext ih =>
        have hexamined : examinedOf (extractStep mem size s) =
            s.examined ++ stepPlaces mem size s.pos := examinedOf_extractStep
        rw [hnext] at hexamined
        intro i hi
        have hi' : i ∈ s.examined ++ stepPlaces mem size s.pos := hexamined ▸ hi
        rcases List.mem_append.mp hi' with hi' | hi'
        · exact ih i hi'
        · exact hplaces s hreach i hi'
    constructor
    · intro s hreach i hi
      rw [examinedOf_extractStep] at hi
      rcases List.mem_append.mp hi with hi | hi
      · exact hbefore s hreach i hi
      · exact hplaces s hreach i hi
    · intro s hreach hpos hshort
      have hnot := h _ (extractStep_follows.reflTransGen hreach)
      cases hstep : extractStep mem size s with
      | next s' =>
        -- a dive that is taken in has all its twelve bytes
        obtain ⟨hm, hle, -, -⟩ := extractStep_next hstep
        have hbegins : BeginsMagic mem size s.pos := fun j hj _ =>
          (strncmpEq_eq_true s.pos diveHdr).mp hm.2 j hj
        exact absurd ⟨hpos, hbegins, .inr ⟨hshort, hle⟩⟩ hnot
      | stop r =>
        refine ⟨r, rfl, fun hret => ?_⟩
        have hend := (extractStep_stop hstep).2 hret
        omega

/-- A dive of twelve bytes is read inside. -/
theorem extractReadsInside_iff_shortDive :
    ExtractReadsInside (loaded shortDive.bytes fun _ => 0) 12 ↔
      ∀ k, Leads (loaded shortDive.bytes fun _ => 0) 12 0 k →
        ¬Overreads (loaded shortDive.bytes fun _ => 0) 12 k :=
  extractReadsInside_iff (loaded shortDive.bytes fun _ => 0) 12 (by decide)

/-- One byte of a magic, behind which the second one is read. -/
theorem not_extractReadsInside_oneByte :
    ¬∀ (mem : Memory) (size : Nat), size < 2 ^ 32 → ExtractReadsInside mem size := by
  intro h
  have hinside := (h (loaded [0xa5] fun _ => 0) 1 (by decide)).inside extractStart .refl
  have hread : 1 ∈ examinedOf (extractStep (loaded [0xa5] fun _ => 0) 1 extractStart) := by
    decide +kernel
  exact absurd (hinside 1 hread) (by decide)

end BenthosDc

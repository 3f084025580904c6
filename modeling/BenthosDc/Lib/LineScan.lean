/-
BenthosDc/Lib/LineScan.lean

Lines that are ended by a run of terminators of any length, read one symbol at a time.

The scanner keeps the lines that have ended, the part of a line behind them, and whether it
stands behind a terminator: a further terminator then belongs to the same run.  A scan goes
on where another has stopped, however the sequence is cut.

A reader that takes a line as soon as it sees one (`readLine`) does not scan symbol by symbol,
and what it has not taken is scanned again together with what comes.  `lines_run_eq_iff` says
when both see the same lines.
-/
import Mathlib.Data.List.Basic
import Mathlib.Data.List.TakeWhile

namespace LineScan

variable {α : Type*} {p : α → Bool}

/-- What is known of the symbols that have been read. -/
structure Scan (α : Type*) where
  /-- The lines that have ended. -/
  lines : List (List α)
  /-- The part of a line behind them. -/
  part : List α
  /-- Whether the last symbol was a terminator. -/
  ended : Bool
  deriving DecidableEq

/-- One symbol. -/
def Scan.step (p : α → Bool) (s : Scan α) (c : α) : Scan α :=
  if p c then if s.ended then s else ⟨s.lines ++ [s.part], [], true⟩
  else ⟨s.lines, s.part ++ [c], false⟩

/-- A sequence of symbols. -/
def Scan.run (p : α → Bool) (s : Scan α) (xs : List α) : Scan α := xs.foldl (Scan.step p) s

/-- Nothing has been read. -/
def Scan.start : Scan α := ⟨[], [], false⟩

/-- The lines of a sequence. -/
def linesOf (p : α → Bool) (xs : List α) : List (List α) := (Scan.run p Scan.start xs).lines

variable {s : Scan α} {xs : List α}

theorem run_nil : s.run p [] = s := rfl

/-- One symbol, and then the others. -/
theorem run_cons (c : α) (xs : List α) : s.run p (c :: xs) = (s.step p c).run p xs := rfl

/-- A scan goes on where it has stopped. -/
theorem run_append (xs ys : List α) : s.run p (xs ++ ys) = (s.run p xs).run p ys :=
  List.foldl_append

/-! ### Pieces without and with terminators -/

/-- Symbols of a line. -/
theorem run_of_none (h : ∀ c ∈ xs, p c = false) :
    s.run p xs = ⟨s.lines, s.part ++ xs, s.ended && xs.isEmpty⟩ := by
  induction xs generalizing s with
  | nil => simp [run_nil]
  | cons c xs ih =>
    have hstep : s.step p c = ⟨s.lines, s.part ++ [c], false⟩ := by
      rw [Scan.step, h c List.mem_cons_self, if_neg Bool.false_ne_true]
    rw [run_cons, hstep, ih fun d hd => h d (List.mem_cons_of_mem c hd)]
    simp

/-- A run of terminators ends a line, unless it goes on with one. -/
theorem run_of_all (h : ∀ c ∈ xs, p c = true) (hne : xs ≠ []) :
    s.run p xs = if s.ended then s else ⟨s.lines ++ [s.part], [], true⟩ := by
  induction xs generalizing s with
  | nil => exact absurd rfl hne
  | cons c xs ih =>
    have hstep : s.step p c = if s.ended then s else ⟨s.lines ++ [s.part], [], true⟩ := by
      rw [Scan.step, h c List.mem_cons_self, if_pos rfl]
    have hended : (s.step p c).ended = true := by
      rw [hstep]
      split
      · assumption
      · rfl
    rw [run_cons]
    by_cases hxs : xs = []
    · rw [hxs, run_nil, hstep]
    · rw [ih (fun d hd => h d (List.mem_cons_of_mem c hd)) hxs, if_pos hended, hstep]

/-- The lines before do not matter for the lines behind. -/
theorem lines_run (s : Scan α) (xs : List α) :
    (s.run p xs).lines = s.lines ++ (Scan.run p ⟨[], s.part, s.ended⟩ xs).lines := by
  induction xs generalizing s with
  | nil => exact (List.append_nil _).symm
  | cons c xs ih =>
    rw [run_cons, run_cons, ih, ih (Scan.step p ⟨[], s.part, s.ended⟩ c), ← List.append_assoc]
    simp only [Scan.step]
    split
    · split
      · simp
      · simp
    · simp

/-! ### The first line -/

/-- The first line of a sequence, and what stands behind the run of terminators. -/
def readLine (p : α → Bool) (xs : List α) : Option (List α × List α) :=
  match xs.dropWhile fun c => !p c with
  | [] => none
  | rest => some (xs.takeWhile fun c => !p c, rest.dropWhile p)

/-- A sequence that falls apart into a line, a run of terminators and the rest. -/
structure FirstLine (p : α → Bool) (xs line eols rest : List α) : Prop where
  split : xs = line ++ (eols ++ rest)
  of_line : ∀ c ∈ line, p c = false
  of_eols : ∀ c ∈ eols, p c = true
  eols_ne_nil : eols ≠ []
  of_rest : ∀ c ∈ rest.head?, p c = false

/-- The symbol at which `dropWhile` stops. -/
theorem head?_dropWhile_eq_false (q : α → Bool) (xs : List α) {c : α}
    (hc : c ∈ (xs.dropWhile q).head?) : q c = false := by
  have hstop := List.head?_dropWhile_not q xs
  rw [show (xs.dropWhile q).head? = some c from hc] at hstop
  exact hstop

/-- There is no terminator, or there is a first line. -/
theorem readLine_cases (p : α → Bool) (xs : List α) :
    (readLine p xs = none ∧ ∀ c ∈ xs, p c = false) ∨
    ∃ line eols rest, readLine p xs = some (line, rest) ∧ FirstLine p xs line eols rest := by
  -- the line is what stands in front of the first terminator
  have hxs : xs.takeWhile (fun c => !p c) ++ xs.dropWhile (fun c => !p c) = xs :=
    List.takeWhile_append_dropWhile
  have hline : ∀ c ∈ xs.takeWhile (fun c => !p c), p c = false := by
    intro c hc
    simpa using List.mem_takeWhile_imp hc
  rw [readLine]
  cases hdrop : xs.dropWhile fun c => !p c with
  | nil =>
    refine .inl ⟨rfl, fun c hc => ?_⟩
    simpa using List.dropWhile_eq_nil_iff.mp hdrop c hc
  | cons d ds =>
    have hd : p d = true := by
      have hhead : d ∈ (xs.dropWhile fun c => !p c).head? := by
        rw [hdrop]
        rfl
      simpa using head?_dropWhile_eq_false (fun c => !p c) xs hhead
    have hsplit : (d :: ds).takeWhile p ++ (d :: ds).dropWhile p = d :: ds :=
      List.takeWhile_append_dropWhile
    refine .inr ⟨_, (d :: ds).takeWhile p, _, rfl, ?_, hline, ?_, ?_, ?_⟩
    · rw [hsplit, ← hdrop, hxs]
    · intro c hc
      exact List.mem_takeWhile_imp hc
    · rw [List.takeWhile_cons_of_pos hd]
      exact List.cons_ne_nil _ _
    · intro c hc
      exact head?_dropWhile_eq_false p _ hc

/-- The scan over the first line of a sequence. -/
theorem run_firstLine {line eols rest : List α} (h : FirstLine p xs line eols rest)
    (hs : s.ended = true → line ≠ []) :
    s.run p xs = Scan.run p ⟨s.lines ++ [s.part ++ line], [], true⟩ rest := by
  have hended : (s.ended && line.isEmpty) = false := by
    cases hs' : s.ended with
    | false => rfl
    | true => simpa using hs hs'
  rw [h.split, run_append, run_of_none h.of_line, hended, run_append,
    run_of_all h.of_eols h.eols_ne_nil]
  rfl

/-- No further line ends exactly if there is no terminator. -/
theorem lines_run_eq_iff (hs : s.ended = true → ∀ c ∈ xs.head?, p c = false) :
    (s.run p xs).lines = s.lines ↔ ∀ c ∈ xs, p c = false := by
  constructor
  · intro hlines
    rcases readLine_cases p xs with ⟨-, hnone⟩ | ⟨line, eols, rest, -, h⟩
    · exact hnone
    · have hline : s.ended = true → line ≠ [] := by
        rintro hended rfl
        obtain ⟨c, eols, rfl⟩ := List.exists_cons_of_ne_nil h.eols_ne_nil
        have hhead : c ∈ xs.head? := by
          rw [h.split]
          rfl
        have hc := hs hended c hhead
        rw [h.of_eols c List.mem_cons_self] at hc
        cases hc
      rw [run_firstLine h hline, lines_run, List.append_assoc] at hlines
      have hnil := List.append_right_eq_self.mp hlines
      cases hnil
  · intro hnone
    rw [run_of_none hnone]

/-- What stands in front of a sequence without a terminator belongs to its first line. -/
theorem readLine_append {front line rest : List α} (hfront : ∀ c ∈ front, p c = false)
    (h : readLine p xs = some (line, rest)) :
    readLine p (front ++ xs) = some (front ++ line, rest) := by
  have hpass : ∀ c ∈ front, (!p c) = true := by
    intro c hc
    rw [hfront c hc]
    rfl
  rw [readLine, List.dropWhile_append_of_pos hpass, List.takeWhile_append_of_pos hpass]
  rw [readLine] at h
  split at h
  · cases h
  · cases h
    rfl

/-- At most one line ends in a sequence. -/
theorem length_linesOf_le_one_iff {line eols rest : List α} (h : FirstLine p xs line eols rest) :
    (linesOf p xs).length ≤ 1 ↔ ∀ c ∈ rest, p c = false := by
  have hrest : (Scan.run p ⟨[], [], true⟩ rest).lines = [] ↔ ∀ c ∈ rest, p c = false :=
    lines_run_eq_iff (s := ⟨[], [], true⟩) fun _ => h.of_rest
  have hstart : (Scan.start : Scan α).ended = true → line ≠ [] := by
    intro h
    cases h
  rw [linesOf, run_firstLine h hstart, lines_run, ← hrest, ← List.length_eq_zero_iff]
  show ([line] ++ (Scan.run p ⟨[], [], true⟩ rest).lines).length ≤ 1 ↔ _
  rw [List.length_append, List.length_singleton]
  omega

/-- A sequence without a terminator has no lines. -/
theorem linesOf_of_none (h : ∀ c ∈ xs, p c = false) : linesOf p xs = [] := by
  rw [linesOf, run_of_none h]
  rfl

/-- There is no terminator in the part of a line. -/
theorem part_run (hs : ∀ c ∈ s.part, p c = false) (xs : List α) :
    ∀ c ∈ (s.run p xs).part, p c = false := by
  induction xs generalizing s with
  | nil => exact hs
  | cons c xs ih =>
    apply ih
    rw [Scan.step]
    split
    · split
      · exact hs
      · exact fun d hd => nomatch hd
    next hc =>
      intro d hd
      rcases List.mem_append.mp hd with hd | hd
      · exact hs d hd
      · rw [List.mem_singleton.mp hd]
        exact Bool.eq_false_iff.mpr hc

/-- Whether the last symbol was a terminator is told by that symbol. -/
theorem ended_step (s : Scan α) (c : α) : (s.step p c).ended = p c := by
  rw [Scan.step]
  split
  next hc =>
    rw [hc]
    split
    · assumption
    · rfl
  next hc => exact (Bool.eq_false_iff.mpr hc).symm

/-- The same of a sequence: by its last symbol. -/
theorem ended_run_iff (xs : List α) :
    (Scan.run p Scan.start xs).ended = true ↔ ∃ c ∈ xs.getLast?, p c = true := by
  rcases List.eq_nil_or_concat' xs with rfl | ⟨xs, c, rfl⟩
  · constructor
    · intro h
      cases h
    · rintro ⟨c, hc, -⟩
      cases hc
  · rw [run_append, run_cons, run_nil, ended_step, List.getLast?_concat]
    constructor
    · intro hc
      exact ⟨c, rfl, hc⟩
    · rintro ⟨d, hd, hpd⟩
      cases hd
      exact hpd

end LineScan

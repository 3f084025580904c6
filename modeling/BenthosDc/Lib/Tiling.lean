/-
BenthosDc/Lib/Tiling.lean

Ranges of positions, as pairs of a start and a length, laid end to end.

`Tiles a rs b` builds a list of ranges from `a` to `b` one after the other;
`Partitions rs b` is what it means for the positions below `b`: the ranges are
not empty, stand in increasing order without overlap, and leave no gap.

Records that a program steps over one after the other tile what it has read; this says that no
byte is taken twice and none is left out.
-/
import Mathlib.Data.List.Basic
import Mathlib.Order.Nat

namespace Tiling

/-- The ranges `rs` lie end to end from `a` to `b`. -/
inductive Tiles : Nat → List (Nat × Nat) → Nat → Prop
  | nil (a : Nat) : Tiles a [] a
  | cons {a n b : Nat} {rs : List (Nat × Nat)} :
      Tiles (a + n) rs b → Tiles a ((a, n) :: rs) b

/-- The ranges `rs` are a partition of the positions below `b`, in increasing
order. -/
structure Partitions (rs : List (Nat × Nat)) (b : Nat) : Prop where
  nonempty : ∀ r ∈ rs, 0 < r.2
  ordered : rs.Pairwise fun r s => r.1 + r.2 ≤ s.1
  covers : ∀ i, i < b ↔ ∃ r ∈ rs, r.1 ≤ i ∧ i < r.1 + r.2

variable {a b : Nat} {rs : List (Nat × Nat)}

/-- One does not come back. -/
theorem Tiles.le (h : Tiles a rs b) : a ≤ b := by
  induction h with
  | nil => exact le_rfl
  | cons _ ih => exact (Nat.le_add_right _ _).trans ih

/-- One more range at the end. -/
theorem Tiles.concat (h : Tiles a rs b) (n : Nat) : Tiles a (rs ++ [(b, n)]) (b + n) := by
  induction h with
  | nil a => exact .cons (.nil (a + n))
  | cons _ ih => exact .cons ih

/-- Ranges that go on where others end. -/
theorem Tiles.append {c : Nat} {rs' : List (Nat × Nat)} (h : Tiles a rs b) (h' : Tiles b rs' c) :
    Tiles a (rs ++ rs') c := by
  induction h with
  | nil => exact h'
  | cons _ ih => exact .cons (ih h')

/-- Each range lies inside of what is covered. -/
theorem Tiles.mem_bounds (h : Tiles a rs b) {r : Nat × Nat} (hr : r ∈ rs) :
    a ≤ r.1 ∧ r.1 + r.2 ≤ b := by
  induction h with
  | nil => cases hr
  | cons hrest ih =>
    rcases List.mem_cons.mp hr with rfl | hr
    · exact ⟨le_rfl, hrest.le⟩
    · obtain ⟨hlo, hhi⟩ := ih hr
      exact ⟨(Nat.le_add_right _ _).trans hlo, hhi⟩

/-- Later ranges lie behind earlier ones. -/
theorem Tiles.ordered (h : Tiles a rs b) : rs.Pairwise fun r s => r.1 + r.2 ≤ s.1 := by
  induction h with
  | nil => exact List.Pairwise.nil
  | cons hrest ih => exact List.Pairwise.cons (fun s hs => (hrest.mem_bounds hs).1) ih

/-- **Every position is covered**, and none outside. -/
theorem Tiles.covers (h : Tiles a rs b) (i : Nat) :
    a ≤ i ∧ i < b ↔ ∃ r ∈ rs, r.1 ≤ i ∧ i < r.1 + r.2 := by
  induction h with
  | nil =>
    constructor
    · rintro ⟨hlo, hhi⟩
      omega
    · rintro ⟨r, hr, -⟩
      cases hr
  | @cons a n b rs hrest ih =>
    have hle := hrest.le
    constructor
    · rintro ⟨hlo, hhi⟩
      -- in the first range, or in one of the others
      by_cases hi : i < a + n
      · exact ⟨(a, n), List.mem_cons_self, hlo, hi⟩
      · obtain ⟨r, hr, hri⟩ := ih.mp ⟨Nat.le_of_not_lt hi, hhi⟩
        exact ⟨r, List.mem_cons_of_mem _ hr, hri⟩
    · rintro ⟨r, hr, hlo, hhi⟩
      rcases List.mem_cons.mp hr with rfl | hr
      · exact ⟨hlo, hhi.trans_le hle⟩
      · obtain ⟨h₁, h₂⟩ := ih.mpr ⟨r, hr, hlo, hhi⟩
        exact ⟨(Nat.le_add_right _ _).trans h₁, h₂⟩

/-- **Non-empty ranges laid end to end are a partition.** -/
theorem Tiles.partitions (h : Tiles 0 rs b) (hne : ∀ r ∈ rs, 0 < r.2) : Partitions rs b where
  nonempty := hne
  ordered := h.ordered
  covers i := by
    rw [← h.covers i]
    exact ⟨fun hi => ⟨Nat.zero_le i, hi⟩, fun hi => hi.2⟩

end Tiling

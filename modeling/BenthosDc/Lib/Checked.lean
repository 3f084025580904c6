/-
BenthosDc/Lib/Checked.lean

Computations that check as they go: inversion of a successful run.

A parser that returns at the first error is a chain of tests and loops in `Except`.  What
a success says is read off step by step: both parts of a bind succeed
(`bind_eq_ok_iff`), every test holds (`require_eq_ok_iff`), and a loop keeps what one pass
of it keeps (`foldlM_eq_ok_induction`).  What a failure says comes from the errors of the
parts: `FailsWith P` says that all errors satisfy `P`.
-/
import Mathlib.Data.List.Basic

namespace Checked

variable {ε α β : Type}

/-- Go on if `c` holds. -/
def require (c : Prop) [Decidable c] (e : ε) : Except ε Unit := if c then pure () else throw e

/-- A test that succeeds holds. -/
theorem require_eq_ok_iff {c : Prop} [Decidable c] {e : ε} {u : Unit} :
    require c e = .ok u ↔ c := by
  by_cases h : c
  · exact iff_of_true (if_pos h) h
  · refine iff_of_false (fun hok => ?_) h
    rw [require, if_neg h] at hok
    cases hok

/-- A chain succeeds if both of its parts do. -/
theorem bind_eq_ok_iff {x : Except ε α} {f : α → Except ε β} {b : β} :
    (x >>= f) = .ok b ↔ ∃ a, x = .ok a ∧ f a = .ok b := by
  cases x with
  | error e =>
    refine iff_of_false (fun h => ?_) ?_
    · cases h
    · rintro ⟨a, ha, -⟩
      cases ha
  | ok a =>
    constructor
    · exact fun h => ⟨a, rfl, h⟩
    · rintro ⟨_, ⟨⟩, h⟩
      exact h

/-- A chain that begins with a test. -/
theorem require_bind_eq_ok_iff {c : Prop} [Decidable c] {e : ε} {f : Unit → Except ε β} {b : β} :
    (require c e >>= f) = .ok b ↔ c ∧ f () = .ok b := by
  rw [bind_eq_ok_iff]
  constructor
  · rintro ⟨⟨⟩, hc, h⟩
    exact ⟨require_eq_ok_iff.mp hc, h⟩
  · rintro ⟨hc, h⟩
    exact ⟨(), require_eq_ok_iff.mpr hc, h⟩

/-- What is returned is the result. -/
theorem pure_eq_ok_iff {a b : α} : (pure a : Except ε α) = .ok b ↔ a = b :=
  ⟨fun h => Except.ok.inj h, fun h => congrArg _ h⟩

/-- **The loop rule**: `P` is about the part of the list that the loop is through with. -/
theorem foldlM_eq_ok_induction {f : β → α → Except ε β} {P : List α → β → Prop} {xs : List α}
    {b b' : β} (h : xs.foldlM f b = .ok b') (start : P [] b)
    (step : ∀ pre x c c', P pre c → f c x = .ok c' → P (pre ++ [x]) c') : P xs b' := by
  have hrun : ∀ (ys pre : List α) (c : β), P pre c → ys.foldlM f c = .ok b' → P (pre ++ ys) b' := by
    intro ys
    induction ys with
    | nil =>
      intro pre c hc hok
      obtain rfl := pure_eq_ok_iff.mp hok
      rwa [List.append_nil]
    | cons y ys ih =>
      intro pre c hc hok
      rw [List.foldlM_cons] at hok
      obtain ⟨c', hy, hok⟩ := bind_eq_ok_iff.mp hok
      have := ih (pre ++ [y]) c' (step pre y c c' hc hy) hok
      rwa [List.append_assoc] at this
  exact hrun xs [] b start h

/-! ### Failures -/

/-- Every error is in `P`. -/
def FailsWith (P : ε → Prop) (x : Except ε α) : Prop := ∀ e, x = .error e → P e

namespace FailsWith

variable {P : ε → Prop} {x y : Except ε α} {c : Prop} [Decidable c] {e : ε}

/-- A success has no error. -/
theorem ok (a : α) : FailsWith P (.ok a : Except ε α) := fun _ h => nomatch h

/-- The error that is thrown. -/
theorem throw (h : P e) : FailsWith P (.error e : Except ε α) := fun _ he => Except.error.inj he ▸ h

/-- The errors of both branches. -/
theorem ite (hx : FailsWith P x) (hy : FailsWith P y) : FailsWith P (if c then x else y) := by
  split
  · exact hx
  · exact hy

/-- The error of a test. -/
theorem require (h : P e) : FailsWith P (require c e) := (ok ()).ite (throw h)

/-- The errors of both parts of a chain. -/
theorem bind {f : α → Except ε β} (hx : FailsWith P x) (hf : ∀ a, FailsWith P (f a)) :
    FailsWith P (x >>= f) := by
  cases x with
  | error e => exact fun e' he => hx e' (congrArg _ (Except.error.inj he))
  | ok a => exact hf a

/-- The errors of a loop are those of its passes. -/
theorem foldlM {f : β → α → Except ε β} (hf : ∀ b a, FailsWith P (f b a)) (xs : List α) (b : β) :
    FailsWith P (xs.foldlM f b) := by
  induction xs generalizing b with
  | nil => exact ok b
  | cons a xs ih =>
    rw [List.foldlM_cons]
    exact (hf b a).bind ih

end FailsWith

end Checked

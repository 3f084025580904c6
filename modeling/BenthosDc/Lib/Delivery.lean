/-
BenthosDc/Lib/Delivery.lean

A channel that delivers everything in order, in pieces of any size.

What has been sent is in flight until it arrives.  Seen from the receiver the
channel is the sequence `pending` of what is still to be read, and neither the
sizes nor the moments of the arrivals show in it.

A source (`HandsOut`) is asked for its items, a number of them at a time, and hands
out as many of them as it likes.  Who asks until there are enough ends up with the first
of them, however he asks and in whatever pieces they come (`HandsOut.gathered`).
-/
import Mathlib.Data.List.Basic

namespace Delivery

/-- What has arrived and is to be read, and what is still on its way. -/
structure Channel (α : Type*) where
  arrived : List α
  flight : List α
  deriving DecidableEq

variable {α : Type*}

/-- All that is still to be read, in order. -/
def Channel.pending (c : Channel α) : List α := c.arrived ++ c.flight

/-- Nothing has been sent. -/
def Channel.empty : Channel α := ⟨[], []⟩

/-- What is sent is put behind all that is on its way. -/
def Channel.send (c : Channel α) (xs : List α) : Channel α := ⟨c.arrived, c.flight ++ xs⟩

/-- The next `n` items arrive. -/
def Channel.arrive (c : Channel α) (n : Nat) : Channel α :=
  ⟨c.arrived ++ c.flight.take n, c.flight.drop n⟩

/-- Everything arrives. -/
def Channel.settle (c : Channel α) : Channel α := ⟨c.pending, []⟩

/-- The receiver has more to read, behind everything else. -/
@[simp] theorem pending_send (c : Channel α) (xs : List α) :
    (c.send xs).pending = c.pending ++ xs :=
  (List.append_assoc _ _ _).symm

/-- **Arrivals do not show.** -/
@[simp] theorem pending_arrive (c : Channel α) (n : Nat) : (c.arrive n).pending = c.pending := by
  show (c.arrived ++ c.flight.take n) ++ c.flight.drop n = c.arrived ++ c.flight
  rw [List.append_assoc, List.take_append_drop]

/-- That everything arrives does not change what is to be read. -/
@[simp] theorem pending_settle (c : Channel α) : c.settle.pending = c.pending :=
  List.append_nil _

/-- Receive the next item, if one has arrived. -/
def Channel.receive (c : Channel α) : Option (α × Channel α) :=
  match c.arrived with
  | [] => none
  | x :: xs => some (x, ⟨xs, c.flight⟩)

/-- What is received is the first of what is pending. -/
theorem pending_of_receive {c c' : Channel α} {x : α} (h : c.receive = some (x, c')) :
    c.pending = x :: c'.pending := by
  obtain ⟨arrived, flight⟩ := c
  cases arrived with
  | nil => cases h
  | cons y ys =>
    cases h
    rfl

/-- When everything has arrived, nothing is received only if nothing was pending. -/
theorem receive_settle_eq_none_iff (c : Channel α) : c.settle.receive = none ↔ c.pending = [] := by
  unfold Channel.receive Channel.settle
  cases c.pending with
  | nil => simp
  | cons x xs => simp

/-! ### Sources -/

/-- A source hands out `xs` in order: asked for some items, it hands out one of them at
least, and not more than it was asked for.  `reads s n piece s'` is that it hands out
`piece` when it is asked for `n` items; what comes behind `xs` is left open. -/
inductive HandsOut {σ : Type*} (reads : σ → Nat → List α → σ → Prop) : List α → σ → Prop
  | nil {s : σ} : HandsOut reads [] s
  | cons {xs : List α} {s : σ} :
      (∀ n, 0 < n → ∃ piece s', reads s n piece s') →
      (∀ n piece s', 0 < n → reads s n piece s' →
        piece ≠ [] ∧ piece.length ≤ n ∧ piece <+: xs) →
      (∀ n piece s', 0 < n → reads s n piece s' → HandsOut reads (xs.drop piece.length) s') →
      HandsOut reads xs s

/-- Items are read until there are `len` of them: `ask len` is the number that is asked
for when `len` items are to come. -/
inductive Gathered {σ : Type*} (reads : σ → Nat → List α → σ → Prop) (ask : Nat → Nat) :
    Nat → σ → List α → σ → Prop
  | done {s : σ} : Gathered reads ask 0 s [] s
  | more {len : Nat} {s s' s'' : σ} {piece xs : List α} : len ≠ 0 →
      reads s (ask len) piece s' → piece ≠ [] → piece.length ≤ ask len →
      Gathered reads ask (len - piece.length) s' xs s'' →
      Gathered reads ask len s (piece ++ xs) s''

section Sources

variable {σ : Type*} {reads : σ → Nat → List α → σ → Prop} {ask : Nat → Nat} {xs : List α} {s : σ}

/-- The next piece of a source that has something left. -/
theorem HandsOut.next (h : HandsOut reads xs s) (hxs : xs ≠ []) {n : Nat} (hn : 0 < n) :
    ∃ piece rest s', reads s n piece s' ∧ piece ≠ [] ∧ piece.length ≤ n ∧ xs = piece ++ rest ∧
      HandsOut reads rest s' := by
  cases h with
  | nil => exact absurd rfl hxs
  | cons hsome hpiece hrest =>
    obtain ⟨piece, s', hread⟩ := hsome n hn
    obtain ⟨hne, hle, rest, rfl⟩ := hpiece n piece s' hn hread
    have hdrop := hrest n piece s' hn hread
    rw [List.drop_left] at hdrop
    exact ⟨piece, rest, s', hread, hne, hle, rfl, hdrop⟩

/-- **Whoever asks long enough gets the first items.** -/
theorem HandsOut.gathered (h : HandsOut reads xs s)
    (hask : ∀ n, n ≠ 0 → 0 < ask n ∧ ask n ≤ n) {len : Nat} (hlen : len ≤ xs.length) :
    ∃ s', Gathered reads ask len s (xs.take len) s' := by
  -- on what is still to come
  induction len using Nat.strongRecOn generalizing xs s with
  | ind len ih =>
    by_cases hzero : len = 0
    · subst hzero
      exact ⟨s, .done⟩
    obtain ⟨hpos, hfew⟩ := hask len hzero
    have hxs : xs ≠ [] := by
      rintro rfl
      exact hzero (Nat.le_zero.mp hlen)
    obtain ⟨piece, rest, s₁, hread, hne, hle, rfl, hrest⟩ := h.next hxs hpos
    have hpiece : 0 < piece.length := List.length_pos_iff.mpr hne
    rw [List.length_append] at hlen
    obtain ⟨s', hmore⟩ := ih (len - piece.length) (by omega) hrest (by omega)
    refine ⟨s', ?_⟩
    rw [List.take_append, List.take_of_length_le (Nat.le_trans hle hfew)]
    exact .more hzero hread hne hle hmore

end Sources

end Delivery

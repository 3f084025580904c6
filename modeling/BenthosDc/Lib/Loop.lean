/-
BenthosDc/Lib/Loop.lean

Loops of a deterministic program.  One iteration is a function `f` from a loop
state to the next state or to the value the loop is left with.  Two readings of
the same loop are kept side by side:

* relational, `Reaches f s s'` and `Returns f s r`, for the invariants;
* executable, `iterate f n s`, which runs at most `n` iterations.

`Returns.iterate_of_measure` joins the two: under a decreasing measure enough
fuel computes the value of the loop.

A loop that does not end returns nothing: `Returns f s r` holds for no `r`, and for all `n` the
executable reading stands at a state still.  So "the loop ends" is a statement of its own, and
is proved with a measure or refuted with a state that comes back (`Follows.not_returns`).
-/
import Mathlib.Data.Finset.Card
import Mathlib.Logic.Relation

namespace Loop

/-- The outcome of one iteration: go on in a new state, or leave the loop. -/
inductive Iter (σ ρ : Type*)
  | next (s : σ)
  | stop (r : ρ)
  deriving DecidableEq

variable {σ ρ : Type*}

/-- Run at most `n` iterations of `f`. -/
def iterate (f : σ → Iter σ ρ) : Nat → σ → Iter σ ρ
  | 0, s => .next s
  | n + 1, s =>
      match f s with
      | .next s' => iterate f n s'
      | .stop r => .stop r

/-- Some number of iterations leads from `s` to `s'`. -/
def Reaches (f : σ → Iter σ ρ) : σ → σ → Prop :=
  Relation.ReflTransGen fun s s' => f s = .next s'

/-- The loop entered in `s` is left with the value `r`. -/
def Returns (f : σ → Iter σ ρ) (s : σ) (r : ρ) : Prop :=
  ∃ s', Reaches f s s' ∧ f s' = .stop r

variable {f : σ → Iter σ ρ} {s s' : σ} {r r' : ρ}

/-! ### One iteration at a time -/

/-- An iteration that goes on. -/
theorem iterate_succ_next (h : f s = .next s') (n : Nat) :
    iterate f (n + 1) s = iterate f n s' := by
  simp [iterate, h]

/-- An iteration that leaves the loop. -/
theorem iterate_succ_stop (h : f s = .stop r) (n : Nat) :
    iterate f (n + 1) s = .stop r := by
  simp [iterate, h]

/-- The loop is left at once. -/
theorem Returns.of_stop (h : f s = .stop r) : Returns f s r :=
  ⟨s, Relation.ReflTransGen.refl, h⟩

/-- The loop is left after one more iteration. -/
theorem Returns.head (h : f s = .next s') (hr : Returns f s' r) : Returns f s r := by
  obtain ⟨t, ht, hstop⟩ := hr
  exact ⟨t, Relation.ReflTransGen.head h ht, hstop⟩

/-- A state the loop goes on from returns exactly what its successor returns. -/
theorem returns_iff_of_next (h : f s = .next s') : Returns f s r ↔ Returns f s' r := by
  constructor
  · rintro ⟨t, ht, hstop⟩
    rcases Relation.ReflTransGen.cases_head ht with rfl | ⟨u, hu, hrest⟩
    · rw [h] at hstop
      cases hstop
    · rw [h] at hu
      cases hu
      exact ⟨t, hrest, hstop⟩
  · exact Returns.head h

/-- A loop that is left at once returns that value only. -/
theorem returns_iff_of_stop (h : f s = .stop r') : Returns f s r ↔ r = r' := by
  constructor
  · rintro ⟨t, ht, hstop⟩
    rcases Relation.ReflTransGen.cases_head ht with rfl | ⟨u, hu, -⟩
    · rw [h] at hstop
      cases hstop
      rfl
    · rw [h] at hu
      cases hu
  · rintro rfl
    exact Returns.of_stop h

/-! ### Determinism and invariants -/

/-- **A loop returns one value at most.** -/
theorem Returns.unique (h : Returns f s r) (h' : Returns f s r') : r = r' := by
  obtain ⟨t, ht, hstop⟩ := h
  induction ht using Relation.ReflTransGen.head_induction_on with
  | refl => exact ((returns_iff_of_stop hstop).mp h').symm
  | head hstep _ ih => exact ih ((returns_iff_of_next hstep).mp h')

/-- **The invariant rule**: what one iteration preserves holds of every state
the loop reaches. -/
theorem Reaches.invariant {I : σ → Prop} (hstep : ∀ s s', I s → f s = .next s' → I s')
    (h : Reaches f s s') (hs : I s) : I s' := by
  induction h with
  | refl => exact hs
  | tail _ hnext ih => exact hstep _ _ ih hnext

/-- The invariant rule for the value the loop is left with. -/
theorem Returns.invariant {I : σ → Prop} {Q : ρ → Prop}
    (hstep : ∀ s s', I s → f s = .next s' → I s')
    (hexit : ∀ s r, I s → f s = .stop r → Q r)
    (h : Returns f s r) (hs : I s) : Q r := by
  obtain ⟨t, ht, hstop⟩ := h
  exact hexit t r (ht.invariant hstep hs) hstop

/-! ### Fuel -/

/-- What is computed is returned. -/
theorem iterate_stop_returns {n : Nat} (h : iterate f n s = .stop r) : Returns f s r := by
  induction n generalizing s with
  | zero => cases h
  | succ n ih =>
    rcases e : f s with s' | r'
    · rw [iterate_succ_next e] at h
      exact Returns.head e (ih h)
    · rw [iterate_succ_stop e] at h
      cases h
      exact Returns.of_stop e

/-- Where the fuel ends, the loop stands at a state that it reaches. -/
theorem iterate_next_reaches {n : Nat} (h : iterate f n s = .next s') : Reaches f s s' := by
  induction n generalizing s with
  | zero =>
    cases h
    exact Relation.ReflTransGen.refl
  | succ n ih =>
    rcases e : f s with t | r
    · rw [iterate_succ_next e] at h
      exact Relation.ReflTransGen.head e (ih h)
    · rw [iterate_succ_stop e] at h
      cases h

/-- More fuel changes nothing once the loop has been left. -/
theorem iterate_stop_mono {n m : Nat} (hle : n ≤ m) (h : iterate f n s = .stop r) :
    iterate f m s = .stop r := by
  induction n generalizing s m with
  | zero => cases h
  | succ n ih =>
    obtain ⟨m, rfl⟩ := Nat.exists_eq_add_of_lt hle
    rcases e : f s with s' | r'
    · rw [iterate_succ_next e] at h ⊢
      exact ih (Nat.le_add_right n m) h
    · rw [iterate_succ_stop e] at h ⊢
      exact h

/-- What is returned is computed with some fuel. -/
theorem Returns.exists_iterate (h : Returns f s r) : ∃ n, iterate f n s = .stop r := by
  obtain ⟨t, ht, hstop⟩ := h
  induction ht using Relation.ReflTransGen.head_induction_on with
  | refl => exact ⟨1, iterate_succ_stop hstop 0⟩
  | head hstep _ ih =>
    obtain ⟨n, hn⟩ := ih
    exact ⟨n + 1, by rw [iterate_succ_next hstep, hn]⟩

/-- **The termination rule**: a measure that every iteration decreases bounds
the number of iterations. -/
theorem iterate_of_measure (μ : σ → Nat) {I : σ → Prop}
    (hstep : ∀ s s', I s → f s = .next s' → I s' ∧ μ s' < μ s) {n : Nat}
    (hs : I s) (hn : μ s < n) : ∃ r, iterate f n s = .stop r := by
  induction n generalizing s with
  | zero => omega
  | succ n ih =>
    rcases e : f s with s' | r
    · obtain ⟨hI, hlt⟩ := hstep s s' hs e
      obtain ⟨r, hr⟩ := ih hI (by omega)
      exact ⟨r, by rw [iterate_succ_next e, hr]⟩
    · exact ⟨r, iterate_succ_stop e n⟩

/-! ### Two loops side by side -/

section SideBySide

variable {τ π : Type*} {g : τ → Iter τ π} {t : τ}

/-- Two outcomes that agree: both go on, or both leave the loop. -/
inductive IterRel (R : σ → τ → Prop) (Q : ρ → π → Prop) : Iter σ ρ → Iter τ π → Prop
  | next {s : σ} {t : τ} : R s t → IterRel R Q (.next s) (.next t)
  | stop {r : ρ} {r' : π} : Q r r' → IterRel R Q (.stop r) (.stop r')

/-- **The rule for two runs**: loops whose iterations agree from states that `R` relates
agree after any number of iterations. -/
theorem IterRel.iterate {R : σ → τ → Prop} {Q : ρ → π → Prop}
    (hstep : ∀ s t, R s t → IterRel R Q (f s) (g t)) (h : R s t) (n : Nat) :
    IterRel R Q (iterate f n s) (iterate g n t) := by
  induction n generalizing s t with
  | zero => exact .next h
  | succ n ih =>
    rw [Loop.iterate, Loop.iterate]
    have hboth := hstep s t h
    revert hboth
    generalize f s = a, g t = b
    intro hboth
    cases hboth with
    | next h' => exact ih h'
    | stop h' => exact .stop h'

end SideBySide

/-! ### Loops that eat one record per iteration -/

section Records

variable {α β : Type*} {enc : α → List β} {buf : List β} (pos : σ → Nat) (upd : σ → α → σ)

/-- **The record rule.**  A loop with a cursor into `buf` that, in front of an
encoded record, takes the record in and moves the cursor behind it, takes in a
whole concatenation of encoded records, in order.  `I` is an invariant of the
loop states that taking a record in preserves. -/
theorem reaches_foldl {I : σ → Prop}
    (hstep : ∀ s a rest, I s → buf.drop (pos s) = enc a ++ rest → f s = .next (upd s a))
    (hpos : ∀ s a, pos (upd s a) = pos s + (enc a).length)
    (hI : ∀ s a, I s → I (upd s a)) (hs : I s) (as : List α) {rest : List β}
    (h : buf.drop (pos s) = (as.map enc).flatten ++ rest) :
    Reaches f s (as.foldl upd s) ∧ buf.drop (pos (as.foldl upd s)) = rest ∧
      I (as.foldl upd s) := by
  induction as generalizing s with
  | nil => exact ⟨Relation.ReflTransGen.refl, by simpa using h, hs⟩
  | cons a as ih =>
    rw [List.map_cons, List.flatten_cons, List.append_assoc] at h
    have hnext : f s = .next (upd s a) := hstep s a _ hs h
    have hdrop : buf.drop (pos (upd s a)) = (as.map enc).flatten ++ rest := by
      rw [hpos, ← List.drop_drop, h, List.drop_left]
    obtain ⟨hreach, hrest⟩ := ih (hI s a hs) hdrop
    exact ⟨Relation.ReflTransGen.head hnext hreach, hrest⟩

/-- The record rule for a loop with fuel: one iteration for each record. -/
theorem iterate_foldl (hstep : ∀ s a rest, buf.drop (pos s) = enc a ++ rest → f s = .next (upd s a))
    (hpos : ∀ s a, pos (upd s a) = pos s + (enc a).length) (as : List α) {rest : List β}
    (h : buf.drop (pos s) = (as.map enc).flatten ++ rest) (n : Nat) :
    iterate f (as.length + n) s = iterate f n (as.foldl upd s) := by
  induction as generalizing s with
  | nil => rw [List.length_nil, Nat.zero_add, List.foldl_nil]
  | cons a as ih =>
    rw [List.map_cons, List.flatten_cons, List.append_assoc] at h
    have hdrop : buf.drop (pos (upd s a)) = (as.map enc).flatten ++ rest := by
      rw [hpos, ← List.drop_drop, h, List.drop_left]
    rw [List.length_cons, Nat.add_right_comm, iterate_succ_next (hstep s a _ h), ih hdrop,
      List.foldl_cons]

/-- **The parsing rule**, converse of the record rule: where every iteration
has an encoded record in front of the cursor, the part of the buffer behind
the start is the concatenation of the records taken in so far. -/
theorem Reaches.exists_records {I : σ → Prop}
    (hstep : ∀ s s', I s → f s = .next s' →
      ∃ a, buf.drop (pos s) = enc a ++ buf.drop (pos s') ∧ s' = upd s a)
    (hI : ∀ s a, I s → I (upd s a)) (hs : I s) (h : Reaches f s s') :
    ∃ as : List α, buf.drop (pos s) = (as.map enc).flatten ++ buf.drop (pos s') ∧
      s' = as.foldl upd s ∧ I s' := by
  induction h with
  | refl => exact ⟨[], by simp, rfl, hs⟩
  | tail _ hnext ih =>
    obtain ⟨as, has, rfl, hs'⟩ := ih
    obtain ⟨a, ha, rfl⟩ := hstep _ _ hs' hnext
    exact ⟨as ++ [a], by rw [has, ha]; simp, by simp, hI _ a hs'⟩

end Records

/-! ### Loops over finitely many positions -/

section Positions

open Relation

variable {κ : Type*} (pos : σ → κ) {hop : κ → κ → Prop}

/-- The positions of a loop follow `hop`, and the loop is left where no hop begins. -/
structure Follows (f : σ → Iter σ ρ) (pos : σ → κ) (hop : κ → κ → Prop) : Prop where
  hop_of_next : ∀ {s s'}, f s = .next s' → hop (pos s) (pos s')
  not_hop_of_stop : ∀ {s r k}, f s = .stop r → ¬hop (pos s) k
  unique : ∀ {k l m}, hop k l → hop k m → l = m

variable {pos}

/-- A path of the loop is a path of positions. -/
theorem Follows.reflTransGen (hf : Follows f pos hop) (h : Reaches f s s') :
    ReflTransGen hop (pos s) (pos s') := by
  induction h with
  | refl => exact .refl
  | tail _ hnext ih => exact ih.tail (hf.hop_of_next hnext)

/-- Conversely the loop comes to every position that the hops lead to. -/
theorem Follows.exists_reaches (hf : Follows f pos hop) {k : κ}
    (h : ReflTransGen hop (pos s) k) : ∃ s', Reaches f s s' ∧ pos s' = k := by
  induction h with
  | refl => exact ⟨s, .refl, rfl⟩
  | tail _ hhop ih =>
    obtain ⟨t, hreach, rfl⟩ := ih
    cases hstep : f t with
    | next t' => exact ⟨t', hreach.tail hstep, hf.unique (hf.hop_of_next hstep) hhop⟩
    | stop r => exact absurd hhop (hf.not_hop_of_stop hstep)

/-- A loop that comes to a position it comes back to is never left. -/
theorem Follows.not_returns (hf : Follows f pos hop) {k : κ} (hk : ReflTransGen hop (pos s) k)
    (hcycle : TransGen hop k k) (r : ρ) : ¬Returns f s r := by
  intro hr
  -- the cycle stays in reach
  have hkeep : ∀ t t', ReflTransGen hop (pos t) k → f t = .next t' →
      ReflTransGen hop (pos t') k := by
    intro t t' ht hnext
    have hpath : TransGen hop (pos t) k := TransGen.trans_right ht hcycle
    obtain ⟨l, hl, hrest⟩ := TransGen.head'_iff.mp hpath
    rwa [hf.unique (hf.hop_of_next hnext) hl]
  have hleft : ∀ t r, ReflTransGen hop (pos t) k → f t = .stop r → False := by
    intro t r ht hstop
    have hpath : TransGen hop (pos t) k := TransGen.trans_right ht hcycle
    obtain ⟨l, hl, -⟩ := TransGen.head'_iff.mp hpath
    exact hf.not_hop_of_stop hstop hl
  exact hr.invariant (Q := fun _ => False) hkeep hleft hk

open Classical in
/-- **A loop over finitely many positions is left** unless it comes back to one. -/
theorem Follows.exists_returns_iff (hf : Follows f pos hop) {K : Finset κ}
    (hK : ∀ {k l}, hop k l → l ∈ K) :
    (∃ r, Returns f s r) ↔ ¬∃ k, ReflTransGen hop (pos s) k ∧ TransGen hop k k := by
  constructor
  · intro ⟨r, hr⟩ ⟨k, hk, hcycle⟩
    exact hf.not_returns hk hcycle r hr
  · intro hacyclic
    -- the positions still to come become fewer
    let ahead : σ → Finset κ := fun t => K.filter fun k => TransGen hop (pos t) k
    have hstep : ∀ t t', Reaches f s t → f t = .next t' →
        Reaches f s t' ∧ (ahead t').card < (ahead t).card := by
      intro t t' ht hnext
      have hhop : hop (pos t) (pos t') := hf.hop_of_next hnext
      refine ⟨ht.tail hnext, Finset.card_lt_card ?_⟩
      rw [Finset.ssubset_iff_of_subset]
      · refine ⟨pos t', ?_, ?_⟩
        · exact Finset.mem_filter.mpr ⟨hK hhop, .single hhop⟩
        · intro hmem
          have hcycle := (Finset.mem_filter.mp hmem).2
          exact hacyclic ⟨pos t', hf.reflTransGen (ht.tail hnext), hcycle⟩
      · intro k hk
        obtain ⟨hk, hpath⟩ := Finset.mem_filter.mp hk
        exact Finset.mem_filter.mpr ⟨hk, .head hhop hpath⟩
    obtain ⟨r, hr⟩ := Loop.iterate_of_measure (fun t => (ahead t).card) hstep .refl
      (Nat.lt_succ_self _)
    exact ⟨r, iterate_stop_returns hr⟩

end Positions

end Loop

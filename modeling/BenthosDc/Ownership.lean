/-
BenthosDc/Ownership.lean

What a driver owns.

`Owned valid handles` holds of a desk if the state is valid and its handles are live.  A
program that keeps this true only uses handles of the state; one that gives a handle back
must take it out of the state.

The drivers share the rules: a use needs the handle to be owned, an allocation brings in a
handle that nothing has, and a release takes the handle out of what is owned.  A program that
breaks them comes to a halt with `dangling`, so to prove that there is no such halt is to prove
that the rules are kept.
-/
import BenthosDc.DriverBase

namespace BenthosDc

open Hoare Lifetime

variable {σ α β : Type} {d : Desk σ} {h : Nat}

/-- All reasons to halt but a handle that is not live. -/
def NotDangling (e : Halt) : Prop := e ≠ .dangling

/-- The state is valid, and its handles are live. -/
structure Owned (valid : σ → Prop) (handles : σ → Set Nat) (d : Desk σ) : Prop where
  valid : valid d.state
  live : handles d.state ⊆ d.ledger.live

/-- A program that keeps `I` true and follows no handle that is not live. -/
abbrev Keeping (I : Desk σ → Prop) (P : α → Prop) (m : Driver σ α) : Prop :=
  Maintains I P NotDangling m

/-! ### One handle -/

section Handles

variable {E : Halt → Prop}

/-- A use that the ledger allows. -/
theorem useHandle_run {l : Ledger} (huse : d.ledger.use h = some l) :
    (useHandle h).run d = .ok ((), ⟨d.state, l⟩) := by
  show useHandle h d = _
  rw [useHandle, huse]

/-- One that it does not. -/
theorem useHandle_run_none (huse : d.ledger.use h = none) :
    (useHandle h).run d = .error .dangling := by
  show useHandle h d = _
  rw [useHandle, huse]

/-- A release that the ledger allows. -/
theorem disposeHandle_run {l : Ledger} (hdispose : d.ledger.dispose h = some l) :
    (disposeHandle h).run d = .ok ((), ⟨d.state, l⟩) := by
  show disposeHandle h d = _
  rw [disposeHandle, hdispose]

/-- One that it does not. -/
theorem disposeHandle_run_none (hdispose : d.ledger.dispose h = none) :
    (disposeHandle h).run d = .error .dangling := by
  show disposeHandle h d = _
  rw [disposeHandle, hdispose]

/-- A live handle may be used. -/
theorem useHandle_spec {Q : Unit → Desk σ → Prop} (hlive : h ∈ d.ledger.live)
    (hQ : ∀ l : Ledger, l.live = d.ledger.live → Q () ⟨d.state, l⟩) :
    Triple (useHandle h) d Q E := by
  obtain ⟨l, huse, hl⟩ := Ledger.exists_use hlive
  exact Triple.of_run (useHandle_run huse) (hQ l hl)

/-- It may be released, and is live no more. -/
theorem disposeHandle_spec {Q : Unit → Desk σ → Prop} (hlive : h ∈ d.ledger.live)
    (hQ : ∀ l : Ledger, l.live = d.ledger.live \ {h} → Q () ⟨d.state, l⟩) :
    Triple (disposeHandle h) d Q E := by
  obtain ⟨l, hdispose, hl⟩ := Ledger.exists_dispose hlive
  exact Triple.of_run (disposeHandle_run hdispose) (hQ l hl)

/-- A new handle is live, and nothing else had it. -/
theorem allocHandle_spec {Q : Nat → Desk σ → Prop}
    (hQ : ∀ (k : Nat) (l : Ledger), k ∉ d.ledger.live → l.live = insert k d.ledger.live →
      Q k ⟨d.state, l⟩) :
    Triple allocHandle d Q E :=
  Triple.of_run rfl (hQ _ _ d.ledger.next_not_mem_live d.ledger.live_alloc)

/-- The use of a dead handle halts. -/
theorem useHandle_dead {Q : Unit → Desk σ → Prop} (hdead : h ∉ d.ledger.live) :
    Triple (useHandle h) d Q (· = .dangling) :=
  Triple.of_run_error (useHandle_run_none (Ledger.use_eq_none hdead)) rfl

/-- So does its release. -/
theorem disposeHandle_dead {Q : Unit → Desk σ → Prop} (hdead : h ∉ d.ledger.live) :
    Triple (disposeHandle h) d Q (· = .dangling) :=
  Triple.of_run_error (disposeHandle_run_none (Ledger.dispose_eq_none hdead)) rfl

end Handles

/-! ### Handles that have been disposed -/

section Spent

variable {k : Nat}

/-- What is spent stays so behind a use. -/
theorem useHandle_spent :
    Maintains (fun d : Desk σ => d.ledger.Spent h) (fun _ => True) (fun _ => True)
      (useHandle k) := by
  intro d hd
  cases huse : d.ledger.use k with
  | none => exact Triple.of_run_error (useHandle_run_none huse) trivial
  | some l => exact Triple.of_run (useHandle_run huse) ⟨trivial, hd.use huse⟩

/-- It stays so behind a release. -/
theorem disposeHandle_spent :
    Maintains (fun d : Desk σ => d.ledger.Spent h) (fun _ => True) (fun _ => True)
      (disposeHandle k) := by
  intro d hd
  cases hdispose : d.ledger.dispose k with
  | none => exact Triple.of_run_error (disposeHandle_run_none hdispose) trivial
  | some l => exact Triple.of_run (disposeHandle_run hdispose) ⟨trivial, hd.dispose hdispose⟩

/-- A handle that is given back is spent. -/
theorem disposeHandle_spends (d : Desk σ) :
    Triple (disposeHandle h) d (fun _ d' => d'.ledger.Spent h) fun _ => True := by
  cases hdispose : d.ledger.dispose h with
  | none => exact Triple.of_run_error (disposeHandle_run_none hdispose) trivial
  | some l => exact Triple.of_run (disposeHandle_run hdispose) (Ledger.spent_dispose hdispose)

end Spent

/-! ### Programs that leave the state -/

/-- A program that does not touch the state. -/
abbrev LeavesState (m : Driver σ α) : Prop :=
  Within (fun d d' => d'.state = d.state) (fun _ => True) (fun _ => True) m

theorem leavesState_getState : LeavesState (σ := σ) getState := fun _ =>
  Triple.of_run rfl ⟨trivial, rfl⟩

theorem leavesState_allocHandle : LeavesState (σ := σ) allocHandle := fun _ =>
  Triple.of_run rfl ⟨trivial, rfl⟩

theorem leavesState_useHandle (h : Nat) : LeavesState (σ := σ) (useHandle h) := by
  intro d
  cases huse : d.ledger.use h with
  | none => exact Triple.of_run_error (useHandle_run_none huse) trivial
  | some l => exact Triple.of_run (useHandle_run huse) ⟨trivial, rfl⟩

theorem leavesState_disposeHandle (h : Nat) : LeavesState (σ := σ) (disposeHandle h) := by
  intro d
  cases hdispose : d.ledger.dispose h with
  | none => exact Triple.of_run_error (disposeHandle_run_none hdispose) trivial
  | some l => exact Triple.of_run (disposeHandle_run hdispose) ⟨trivial, rfl⟩

/-- Whatever is true of the state stays true. -/
theorem LeavesState.maintains {m : Driver σ α} (hm : LeavesState m) (J : σ → Prop) :
    Maintains (fun d => J d.state) (fun _ => True) (fun _ => True) m := by
  intro d hd
  refine (hm d).imp fun _ d' h => ⟨trivial, ?_⟩
  have hstate : d'.state = d.state := h.2
  show J d'.state
  rw [hstate]
  exact hd

/-! ### Programs over what is owned -/

section Owned

variable {valid : σ → Prop} {handles : σ → Set Nat}

/-- A handle that is not among those of the state may come or go. -/
theorem Owned.of_live (hd : Owned valid handles d) {l : Ledger}
    (hl : ∀ k ∈ handles d.state, k ∈ d.ledger.live → k ∈ l.live) :
    Owned valid handles ⟨d.state, l⟩ :=
  ⟨hd.valid, fun k hk => hl k hk (hd.live hk)⟩

/-- The same handles are live. -/
theorem Owned.of_eq (hd : Owned valid handles d) {l : Ledger} (hl : l.live = d.ledger.live) :
    Owned valid handles ⟨d.state, l⟩ :=
  hd.of_live fun _ _ hk => hl ▸ hk

theorem Owned.of_insert (hd : Owned valid handles d) {l : Ledger}
    (hl : l.live = insert h d.ledger.live) : Owned valid handles ⟨d.state, l⟩ :=
  hd.of_live fun _ _ hk => hl ▸ Set.mem_insert_of_mem h hk

/-- One that is not owned is live no more. -/
theorem Owned.of_diff (hd : Owned valid handles d) {l : Ledger}
    (hl : l.live = d.ledger.live \ {h}) (hh : h ∉ handles d.state) :
    Owned valid handles ⟨d.state, l⟩ :=
  hd.of_live fun _ hk hlive => hl ▸ ⟨hlive, fun hkh => hh (hkh ▸ hk)⟩

/-- What is owned may be used. -/
theorem Owned.use (hh : ∀ s, valid s → h ∈ handles s) :
    Keeping (Owned valid handles) (fun _ => True) (useHandle h) := fun _ hd =>
  useHandle_spec (hd.live (hh _ hd.valid)) fun _ hl => ⟨trivial, hd.of_eq hl⟩

/-- A change of the state that brings in no handle. -/
theorem Owned.modify {f : σ → σ} (hvalid : ∀ s, valid s → valid (f s))
    (hhandles : ∀ s, valid s → handles (f s) ⊆ handles s) :
    Keeping (Owned valid handles) (fun _ => True) (modifyState f) := fun _ hd =>
  Triple.of_run rfl ⟨trivial, hvalid _ hd.valid, (hhandles _ hd.valid).trans hd.live⟩

end Owned

end BenthosDc

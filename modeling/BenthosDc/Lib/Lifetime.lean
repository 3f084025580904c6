/-
BenthosDc/Lib/Lifetime.lean

The lifetime of handles, told by the trace of what happens to them.

A trace is `Sound` if a handle is allocated at most once, and used and disposed
only while it is live.  In a sound trace with no live handle left at its end
every handle has been disposed exactly once.  A `Ledger` keeps a sound trace: it
refuses what the trace would not allow.

The trace is a list of events, the oldest one first, so that a run that goes on appends to it.
`Holding` counts what is held at a moment: of the handles that have ever been allocated these
are the live ones.  Programs prove `Holding` step by step, and read off at the end that nothing
is held.
-/
import Mathlib.Data.List.Count
import Mathlib.Data.Set.Insert

namespace Lifetime

/-- What happens to a handle. -/
inductive Event (ι : Type*)
  | alloc (h : ι)
  | use (h : ι)
  | dispose (h : ι)
  deriving DecidableEq

variable {ι : Type*} {t : List (Event ι)} {h k : ι}

/-- The handle has been allocated and not been disposed. -/
def Live (t : List (Event ι)) (h : ι) : Prop := .alloc h ∈ t ∧ .dispose h ∉ t

/-- A trace in which a handle is allocated once at most, and used and disposed only while it is
live. -/
inductive Sound : List (Event ι) → Prop
  | nil : Sound []
  | alloc {t : List (Event ι)} {h : ι} : Sound t → .alloc h ∉ t → Sound (t ++ [.alloc h])
  | use {t : List (Event ι)} {h : ι} : Sound t → Live t h → Sound (t ++ [.use h])
  | dispose {t : List (Event ι)} {h : ι} : Sound t → Live t h → Sound (t ++ [.dispose h])

/-- At the beginning nothing is live. -/
theorem not_live_nil (h : ι) : ¬Live [] h := by
  rintro ⟨hmem, -⟩
  cases hmem

/-- Only what has been allocated is disposed. -/
theorem Sound.alloc_of_dispose (ht : Sound t) (h : ι) (hd : .dispose h ∈ t) : .alloc h ∈ t := by
  induction ht with
  | nil => cases hd
  | alloc _ _ ih => simp_all
  | use _ _ ih => simp_all
  | @dispose t k _ hlive ih =>
    rw [List.mem_append, List.mem_singleton] at hd ⊢
    rcases hd with hd | hd
    · exact .inl (ih hd)
    · cases hd
      exact .inl hlive.1

/-- An allocation makes its handle live, and no other. -/
theorem Sound.live_alloc (ht : Sound t) (hk : .alloc k ∉ t) (h : ι) :
    Live (t ++ [.alloc k]) h ↔ Live t h ∨ h = k := by
  have hnd : .dispose k ∉ t := fun hd => hk (ht.alloc_of_dispose k hd)
  simp only [Live, List.mem_append, List.mem_singleton, Event.alloc.injEq, reduceCtorEq, or_false]
  constructor
  · rintro ⟨ha | rfl, hd⟩
    · exact .inl ⟨ha, hd⟩
    · exact .inr rfl
  · rintro (⟨ha, hd⟩ | rfl)
    · exact ⟨.inl ha, hd⟩
    · exact ⟨.inr rfl, hnd⟩

/-- A use changes nothing. -/
theorem live_use (h : ι) : Live (t ++ [.use k]) h ↔ Live t h := by
  simp [Live]

/-- A disposal ends the life of its handle, and of no other. -/
theorem live_dispose (h : ι) : Live (t ++ [.dispose k]) h ↔ Live t h ∧ h ≠ k := by
  simp [Live]
  tauto

/-- An event of a longer trace is the last one, or an event of the trace before. -/
theorem concat_eq_split {t pre post : List (Event ι)} {e x : Event ι}
    (h : t ++ [e] = pre ++ x :: post) : (t = pre ∧ e = x) ∨ ∃ post', t = pre ++ x :: post' := by
  rcases List.eq_nil_or_concat post with rfl | ⟨post', last, rfl⟩
  · obtain ⟨hpre, hlast⟩ := List.append_inj' h rfl
    cases hlast
    exact .inl ⟨hpre, rfl⟩
  · rw [List.concat_eq_append, ← List.cons_append, ← List.append_assoc] at h
    exact .inr ⟨post', List.append_inj_left' h rfl⟩

/-- **No use after the end**: in a sound trace a handle that is used is live at
that moment. -/
theorem Sound.live_of_use (ht : Sound t) {pre post : List (Event ι)}
    (hsplit : t = pre ++ .use h :: post) : Live pre h := by
  induction ht generalizing post with
  | nil => simp at hsplit
  | alloc _ _ ih =>
    rcases concat_eq_split hsplit with ⟨-, ⟨⟩⟩ | ⟨post', hsplit⟩
    exact ih hsplit
  | use _ hlive ih =>
    rcases concat_eq_split hsplit with ⟨rfl, ⟨⟩⟩ | ⟨post', hsplit⟩
    · exact hlive
    · exact ih hsplit
  | dispose _ _ ih =>
    rcases concat_eq_split hsplit with ⟨-, ⟨⟩⟩ | ⟨post', hsplit⟩
    exact ih hsplit

/-! ### Inventories -/

/-- The handles `L` are live, and all that have been allocated are in `A`. -/
structure Holding (A L : Set ι) (t : List (Event ι)) : Prop where
  sound : Sound t
  live : ∀ h, Live t h ↔ h ∈ L
  alloc : ∀ h, .alloc h ∈ t → h ∈ A

namespace Holding

variable {A A' L L' : Set ι}

/-- Nothing is held at the beginning. -/
theorem nil : Holding (∅ : Set ι) ∅ [] :=
  ⟨.nil, fun h => iff_of_false (not_live_nil h) (Set.notMem_empty h), by rintro _ ⟨⟩⟩

/-- More may have been allocated. -/
theorem mono (ht : Holding A L t) (hA : A ⊆ A') : Holding A' L t :=
  ⟨ht.sound, ht.live, fun h hmem => hA (ht.alloc h hmem)⟩

/-- The same handles are held. -/
theorem congr (ht : Holding A L t) (hL : ∀ h, h ∈ L ↔ h ∈ L') : Holding A L' t :=
  ⟨ht.sound, fun h => (ht.live h).trans (hL h), ht.alloc⟩

/-- A handle that has not been allocated is added. -/
theorem push (ht : Holding A L t) (hk : k ∉ A) :
    Holding (insert k A) (insert k L) (t ++ [.alloc k]) := by
  have hnew : .alloc k ∉ t := fun hmem => hk (ht.alloc k hmem)
  refine ⟨ht.sound.alloc hnew, fun h => ?_, fun h hmem => ?_⟩
  · rw [ht.sound.live_alloc hnew, ht.live, Set.mem_insert_iff, or_comm]
  · rw [List.mem_append, List.mem_singleton] at hmem
    rcases hmem with hmem | hmem
    · exact Set.mem_insert_of_mem k (ht.alloc h hmem)
    · cases hmem
      exact Set.mem_insert _ A

/-- What is held may be used. -/
theorem use (ht : Holding A L t) (hk : k ∈ L) : Holding A L (t ++ [.use k]) :=
  ⟨ht.sound.use ((ht.live k).mpr hk), fun h => (live_use h).trans (ht.live h), fun h hmem =>
    ht.alloc h (by simpa using hmem)⟩

/-- What is held may be disposed, and is held no more. -/
theorem drop (ht : Holding A L t) (hk : k ∈ L) : Holding A (L \ {k}) (t ++ [.dispose k]) := by
  refine ⟨ht.sound.dispose ((ht.live k).mpr hk), fun h => ?_, fun h hmem => ?_⟩
  · rw [live_dispose, ht.live]
    rfl
  · exact ht.alloc h (by simpa using hmem)

end Holding

variable [DecidableEq ι]

/-- **No handle is disposed twice.** -/
theorem Sound.count_dispose_le (ht : Sound t) (h : ι) : t.count (.dispose h) ≤ 1 := by
  induction ht with
  | nil => simp
  | alloc _ _ ih => simpa [List.count_append, List.count_singleton] using ih
  | use _ _ ih => simpa [List.count_append, List.count_singleton] using ih
  | @dispose t k _ hlive ih =>
    rw [List.count_append, List.count_singleton]
    by_cases hk : k = h
    · subst hk
      rw [List.count_eq_zero_of_not_mem hlive.2]
      split <;> omega
    · simpa [hk] using ih

/-- **Disposed exactly once**: what has been allocated and is not live any more
has been disposed exactly once. -/
theorem Sound.count_dispose (ht : Sound t) (ha : .alloc h ∈ t) (hlive : ¬Live t h) :
    t.count (.dispose h) = 1 := by
  have hd : .dispose h ∈ t := by
    by_contra hd
    exact hlive ⟨ha, hd⟩
  exact Nat.le_antisymm (ht.count_dispose_le h) (List.count_pos_iff.mpr hd)

instance (t : List (Event ι)) (h : ι) : Decidable (Live t h) :=
  inferInstanceAs (Decidable (_ ∧ _))

/-! ### Ledgers -/

/-- A sound trace of numbered handles. -/
structure Ledger where
  events : List (Event Nat)
  next : Nat
  sound : Sound events
  fresh : ∀ h, .alloc h ∈ events → h < next

namespace Ledger

/-- Nothing has been allocated. -/
def empty : Ledger := ⟨[], 0, .nil, fun _ h => nomatch h⟩

/-- The next number is given out. -/
def alloc (l : Ledger) : Ledger where
  events := l.events ++ [.alloc l.next]
  next := l.next + 1
  sound := l.sound.alloc fun h => Nat.lt_irrefl _ (l.fresh l.next h)
  fresh := by
    intro h hmem
    rw [List.mem_append, List.mem_singleton] at hmem
    rcases hmem with hmem | hmem
    · exact Nat.lt_succ_of_lt (l.fresh h hmem)
    · cases hmem
      exact Nat.lt_succ_self _

/-- A handle is used; `none` if it is not live. -/
def use (l : Ledger) (h : Nat) : Option Ledger :=
  if hlive : Live l.events h then
    some {
      events := l.events ++ [.use h]
      next := l.next
      sound := l.sound.use hlive
      fresh := fun k hmem => l.fresh k (by simpa using hmem) }
  else none

/-- A handle is disposed; `none` if it is not live. -/
def dispose (l : Ledger) (h : Nat) : Option Ledger :=
  if hlive : Live l.events h then
    some {
      events := l.events ++ [.dispose h]
      next := l.next
      sound := l.sound.dispose hlive
      fresh := fun k hmem => l.fresh k (by simpa using hmem) }
  else none

/-- The handle is live. -/
def Holds (l : Ledger) (h : Nat) : Prop := Live l.events h

/-- **A live handle can be used**, and stays live with all others. -/
theorem Holds.use {l : Ledger} {h : Nat} (hl : l.Holds h) :
    ∃ l', l.use h = some l' ∧ ∀ k, l'.Holds k ↔ l.Holds k :=
  ⟨_, dif_pos hl, fun k => live_use k⟩

/-- **A live handle can be disposed**, and all others stay live. -/
theorem Holds.dispose {l : Ledger} {h : Nat} (hl : l.Holds h) :
    ∃ l', l.dispose h = some l' ∧ ∀ k, l'.Holds k ↔ l.Holds k ∧ k ≠ h :=
  ⟨_, dif_pos hl, fun k => live_dispose k⟩

/-- The live handles. -/
def live (l : Ledger) : Set Nat := {h | l.Holds h}

/-- The next handle is a new one. -/
theorem next_not_mem_live (l : Ledger) : l.next ∉ l.live := fun h =>
  Nat.lt_irrefl _ (l.fresh l.next h.1)

/-- The new handle is live with the others. -/
theorem live_alloc (l : Ledger) : l.alloc.live = insert l.next l.live := by
  ext h
  show Live (l.events ++ [.alloc l.next]) h ↔ _
  rw [l.sound.live_alloc (fun h => Nat.lt_irrefl _ (l.fresh l.next h)) h, or_comm]
  rfl

/-- A live handle can be used. -/
theorem exists_use {l : Ledger} {h : Nat} (hl : h ∈ l.live) :
    ∃ l', l.use h = some l' ∧ l'.live = l.live := by
  obtain ⟨l', huse, hlive⟩ := Holds.use hl
  exact ⟨l', huse, Set.ext hlive⟩

/-- A live handle can be disposed. -/
theorem exists_dispose {l : Ledger} {h : Nat} (hl : h ∈ l.live) :
    ∃ l', l.dispose h = some l' ∧ l'.live = l.live \ {h} := by
  obtain ⟨l', hdispose, hlive⟩ := Holds.dispose hl
  exact ⟨l', hdispose, Set.ext hlive⟩

/-- The handle has been disposed. -/
def Spent (l : Ledger) (h : Nat) : Prop := .dispose h ∈ l.events

/-- A spent handle is not live. -/
theorem Spent.not_mem_live {l : Ledger} {h : Nat} (hl : l.Spent h) : h ∉ l.live := fun hlive =>
  hlive.2 hl

/-- A spent handle does not come back with an allocation. -/
theorem Spent.alloc {l : Ledger} {h : Nat} (hl : l.Spent h) : l.alloc.Spent h :=
  List.mem_append_left _ hl

/-- Nor with a use of another handle. -/
theorem Spent.use {l l' : Ledger} {h k : Nat} (hl : l.Spent h) (huse : l.use k = some l') :
    l'.Spent h := by
  unfold Ledger.use at huse
  split at huse
  · cases huse
    exact List.mem_append_left _ hl
  · cases huse

/-- Nor with the disposal of another one. -/
theorem Spent.dispose {l l' : Ledger} {h k : Nat} (hl : l.Spent h)
    (hdispose : l.dispose k = some l') : l'.Spent h := by
  unfold Ledger.dispose at hdispose
  split at hdispose
  · cases hdispose
    exact List.mem_append_left _ hl
  · cases hdispose

/-- What is disposed is spent. -/
theorem spent_dispose {l l' : Ledger} {h : Nat} (hdispose : l.dispose h = some l') :
    l'.Spent h := by
  unfold Ledger.dispose at hdispose
  split at hdispose
  · cases hdispose
    exact List.mem_append_right _ (List.mem_singleton_self _)
  · cases hdispose

/-- What has been allocated and is not live is disposed exactly once. -/
theorem count_dispose {l : Ledger} {h : Nat} (ha : .alloc h ∈ l.events) (hl : h ∉ l.live) :
    l.events.count (.dispose h) = 1 := l.sound.count_dispose ha hl

/-- A ledger refuses the use of a handle that it does not hold. -/
theorem use_eq_none {l : Ledger} {h : Nat} (hl : ¬l.Holds h) : l.use h = none := dif_neg hl

/-- It refuses the disposal of one, too. -/
theorem dispose_eq_none {l : Ledger} {h : Nat} (hl : ¬l.Holds h) : l.dispose h = none := dif_neg hl

end Ledger

end Lifetime

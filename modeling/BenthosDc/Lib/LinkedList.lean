/-
BenthosDc/Lib/LinkedList.lean

Doubly linked lists with a sentinel.

A store gives each allocated cell its two pointers.  `Linked m k xs` says that the cells
`xs` hang behind the cell `k`: each points to the next one and back to the one before it.
The operations on a list change few pointers, and say of the others that they stay
(`Linked.insert`, `Linked.unlink`).

The sentinel is the cell `k` of `Linked m k xs`; it is a cell as the others are, so that the
cell in front of a cell always exists.  A cell that is not in the store cannot be written:
`setNext` and `setPrev` then leave the store as it is, and a program has to show that its cells
are there.
-/
import Mathlib.Data.List.Nodup
import Mathlib.Logic.Function.Basic

namespace LinkedList

/-- The pointers of a cell. -/
structure Node (κ : Type*) where
  prev : Option κ
  next : Option κ
  deriving DecidableEq

/-- Cells that are not allocated have no pointers. -/
abbrev Store (κ : Type*) := κ → Option (Node κ)

variable {κ : Type*} {m m' : Store κ} {c d k : κ} {v w : Option κ} {xs ys : List κ}

/-- The cell is allocated and points forward to `v`. -/
def HasNext (m : Store κ) (c : κ) (v : Option κ) : Prop := ∃ n, m c = some n ∧ n.next = v

/-- The cell is allocated and points back to `v`. -/
def HasPrev (m : Store κ) (c : κ) (v : Option κ) : Prop := ∃ n, m c = some n ∧ n.prev = v

/-- The cells `xs` hang behind the cell `k`. -/
def Linked (m : Store κ) : κ → List κ → Prop
  | k, [] => HasNext m k none
  | k, x :: xs => HasNext m k (some x) ∧ HasPrev m x (some k) ∧ Linked m x xs

/-- A cell with a next pointer is in the store. -/
theorem HasNext.ne_none (h : HasNext m c v) : m c ≠ none := by
  obtain ⟨n, hn, -⟩ := h
  simp [hn]

/-- A cell with a pointer back is in the store. -/
theorem HasPrev.ne_none (h : HasPrev m c v) : m c ≠ none := by
  obtain ⟨n, hn, -⟩ := h
  simp [hn]

/-! ### Pointers of a list -/

/-- The sentinel points to the first cell, if there is one. -/
theorem Linked.hasNext (h : Linked m k xs) : HasNext m k xs.head? := by
  cases xs with
  | nil => exact h
  | cons x xs => exact h.1

/-- A list is there as long as its pointers are. -/
theorem Linked.congr (h : Linked m k xs)
    (hnext : ∀ x ∈ k :: xs, ∀ v, HasNext m x v → HasNext m' x v)
    (hprev : ∀ x ∈ xs, ∀ v, HasPrev m x v → HasPrev m' x v) : Linked m' k xs := by
  induction xs generalizing k with
  | nil => exact hnext k List.mem_cons_self _ h
  | cons x xs ih =>
    obtain ⟨hk, hx, hrest⟩ := h
    refine ⟨hnext k List.mem_cons_self _ hk, hprev x List.mem_cons_self _ hx, ?_⟩
    apply ih hrest
    · intro y hy
      exact hnext y (List.mem_cons_of_mem k hy)
    · intro y hy
      exact hprev y (List.mem_cons_of_mem x hy)

/-- **The pointers around a cell of a list.** -/
theorem Linked.around (h : Linked m k (xs ++ c :: ys)) :
    HasPrev m c (some (xs.getLastD k)) ∧ HasNext m (xs.getLastD k) (some c) ∧
      HasNext m c ys.head? ∧ ∀ y ∈ ys.head?, HasPrev m y (some c) := by
  induction xs generalizing k with
  | nil =>
    obtain ⟨hk, hc, hrest⟩ := h
    refine ⟨hc, hk, hrest.hasNext, ?_⟩
    intro y hy
    cases ys with
    | nil => cases hy
    | cons z ys =>
      cases hy
      exact hrest.2.1
  | cons x xs ih =>
    rw [List.getLastD_cons]
    exact ih h.2.2

/-- All cells of a list are in the store. -/
theorem Linked.ne_none (h : Linked m k xs) : ∀ x ∈ k :: xs, m x ≠ none := by
  induction xs generalizing k with
  | nil =>
    intro x hx
    rw [List.mem_singleton.mp hx]
    exact HasNext.ne_none h
  | cons y ys ih =>
    intro x hx
    rcases List.mem_cons.mp hx with rfl | hx
    · exact h.1.ne_none
    · exact ih h.2.2 x hx

/-! ### Inserting and removing -/

/-- **A cell is put in front of a list.** -/
theorem Linked.insert (h : Linked m k xs) (hk : HasNext m' k (some c))
    (hc : HasPrev m' c (some k)) (hcn : HasNext m' c xs.head?)
    (hfirst : ∀ x ∈ xs.head?, HasPrev m' x (some c))
    (hnext : ∀ x ∈ xs, ∀ v, HasNext m x v → HasNext m' x v)
    (hprev : ∀ x ∈ xs.tail, ∀ v, HasPrev m x v → HasPrev m' x v) : Linked m' k (c :: xs) := by
  refine ⟨hk, hc, ?_⟩
  cases xs with
  | nil => exact hcn
  | cons x xs => exact ⟨hcn, hfirst x rfl, h.2.2.congr hnext hprev⟩

/-- **A cell is taken out of a list.** -/
theorem Linked.unlink (h : Linked m k (xs ++ c :: ys)) (hnodup : (k :: (xs ++ c :: ys)).Nodup)
    (hlast : HasNext m' (xs.getLastD k) ys.head?)
    (hfirst : ∀ y ∈ ys.head?, HasPrev m' y (some (xs.getLastD k)))
    (hnext : ∀ x ∈ k :: (xs ++ ys), x ≠ xs.getLastD k → ∀ v, HasNext m x v → HasNext m' x v)
    (hprev : ∀ x ∈ xs ++ ys.tail, ∀ v, HasPrev m x v → HasPrev m' x v) :
    Linked m' k (xs ++ ys) := by
  induction xs generalizing k with
  | nil =>
    cases ys with
    | nil => exact hlast
    | cons y ys =>
      -- the cell behind `k` goes
      refine ⟨hlast, hfirst y rfl, h.2.2.2.2.congr ?_ hprev⟩
      intro x hx
      have hne : x ≠ k := by
        rintro rfl
        exact (List.nodup_cons.mp hnodup).1 (List.mem_cons_of_mem c hx)
      exact hnext x (List.mem_cons_of_mem k hx) hne
  | cons x xs ih =>
    obtain ⟨hkx, hx, hrest⟩ := h
    rw [List.getLastD_cons] at hlast hfirst hnext
    obtain ⟨hknot, hnodup⟩ := List.nodup_cons.mp hnodup
    have hlastMem : xs.getLastD x ∈ x :: xs := List.getLastD_mem_cons ..
    have hne : k ≠ xs.getLastD x := by
      intro heq
      exact hknot (List.mem_append_left _ (heq ▸ hlastMem))
    refine ⟨hnext k List.mem_cons_self hne _ hkx, hprev x List.mem_cons_self _ hx, ?_⟩
    apply ih hrest hnodup hlast hfirst
    · intro y hy
      exact hnext y (List.mem_cons_of_mem k hy)
    · intro y hy
      exact hprev y (List.mem_cons_of_mem x hy)

/-! ### Stores -/

section Store

variable [DecidableEq κ]

/-- `c->next = v` -/
def Store.setNext (m : Store κ) (c : κ) (v : Option κ) : Store κ :=
  Function.update m c ((m c).map fun n => { n with next := v })

/-- `c->prev = v` -/
def Store.setPrev (m : Store κ) (c : κ) (v : Option κ) : Store κ :=
  Function.update m c ((m c).map fun n => { n with prev := v })

/-- The other cells stay as they are. -/
theorem Store.setNext_of_ne (h : d ≠ c) : m.setNext c v d = m d := Function.update_of_ne h ..

/-- The other cells stay as they are. -/
theorem Store.setPrev_of_ne (h : d ≠ c) : m.setPrev c v d = m d := Function.update_of_ne h ..

/-- The cell keeps its pointer back. -/
theorem Store.setNext_self : m.setNext c v c = (m c).map fun n => { n with next := v } :=
  Function.update_self ..

/-- The cell keeps its pointer to the next one. -/
theorem Store.setPrev_self : m.setPrev c v c = (m c).map fun n => { n with prev := v } :=
  Function.update_self ..

/-- No cell is allocated or freed. -/
@[simp] theorem Store.setNext_eq_none : m.setNext c v d = none ↔ m d = none := by
  by_cases h : d = c
  · subst h
    rw [Store.setNext_self, Option.map_eq_none_iff]
  · rw [Store.setNext_of_ne h]

/-- No cell is allocated or freed. -/
@[simp] theorem Store.setPrev_eq_none : m.setPrev c v d = none ↔ m d = none := by
  by_cases h : d = c
  · subst h
    rw [Store.setPrev_self, Option.map_eq_none_iff]
  · rw [Store.setPrev_of_ne h]

/-- The pointer that has been set. -/
theorem hasNext_setNext_self (h : m c ≠ none) : HasNext (m.setNext c v) c v := by
  obtain ⟨n, hn⟩ := Option.ne_none_iff_exists'.mp h
  exact ⟨{ n with next := v }, by rw [Store.setNext_self, hn]; rfl, rfl⟩

/-- The pointer back that has been set. -/
theorem hasPrev_setPrev_self (h : m c ≠ none) : HasPrev (m.setPrev c v) c v := by
  obtain ⟨n, hn⟩ := Option.ne_none_iff_exists'.mp h
  exact ⟨{ n with prev := v }, by rw [Store.setPrev_self, hn]; rfl, rfl⟩

/-- The other cells keep their next pointers. -/
theorem HasNext.setNext_of_ne (h : HasNext m d w) (hne : d ≠ c) : HasNext (m.setNext c v) d w := by
  rwa [HasNext, Store.setNext_of_ne hne]

/-- The other cells keep their pointers back. -/
theorem HasPrev.setPrev_of_ne (h : HasPrev m d w) (hne : d ≠ c) : HasPrev (m.setPrev c v) d w := by
  rwa [HasPrev, Store.setPrev_of_ne hne]

/-- A next pointer is not changed by setting pointers back. -/
theorem HasNext.setPrev (h : HasNext m d w) : HasNext (m.setPrev c v) d w := by
  obtain ⟨n, hn, rfl⟩ := h
  by_cases hd : d = c
  · subst hd
    exact ⟨{ n with prev := v }, by rw [Store.setPrev_self, hn]; rfl, rfl⟩
  · exact ⟨n, (Store.setPrev_of_ne hd).trans hn, rfl⟩

/-- A pointer back is not changed by setting next pointers. -/
theorem HasPrev.setNext (h : HasPrev m d w) : HasPrev (m.setNext c v) d w := by
  obtain ⟨n, hn, rfl⟩ := h
  by_cases hd : d = c
  · subst hd
    exact ⟨{ n with next := v }, by rw [Store.setNext_self, hn]; rfl, rfl⟩
  · exact ⟨n, (Store.setNext_of_ne hd).trans hn, rfl⟩

/-- The pointer back to `v` in a cell that there may be. -/
def Store.linkBack (m : Store κ) (n v : Option κ) : Store κ :=
  match n with
  | none => m
  | some n => m.setPrev n v

variable {n : Option κ}

/-- No cell is allocated or freed. -/
@[simp] theorem Store.linkBack_eq_none : m.linkBack n v d = none ↔ m d = none := by
  cases n with
  | none => rfl
  | some n => exact Store.setPrev_eq_none

theorem HasNext.linkBack (h : HasNext m d w) : HasNext (m.linkBack n v) d w := by
  cases n with
  | none => exact h
  | some n => exact h.setPrev

/-- The pointers back of the other cells stay. -/
theorem HasPrev.linkBack_of_ne (h : HasPrev m d w) (hne : ∀ y ∈ n, d ≠ y) :
    HasPrev (m.linkBack n v) d w := by
  cases n with
  | none => exact h
  | some n => exact h.setPrev_of_ne (hne n rfl)

/-- The cell behind points back to where it has been linked. -/
theorem hasPrev_linkBack {y : κ} (hy : y ∈ n) (h : m y ≠ none) : HasPrev (m.linkBack n v) y v := by
  cases n with
  | none => cases hy
  | some n =>
    cases hy
    exact hasPrev_setPrev_self h

/-- A cell `c` is put behind the cell `k`, in front of `first`. -/
def Store.insertBehind (m : Store κ) (k c : κ) (first : Option κ) : Store κ :=
  (((m.setPrev c (some k)).setNext c first).linkBack first (some c)).setNext k (some c)

/-- The cells `p` and `n` are linked to each other, past what is between them. -/
def Store.unlink (m : Store κ) (p : κ) (n : Option κ) : Store κ :=
  (m.setNext p n).linkBack n (some p)

/-- No cell is allocated or freed. -/
@[simp] theorem Store.insertBehind_eq_none :
    m.insertBehind k c v d = none ↔ m d = none := by
  simp [Store.insertBehind]

/-- No cell is allocated or freed. -/
@[simp] theorem Store.unlink_eq_none : m.unlink k n d = none ↔ m d = none := by
  simp [Store.unlink]

/-- **A list with a new first cell is a list.** -/
theorem Linked.insertBehind (h : Linked m k xs) (hnodup : (k :: xs).Nodup) (hc : m c ≠ none)
    (hfresh : c ∉ k :: xs) : Linked (m.insertBehind k c xs.head?) k (c :: xs) := by
  obtain ⟨hk, hxs⟩ := List.nodup_cons.mp hnodup
  have hck : c ≠ k := fun heq => hfresh (heq ▸ List.mem_cons_self)
  have hxk : ∀ x ∈ xs, x ≠ k := by
    rintro x hx rfl
    exact hk hx
  have hxc : ∀ x ∈ xs, x ≠ c := by
    rintro x hx rfl
    exact hfresh (List.mem_cons_of_mem k hx)
  have halloc : ∀ x ∈ xs, m x ≠ none := fun x hx => h.ne_none x (List.mem_cons_of_mem k hx)
  have hhead : ∀ x ∈ xs.head?, x ∈ xs := fun x hx => List.mem_of_mem_head? hx
  apply h.insert
  · apply hasNext_setNext_self
    simpa using h.ne_none k List.mem_cons_self
  · apply HasPrev.setNext
    apply HasPrev.linkBack_of_ne
    · exact (hasPrev_setPrev_self hc).setNext
    · intro y hy
      exact (hxc y (hhead y hy)).symm
  · apply HasNext.setNext_of_ne _ hck
    apply HasNext.linkBack
    apply hasNext_setNext_self
    simpa using hc
  · intro x hx
    apply HasPrev.setNext
    apply hasPrev_linkBack hx
    simpa using halloc x (hhead x hx)
  · intro x hx v hv
    apply HasNext.setNext_of_ne _ (hxk x hx)
    apply HasNext.linkBack
    exact hv.setPrev.setNext_of_ne (hxc x hx)
  · intro x hx v hv
    have hmem : x ∈ xs := List.mem_of_mem_tail hx
    apply HasPrev.setNext
    apply HasPrev.linkBack_of_ne
    · exact (hv.setPrev_of_ne (hxc x hmem)).setNext
    · rintro y hy rfl
      cases xs with
      | nil => cases hx
      | cons z zs =>
        cases hy
        exact (List.nodup_cons.mp hxs).1 hx

/-- **A list without one of its cells is a list.** -/
theorem Linked.remove (h : Linked m k (xs ++ c :: ys)) (hnodup : (k :: (xs ++ c :: ys)).Nodup) :
    Linked (m.unlink (xs.getLastD k) ys.head?) k (xs ++ ys) := by
  obtain ⟨-, hlast, -, hback⟩ := h.around
  apply h.unlink hnodup
  · apply HasNext.linkBack
    exact hasNext_setNext_self hlast.ne_none
  · intro y hy
    apply hasPrev_linkBack hy
    simpa using (hback y hy).ne_none
  · intro x hx hne v hv
    exact (hv.setNext_of_ne hne).linkBack
  · intro x hx v hv
    apply HasPrev.linkBack_of_ne hv.setNext
    rintro y hy rfl
    -- the first cell behind is not one of the others
    cases ys with
    | nil => cases hy
    | cons z zs =>
      cases hy
      obtain ⟨hxs, hzs, hdisj⟩ := List.nodup_append.mp (List.nodup_cons.mp hnodup).2
      rcases List.mem_append.mp hx with hx | hx
      · exact hdisj x hx x (List.mem_cons_of_mem c List.mem_cons_self) rfl
      · exact (List.nodup_cons.mp (List.nodup_cons.mp hzs).2).1 hx

end Store

end LinkedList

/-
BenthosDc/SmartidConnList.lean

The list of the connections of the daemon (`smartid_conn.c`).

The list is doubly linked and has a static head.  A connection is put behind the head when
it is set up and taken out of the list when it is disposed; `malloc` may give out the memory
of an old connection again.  Following a pointer that is null or not allocated brings the
program to a halt.

* `connList_intact`: whatever connections come and go, the list is in order.
-/
import BenthosDc.Lib.Hoare
import BenthosDc.Lib.LinkedList
import BenthosDc.Smartid

namespace BenthosDc

open Hoare LinkedList

/-! ### The list

A cell is the head or a connection, under its address.  Both its pointers are read and written
through the store, so that a pointer into freed memory halts.
-/

/-- `g_conn_head`, or the connection at an address. -/
inductive ConnCell
  | head
  | conn (a : Nat)
  deriving DecidableEq

/-- The list, and what has been told of it. -/
structure ConnTable where
  cells : Store ConnCell
  /-- The number of warnings that the list is inconsistent. -/
  warnings : Nat
  /-- The connections that have been disposed, in order. -/
  disposed : List Nat

/-- The program as it starts. -/
def ConnTable.start : ConnTable where
  cells c := if c = .head then some ⟨none, none⟩ else none
  warnings := 0
  disposed := []

/-- The functions on the list. -/
abbrev ConnM := StateT ConnTable (Except Halt)

namespace ConnM

/-- The cell that a pointer points to. -/
def load (c : ConnCell) : ConnM (Node ConnCell) := fun t =>
  match t.cells c with
  | some n => .ok (n, t)
  | none => .error .dangling

/-- `c->next = v` -/
def setNext (c : ConnCell) (v : Option ConnCell) : ConnM Unit := do
  let _ ← load c
  modify fun t => { t with cells := t.cells.setNext c v }

/-- `c->prev = v` -/
def setPrev (c : ConnCell) (v : Option ConnCell) : ConnM Unit := do
  let _ ← load c
  modify fun t => { t with cells := t.cells.setPrev c v }

/-- The list is found to be inconsistent. -/
def warn : ConnM Unit := modify fun t => { t with warnings := t.warnings + 1 }

/-- `malloc` at an address, and `memset`. -/
def allocate (a : Nat) : ConnM Unit :=
  modify fun t => { t with cells := Function.update t.cells (.conn a) (some ⟨none, none⟩) }

/-- `free` -/
def release (a : Nat) : ConnM Unit :=
  modify fun t => { t with
    cells := Function.update t.cells (.conn a) none
    disposed := t.disposed ++ [a] }

end ConnM

open ConnM

/-- `conn_add` -/
def connAdd (c : ConnCell) : ConnM Unit := do
  setPrev c (some .head)
  setNext c (← load .head).next
  -- the old first connection, if there is one
  if let some n := (← load .head).next then setPrev n (some c)
  setNext .head (some c)

/-- `smartid_conn_dispose`, the pointer to the connection in the cell before it. -/
def connUnlinkPrev (c : ConnCell) : ConnM Unit := do
  match (← load c).prev with
  | none => throw .dangling
  | some p => if (← load p).next = some c then setNext p (← load c).next else warn

/-- `smartid_conn_dispose`, the pointer back to it in the cell behind it. -/
def connUnlinkNext (c : ConnCell) : ConnM Unit := do
  match (← load c).next with
  | none => return ()
  | some n => if (← load n).prev = some c then setPrev n (← load c).prev else warn

/-- `smartid_conn_dispose` -/
def connDispose (a : Nat) : ConnM Unit := do
  connUnlinkPrev (.conn a)
  connUnlinkNext (.conn a)
  release a

/-- How far the setup of a connection gets. -/
inductive ConnSetup
  | socketFails
  | bufferFails
  | done
  deriving DecidableEq

/-- `smartid_conn_alloc` at an address that `malloc` has given out.  A connection that
fails is disposed. -/
def connAlloc (a : Nat) (setup : ConnSetup) : ConnM Unit := do
  allocate a
  match setup with
  | .socketFails => connDispose a
  | .bufferFails =>
    connAdd (.conn a)
    connDispose a
  | .done => connAdd (.conn a)

/-- `smartid_conn_cleanup`, for at most `fuel` passes of its loop. -/
def connCleanup : Nat → ConnM Unit
  | 0 => throw .pending
  | fuel + 1 => do
    match (← load .head).next with
    | none => pure ()
    | some .head => throw .dangling
    | some (.conn a) =>
      connDispose a
      connCleanup fuel

/-! ### Lists in order

The cells stand in one order, which both kinds of pointers follow.
-/

/-- The connection is allocated. -/
def ConnTable.Live (t : ConnTable) (a : Nat) : Prop := t.cells (.conn a) ≠ none

/-- The connections `as` hang behind the head, and no other is allocated. -/
structure Holds (as : List Nat) (t : ConnTable) : Prop where
  linked : Linked t.cells .head (as.map .conn)
  nodup : as.Nodup
  live : ∀ a, a ∈ as ↔ t.Live a
  quiet : t.warnings = 0

variable {t : ConnTable} {as bs : List Nat} {a : Nat} {E : Halt → Prop}

/-- No connection, no entry. -/
theorem holds_start : Holds [] ConnTable.start where
  linked := ⟨⟨none, none⟩, rfl, rfl⟩
  nodup := List.nodup_nil
  live a := by
    have hnone : ConnTable.start.cells (.conn a) = none := rfl
    simp [ConnTable.Live, hnone]
  quiet := rfl

/-- No cell stands there twice, and the head is none of the connections. -/
theorem Holds.nodup_cells (h : Holds as t) : (ConnCell.head :: as.map .conn).Nodup := by
  rw [List.nodup_cons]
  constructor
  · intro hmem
    obtain ⟨a, -, ha⟩ := List.mem_map.mp hmem
    cases ha
  · apply h.nodup.map
    intro a b hab
    cases hab
    rfl

/-! ### Runs

What the steps on the pointers do to the store.
-/

section Runs

variable {c p : ConnCell} {v : Option ConnCell}

/-- A cell that is there is read. -/
theorem load_run {n : Node ConnCell} (hn : t.cells c = some n) : (load c).run t = .ok (n, t) := by
  show load c t = _
  rw [load, hn]

/-- The pointer to the next cell is written. -/
theorem setNext_run (hc : t.cells c ≠ none) :
    (setNext c v).run t = .ok ((), { t with cells := t.cells.setNext c v }) := by
  obtain ⟨n, hn⟩ := Option.ne_none_iff_exists'.mp hc
  rw [setNext, run_bind_of_ok (load_run hn)]
  rfl

/-- The pointer to the cell in front is written. -/
theorem setPrev_run (hc : t.cells c ≠ none) :
    (setPrev c v).run t = .ok ((), { t with cells := t.cells.setPrev c v }) := by
  obtain ⟨n, hn⟩ := Option.ne_none_iff_exists'.mp hc
  rw [setPrev, run_bind_of_ok (load_run hn)]
  rfl

/-- The new cell stands behind the head. -/
theorem connAdd_run {first : Option ConnCell} (hc : t.cells c ≠ none) (hne : c ≠ .head)
    (hhead : HasNext t.cells .head first) (hfirst : ∀ n ∈ first, t.cells n ≠ none) :
    (connAdd c).run t = .ok ((), { t with cells := t.cells.insertBehind .head c first }) := by
  obtain ⟨n₁, hn₁, hnext₁⟩ : HasNext (t.cells.setPrev c (some .head)) .head first :=
    hhead.setPrev
  obtain ⟨n₂, hn₂, hnext₂⟩ :
      HasNext ((t.cells.setPrev c (some .head)).setNext c first) .head first :=
    hhead.setPrev.setNext_of_ne hne.symm
  have hc₁ : t.cells.setPrev c (some .head) c ≠ none := mt Store.setPrev_eq_none.mp hc
  rw [connAdd, run_bind_of_ok (setPrev_run hc), run_bind_of_ok (load_run hn₁), hnext₁,
    run_bind_of_ok (setNext_run hc₁), run_bind_of_ok (load_run hn₂), hnext₂]
  cases first with
  | none =>
    rw [setNext_run (by simpa using hhead.ne_none)]
    rfl
  | some n =>
    have hn := hfirst n rfl
    rw [run_bind_of_ok (setPrev_run (by simpa using hn)), setNext_run (by simpa using hhead.ne_none)]
    rfl

/-- The cell in front points past it. -/
theorem connUnlinkPrev_run {n : Option ConnCell} (hprev : HasPrev t.cells c (some p))
    (hpc : HasNext t.cells p (some c)) (hnext : HasNext t.cells c n) :
    (connUnlinkPrev c).run t = .ok ((), { t with cells := t.cells.setNext p n }) := by
  obtain ⟨n₁, hn₁, hprev₁⟩ := hprev
  obtain ⟨n₂, hn₂, hnext₂⟩ := hpc
  obtain ⟨n₃, hn₃, hnext₃⟩ := hnext
  have hp : t.cells p ≠ none := by simp [hn₂]
  rw [connUnlinkPrev, run_bind_of_ok (load_run hn₁), hprev₁]
  show (load p >>= fun l => if l.next = some c then _ else warn).run t = _
  rw [run_bind_of_ok (load_run hn₂), if_pos hnext₂, run_bind_of_ok (load_run hn₃), hnext₃,
    setNext_run hp]

/-- The cell behind it points past it. -/
theorem connUnlinkNext_run {n : Option ConnCell} (hprev : HasPrev t.cells c (some p))
    (hnext : HasNext t.cells c n) (hback : ∀ y ∈ n, HasPrev t.cells y (some c)) :
    (connUnlinkNext c).run t = .ok ((), { t with cells := t.cells.linkBack n (some p) }) := by
  obtain ⟨n₁, hn₁, hnext₁⟩ := hnext
  obtain ⟨n₂, hn₂, hprev₂⟩ := hprev
  rw [connUnlinkNext, run_bind_of_ok (load_run hn₁), hnext₁]
  cases n with
  | none => rfl
  | some y =>
    obtain ⟨n₃, hn₃, hprev₃⟩ := hback y rfl
    show (load y >>= fun l => if l.prev = some c then _ else warn).run t = _
    rw [run_bind_of_ok (load_run hn₃), if_pos hprev₃, run_bind_of_ok (load_run hn₂), hprev₂,
      setPrev_run (by simp [hn₃])]
    rfl

end Runs

/-! ### One operation

Both operations on a list in order leave a list in order, and are told by what they do to the
entries.
-/

/-- **A connection that is added comes first.** -/
theorem connAdd_holds (h : Holds as t) (ha : t.cells (.conn a) = none) :
    ∃ t', (do allocate a; connAdd (.conn a)).run t = .ok ((), t') ∧ Holds (a :: as) t' ∧
      t'.disposed = t.disposed := by
  let t₁ : ConnTable := { t with
    cells := Function.update t.cells (.conn a) (some ⟨none, none⟩) }
  have hrun₁ : (allocate a).run t = .ok ((), t₁) := rfl
  have hnew : t₁.cells (.conn a) ≠ none := by simp [t₁]
  have hother : ∀ c, c ≠ .conn a → t₁.cells c = t.cells c := fun c hc =>
    Function.update_of_ne hc ..
  have hfresh : ConnCell.conn a ∉ ConnCell.head :: as.map .conn := fun hmem =>
    h.linked.ne_none _ hmem ha
  -- the cells of the list are as they were
  have hlinked : Linked t₁.cells .head (as.map .conn) := by
    apply h.linked.congr
    · rintro c hc v ⟨n, hn, hv⟩
      exact ⟨n, (hother c fun heq => hfresh (heq ▸ hc)).trans hn, hv⟩
    · rintro c hc v ⟨n, hn, hv⟩
      have hc' := List.mem_cons_of_mem ConnCell.head hc
      exact ⟨n, (hother c fun heq => hfresh (heq ▸ hc')).trans hn, hv⟩
  have halloc : ∀ n ∈ (as.map ConnCell.conn).head?, t₁.cells n ≠ none := fun n hn =>
    hlinked.ne_none n (List.mem_cons_of_mem _ (List.mem_of_mem_head? hn))
  have hrun := connAdd_run hnew (by simp) hlinked.hasNext halloc
  refine ⟨_, (run_bind_of_ok hrun₁).trans hrun, ⟨?_, ?_, ?_, h.quiet⟩, rfl⟩
  · exact hlinked.insertBehind h.nodup_cells hnew hfresh
  · apply h.nodup.cons
    intro ha'
    exact (h.live a).mp ha' ha
  · intro b
    rw [List.mem_cons, ConnTable.Live, ne_eq, Store.insertBehind_eq_none]
    by_cases hb : b = a
    · subst hb
      simpa using hnew
    · rw [hother _ fun heq => hb (ConnCell.conn.inj heq), h.live b]
      simp [hb, ConnTable.Live]

/-- **A connection that is disposed is taken out of the list**, wherever it stands. -/
theorem connDispose_holds (h : Holds (as ++ a :: bs) t) :
    ∃ t', (connDispose a).run t = .ok ((), t') ∧ Holds (as ++ bs) t' ∧
      t'.disposed = t.disposed ++ [a] := by
  have hcells : (as ++ a :: bs).map ConnCell.conn =
      as.map .conn ++ .conn a :: bs.map .conn := by simp
  have hlinked := h.linked
  have hnodup := h.nodup_cells
  rw [hcells] at hlinked hnodup
  obtain ⟨hprev, hlast, hnext, hback⟩ := hlinked.around
  set p := (as.map ConnCell.conn).getLastD .head
  set n := (bs.map ConnCell.conn).head?
  let t₁ : ConnTable := { t with cells := t.cells.setNext p n }
  let t₂ : ConnTable := { t with cells := t.cells.unlink p n }
  have hfront : ConnCell.conn a ≠ p := by
    have hp : p ∈ ConnCell.head :: as.map ConnCell.conn := List.getLastD_mem_cons ..
    rw [← List.cons_append] at hnodup
    intro heq
    exact (List.nodup_append.mp hnodup).2.2 p hp _ List.mem_cons_self heq.symm
  have hrun₁ : (connUnlinkPrev (.conn a)).run t = .ok ((), t₁) :=
    connUnlinkPrev_run hprev hlast hnext
  have hrun₂ : (connUnlinkNext (.conn a)).run t₁ = .ok ((), t₂) :=
    connUnlinkNext_run hprev.setNext (hnext.setNext_of_ne hfront) fun y hy =>
      (hback y hy).setNext
  have hremoved : Linked t₂.cells .head (as.map .conn ++ bs.map .conn) := hlinked.remove hnodup
  refine ⟨{ t₂ with
      cells := Function.update t₂.cells (.conn a) none
      disposed := t₂.disposed ++ [a] }, ?_, ⟨?_, ?_, ?_, h.quiet⟩, rfl⟩
  · rw [connDispose, run_bind_of_ok hrun₁, run_bind_of_ok hrun₂]
    rfl
  · -- the memory that is given back is not part of the list any more
    have hgone : ConnCell.conn a ∉ ConnCell.head :: (as.map .conn ++ bs.map .conn) := by
      intro hmem
      rw [← List.cons_append] at hnodup hmem
      have hcons := List.nodup_middle.mp hnodup
      exact (List.nodup_cons.mp hcons).1 hmem
    have hkept : ∀ c, c ≠ .conn a →
        Function.update t₂.cells (.conn a) none c = t₂.cells c := fun c hc =>
      Function.update_of_ne hc ..
    rw [List.map_append]
    apply hremoved.congr
    · rintro c hc v ⟨l, hl, hv⟩
      exact ⟨l, (hkept c fun heq => hgone (heq ▸ hc)).trans hl, hv⟩
    · rintro c hc v ⟨l, hl, hv⟩
      have hc' := List.mem_cons_of_mem ConnCell.head hc
      exact ⟨l, (hkept c fun heq => hgone (heq ▸ hc')).trans hl, hv⟩
  · exact (List.nodup_cons.mp (List.nodup_middle.mp h.nodup)).2
  · intro b
    have hb := h.live b
    by_cases hba : b = a
    · subst hba
      have hnot := (List.nodup_cons.mp (List.nodup_middle.mp h.nodup)).1
      simp [ConnTable.Live, hnot]
    · have hne : ConnCell.conn b ≠ .conn a := fun heq => hba (ConnCell.conn.inj heq)
      have hsame : Function.update t₂.cells (.conn a) none (.conn b) = none ↔
          t.cells (.conn b) = none := by
        rw [Function.update_of_ne hne]
        exact Store.unlink_eq_none
      show b ∈ as ++ bs ↔ ¬Function.update t₂.cells (.conn a) none (.conn b) = none
      rw [hsame]
      simpa [hba, ConnTable.Live] using hb

/-- The list behind an allocation that gets to it: the connection comes first, unless its setup
fails behind the insertion. -/
def listedBehind (a : Nat) (as : List Nat) : ConnSetup → List Nat
  | .done => a :: as
  | _ => as

/-- What an allocation that gets to the list disposes. -/
def disposedBehind (a : Nat) : ConnSetup → List Nat
  | .done => []
  | _ => [a]

/-- **An allocation that gets to the list** leaves the connection in front of the others, or
disposes it again. -/
theorem connAlloc_holds (h : Holds as t) (ha : t.cells (.conn a) = none) {setup : ConnSetup}
    (hsetup : setup ≠ .socketFails) :
    ∃ t', (connAlloc a setup).run t = .ok ((), t') ∧ Holds (listedBehind a as setup) t' ∧
      t'.disposed = t.disposed ++ disposedBehind a setup := by
  obtain ⟨t₁, hrun₁, hholds₁, hdisposed₁⟩ := connAdd_holds h ha
  have hallocate : (allocate a).run t = .ok ((), { t with
    cells := Function.update t.cells (.conn a) (some ⟨none, none⟩) }) := rfl
  rw [run_bind_of_ok hallocate] at hrun₁
  cases setup with
  | socketFails => exact absurd rfl hsetup
  | bufferFails =>
    have hfirst : Holds ([] ++ a :: as) t₁ := hholds₁
    obtain ⟨t₂, hrun₂, hholds₂, hdisposed₂⟩ := connDispose_holds hfirst
    refine ⟨t₂, ?_, hholds₂, ?_⟩
    · exact (run_bind_of_ok hallocate).trans ((run_bind_of_ok hrun₁).trans hrun₂)
    · rw [hdisposed₂, hdisposed₁]
      rfl
  | done =>
    refine ⟨t₁, (run_bind_of_ok hallocate).trans hrun₁, hholds₁, ?_⟩
    rw [hdisposed₁]
    exact (List.append_nil _).symm

/-- **The teardown disposes the connections of the list in order**, and ends. -/
theorem connCleanup_holds (h : Holds as t) :
    ∃ t', (connCleanup (as.length + 1)).run t = .ok ((), t') ∧ Holds [] t' ∧
      t'.disposed = t.disposed ++ as := by
  induction as generalizing t with
  | nil =>
    obtain ⟨n, hn, hnext⟩ : HasNext t.cells .head none := h.linked
    refine ⟨t, ?_, h, (List.append_nil _).symm⟩
    show (connCleanup 1).run t = _
    rw [connCleanup, run_bind_of_ok (load_run hn), hnext]
    rfl
  | cons a as ih =>
    obtain ⟨n, hn, hnext⟩ := h.linked.1
    have hfirst : Holds ([] ++ a :: as) t := h
    obtain ⟨t₁, hrun₁, hholds₁, hdisposed₁⟩ := connDispose_holds hfirst
    obtain ⟨t₂, hrun₂, hholds₂, hdisposed₂⟩ := ih hholds₁
    refine ⟨t₂, ?_, hholds₂, ?_⟩
    · rw [connCleanup, run_bind_of_ok (load_run hn), hnext]
      exact (run_bind_of_ok hrun₁).trans hrun₂
    · rw [hdisposed₂, hdisposed₁, List.append_assoc]
      rfl

/-! ### Connections come and go

The order of the entries is an invariant of all runs.
-/

/-- The states of the list behind any sequence of allocations that get to the list, at
addresses that are free, and of disposals of live connections. -/
inductive ConnReachable : ConnTable → Prop
  | start : ConnReachable ConnTable.start
  | alloc {t t' : ConnTable} {a : Nat} {setup : ConnSetup} : ConnReachable t →
      t.cells (.conn a) = none → setup ≠ .socketFails →
        (connAlloc a setup).run t = .ok ((), t') → ConnReachable t'
  | dispose {t t' : ConnTable} {a : Nat} : ConnReachable t → t.Live a →
      (connDispose a).run t = .ok ((), t') → ConnReachable t'

/-- A live connection stands somewhere in the list. -/
theorem Holds.exists_split (h : Holds as t) (ha : t.Live a) : ∃ bs cs, as = bs ++ a :: cs :=
  List.append_of_mem ((h.live a).mpr ha)

/-- **A list that has been reached is in order.** -/
theorem ConnReachable.holds (h : ConnReachable t) : ∃ as, Holds as t := by
  induction h with
  | start => exact ⟨[], holds_start⟩
  | alloc _ hfree hsetup hrun ih =>
    obtain ⟨as, hholds⟩ := ih
    obtain ⟨t', hrun', hholds', -⟩ := connAlloc_holds hholds hfree hsetup
    rw [hrun] at hrun'
    cases hrun'
    exact ⟨_, hholds'⟩
  | dispose _ hlive hrun ih =>
    obtain ⟨as, hholds⟩ := ih
    obtain ⟨bs, cs, rfl⟩ := hholds.exists_split hlive
    obtain ⟨t', hrun', hholds', -⟩ := connDispose_holds hholds
    rw [hrun] at hrun'
    cases hrun'
    exact ⟨bs ++ cs, hholds'⟩

/-- **The list of connections is in order**: it is doubly linked and contains the live
connections once each, and no warning has been given.  An allocation that gets to the list puts
its connection in front of the others, or disposes it if its setup fails behind that; a disposal
takes its connection out of the list, wherever it stands; neither fails.  The teardown ends and
disposes each connection that is left exactly once. -/
theorem connList_intact (t : ConnTable) (h : ConnReachable t) :
    ∃ as, Holds as t ∧
      (∀ a setup, t.cells (.conn a) = none → setup ≠ .socketFails →
        ∃ t', (connAlloc a setup).run t = .ok ((), t') ∧ Holds (listedBehind a as setup) t' ∧
          t'.disposed = t.disposed ++ disposedBehind a setup) ∧
      (∀ a, t.Live a → ∃ t', (connDispose a).run t = .ok ((), t') ∧ Holds (as.erase a) t' ∧
        t'.disposed = t.disposed ++ [a]) ∧
      ∃ fuel t', (connCleanup fuel).run t = .ok ((), t') ∧ t'.disposed = t.disposed ++ as ∧
        as.Nodup ∧ (∀ a, a ∈ as ↔ t.Live a) ∧ (∀ a, ¬t'.Live a) ∧ t'.warnings = 0 := by
  obtain ⟨as, hholds⟩ := h.holds
  refine ⟨as, hholds, fun a setup hfree hsetup => connAlloc_holds hholds hfree hsetup, ?_, ?_⟩
  · intro a hlive
    obtain ⟨bs, cs, rfl⟩ := hholds.exists_split hlive
    obtain ⟨t', hrun, hholds', hdisposed⟩ := connDispose_holds hholds
    have hfront : a ∉ bs := fun ha =>
      (List.nodup_append.mp hholds.nodup).2.2 a ha a List.mem_cons_self rfl
    refine ⟨t', hrun, ?_, hdisposed⟩
    rw [List.erase_append_right _ hfront, List.erase_cons_head]
    exact hholds'
  · obtain ⟨t', hrun, hempty, hdisposed⟩ := connCleanup_holds hholds
    refine ⟨as.length + 1, t', hrun, hdisposed, hholds.nodup, hholds.live, ?_, hempty.quiet⟩
    intro a ha
    cases (hempty.live a).mpr ha

/-- The list behind a program, from the start. -/
def connTable (m : ConnM Unit) : ConnTable :=
  match m.run ConnTable.start with
  | .ok (_, t) => t
  | .error _ => ConnTable.start

/-- One connection. -/
def oneConn : ConnTable := connTable (connAlloc 1 .done)

/-- Two connections. -/
def twoConns : ConnTable := connTable do
  connAlloc 1 .done
  connAlloc 2 .done

theorem connList_intact_twoConns :
    ∃ as, Holds as twoConns ∧
      (∀ a setup, twoConns.cells (.conn a) = none → setup ≠ .socketFails →
        ∃ t', (connAlloc a setup).run twoConns = .ok ((), t') ∧
          Holds (listedBehind a as setup) t' ∧
          t'.disposed = twoConns.disposed ++ disposedBehind a setup) ∧
      (∀ a, twoConns.Live a → ∃ t', (connDispose a).run twoConns = .ok ((), t') ∧
        Holds (as.erase a) t' ∧ t'.disposed = twoConns.disposed ++ [a]) ∧
      ∃ fuel t', (connCleanup fuel).run twoConns = .ok ((), t') ∧
        t'.disposed = twoConns.disposed ++ as ∧ as.Nodup ∧ (∀ a, a ∈ as ↔ twoConns.Live a) ∧
        (∀ a, ¬t'.Live a) ∧ t'.warnings = 0 := by
  have hdone : ConnSetup.done ≠ .socketFails := nofun
  have hfree : oneConn.cells (.conn 2) = none := rfl
  have hone : ConnReachable oneConn :=
    .alloc .start (show ConnTable.start.cells (.conn 1) = none from rfl) hdone rfl
  exact connList_intact twoConns (.alloc hone hfree hdone rfl)

end BenthosDc

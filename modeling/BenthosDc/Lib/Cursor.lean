/-
BenthosDc/Lib/Cursor.lean

Loops over a list that are driven by a cursor.  A cursor stands on an element of the list or
at its end; the loop asks for the element, works on it and moves the cursor on, until there is
no element or the work fails.  Such a loop visits every element once, in order, up to the first
failure, and ends (`iterate_walk`).

A pass is a step of `Except`: an error in it ends the loop at once, and what has been done in
front of it remains.  `foldlM_rule` is the rule for such loops: an invariant over the elements
that have been visited, and for the error what it leaves behind.
-/
import BenthosDc.Lib.Loop

namespace Cursor

open Loop

variable {α β ε : Type*}

/-- The element that the cursor stands on, if it is not at the end. -/
def info (xs : List α) (pos : Nat) : Option α := xs[pos]?

/-- The cursor one element on, and whether it stands on an element there. -/
def next (xs : List α) (pos : Nat) : Bool × Nat := (decide (pos + 1 ≠ xs.length), pos + 1)

/-- One pass of the loop. -/
def walk (xs : List α) (body : β → α → Except ε β) : Nat × β → Iter (Nat × β) (Except ε β)
  | (pos, b) =>
    match info xs pos with
    | none => .stop (.ok b)
    | some x =>
      match body b x with
      | .error e => .stop (.error e)
      | .ok b => .next ((next xs pos).2, b)

variable {xs : List α} {body : β → α → Except ε β} {pos : Nat} {b b' : β} {e : ε}

/-- At the end of the list there is no element. -/
theorem walk_stop (h : xs.length ≤ pos) : walk xs body (pos, b) = .stop (.ok b) := by
  have hnone : info xs pos = none := List.getElem?_eq_none h
  simp only [walk, hnone]

/-- A pass that fails ends the loop with its error. -/
theorem walk_fail (h : pos < xs.length) (hbody : body b xs[pos] = .error e) :
    walk xs body (pos, b) = .stop (.error e) := by
  have hsome : info xs pos = some xs[pos] := List.getElem?_eq_getElem h
  simp only [walk, hsome, hbody]

/-- A pass that does not fail leads to the next element. -/
theorem walk_next (h : pos < xs.length) (hbody : body b xs[pos] = .ok b') :
    walk xs body (pos, b) = .next (pos + 1, b') := by
  have hsome : info xs pos = some xs[pos] := List.getElem?_eq_getElem h
  simp only [walk, hsome, hbody, next]

/-- **The loop visits what is left of the list**, in order and up to the first failure, and
ends. -/
theorem iterate_walk {n : Nat} (h : xs.length - pos < n) :
    iterate (walk xs body) n (pos, b) = .stop ((xs.drop pos).foldlM body b) := by
  induction n generalizing pos b with
  | zero => omega
  | succ n ih =>
    by_cases hpos : pos < xs.length
    · rw [List.drop_eq_getElem_cons hpos, List.foldlM_cons]
      cases hbody : body b xs[pos] with
      | error e => exact iterate_succ_stop (walk_fail hpos hbody) n
      | ok b' =>
        rw [iterate_succ_next (walk_next hpos hbody), ih (by omega)]
        rfl
    · have hle : xs.length ≤ pos := by omega
      rw [iterate_succ_stop (walk_stop hle), List.drop_eq_nil_of_le hle]
      rfl

/-- `P` holds of the result, or `Q` of the failure. -/
def Ends (P : β → Prop) (Q : ε → Prop) : Except ε β → Prop
  | .ok b => P b
  | .error e => Q e

/-- **The rule for such a loop**: what each step keeps holds behind the last element, or up to
the element at which the loop fails. -/
theorem foldlM_rule {P : List α → β → Prop} {Q : List α → α → ε → Prop}
    (hstep : ∀ pre x b, P pre b → Ends (P (pre ++ [x])) (Q pre x) (body b x))
    (xs : List α) (h : P [] b) :
    Ends (P xs) (fun e => ∃ pre x post, xs = pre ++ x :: post ∧ Q pre x e)
      (xs.foldlM body b) := by
  have hrun : ∀ (xs pre : List α) (b : β), P pre b → Ends (P (pre ++ xs))
      (fun e => ∃ pre' x post, pre ++ xs = pre' ++ x :: post ∧ Q pre' x e)
      (xs.foldlM body b) := by
    intro xs
    induction xs with
    | nil =>
      intro pre b hb
      rw [List.append_nil]
      exact hb
    | cons x xs ih =>
      intro pre b hb
      have hx := hstep pre x b hb
      rw [List.foldlM_cons]
      cases hbody : body b x with
      | error e =>
        rw [hbody] at hx
        exact ⟨pre, x, xs, rfl, hx⟩
      | ok b' =>
        rw [hbody] at hx
        have hrest := ih (pre ++ [x]) b' hx
        rw [List.append_assoc] at hrest
        exact hrest
  exact hrun xs [] b h

end Cursor

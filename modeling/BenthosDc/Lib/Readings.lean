/-
BenthosDc/Lib/Readings.lean

A quantity that is transmitted as a sequence of readings: absolute values, and
differences to the value before.  Its current value is the last absolute value
plus the differences since then, and there is none before the first absolute
value.

`Tracks` is the invariant of an accumulator that follows such a quantity, with
a flag that says whether an absolute value has been seen.

A sender may begin with differences; they mean nothing until an absolute value comes, and an
accumulator that adds them up nevertheless is corrected by it.
-/
import Mathlib.Algebra.BigOperators.Group.List.Basic
import Mathlib.Algebra.Ring.Defs
import Mathlib.Data.List.DropRight

namespace Readings

/-- One reading. -/
inductive Reading (R : Type*)
  | absolute (v : R)
  | delta (d : R)

variable {R : Type*}

namespace Reading

/-- The value of an absolute reading. -/
def value : Reading R → Option R
  | absolute v => some v
  | delta _ => none

/-- Whether a reading is a difference. -/
def isDelta : Reading R → Bool
  | absolute _ => false
  | delta _ => true

/-- The number that is transmitted. -/
def amount : Reading R → R
  | absolute v => v
  | delta d => d

end Reading

/-! ### The value of a sequence of readings -/

/-- The first absolute value. -/
def firstAbsolute (h : List (Reading R)) : Option R := (h.filterMap Reading.value).head?

/-- The last absolute value. -/
def lastAbsolute (h : List (Reading R)) : Option R := (h.filterMap Reading.value).getLast?

/-- The sum of the differences after the last absolute value. -/
def deltasSince [AddMonoid R] (h : List (Reading R)) : R :=
  ((h.rtakeWhile Reading.isDelta).map Reading.amount).sum

/-- **The value a sequence of readings stands for.** -/
def current [AddMonoid R] (h : List (Reading R)) : Option R :=
  (lastAbsolute h).map (· + deltasSince h)

/-- An absolute value replaces the one before. -/
@[simp] theorem lastAbsolute_absolute (h : List (Reading R)) (v : R) :
    lastAbsolute (h ++ [.absolute v]) = some v := by
  simp [lastAbsolute, Reading.value]

/-- A difference does not. -/
@[simp] theorem lastAbsolute_delta (h : List (Reading R)) (d : R) :
    lastAbsolute (h ++ [.delta d]) = lastAbsolute h := by
  simp [lastAbsolute, Reading.value]

/-- A difference is no first absolute value. -/
@[simp] theorem firstAbsolute_delta (h : List (Reading R)) (d : R) :
    firstAbsolute (h ++ [.delta d]) = firstAbsolute h := by
  simp [firstAbsolute, Reading.value]

/-- A later value is the first one only if there was none before. -/
@[simp] theorem firstAbsolute_absolute (h : List (Reading R)) (v : R) :
    firstAbsolute (h ++ [.absolute v]) = (firstAbsolute h).or (some v) := by
  simp [firstAbsolute, Reading.value]

/-- The differences are counted from the last absolute value on. -/
@[simp] theorem deltasSince_absolute [AddMonoid R] (h : List (Reading R)) (v : R) :
    deltasSince (h ++ [.absolute v]) = 0 := by
  rw [deltasSince, List.rtakeWhile_concat_neg _ _ _ (by simp [Reading.isDelta])]
  rfl

@[simp] theorem deltasSince_delta [AddMonoid R] (h : List (Reading R)) (d : R) :
    deltasSince (h ++ [.delta d]) = deltasSince h + d := by
  rw [deltasSince, List.rtakeWhile_concat_pos _ _ _ rfl, List.map_append, List.sum_append]
  simp [deltasSince, Reading.amount]

/-- There is a current value once there is an absolute one. -/
theorem current_isSome [AddMonoid R] (h : List (Reading R)) :
    (current h).isSome = (lastAbsolute h).isSome := by
  rw [current, Option.isSome_map]

/-- There is a first absolute value when there is a current one. -/
theorem firstAbsolute_isSome [AddMonoid R] (h : List (Reading R)) :
    (firstAbsolute h).isSome = (current h).isSome := by
  rw [current_isSome, firstAbsolute, lastAbsolute]
  cases h.filterMap Reading.value with
  | nil => rfl
  | cons v vs => rw [List.getLast?_cons]; rfl

/-! ### Accumulators -/

section Tracks

variable [CommRing R] {k init x : R} {seen : Bool} {h : List (Reading R)}

/-- The accumulator `x`, entered with `init`, follows the readings `h` scaled by
`k`; `seen` tells whether one of them was absolute. -/
structure Tracks (k init : R) (h : List (Reading R)) (x : R) (seen : Bool) : Prop where
  seen_eq : seen = (lastAbsolute h).isSome
  value_eq : x = ((lastAbsolute h).map (k * ·)).getD init + k * deltasSince h

/-- Before the first reading. -/
theorem Tracks.start (k init : R) : Tracks k init [] init false where
  seen_eq := rfl
  value_eq := by simp [lastAbsolute, deltasSince]

/-- An absolute value is taken over, in units of `k`. -/
theorem Tracks.absolute (k init : R) (h : List (Reading R)) (v : R) :
    Tracks k init (h ++ [.absolute v]) (k * v) true where
  seen_eq := by simp
  value_eq := by simp

/-- A difference is added. -/
theorem Tracks.delta (hx : Tracks k init h x seen) (d : R) :
    Tracks k init (h ++ [.delta d]) (x + k * d) seen where
  seen_eq := by simpa using hx.seen_eq
  value_eq := by
    rw [lastAbsolute_delta, deltasSince_delta, mul_add, ← add_assoc, ← hx.value_eq]

/-- **What an accumulator shows**: `k` times the current value, once there is
one. -/
theorem Tracks.map_current (hx : Tracks k init h x seen) :
    (current h).map (k * ·) = if seen then some x else none := by
  obtain ⟨hseen, hvalue⟩ := hx
  cases e : lastAbsolute h with
  | none =>
    rw [e] at hseen
    rw [hseen, current, e]
    rfl
  | some v =>
    rw [e] at hseen hvalue
    rw [hseen, hvalue, current, e]
    simp [mul_add]

end Tracks

end Readings

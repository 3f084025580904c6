/-
BenthosDc/Lib/Lines.lean

Sequences in lines, each closed by a terminator, and the split of a sequence at
the last place where the rest of it can be read.

A text may be split at several places where something can be read of the rest.  `splitLast`
takes the last one of them, as the greedy beginning of a regular expression does.
-/
import Mathlib.Data.List.Basic

namespace Lines

variable {α β : Type*}

/-! ### Lines -/

/-- The lines one after the other, each with its terminator `nl`. -/
def unlines (nl : α) (ls : List (List α)) : List α := (ls.map fun line => line ++ [nl]).flatten

@[simp] theorem unlines_nil (nl : α) : unlines nl [] = [] := rfl

/-- The first line with its terminator, and then the others. -/
theorem unlines_cons (nl : α) (line : List α) (ls : List (List α)) :
    unlines nl (line :: ls) = line ++ nl :: unlines nl ls := by
  show (line ++ [nl]) ++ unlines nl ls = _
  rw [List.append_assoc]
  rfl

theorem unlines_append (nl : α) (ls ls' : List (List α)) :
    unlines nl (ls ++ ls') = unlines nl ls ++ unlines nl ls' := by
  rw [unlines, List.map_append, List.flatten_append]
  rfl

/-- Even an empty line has its terminator. -/
theorem unlines_eq_nil_iff {nl : α} {ls : List (List α)} : unlines nl ls = [] ↔ ls = [] := by
  cases ls with
  | nil => simp
  | cons line ls => simp [unlines_cons]

/-- The place of the first terminator is the end of the first line. -/
theorem append_cons_inj {nl : α} {a a' b b' : List α} (ha : nl ∉ a) (ha' : nl ∉ a')
    (h : a ++ nl :: b = a' ++ nl :: b') : a = a' ∧ b = b' := by
  induction a generalizing a' with
  | nil =>
    cases a' with
    | nil => exact ⟨rfl, (List.cons.inj h).2⟩
    | cons x a' => exact absurd ((List.cons.inj h).1 ▸ List.mem_cons_self) ha'
  | cons x a ih =>
    cases a' with
    | nil => exact absurd ((List.cons.inj h).1 ▸ List.mem_cons_self) ha
    | cons y a' =>
      obtain ⟨rfl, hrest⟩ := List.cons.inj h
      obtain ⟨rfl, rfl⟩ := ih (fun hm => ha (List.mem_cons_of_mem _ hm))
        (fun hm => ha' (List.mem_cons_of_mem _ hm)) hrest
      exact ⟨rfl, rfl⟩

/-- A sequence that falls into lines. -/
def Terminated (nl : α) (t : List α) : Prop :=
  ∃ ls : List (List α), (∀ line ∈ ls, nl ∉ line) ∧ t = unlines nl ls

/-- A text with complete lines behind another one. -/
theorem Terminated.append {nl : α} {t t' : List α} (h : Terminated nl t) (h' : Terminated nl t') :
    Terminated nl (t ++ t') := by
  obtain ⟨ls, hls, rfl⟩ := h
  obtain ⟨ls', hls', rfl⟩ := h'
  refine ⟨ls ++ ls', ?_, (unlines_append nl ls ls').symm⟩
  intro line hmem
  exact (List.mem_append.mp hmem).elim (hls line) (hls' line)

/-- Whatever ends in the terminator falls into lines. -/
theorem terminated_concat (nl : α) (t : List α) : Terminated nl (t ++ [nl]) := by
  classical
  induction t with
  | nil => exact ⟨[[]], by simp, rfl⟩
  | cons x t ih =>
    obtain ⟨ls, hls, ht⟩ := ih
    cases ls with
    | nil => simp at ht
    | cons line ls =>
      -- `x` ends an empty line, or is the first of the next line
      by_cases hx : x = nl
      · subst hx
        refine ⟨[] :: line :: ls, ?_, ?_⟩
        · intro l hmem
          rcases List.mem_cons.mp hmem with rfl | hmem
          · exact List.not_mem_nil
          · exact hls l hmem
        · rw [unlines_cons, ← ht]
          rfl
      · refine ⟨(x :: line) :: ls, ?_, ?_⟩
        · intro l hmem
          rcases List.mem_cons.mp hmem with rfl | hmem
          · rw [List.mem_cons, not_or]
            exact ⟨fun h => hx h.symm, hls line List.mem_cons_self⟩
          · exact hls l (List.mem_cons_of_mem _ hmem)
        · rw [unlines_cons, List.cons_append, List.cons_append, ht, unlines_cons]

/-- Texts with complete lines, one behind the other. -/
theorem terminated_flatten {nl : α} {ts : List (List α)} (h : ∀ t ∈ ts, Terminated nl t) :
    Terminated nl ts.flatten := by
  induction ts with
  | nil => exact ⟨[], fun _ h => (nomatch h), rfl⟩
  | cons t ts ih =>
    rw [List.flatten_cons]
    exact (h t List.mem_cons_self).append (ih fun t' hmem => h t' (List.mem_cons_of_mem _ hmem))

/-- The lines of a sequence; what stands behind the last terminator is left out. -/
def lines [DecidableEq α] (nl : α) (t : List α) : List (List α) := (t.splitOn nl).dropLast

/-- A line without the terminator in it is split off. -/
theorem lines_append_cons [DecidableEq α] {nl : α} {line : List α} (h : nl ∉ line) (t : List α) :
    lines nl (line ++ nl :: t) = line :: lines nl t := by
  rw [lines, List.splitOn_append_cons_self_of_not_mem h,
    List.dropLast_cons_of_ne_nil (List.splitOn_ne_nil nl t)]
  rfl

/-- **Lines survive joining and splitting.** -/
theorem lines_unlines [DecidableEq α] {nl : α} {ls : List (List α)} (h : ∀ line ∈ ls, nl ∉ line) :
    lines nl (unlines nl ls) = ls := by
  induction ls with
  | nil => rfl
  | cons line ls ih =>
    rw [unlines_cons, lines_append_cons (h line List.mem_cons_self),
      ih fun l hmem => h l (List.mem_cons_of_mem _ hmem)]

/-! ### The last split -/

/-- The last place of a sequence where `f` can read the rest: what stands in front of
it, and the value of `f`. -/
def splitLast (f : List α → Option β) : List α → Option (List α × β)
  | [] => (f []).map fun b => ([], b)
  | x :: s =>
    match splitLast f s with
    | some (pre, b) => some (x :: pre, b)
    | none => (f (x :: s)).map fun b => ([], b)

/-- What stands in front of the split is not looked at. -/
theorem splitLast_append {f : List α → Option β} {s : List α} {b : β}
    (h : splitLast f s = some ([], b)) (pre : List α) :
    splitLast f (pre ++ s) = some (pre, b) := by
  induction pre with
  | nil => exact h
  | cons x pre ih => rw [List.cons_append, splitLast, ih]

/-- There is no split if nothing can be read at any place. -/
theorem splitLast_eq_none_iff {f : List α → Option β} {s : List α} :
    splitLast f s = none ↔ ∀ t, t <:+ s → f t = none := by
  induction s with
  | nil =>
    rw [splitLast, Option.map_eq_none_iff]
    constructor
    · rintro h t ht
      rwa [List.suffix_nil.mp ht]
    · exact fun h => h [] List.suffix_rfl
  | cons x s ih =>
    rw [splitLast]
    cases hlast : splitLast f s with
    | some r =>
      refine iff_of_false (fun h => nomatch h) fun h => ?_
      rw [ih.mpr fun t ht => h t (ht.trans (List.suffix_cons x s))] at hlast
      cases hlast
    | none =>
      rw [Option.map_eq_none_iff]
      constructor
      · rintro h t ht
        rcases List.suffix_cons_iff.mp ht with rfl | ht
        · exact h
        · exact ih.mp hlast t ht
      · exact fun h => h _ List.suffix_rfl

/-- The split is at the last place where `f` can read the rest. -/
theorem splitLast_eq_some {f : List α → Option β} {s pre : List α} {b : β}
    (h : splitLast f s = some (pre, b)) :
    ∃ t, s = pre ++ t ∧ f t = some b ∧ ∀ u, u <:+ s → f u ≠ none → t.length ≤ u.length := by
  induction s generalizing pre with
  | nil =>
    rw [splitLast, Option.map_eq_some_iff] at h
    obtain ⟨b', hb, heq⟩ := h
    cases heq
    exact ⟨[], rfl, hb, fun u _ _ => Nat.zero_le _⟩
  | cons x s ih =>
    rw [splitLast] at h
    cases hlast : splitLast f s with
    | some r =>
      rw [hlast] at h
      obtain ⟨rfl, rfl⟩ := Prod.mk.inj (Option.some.inj h)
      obtain ⟨t, rfl, ht, hmin⟩ := ih hlast
      refine ⟨t, rfl, ht, fun u hu hread => ?_⟩
      rcases List.suffix_cons_iff.mp hu with rfl | hu
      · rw [List.length_cons, List.length_append]
        omega
      · exact hmin u hu hread
    | none =>
      rw [hlast] at h
      obtain ⟨b', hb, heq⟩ := Option.map_eq_some_iff.mp h
      cases heq
      refine ⟨x :: s, rfl, hb, fun u hu hread => ?_⟩
      rcases List.suffix_cons_iff.mp hu with rfl | hu
      · exact Nat.le_refl _
      · exact absurd (splitLast_eq_none_iff.mp hlast u hu) hread

end Lines

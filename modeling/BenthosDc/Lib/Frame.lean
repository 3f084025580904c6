/-
BenthosDc/Lib/Frame.lean

Programs that touch a part of the state only.

    Framed R X m

says that `m`, which runs on a part of a state, does the same on the whole of it: it has the
same result, or halts for the same reason, and `R` still relates the part to the whole.  A part
on which `m` halts for a reason in `X` is too small for it, and nothing is said there.

`Framed.triple` is the frame rule: what has been proved about `m` on the part holds on the whole.
The trace of the whole goes on as that of the part does (`Sound.splice`).
-/
import BenthosDc.Lib.Hoare
import BenthosDc.Lib.Lifetime
import Mathlib.Data.List.Induction

namespace Hoare

universe u v

variable {σ α β : Type u} {ε : Type v}

/-- `m` does the same on the whole as on the part, but for halts in `X`, and `R` still relates the
two. -/
def Framed (R : σ → σ → Prop) (X : ε → Prop) (m : StateT σ (Except ε) α) : Prop :=
  ∀ p w, R p w → Triple m p (fun a p' => ∃ w', m.run w = .ok (a, w') ∧ R p' w')
    fun e => X e ∨ m.run w = .error e

section Framed

variable {R : σ → σ → Prop} {X E : ε → Prop} {m : StateT σ (Except ε) α}
  {f : α → StateT σ (Except ε) β} {p w : σ} {Q : α → σ → Prop}

/-- A result that is there already. -/
theorem Framed.pure (a : α) : Framed R X (pure a : StateT σ (Except ε) α) := fun _ w h =>
  Triple.pure ⟨w, rfl, h⟩

/-- A halt is the same everywhere. -/
theorem Framed.throw (e : ε) : Framed R X (throw e : StateT σ (Except ε) α) := fun _ _ _ =>
  Triple.throw (.inr rfl)

/-- A change of the part that is a change of the whole. -/
theorem Framed.modify {g : σ → σ} (hg : ∀ p w, R p w → R (g p) (g w)) :
    Framed R X (modify g : StateT σ (Except ε) PUnit) := fun p w h =>
  Triple.modify ⟨g w, rfl, hg p w h⟩

/-- A program whose run on the part is known, and that runs alike on the whole. -/
theorem Framed.of_run {r : σ → α} {g : σ → σ} (hm : ∀ s, m.run s = .ok (r s, g s))
    (hr : ∀ p w, R p w → r w = r p) (hg : ∀ p w, R p w → R (g p) (g w)) : Framed R X m := by
  intro p w h
  refine Triple.of_run (hm p) ⟨g w, ?_, hg p w h⟩
  rw [hm w, hr p w h]

/-- **The rule of sequence.** -/
theorem Framed.bind (hm : Framed R X m) (hf : ∀ a, Framed R X (f a)) : Framed R X (m >>= f) := by
  intro p w h
  refine ((hm p w h).mono (fun _ _ h => h) ?_).bind ?_
  · rintro e (hX | herror)
    · exact .inl hX
    · exact .inr (run_bind_of_error herror)
  · rintro a p' ⟨w', hrun, h'⟩
    rw [run_bind_of_ok hrun]
    exact hf a p' w' h'

/-- The test looks at neither state. -/
theorem Framed.ite {c : Prop} {_ : Decidable c} {m' : StateT σ (Except ε) α}
    (hm : Framed R X m) (hm' : Framed R X m') : Framed R X (if c then m else m') := by
  split
  · exact hm
  · exact hm'

/-- A loop, if each pass of it is framed. -/
theorem Framed.forM {ι : Type*} {body : ι → StateT σ (Except ε) PUnit}
    (hbody : ∀ i, Framed R X (body i)) (is : List ι) : Framed R X (is.forM body) := by
  induction is with
  | nil => exact Framed.pure _
  | cons i is ih => exact (hbody i).bind fun _ => ih

/-- **The frame rule.** -/
theorem Framed.triple (hm : Framed R X m) (h : R p w) (hp : Triple m p Q E)
    (hX : ∀ e, E e → ¬X e) :
    Triple m w (fun a w' => ∃ p', m.run p = .ok (a, p') ∧ Q a p' ∧ R p' w')
      fun e => E e ∧ m.run p = .error e := by
  have hframed := hm p w h
  cases hrun : m.run p with
  | ok r =>
    obtain ⟨w', hrun', h'⟩ := hframed.result hrun
    exact Triple.of_run hrun' ⟨r.2, rfl, hp.result hrun, h'⟩
  | error e =>
    have hE : E e := hp.halt hrun
    have hrun' : m.run w = .error e := (hframed.halt hrun).resolve_left (hX e hE)
    exact Triple.of_run_error hrun' ⟨hE, rfl⟩

end Framed

end Hoare

namespace Lifetime

variable {ι : Type*} {s t new : List (Event ι)} {h : ι}

/-- The last event of a sound trace. -/
theorem Sound.of_concat {x : Event ι} (ht : Sound (t ++ [x])) :
    Sound t ∧ (∀ k, x = .alloc k → .alloc k ∉ t) ∧ (∀ k, x = .use k → Live t k) ∧
      ∀ k, x = .dispose k → Live t k := by
  generalize heq : t ++ [x] = t' at ht
  have hlast : ∀ {t₁ : List (Event ι)} {y : Event ι}, t ++ [x] = t₁ ++ [y] → t = t₁ ∧ x = y := by
    intro t₁ y h
    obtain ⟨rfl, hxy⟩ := List.append_inj' h rfl
    exact ⟨rfl, List.head_eq_of_cons_eq hxy⟩
  cases ht with
  | nil => simp at heq
  | alloc ht hk =>
    obtain ⟨rfl, rfl⟩ := hlast heq
    refine ⟨ht, ?_, by rintro _ ⟨⟩, by rintro _ ⟨⟩⟩
    rintro k ⟨⟩
    exact hk
  | use ht hk =>
    obtain ⟨rfl, rfl⟩ := hlast heq
    refine ⟨ht, by rintro _ ⟨⟩, ?_, by rintro _ ⟨⟩⟩
    rintro k ⟨⟩
    exact hk
  | dispose ht hk =>
    obtain ⟨rfl, rfl⟩ := hlast heq
    refine ⟨ht, by rintro _ ⟨⟩, by rintro _ ⟨⟩, ?_⟩
    rintro k ⟨⟩
    exact hk

/-- What is live has been allocated behind the point where it was not. -/
theorem Live.alloc_of_not_live (hl : Live (s ++ new) h) (hs : ¬Live s h) : .alloc h ∈ new := by
  obtain ⟨ha, hd⟩ := hl
  rw [List.mem_append] at ha hd
  rcases ha with ha | ha
  · exact absurd ⟨ha, fun h => hd (.inl h)⟩ hs
  · exact ha

/-- **A trace goes on as that of a part does**: what is live in the part is live in the whole, and
what the part allocates is new to the whole.  The rest of the whole stays as it is. -/
theorem Sound.splice (ht : Sound t) (hs : Sound (s ++ new)) (hpart : ∀ h, Live s h → Live t h)
    (hnew : ∀ h, .alloc h ∈ new → .alloc h ∉ t) :
    Sound (t ++ new) ∧ ∀ h, Live (t ++ new) h ↔ Live (s ++ new) h ∨ (Live t h ∧ ¬Live s h) := by
  induction new using List.reverseRecOn with
  | nil =>
    simp only [List.append_nil]
    refine ⟨ht, fun h => ?_⟩
    by_cases hl : Live s h
    · simp [hl, hpart h hl]
    · simp [hl]
  | append_singleton new x ih =>
    rw [← List.append_assoc] at hs ⊢
    rw [← List.append_assoc]
    obtain ⟨hs', halloc, huse, hdispose⟩ := hs.of_concat
    obtain ⟨ht', hlive⟩ := ih hs' fun h hmem => hnew h (List.mem_append_left _ hmem)
    cases x with
    | alloc k =>
      have hk : .alloc k ∉ t ++ new := by
        rw [List.mem_append, not_or]
        refine ⟨hnew k (List.mem_append_right _ (List.mem_singleton_self _)), ?_⟩
        exact fun hmem => halloc k rfl (List.mem_append_right _ hmem)
      refine ⟨ht'.alloc hk, fun h => ?_⟩
      rw [ht'.live_alloc hk, hs'.live_alloc (halloc k rfl), hlive]
      tauto
    | use k =>
      refine ⟨ht'.use ((hlive k).mpr (.inl (huse k rfl))), fun h => ?_⟩
      rw [live_use, live_use, hlive]
    | dispose k =>
      have hk : Live (s ++ new) k := hdispose k rfl
      refine ⟨ht'.dispose ((hlive k).mpr (.inl hk)), fun h => ?_⟩
      rw [live_dispose, live_dispose, hlive]
      -- what is disposed belongs to the part
      have hown : h = k → ¬(Live t h ∧ ¬Live s h) := by
        rintro rfl ⟨hl, hns⟩
        have hmem : .alloc h ∈ new := hk.alloc_of_not_live hns
        exact hnew h (List.mem_append_left _ hmem) hl.1
      tauto

end Lifetime

/-
BenthosDc/Lib/Hoare.lean

Rules for programs with a state that may come to an early halt.

    Triple m s Q E

says that `m`, started in the state `s`, ends with a result and a state that
satisfy `Q`, or halts for a reason in `E`.  With `E` empty this is total
correctness.

    Within R P E m

says that every run of `m` leads from a state to one that `R` relates to it, and

    Maintains I P E m

that every run from a state with the invariant `I` leads to another one.

    Simulates R Q m n

is about two programs: from states that `R` relates, `m` and `n` halt for the same reason, or
come to states that `R` relates, with results that `Q` relates.
-/
import Mathlib.Order.Defs.Unbundled

namespace Hoare

universe u v

variable {σ α β : Type u} {ε : Type v}

/-- `m` ends in `Q` or halts for a reason in `E`. -/
def Triple (m : StateT σ (Except ε) α) (s : σ) (Q : α → σ → Prop) (E : ε → Prop) : Prop :=
  match m.run s with
  | .ok (a, s') => Q a s'
  | .error e => E e

/-- No reason to halt. -/
def never : ε → Prop := fun _ => False

section Rules

variable {m : StateT σ (Except ε) α} {f : α → StateT σ (Except ε) β} {s s' : σ} {a : α} {e : ε}
  {Q Q' : α → σ → Prop} {R : β → σ → Prop} {E E' : ε → Prop}

/-- From a run that is known. -/
theorem Triple.of_run (h : m.run s = .ok (a, s')) (hQ : Q a s') : Triple m s Q E := by
  rw [Triple, h]
  exact hQ

/-- From a halt that is known. -/
theorem Triple.of_run_error (h : m.run s = .error e) (hE : E e) : Triple m s Q E := by
  rw [Triple, h]
  exact hE

/-- Programs that run alike have the same specifications. -/
theorem Triple.of_run_eq {m' : StateT σ (Except ε) α} (hrun : m.run s = m'.run s')
    (h : Triple m' s' Q E) : Triple m s Q E := by
  rw [Triple, hrun]
  exact h

/-- What a triple says of a run that has come to its end. -/
theorem Triple.result (h : Triple m s Q E) (hrun : m.run s = .ok (a, s')) : Q a s' := by
  rwa [Triple, hrun] at h

/-- What a triple says of a run that has halted. -/
theorem Triple.halt (h : Triple m s Q E) (hrun : m.run s = .error e) : E e := by
  rwa [Triple, hrun] at h

/-- A program that does not halt early has a result. -/
theorem Triple.exists_run (h : Triple m s Q never) : ∃ a s', m.run s = .ok (a, s') ∧ Q a s' := by
  rw [Triple] at h
  split at h
  case h_1 a s' hrun => exact ⟨a, s', hrun, h⟩
  case h_2 => exact h.elim

/-- The second program goes on where the first one has ended. -/
theorem run_bind_of_ok (h : m.run s = .ok (a, s')) : (m >>= f).run s = (f a).run s' := by
  rw [StateT.run_bind, h]
  rfl

/-- Behind a halt nothing is run. -/
theorem run_bind_of_error (h : m.run s = .error e) : (m >>= f).run s = .error e := by
  rw [StateT.run_bind, h]
  rfl

/-- What runs in sequence runs one after the other. -/
theorem run_bind_eq_ok {b : β} :
    (m >>= f).run s = .ok (b, s') ↔ ∃ a t, m.run s = .ok (a, t) ∧ (f a).run t = .ok (b, s') := by
  rw [StateT.run_bind]
  cases m.run s with
  | error e => exact ⟨fun h => (nomatch h), fun ⟨_, _, h, _⟩ => (nomatch h)⟩
  | ok r =>
    constructor
    · intro h
      exact ⟨r.1, r.2, rfl, h⟩
    · rintro ⟨a, t, hrun, hrest⟩
      cases hrun
      exact hrest

/-- What runs in sequence halts in one of its parts. -/
theorem run_bind_eq_error :
    (m >>= f).run s = .error e ↔
      m.run s = .error e ∨ ∃ a t, m.run s = .ok (a, t) ∧ (f a).run t = .error e := by
  rw [StateT.run_bind]
  cases m.run s with
  | error e' =>
    constructor
    · intro h
      obtain rfl : e' = e := Except.error.inj h
      exact .inl rfl
    · rintro (h | ⟨a, t, hrun, -⟩)
      · cases h
        rfl
      · cases hrun
  | ok r =>
    constructor
    · intro h
      exact .inr ⟨r.1, r.2, rfl, h⟩
    · rintro (h | ⟨a, t, hrun, hrest⟩)
      · cases h
      · cases hrun
        exact hrest

/-- A result that is there already. -/
theorem Triple.pure (hQ : Q a s) : Triple (pure a) s Q E := hQ

/-- **The rule of sequence.** -/
theorem Triple.bind (hm : Triple m s Q E) (hf : ∀ a s', Q a s' → Triple (f a) s' R E) :
    Triple (m >>= f) s R E := by
  rw [Triple, StateT.run_bind]
  rw [Triple] at hm
  cases hrun : m.run s with
  | error e =>
    rw [hrun] at hm
    exact hm
  | ok r =>
    rw [hrun] at hm
    exact hf r.1 r.2 hm

/-- **The rule of consequence.** -/
theorem Triple.mono (hm : Triple m s Q E) (hQ : ∀ a s', Q a s' → Q' a s') (hE : ∀ e, E e → E' e) :
    Triple m s Q' E' := by
  rw [Triple] at hm ⊢
  split at hm
  · exact hQ _ _ hm
  · exact hE _ hm

theorem Triple.imp (hm : Triple m s Q E) (hQ : ∀ a s', Q a s' → Q' a s') : Triple m s Q' E :=
  hm.mono hQ fun _ h => h

/-- A program that never halts early does not halt for any reason. -/
theorem Triple.weaken (hm : Triple m s Q never) : Triple m s Q E :=
  hm.mono (fun _ _ h => h) fun _ h => h.elim

/-- Two specifications of one program hold together. -/
theorem Triple.and (hm : Triple m s Q E) (hm' : Triple m s Q' E') :
    Triple m s (fun a s' => Q a s' ∧ Q' a s') E := by
  rw [Triple] at hm hm' ⊢
  split
  case h_1 hrun =>
    rw [hrun] at hm hm'
    exact ⟨hm, hm'⟩
  case h_2 hrun =>
    rw [hrun] at hm
    exact hm

theorem Triple.get {Q : σ → σ → Prop} (hQ : Q s s) : Triple MonadState.get s Q E := hQ

theorem Triple.modify {g : σ → σ} {Q : PUnit → σ → Prop} (hQ : Q ⟨⟩ (g s)) :
    Triple (modify g : StateT σ (Except ε) PUnit) s Q E := hQ

theorem Triple.throw (hE : E e) : Triple (throw e : StateT σ (Except ε) α) s Q E := hE

/-- **The rule of iteration**: what one run of the body preserves, a run over a
list preserves. -/
theorem Triple.forM {ι : Type*} {body : ι → StateT σ (Except ε) PUnit} {I : σ → Prop}
    (hbody : ∀ i s, I s → Triple (body i) s (fun _ s' => I s') E) (hs : I s) (is : List ι) :
    Triple (is.forM body) s (fun _ s' => I s') E := by
  induction is generalizing s with
  | nil => exact hs
  | cons i is ih => exact (hbody i s hs).bind fun _ s' hs' => ih hs'

end Rules

/-! ### What a program leaves as it is -/

/-- A program whose runs all stay within `R`, with a result in `P`. -/
def Within (R : σ → σ → Prop) (P : α → Prop) (E : ε → Prop) (m : StateT σ (Except ε) α) : Prop :=
  ∀ s, Triple m s (fun a s' => P a ∧ R s s') E

section Within

variable {R : σ → σ → Prop} {P P' : α → Prop} {Q : β → Prop} {E : ε → Prop}
  {m : StateT σ (Except ε) α} {f : α → StateT σ (Except ε) β}

/-- Weaker statements of the results and of the halts. -/
theorem Within.mono {E' : ε → Prop} (hm : Within R P E m) (hP : ∀ a, P a → P' a)
    (hE : ∀ e, E e → E' e) : Within R P' E' m := fun s =>
  (hm s).mono (fun a _ h => ⟨hP a h.1, h.2⟩) hE

/-- A change to a related state. -/
theorem Within.modify {g : σ → σ} {P : PUnit → Prop} (hP : P ⟨⟩) (hg : ∀ s, R s (g s)) :
    Within R P E (modify g : StateT σ (Except ε) PUnit) := fun s => Triple.modify ⟨hP, hg s⟩

variable [IsPreorder σ R]

theorem Within.pure {a : α} (ha : P a) : Within R P E (pure a) := fun s =>
  Triple.pure ⟨ha, refl_of R s⟩

/-- **Programs in sequence stay within `R`.** -/
theorem Within.bind (hm : Within R P E m) (hf : ∀ a, P a → Within R Q E (f a)) :
    Within R Q E (m >>= f) := by
  intro s
  apply (hm s).bind
  rintro a s₁ ⟨ha, h₁⟩
  apply (hf a ha s₁).imp
  rintro b s₂ ⟨hb, h₂⟩
  exact ⟨hb, trans_of R h₁ h₂⟩

end Within

/-! ### What a program keeps true -/

/-- A program whose runs keep the invariant `I`, with a result in `P`. -/
def Maintains (I : σ → Prop) (P : α → Prop) (E : ε → Prop) (m : StateT σ (Except ε) α) : Prop :=
  ∀ s, I s → Triple m s (fun a s' => P a ∧ I s') E

section Maintains

variable {I : σ → Prop} {P P' : α → Prop} {Q : β → Prop} {E : ε → Prop}
  {m : StateT σ (Except ε) α} {f : α → StateT σ (Except ε) β}

theorem Maintains.pure {a : α} (ha : P a) : Maintains I P E (pure a) := fun _ hs =>
  Triple.pure ⟨ha, hs⟩

/-- A halt need not keep anything. -/
theorem Maintains.throw {e : ε} (he : E e) : Maintains I P E (throw e) := fun _ _ =>
  Triple.throw he

/-- A change that keeps the invariant. -/
theorem Maintains.modify {g : σ → σ} {P : PUnit → Prop} (hP : P ⟨⟩) (hg : ∀ s, I s → I (g s)) :
    Maintains I P E (modify g : StateT σ (Except ε) PUnit) := fun s hs =>
  Triple.modify ⟨hP, hg s hs⟩

/-- A weaker statement of the results. -/
theorem Maintains.imp (hm : Maintains I P E m) (hP : ∀ a, P a → P' a) : Maintains I P' E m :=
  fun s hs => (hm s hs).imp fun a _ h => ⟨hP a h.1, h.2⟩

/-- Each branch may use its case of the test. -/
theorem Maintains.ite {c : Prop} {_ : Decidable c} {m' : StateT σ (Except ε) α}
    (hm : c → Maintains I P E m) (hm' : ¬c → Maintains I P E m') :
    Maintains I P E (if c then m else m') := by
  split
  · exact hm ‹_›
  · exact hm' ‹_›

/-- **Programs in sequence keep the invariant.** -/
theorem Maintains.bind (hm : Maintains I P E m) (hf : ∀ a, P a → Maintains I Q E (f a)) :
    Maintains I Q E (m >>= f) := by
  intro s hs
  apply (hm s hs).bind
  intro a s₁ ⟨ha, hs₁⟩
  exact hf a ha s₁ hs₁

/-- A program behind one that keeps the invariant starts with it. -/
theorem Maintains.then {s : σ} {R : β → σ → Prop} (hm : Maintains I P E m) (hs : I s)
    (hf : ∀ a s', P a → I s' → Triple (f a) s' R E) : Triple (m >>= f) s R E :=
  (hm s hs).bind fun a s' h => hf a s' h.1 h.2

/-- A loop keeps what each pass keeps. -/
theorem Maintains.forM {ι : Type*} {body : ι → StateT σ (Except ε) PUnit} {P : PUnit → Prop}
    (hbody : ∀ i, Maintains I P E (body i)) (hP : P ⟨⟩) (is : List ι) :
    Maintains I P E (is.forM body) := by
  intro s hs
  have hstep : ∀ i s, I s → Triple (body i) s (fun _ s' => I s') E := by
    intro i s hs
    exact (hbody i s hs).imp fun _ _ h => h.2
  exact (Triple.forM hstep hs is).imp fun _ _ h => ⟨hP, h⟩

end Maintains

/-! ### What a program results in -/

/-- A program whose results are all in `P`. -/
abbrev Gives (P : α → Prop) (m : StateT σ (Except ε) α) : Prop :=
  Maintains (fun _ => True) P (fun _ => True) m

section Gives

variable {P : α → Prop} {m : StateT σ (Except ε) α} {s s' : σ} {a : α}

/-- In terms of runs. -/
theorem gives_iff : Gives P m ↔ ∀ s a s', m.run s = .ok (a, s') → P a := by
  constructor
  · intro h s a s' hrun
    exact ((h s trivial).result hrun).1
  · intro h s _
    cases hrun : m.run s with
    | error e => exact Triple.of_run_error hrun trivial
    | ok r => exact Triple.of_run hrun ⟨h s r.1 r.2 hrun, trivial⟩

/-- Every program results in something. -/
theorem gives_true (m : StateT σ (Except ε) α) : Gives (fun _ => True) m :=
  gives_iff.mpr fun _ _ _ _ => trivial

/-- The result of a run. -/
theorem Gives.result (h : Gives P m) (hrun : m.run s = .ok (a, s')) : P a :=
  gives_iff.mp h s a s' hrun

end Gives

/-! ### A program that ends more often -/

/-- The second program does what the first one does, and may end where the first one halts. -/
def Below (m n : StateT σ (Except ε) α) : Prop := ∀ s r, m.run s = .ok r → n.run s = .ok r

section Below

variable {m n : StateT σ (Except ε) α} {f g : α → StateT σ (Except ε) β}

/-- A program ends as often as itself. -/
theorem Below.refl (m : StateT σ (Except ε) α) : Below m m := fun _ _ h => h

/-- Both parts of a sequence may end more often. -/
theorem Below.bind (hm : Below m n) (hf : ∀ a, Below (f a) (g a)) :
    Below (m >>= f) (n >>= g) := by
  rintro s ⟨b, s'⟩ hrun
  obtain ⟨a, t, hrun, hrest⟩ := run_bind_eq_ok.mp hrun
  rw [run_bind_of_ok (hm s (a, t) hrun)]
  exact hf a t (b, s') hrest

/-- The passes of a loop may end more often. -/
theorem Below.forM {ι : Type*} {body body' : ι → StateT σ (Except ε) PUnit}
    (h : ∀ i, Below (body i) (body' i)) (is : List ι) : Below (is.forM body) (is.forM body') := by
  induction is with
  | nil => exact Below.refl _
  | cons i is ih => exact (h i).bind fun _ => ih

end Below

/-! ### Two programs side by side -/

/-- Two programs that do the same, each on a state of its own. -/
def Simulates {τ γ : Type u} (R : σ → τ → Prop) (Q : α → γ → Prop) (m : StateT σ (Except ε) α)
    (n : StateT τ (Except ε) γ) : Prop :=
  ∀ s t, R s t → Triple m s (fun a s' => ∃ c t', n.run t = .ok (c, t') ∧ Q a c ∧ R s' t')
    fun e => n.run t = .error e

section Simulates

variable {τ γ δ : Type u} {R : σ → τ → Prop} {P : α → γ → Prop} {Q : β → δ → Prop}
  {m : StateT σ (Except ε) α} {f : α → StateT σ (Except ε) β} {n : StateT τ (Except ε) γ}
  {g : γ → StateT τ (Except ε) δ}

/-- **The rule of sequence** for two programs. -/
theorem Simulates.bind (hm : Simulates R P m n) (hf : ∀ a c, P a c → Simulates R Q (f a) (g c)) :
    Simulates R Q (m >>= f) (n >>= g) := by
  intro s t hst
  refine Triple.bind ((hm s t hst).mono (fun _ _ h => h) ?_) ?_
  · exact fun e herror => run_bind_of_error herror
  · rintro a s' ⟨c, t', hrun, hac, hst'⟩
    rw [run_bind_of_ok hrun]
    exact hf a c hac s' t' hst'

/-- A weaker relation between the results. -/
theorem Simulates.imp {P' : α → γ → Prop} (hm : Simulates R P m n)
    (hP : ∀ a c, P a c → P' a c) : Simulates R P' m n := by
  intro s t hst
  apply (hm s t hst).imp
  rintro a s' ⟨c, t', hrun, hac, hst'⟩
  exact ⟨c, t', hrun, hP a c hac, hst'⟩

/-- A step that only the first program makes. -/
theorem Simulates.skip {n : StateT τ (Except ε) δ}
    (hm : ∀ s t, R s t → Triple m s (fun _ s' => R s' t) never)
    (hf : ∀ a, Simulates R Q (f a) n) : Simulates R Q (m >>= f) n := by
  intro s t hst
  exact (hm s t hst).weaken.bind fun a s' hst' => hf a s' t hst'

/-- A part behind the second program's end that only the first one has. -/
theorem Simulates.followed {Q : β → γ → Prop} (hm : Simulates R P m n)
    (hf : ∀ a c, P a c → ∀ s t, R s t → Triple (f a) s (fun b s' => Q b c ∧ R s' t) never) :
    Simulates R Q (m >>= f) n := by
  intro s t hst
  apply (hm s t hst).bind
  rintro a s' ⟨c, t', hrun, hac, hst'⟩
  apply (hf a c hac s' t' hst').weaken.imp
  rintro b s'' ⟨hbc, hst''⟩
  exact ⟨c, t', hrun, hbc, hst''⟩

end Simulates

end Hoare

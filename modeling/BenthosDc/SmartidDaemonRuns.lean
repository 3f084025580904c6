/-
BenthosDc/SmartidDaemonRuns.lean

The daemon over all its runs.

* `daemon_handles`: the device structures of all connections are in order, however the events of
  the connections follow one another, and none is left behind by the cleanup.

A command runs on the part of its connection, where `SmartidReplies` says what it does, and
the frame rule takes that to the whole process (`onConn_triple`, `devices_put`).

An event is about one connection.  What it does to that one is computed on its part, and for
the others there is `Spared`: they, their buffers and their devices are what they were.
-/
import BenthosDc.SmartidDaemon
import BenthosDc.SmartidFrame
import BenthosDc.SmartidSession

namespace BenthosDc

open CString Hoare Lifetime LinkedList ConnM ServM ProcM

variable {S α : Type} {p p' : Process S} {as bs : List Nat} {a b : Nat} {E : Halt → Prop}

/-! ### The part of a connection

A part is a connection of `SmartidConn`, so that all that is known of a single connection can
be used.
-/

section Part

variable {own : Nat → Option Nat} {c w' : Conn S} {o : Option Nat}

/-- The device of the connection is the one that is live in its part. -/
theorem part_live (a h : Nat) : Live (p.part a).events h ↔ p.devs a = some h := by
  show Live (((p.clients a).dev.map Event.alloc).toList) h ↔ (p.clients a).dev = some h
  cases (p.clients a).dev with
  | none => exact ⟨fun hl => absurd hl (not_live_nil h), by rintro ⟨⟩⟩
  | some k => simp [Live, eq_comm]

/-- **What belongs to a connection is in order on its own.** -/
theorem part_wellFormed (hd : Devices p.devs as p) (ha : a ∈ as) : WellFormed (p.part a) := by
  have hlive : ∀ h, p.devs a = some h → Live p.events h := fun h hh => (hd.live h).mpr ⟨a, ha, hh⟩
  refine ⟨?_, part_live a, ?_, ?_⟩
  · show Sound (((p.clients a).dev.map Event.alloc).toList)
    cases (p.clients a).dev with
    | none => exact .nil
    | some k => exact Sound.nil.alloc (by simp)
  · intro h
    show (if (p.clients a).dev = some h then p.heap h else none).isSome ↔ (p.clients a).dev = some h
    split
    next hh => exact iff_of_true ((hd.heap h).mpr (hlive h hh)) hh
    next hh => exact iff_of_false (by simp) hh
  · intro h hmem
    have hh : p.devs a = some h := by
      rw [← part_live]
      refine ⟨hmem, ?_⟩
      show .dispose h ∉ ((p.clients a).dev.map Event.alloc).toList
      cases (p.clients a).dev <;> simp
    exact hd.fresh h (hlive h hh).1

/-- The whole process is the part of a connection and the structures of the others. -/
theorem part_inFrame (hd : Devices p.devs as p) (a : Nat) :
    InFrame (p.others a) p.next (p.part a).events p.events (p.part a) (view a p) := by
  refine ⟨rfl, rfl, rfl, rfl, rfl, ?_, ?_, le_rfl, [], ?_, ?_, by rintro _ ⟨⟩⟩
  · intro h
    show p.heap h = (if (p.clients a).dev = some h then none else p.heap h).or
      (if (p.clients a).dev = some h then p.heap h else none)
    split
    · exact (Option.none_or).symm
    · exact (Option.or_none).symm
  · intro h hh
    have hh : (if (p.clients a).dev = some h then none else p.heap h) ≠ none := hh
    split at hh
    · exact absurd rfl hh
    next hne =>
    refine ⟨if_neg hne, hd.fresh h ?_⟩
    exact ((hd.heap h).mp (Option.isSome_iff_ne_none.mpr hh)).1
  · exact (List.append_nil _).symm
  · exact (List.append_nil _).symm

/-- **A program of a connection runs on its part**, and the whole process follows. -/
theorem onConn_triple {m : Daemon S α} {Q : α → Conn S → Prop} (hm : ∀ F n e₀ e, Local F n e₀ e m)
    (hd : Devices p.devs as p) (hQ : Triple m (p.part a) Q E) (hE : ∀ e, E e → e ≠ .dangling) :
    Triple (onConn a m) p (fun r p' => ∃ c w', m.run (p.part a) = .ok (r, c) ∧ Q r c ∧
      InFrame (p.others a) p.next (p.part a).events p.events c w' ∧ p' = put a w' p)
      fun e => E e ∧ m.run (p.part a) = .error e := by
  have hframe := (hm _ _ _ _).triple (part_inFrame hd a) hQ hE
  cases hrun : m.run (view a p) with
  | ok r =>
    obtain ⟨c, hpart, hc, hw'⟩ := hframe.result hrun
    have hon : (onConn a m).run p = .ok (r.1, put a r.2 p) := by
      show onConn a m p = _
      rw [onConn, hrun]
    exact Triple.of_run hon ⟨c, r.2, hpart, hc, hw', rfl⟩
  | error e =>
    have hon : (onConn a m).run p = .error e := by
      show onConn a m p = _
      rw [onConn, hrun]
    exact Triple.of_run_error hon (hframe.halt hrun)

/-- The frame holds all other devices. -/
theorem others_isSome (h : Nat) :
    (p.others a h).isSome ↔ (p.heap h).isSome ∧ p.devs a ≠ some h := by
  show (if (p.clients a).dev = some h then none else p.heap h).isSome ↔ _ ∧ (p.clients a).dev ≠ _
  split
  next hh => simp [hh]
  next hh => simp [hh]

/-- **The devices stay in order**: the connection at `a` has the structure `o` from now on. -/
theorem devices_put (hd : Devices p.devs as p) (ha : a ∈ as)
    (hw : InFrame (p.others a) p.next (p.part a).events p.events c w') (hc : Owns c o) :
    Devices (Function.update p.devs a o) as (put a w' p) := by
  obtain ⟨new, hnew, hwhole, hge⟩ := hw.events
  have hsound : Sound ((p.part a).events ++ new) := by
    rw [← hnew]
    exact hc.sound
  have hpart : ∀ h, Live (p.part a).events h → Live p.events h := fun h hl =>
    (hd.live h).mpr ⟨a, ha, (part_live a h).mp hl⟩
  have hfresh : ∀ h, .alloc h ∈ new → .alloc h ∉ p.events := fun h hmem hold =>
    absurd (hge h hmem) (Nat.not_le.mpr (hd.fresh h hold))
  obtain ⟨hsound', hlive'⟩ := hd.sound.splice hsound hpart hfresh
  have hlive : ∀ h, Live w'.events h ↔ o = some h ∨ (Live p.events h ∧ p.devs a ≠ some h) := by
    intro h
    rw [hwhole, hlive' h, ← hnew, hc.live h, part_live]
  -- another connection keeps what it has
  have hother : ∀ b ∈ as, b ≠ a → ∀ h, p.devs b = some h → Live p.events h ∧ p.devs a ≠ some h := by
    intro b hb hba h hh
    exact ⟨(hd.live h).mpr ⟨b, hb, hh⟩, fun hown => hba (hd.apart b hb a ha h hh hown)⟩
  have hnot : ∀ b ∈ as, b ≠ a → ∀ h, p.devs b = some h → o ≠ some h := by
    intro b hb hba h hh ho
    obtain ⟨hl, hne⟩ := hother b hb hba h hh
    have hF : (p.others a h).isSome := (others_isSome h).mpr ⟨(hd.heap h).mpr hl, hne⟩
    have hnone := (hw.apart h (Option.isSome_iff_ne_none.mp hF)).1
    have hsome := (hc.heap h).mpr ho
    rw [hnone] at hsome
    cases hsome
  refine ⟨?_, ?_, ?_, ?_, ?_⟩
  · show Sound w'.events
    rw [hwhole]
    exact hsound'
  · intro h
    apply (hlive h).trans
    constructor
    · rintro (rfl | ⟨hl, hne⟩)
      · exact ⟨a, ha, Function.update_self ..⟩
      · obtain ⟨b, hb, hh⟩ := (hd.live h).mp hl
        have hba : b ≠ a := by
          rintro rfl
          exact hne hh
        exact ⟨b, hb, (Function.update_of_ne hba ..).trans hh⟩
    · rintro ⟨b, hb, hh⟩
      by_cases hba : b = a
      · subst hba
        rw [Function.update_self] at hh
        exact .inl hh
      · rw [Function.update_of_ne hba] at hh
        exact .inr (hother b hb hba h hh)
  · intro h
    refine Iff.trans ?_ (hlive h).symm
    show (w'.heap h).isSome ↔ _
    rw [hw.heap h, Option.isSome_or, Bool.or_eq_true, others_isSome, hc.heap h, hd.heap h]
    exact or_comm
  · intro h hmem
    show h < w'.next
    have hmem : .alloc h ∈ w'.events := hmem
    rw [hw.next]
    rw [hwhole, List.mem_append] at hmem
    rcases hmem with hmem | hmem
    · exact lt_of_lt_of_le (hd.fresh h hmem) hw.le
    · apply hc.fresh h
      rw [hnew]
      exact List.mem_append_right _ hmem
  · intro b₁ hb₁ b₂ hb₂ h h₁ h₂
    by_cases hb₁a : b₁ = a <;> by_cases hb₂a : b₂ = a
    · rw [hb₁a, hb₂a]
    · rw [hb₁a, Function.update_self] at h₁
      rw [Function.update_of_ne hb₂a] at h₂
      exact absurd h₁ (hnot b₂ hb₂ hb₂a h h₂)
    · rw [Function.update_of_ne hb₁a] at h₁
      rw [hb₂a, Function.update_self] at h₂
      exact absurd h₂ (hnot b₁ hb₁ hb₁a h h₁)
    · rw [Function.update_of_ne hb₁a] at h₁
      rw [Function.update_of_ne hb₂a] at h₂
      exact hd.apart b₁ hb₁ b₂ hb₂ h h₁ h₂

/-- A program of a connection leaves the others as they are. -/
theorem spared_put (hd : Devices p.devs as p) (ha : a ∈ as) (hb : b ∈ as) (hne : b ≠ a)
    (hw : InFrame (p.others a) p.next (p.part a).events p.events c w') :
    Spared b p (put a w' p) := by
  refine ⟨Function.update_of_ne hne .., Function.update_of_ne hne .., ?_⟩
  intro h hh
  have hdev : (p.clients a).dev ≠ some h := fun hown => hne (hd.apart b hb a ha h hh hown)
  have hsome : (p.heap h).isSome := (hd.heap h).mpr ((hd.live h).mpr ⟨b, hb, hh⟩)
  show w'.heap h = p.heap h
  rw [hw.heap h, Process.others, if_neg hdev]
  exact Option.or_of_isSome hsome

end Part

/-! ### What an event leaves as it is

One relation for each kind of thing that an event may leave alone, and rules to put events
together.
-/

/-- The resources of all connections but the one at `a` are as before. -/
def Elsewhere (a : Nat) (s s' : ConnServer) : Prop := ∀ b, b ≠ a → s'.records b = s.records b

instance (a : Nat) : IsPreorder ConnServer (Elsewhere a) where
  refl _ _ _ := rfl
  trans _ _ _ h h' b hb := (h' b hb).trans (h b hb)

/-- Only the devices of the connections in the list matter. -/
theorem Devices.congr {own own' : Nat → Option Nat} {as' : List Nat} (hd : Devices own as p)
    (hiff : ∀ b h, b ∈ as ∧ own b = some h ↔ b ∈ as' ∧ own' b = some h) : Devices own' as' p where
  sound := hd.sound
  live h := (hd.live h).trans (exists_congr fun b => hiff b h)
  heap := hd.heap
  fresh := hd.fresh
  apart b hb b' hb' h hh hh' := by
    obtain ⟨hb, hh⟩ := (hiff b h).mpr ⟨hb, hh⟩
    obtain ⟨hb', hh'⟩ := (hiff b' h).mpr ⟨hb', hh'⟩
    exact hd.apart b hb b' hb' h hh hh'

/-- The devices are not those of the server. -/
theorem Devices.server {own : Nat → Option Nat} (hd : Devices own as p) (s : ConnServer)
    (f : Nat → ConnClient) : Devices own as { p with server := s, clients := f } :=
  ⟨hd.sound, hd.live, hd.heap, hd.fresh, hd.apart⟩

theorem Spared.refl (b : Nat) (p : Process S) : Spared b p p := ⟨rfl, rfl, fun _ _ => rfl⟩

theorem Spared.trans {p'' : Process S} (h : Spared b p p') (h' : Spared b p' p'') :
    Spared b p p'' := by
  refine ⟨h'.client.trans h.client, h'.record.trans h.record, fun k hk => ?_⟩
  have hk' : p'.devs b = some k := by
    rw [Process.devs, h.client]
    exact hk
  exact (h'.device k hk').trans (h.device k hk)

/-- A connection that is spared keeps its device. -/
theorem Spared.devs (h : Spared b p p') : p'.devs b = p.devs b := congrArg ConnClient.dev h.client

theorem Spared.ready (h : Spared b p p') (hb : Ready b p) : Ready b p' := by
  refine ⟨?_, ?_, ?_⟩
  · rw [h.record]
    exact hb.irda
  · rw [h.record]
    exact hb.shutdown
  · rw [h.record, h.devs]
    exact hb.dev

/-- All connections but the one at `a` are as before. -/
def Beside (a : Nat) (p p' : Process S) (as : List Nat) : Prop := ∀ b ∈ as, b ≠ a → Spared b p p'

theorem Beside.trans {p'' : Process S} (h : Beside a p p' as) (h' : Beside a p' p'' as) :
    Beside a p p'' as := fun b hb hne => (h b hb hne).trans (h' b hb hne)

/-- The buffers of one connection are no one else's. -/
theorem withClient_beside (f : ConnClient → ConnClient) : Beside a p (withClient a f p) as :=
  fun _ _ hne => ⟨Function.update_of_ne hne .., rfl, fun _ _ => rfl⟩

/-- The resources of one connection are no one else's. -/
theorem server_beside {s : ConnServer} (hs : Elsewhere a p.server s) :
    Beside a p { p with server := s } as := fun b _ hne => ⟨rfl, hs b hne, fun _ _ => rfl⟩

/-! ### The resources of the other connections

The functions of the server look at one record and at the list.
-/

/-- A program of the server that is about the connection at `a`. -/
abbrev StaysAt (a : Nat) (x : ServM α) : Prop :=
  Within (Elsewhere a) (fun _ => True) (fun _ => True) x

section Server

/-- A record is written. -/
theorem setRecord_staysAt (f : ConnRecord → ConnRecord) : StaysAt a (setRecord a f) :=
  Within.modify trivial fun _ _ hb => Function.update_of_ne hb ..

theorem emit_staysAt (e : ConnEvent) : StaysAt a (emit e) :=
  Within.modify trivial fun _ _ _ => rfl

theorem emitIf_staysAt (c : Bool) (e : ConnEvent) : StaysAt a (emitIf c e) := by
  cases c with
  | false => exact Within.pure trivial
  | true => exact emit_staysAt e

/-- The list is another matter. -/
theorem onTable_staysAt (x : ConnM α) : StaysAt a (onTable x) := by
  intro s
  cases hrun : x.run s.table with
  | error e => exact Triple.of_run_error (onTable_run_error hrun) trivial
  | ok r => exact Triple.of_run (onTable_run hrun) ⟨trivial, fun _ _ => rfl⟩

theorem get_staysAt : StaysAt a (get : ServM ConnServer) := fun _ =>
  Triple.get ⟨trivial, fun _ _ => rfl⟩

/-- A socket is shut down. -/
theorem connShutdown_staysAt : StaysAt a (connShutdown a) :=
  get_staysAt.bind fun _ _ => (emitIf_staysAt _ _).bind fun _ _ => setRecord_staysAt _

/-- The resources of a connection are given back. -/
theorem connFreeResources_staysAt : StaysAt a (connFreeResources a) := by
  refine get_staysAt.bind fun s _ => (emitIf_staysAt _ _).bind fun _ _ =>
    (emitIf_staysAt _ _).bind fun _ _ => (emitIf_staysAt _ _).bind fun _ _ =>
      (emitIf_staysAt _ _).bind fun _ _ => ?_
  split
  · exact connShutdown_staysAt.bind fun _ _ => emit_staysAt _
  · exact Within.pure trivial

/-- A connection is rejected. -/
theorem smartidConnReject_staysAt : StaysAt a (smartidConnReject a) :=
  Within.bind ((onTable_staysAt _).bind fun _ _ => (onTable_staysAt _).bind fun _ _ =>
    connFreeResources_staysAt.bind fun _ _ => onTable_staysAt _) fun _ _ => Within.pure trivial

/-- The buffers are set up. -/
theorem smartidConnBuffers_staysAt (failure : Option ConnFailure) :
    StaysAt a (smartidConnBuffers a failure) := by
  refine (onTable_staysAt _).bind fun _ _ => ?_
  split
  · exact smartidConnReject_staysAt
  refine (setRecord_staysAt _).bind fun _ _ => ?_
  split
  · exact smartidConnReject_staysAt
  split
  · exact smartidConnReject_staysAt
  · exact (setRecord_staysAt _).bind fun _ _ => Within.pure trivial

/-- A connection is set up, or not. -/
theorem smartidConnAlloc_staysAt (fd : Int) (failure : Option ConnFailure) :
    StaysAt a (smartidConnAlloc a fd failure) := by
  rw [smartidConnAlloc]
  split
  · exact Within.pure trivial
  refine (onTable_staysAt _).bind fun _ _ => (setRecord_staysAt _).bind fun _ _ => ?_
  rw [smartidConnOpenIrda]
  split
  · exact smartidConnReject_staysAt
  refine (setRecord_staysAt _).bind fun _ _ => ?_
  split
  · exact smartidConnReject_staysAt
  · exact smartidConnBuffers_staysAt failure

variable {s : ConnServer} {fd : Int}

/-- **A connection that is set up** comes first in the list, and has its resources. -/
theorem smartidConnAlloc_accepted (h : Holds as s.table) (ha : s.table.cells (.conn a) = none) :
    Triple (smartidConnAlloc a fd none) s (fun r s' => r = some a ∧ Holds (a :: as) s'.table ∧
      s'.records a = ⟨fd, false, true, true, true, false⟩) E := by
  obtain ⟨t, hrun, hholds, -⟩ := connAdd_holds h ha
  have hallocate : (allocate a).run s.table = .ok ((), (s.allocated a fd).table) := rfl
  rw [run_bind_of_ok hallocate] at hrun
  have hrecord : (setRecord a fun _ => ⟨fd, false, false, false, false, false⟩).run
      { s with table := (s.allocated a fd).table } = .ok ((), s.allocated a fd) := rfl
  have hirda : (setRecord a fun c => { c with irda := true }).run (s.allocated a fd) =
      .ok ((), s.withIrda a fd) := rfl
  have hadd : (onTable (connAdd (.conn a))).run (s.withIrda a fd) =
      .ok ((), { s.withIrda a fd with table := t }) := onTable_run hrun
  obtain ⟨s', hrun', htable, hrecord'⟩ : ∃ s', (smartidConnAlloc a fd none).run s =
      .ok (some a, s') ∧ s'.table = t ∧ s'.records a = ⟨fd, false, true, true, true, false⟩ := by
    rw [smartidConnAlloc, if_neg (by decide), run_bind_of_ok (onTable_run hallocate),
      run_bind_of_ok hrecord, smartidConnOpenIrda, if_neg (by decide), run_bind_of_ok hirda,
      if_neg (by decide), smartidConnBuffers, run_bind_of_ok hadd]
    exact ⟨_, rfl, rfl, by simp [ConnServer.withIrda, ConnServer.allocated]⟩
  exact Triple.of_run hrun' ⟨rfl, htable ▸ hholds, hrecord'⟩

end Server

/-! ### Callbacks

What each callback does, and in which cases it halts.
-/

/-- A function of the server. -/
theorem onServer_triple {x : ServM α} {Q : α → ConnServer → Prop} (hx : Triple x p.server Q E) :
    Triple (onServer x) p (fun r p' => ∃ s, Q r s ∧ p' = { p with server := s }) E := by
  cases hrun : x.run p.server with
  | ok r =>
    have hon : (onServer x).run p = .ok (r.1, { p with server := r.2 }) := by
      show onServer x p = _
      rw [onServer, hrun]
    exact Triple.of_run hon ⟨r.2, hx.result hrun, rfl⟩
  | error e =>
    have hon : (onServer x).run p = .error e := by
      show onServer x p = _
      rw [onServer, hrun]
    exact Triple.of_run_error hon (hx.halt hrun)

/-- A function of the server that returns. -/
theorem onServer_run {x : ServM α} {r : α} {s : ConnServer} (h : x.run p.server = .ok (r, s)) :
    (onServer x).run p = .ok (r, { p with server := s }) := by
  show onServer x p = _
  rw [onServer, h]

/-- A function of the server that halts. -/
theorem onServer_run_error {x : ServM α} {e : Halt} (h : x.run p.server = .error e) :
    (onServer x).run p = .error e := by
  show onServer x p = _
  rw [onServer, h]

/-- The pointer to a connection that is there can be followed. -/
theorem follow_run (ha : p.server.table.Live a) : (follow a).run p = .ok ((), p) := by
  obtain ⟨n, hn⟩ := Option.ne_none_iff_exists'.mp ha
  exact run_bind_of_ok (onServer_run (onTable_run (load_run hn)))

/-- **A connection is disposed** with its device structure, and no other. -/
theorem smartidConnDisposeIn_orderly (hlist : Holds (as ++ a :: bs) p.server.table)
    (hready : ∀ b ∈ as ++ bs, Ready b p) (hd : Devices p.devs (as ++ a :: bs) p) :
    Triple (smartidConnDisposeIn a) p
      (fun _ p' => Orderly (as ++ bs) p' ∧ Beside a p p' (as ++ a :: bs)) never := by
  obtain ⟨t, hrun, hholds, -⟩ := connDispose_holds hlist
  obtain ⟨_, t₁, hprev, hrun⟩ := run_bind_eq_ok.mp hrun
  obtain ⟨_, t₂, hnext, hrelease⟩ := run_bind_eq_ok.mp hrun
  have ha : a ∈ as ++ a :: bs := by simp
  have hgone : a ∉ as ++ bs := (List.nodup_cons.mp (List.nodup_middle.mp hlist.nodup)).1
  rw [smartidConnDisposeIn, Triple, run_bind_of_ok (onServer_run (onTable_run hprev)),
    run_bind_of_ok (onServer_run (onTable_run (s := { p.server with table := t₁ }) hnext))]
  set p₂ : Process S := { p with server := { p.server with table := t₂ } }
  have hd₂ : Devices p₂.devs (as ++ a :: bs) p₂ := hd.server _ _
  have hbeside₂ : Beside a p p₂ (as ++ a :: bs) := server_beside fun _ _ => rfl
  refine ((onConn_triple (fun _ _ _ _ => smartidConnDispose_local) hd₂
    (smartidConnDispose_spec (part_wellFormed hd₂ ha)) (fun _ h => h.elim)).mono
      (fun _ _ h => h) fun _ h => h.1).bind ?_
  rintro _ p₃ ⟨c, w', -, hc, hw, rfl⟩
  have hd₃ := devices_put hd₂ ha hw hc
  have hbeside₃ : Beside a p (put a w' p₂) (as ++ a :: bs) :=
    hbeside₂.trans fun b hb hne => spared_put hd₂ ha hb hne hw
  -- the rest is about the list and the resources
  have hfree := (connFreeResources_table a (put a w' p₂).server (E := never)).and
    ((connFreeResources_staysAt (a := a) (put a w' p₂).server).imp fun _ _ h => h.2)
  apply (onServer_triple hfree).bind
  rintro _ p₄ ⟨s, ⟨htable, helse⟩, rfl⟩
  have hrelease : (release a).run s.table = .ok ((), t) := by
    rw [htable]
    exact hrelease
  have hbeside : Beside a p { put a w' p₂ with server := { s with table := t } }
      (as ++ a :: bs) := hbeside₃.trans (server_beside helse)
  have hsame : ∀ b ∈ as ++ bs, b ≠ a ∧ b ∈ as ++ a :: bs := by
    intro b hb
    refine ⟨fun heq => hgone (heq ▸ hb), ?_⟩
    rw [List.mem_append] at hb ⊢
    exact hb.imp_right (List.mem_cons_of_mem a)
  refine Triple.of_run (onServer_run (onTable_run hrelease)) ⟨⟨hholds, ?_, ?_⟩, hbeside⟩
  · intro b hb
    obtain ⟨hne, hb'⟩ := hsame b hb
    exact (hbeside b hb' hne).ready (hready b hb)
  · refine (hd₃.congr fun b h => ?_).server _ _
    by_cases hba : b = a
    · subst hba
      rw [Function.update_self]
      exact iff_of_false (by simp) fun h => hgone h.1
    · rw [Function.update_of_ne hba]
      have hdev : (put a w' p₂).devs b = p₂.devs b := by
        rw [Process.devs, put]
        dsimp only
        rw [Function.update_of_ne hba]
        rfl
      show _ ↔ _ ∧ (put a w' p₂).devs b = some h
      rw [hdev]
      simp [hba]

section WithClient

variable {f : ConnClient → ConnClient}

@[simp] theorem withClient_self : (withClient a f p).clients a = f (p.clients a) :=
  Function.update_self ..

/-- A client whose buffers change keeps its device. -/
theorem withClient_devs (hf : ∀ c, (f c).dev = c.dev) : (withClient a f p).devs = p.devs := by
  funext b
  by_cases hba : b = a
  · subst hba
    rw [Process.devs, Process.devs, withClient_self, hf]
  · exact congrArg ConnClient.dev (Function.update_of_ne hba ..)

/-- Buffers are no devices. -/
theorem Devices.withClient (hd : Devices p.devs as p) (hf : ∀ c, (f c).dev = c.dev) :
    Devices (withClient a f p).devs as (withClient a f p) := by
  rw [withClient_devs hf]
  exact hd.server _ _

/-- Nor are they anything else that is kept in order. -/
theorem Orderly.withClient (h : Orderly as p) (hf : ∀ c, (f c).dev = c.dev) :
    Orderly as (withClient a f p) := by
  refine ⟨h.list, fun b hb => ?_, h.devices.withClient hf⟩
  have hready := h.ready b hb
  refine ⟨hready.irda, hready.shutdown, ?_⟩
  rw [withClient_devs hf]
  exact hready.dev

end WithClient

/-- The greeting is put into the output, and nothing else changes. -/
theorem sendReady_run (c : Conn S) :
    smartidConnSendReady.run c = .ok ((), { c with out := c.out ++ greeting }) := rfl

/-- **A program that keeps its connection well formed keeps the process in order.** -/
theorem orderly_put {c w' : Conn S} (h : Orderly as p) (ha : a ∈ as)
    (hw : InFrame (p.others a) p.next (p.part a).events p.events c w') (hc : WellFormed c) :
    Orderly as (put a w' p) ∧ Beside a p (put a w' p) as := by
  have hbeside : Beside a p (put a w' p) as := fun b hb hne => spared_put h.devices ha hb hne hw
  have hdevs : (put a w' p).devs = Function.update p.devs a c.dev := by
    funext b
    by_cases hba : b = a
    · subst hba
      simp [Process.devs, put, hw.dev]
    · simp [Process.devs, put, hba]
  refine ⟨⟨h.list, fun b hb => ?_, ?_⟩, hbeside⟩
  · by_cases hba : b = a
    · subst hba
      have hready := h.ready b hb
      refine ⟨?_, ?_, ?_⟩
      · simpa [put] using hready.irda
      · simpa [put] using hready.shutdown
      · simp [put, Process.devs]
    · exact (hbeside b hb hba).ready (h.ready b hb)
  · rw [hdevs]
    exact devices_put h.devices ha hw hc

/-- A new connection has no device. -/
theorem orderly_blank {s : ConnServer} {fd : Int} (h : Orderly as p)
    (ha : p.server.table.cells (.conn a) = none) (hholds : Holds (a :: as) s.table)
    (hrecord : s.records a = ⟨fd, false, true, true, true, false⟩)
    (helse : Elsewhere a p.server s) :
    Orderly (a :: as) (withClient a (fun _ => ConnClient.blank) { p with server := s }) ∧
      Beside a p (withClient a (fun _ => ConnClient.blank) { p with server := s }) as := by
  have hnot : a ∉ as := fun hmem => (h.list.live a).mp hmem ha
  have hbeside : Beside a p (withClient a (fun _ => ConnClient.blank) { p with server := s }) as :=
    (server_beside helse).trans (withClient_beside _)
  have hdev : (withClient a (fun _ => ConnClient.blank) { p with server := s }).devs a = none :=
    congrArg ConnClient.dev withClient_self
  refine ⟨⟨hholds, ?_, ?_⟩, hbeside⟩
  · intro b hb
    rcases List.mem_cons.mp hb with rfl | hb
    · refine ⟨?_, ?_, ?_⟩
      · exact congrArg ConnRecord.irda hrecord
      · exact congrArg ConnRecord.shutdown hrecord
      · rw [hdev]
        exact congrArg ConnRecord.dev hrecord
    · exact (hbeside b hb fun heq => hnot (heq ▸ hb)).ready (h.ready b hb)
  · refine (h.devices.congr fun b k => ?_).server s _
    by_cases hba : b = a
    · subst hba
      rw [hdev]
      exact iff_of_false (fun h => hnot h.1) (by simp)
    · have hother : (withClient a (fun _ => ConnClient.blank) { p with server := s }).devs b =
          p.devs b := congrArg ConnClient.dev (Function.update_of_ne hba ..)
      rw [hother]
      simp [hba]

/-- **A connection that is set up** comes first, without a device, and is greeted. -/
theorem servConnectIn_accepted {fd : Int} (h : Orderly as p)
    (ha : p.server.table.cells (.conn a) = none) (hfd : 0 ≤ fd) :
    Triple (servConnectIn fd true a none) p (fun _ p' => Orderly (a :: as) p' ∧
      Beside a p p' as ∧ p'.clients a = ⟨none, [], [], greeting⟩) never := by
  have haccepted : Triple (smartidConnAlloc a fd none) p.server (fun r s => r = some a ∧
      Holds (a :: as) s.table ∧ s.records a = ⟨fd, false, true, true, true, false⟩) never :=
    smartidConnAlloc_accepted h.list ha
  have halloc := haccepted.and ((smartidConnAlloc_staysAt fd none p.server).imp fun _ _ h => h.2)
  rw [servConnectIn, if_neg (by omega), if_neg (by decide)]
  apply (onServer_triple halloc).bind
  rintro _ _ ⟨s, ⟨⟨rfl, hholds, hrecord⟩, helse⟩, rfl⟩
  obtain ⟨horderly, hbeside⟩ := orderly_blank h ha hholds hrecord helse
  set p₁ := withClient a (fun _ => ConnClient.blank) { p with server := s }
  have hclient₁ : p₁.clients a = ConnClient.blank := withClient_self
  -- the greeting goes into the empty output buffer
  have hgreet : Triple smartidConnSendReady (p₁.part a)
      (fun _ c => c = { p₁.part a with out := (p₁.part a).out ++ greeting }) never :=
    Triple.of_run (sendReady_run _) rfl
  refine Triple.of_run_eq (show _ = (smartidConnGreet a).run p₁ from rfl) ?_
  refine ((onConn_triple (fun _ _ _ _ => sendResponsef_local _ _) horderly.devices hgreet
    fun _ h => h.elim).mono (fun _ _ h => h) fun _ h => h.1).bind ?_
  rintro _ _ ⟨_, w', -, rfl, hw, rfl⟩
  have hpart := part_wellFormed horderly.devices (List.mem_cons_self (a := a) (l := as))
  obtain ⟨horderly', hbeside'⟩ := orderly_put horderly List.mem_cons_self hw
    ⟨hpart.sound, hpart.live, hpart.heap, hpart.fresh⟩
  refine Triple.of_run rfl ⟨horderly'.withClient fun _ => rfl, ?_, ?_⟩
  · exact (hbeside.trans fun b hb => hbeside' b (List.mem_cons_of_mem a hb)).trans
      (withClient_beside _)
  · rw [withClient_self]
    simp only [put, Function.update_self, hw.dev, hw.out, Process.part, hclient₁]
    rfl

/-- **A connection that fails behind the list** leaves the process as it was. -/
theorem servConnectIn_rejected {fd : Int} {failure : ConnFailure} (h : Orderly as p)
    (ha : p.server.table.cells (.conn a) = none) (hfd : 0 ≤ fd)
    (hfailure : failure ≠ .irdaOpen ∧ failure ≠ .irdaTimeout) :
    Triple (servConnectIn fd true a (some failure)) p
      (fun _ p' => Orderly as p' ∧ Beside a p p' as) never := by
  have hnot : ∀ b ∈ as, b ≠ a := by
    rintro b hb rfl
    exact (h.list.live b).mp hb ha
  have halloc : Triple (smartidConnAlloc a fd (some failure)) p.server
      (fun r s => r = none ∧ Holds as s.table) never := by
    by_cases hmemory : failure = .memory
    · rw [smartidConnAlloc, if_pos (congrArg some hmemory)]
      exact Triple.pure ⟨rfl, h.list⟩
    · refine (smartidConnAlloc_listed h.list ha (by omega) ?_).imp fun _ _ h => ⟨h.1, h.2.1⟩
      cases failure with
      | memory => exact absurd rfl hmemory
      | irdaOpen => exact absurd rfl hfailure.1
      | irdaTimeout => exact absurd rfl hfailure.2
      | bufferevent => exact .inl rfl
      | enable => exact .inr (.inl rfl)
      | output => exact .inr (.inr rfl)
  rw [servConnectIn, if_neg (by omega), if_neg (by decide)]
  refine (onServer_triple (halloc.and
    ((smartidConnAlloc_staysAt fd (some failure) p.server).imp fun _ _ h => h.2))).bind ?_
  rintro _ p₁ ⟨s, ⟨⟨rfl, hholds⟩, helse⟩, rfl⟩
  have hbeside : ∀ e, Beside a p { p with server := { s with events := s.events ++ [e] } } as :=
    fun e => server_beside helse
  refine Triple.of_run rfl ⟨⟨hholds, ?_, h.devices.server _ _⟩, hbeside _⟩
  intro b hb
  exact (hbeside (.close fd) b hb (hnot b hb)).ready (h.ready b hb)

/-- **One that fails before the list** brings the daemon down. -/
theorem servConnectIn_dangling {fd : Int} {failure : ConnFailure} (hfd : 0 ≤ fd)
    (hfailure : failure = .irdaOpen ∨ failure = .irdaTimeout) :
    (servConnectIn fd true a (some failure)).run p = .error .dangling := by
  rw [servConnectIn, if_neg (by omega), if_neg (by decide)]
  exact run_bind_of_error (onServer_run_error (smartidConnAlloc_irda hfailure))

/-- The lines of the input buffer are command lines. -/
theorem evbufferReadln_commandLine {input line rest : Text}
    (h : evbufferReadln input = some (line, rest)) : ∀ c ∈ line, c ≠ '\n' ∧ c ≠ '\r' := by
  rw [evbufferReadln] at h
  split at h
  · cases h
  · cases h
    intro c hc
    have heol := List.mem_takeWhile_imp hc
    simp only [isEol, Bool.not_eq_true', decide_eq_false_iff_not, not_or] at heol
    exact heol

/-- What the daemon behind one connection has come to, with the text it sends. -/
structure ServedAlone (a : Nat) (p : Process S) (l : Server S × Text) (p' : Process S) : Prop where
  conn : ∃ c, l.1.conn = some c ∧ p'.devs a = c.dev ∧ p'.world = c.world ∧
    ∀ h, c.dev = some h → p'.heap h = c.heap h
  client : p'.clients a = ⟨p'.devs a, [], l.1.input, (p.clients a).sent ++ l.2⟩

/-- **A connection is served as if it were alone**: when input arrives, the daemon does for it
what the daemon behind one connection does with the part of the process that belongs to it, and
leaves all other connections as they are. -/
theorem connReadIn_spec {W : Nat → Irda S} {fuel : Nat} (h : Orderly as p) (ha : a ∈ as)
    (bytes : Text) :
    Triple (connReadIn W fuel a bytes) p
      (fun _ p' => Orderly as p' ∧ Beside a p p' as ∧
        ServedAlone a p (connRead (W a) fuel ⟨some (p.part a), (p.clients a).input⟩ bytes) p')
      fun e => e ≠ .dangling ∧
        (connRead (W a) fuel ⟨some (p.part a), (p.clients a).input⟩ bytes).1.conn = none := by
  have hlive : p.server.table.Live a := (h.list.live a).mp ha
  apply Triple.of_run_eq (run_bind_of_ok (follow_run hlive))
  let p₁ : Process S := withClient a (fun c => { c with input := c.input ++ bytes }) p
  have horderly₁ : Orderly as p₁ := h.withClient fun _ => rfl
  have hclient₁ : p₁.clients a = { p.clients a with input := (p.clients a).input ++ bytes } :=
    withClient_self
  apply Triple.of_run_eq (show _ = (connReadLine W fuel a p₁).run p₁ from rfl)
  have hshutdown : ¬(p₁.server.records a).shutdown = true := by
    show ¬(p.server.records a).shutdown = true
    rw [(h.ready a ha).shutdown]
    decide
  rw [connReadLine, if_neg hshutdown, hclient₁]
  cases hline : evbufferReadln ((p.clients a).input ++ bytes) with
  | none =>
    have hread : connRead (W a) fuel ⟨some (p.part a), (p.clients a).input⟩ bytes =
        (⟨some { p.part a with out := [] }, (p.clients a).input ++ bytes⟩, (p.clients a).out) := by
      simp only [connRead, hline]
      rfl
    rw [hread]
    refine Triple.of_run rfl ⟨horderly₁.withClient fun _ => rfl,
      (withClient_beside _).trans (withClient_beside _), ⟨⟨_, rfl, ?_, rfl, ?_⟩, ?_⟩⟩
    · rw [Process.devs, withClient_self, hclient₁]
      rfl
    · intro k hk
      exact (if_pos hk).symm
    · rw [Process.devs, withClient_self, hclient₁]
  | some r =>
    obtain ⟨line, rest⟩ := r
    let p₂ : Process S := withClient a (fun c => { c with input := rest }) p₁
    have horderly₂ : Orderly as p₂ := horderly₁.withClient fun _ => rfl
    have hclient₂ : p₂.clients a = { p.clients a with input := rest } := by
      rw [withClient_self, hclient₁]
    have hpart₂ : p₂.part a = p.part a := by
      simp only [Process.part, hclient₂]
      rfl
    have hcommand := evbufferReadln_commandLine hline
    have hread : connRead (W a) fuel ⟨some (p.part a), (p.clients a).input⟩ bytes = _ :=
      connRead_of_readln hline
    have hprocess := smartidCmdProcess_wellFormed (W := W a)
      (part_wellFormed horderly₂.devices ha) fuel ⟨line, hcommand⟩
    refine Triple.of_run_eq (show _ = (onConn a (smartidCmdProcess (W a) fuel line) >>= fun _ =>
      smartidConnFlush a).run p₂ from rfl) ?_
    refine ((onConn_triple (fun _ _ _ _ => smartidCmdProcess_local fuel line) horderly₂.devices
      hprocess fun _ h => h).mono (fun _ _ h => h) ?_).bind ?_
    · rintro e ⟨hne, herror⟩
      rw [hpart₂] at herror
      refine ⟨hne, ?_⟩
      rw [hread, herror]
    · rintro _ p₃ ⟨c, w', hrun, hc, hw, rfl⟩
      rw [hpart₂] at hrun
      rw [hread, hrun]
      have hbeside₂ : Beside a p p₂ as := (withClient_beside _).trans (withClient_beside _)
      obtain ⟨horderly₃, hbeside₃⟩ := orderly_put horderly₂ ha hw hc
      refine Triple.of_run rfl ⟨horderly₃.withClient fun _ => rfl,
        (hbeside₂.trans hbeside₃).trans (withClient_beside _), ⟨⟨_, rfl, ?_, ?_, ?_⟩, ?_⟩⟩
      · rw [Process.devs, withClient_self]
        simp [put, hw.dev]
      · exact hw.world
      · intro k hk
        have hsome : (c.heap k).isSome := (hc.heap k).mpr hk
        have hF : p₂.others a k = none := by
          by_contra hF
          rw [(hw.apart k hF).1] at hsome
          cases hsome
        show w'.heap k = c.heap k
        rw [hw.heap, hF, Option.none_or]
      · rw [Process.devs, withClient_self]
        simp [put, hw.out, hclient₂]

/-- The connection goes away, or the event is none of those that end it. -/
theorem connEventIn_spec (h : Orderly as p) (ha : a ∈ as) (err : BevFlags) :
    Triple (connEventIn a err) p (fun _ p' => Beside a p p' as ∧
      (p' = p ∨ ∃ front back, as = front ++ a :: back ∧ Orderly (front ++ back) p')) never := by
  obtain ⟨front, back, rfl⟩ := List.append_of_mem ha
  have hlive : p.server.table.Live a := (h.list.live a).mp ha
  have hothers : ∀ b ∈ front ++ back, b ∈ front ++ a :: back ∧ b ≠ a := by
    intro b hb
    have hgone := (List.nodup_cons.mp (List.nodup_middle.mp h.list.nodup)).1
    refine ⟨?_, fun heq => hgone (heq ▸ hb)⟩
    rw [List.mem_append] at hb ⊢
    exact hb.imp_right (List.mem_cons_of_mem a)
  have hdispose : Triple (smartidConnDisposeIn a) p (fun _ p' =>
      Beside a p p' (front ++ a :: back) ∧ (p' = p ∨ ∃ front' back',
        front ++ a :: back = front' ++ a :: back' ∧ Orderly (front' ++ back') p')) never := by
    refine (smartidConnDisposeIn_orderly h.list (fun b hb => h.ready b (hothers b hb).1)
      h.devices).imp ?_
    rintro _ p' ⟨horderly, hbeside⟩
    exact ⟨hbeside, .inr ⟨front, back, rfl, horderly⟩⟩
  apply Triple.of_run_eq (run_bind_of_ok (follow_run hlive))
  by_cases heof : err.eof = true
  · -- the connection is marked before it is disposed
    rw [if_pos heof]
    have hmark : Triple (setRecord a fun c => { c with shutdown := true }) p.server
        (fun _ s => Elsewhere a p.server s ∧ s.table = p.server.table) never :=
      Triple.modify ⟨fun _ hb => Function.update_of_ne hb .., rfl⟩
    apply (onServer_triple hmark).bind
    rintro _ _ ⟨s, ⟨helse, htable⟩, rfl⟩
    have hbeside : Beside a p { p with server := s } (front ++ a :: back) := server_beside helse
    have hlist : Holds (front ++ a :: back) s.table := by
      rw [htable]
      exact h.list
    have hready : ∀ b ∈ front ++ back, Ready b { p with server := s } := fun b hb =>
      (hbeside b (hothers b hb).1 (hothers b hb).2).ready (h.ready b (hothers b hb).1)
    apply (smartidConnDisposeIn_orderly hlist hready (h.devices.server s _)).imp
    rintro _ p' ⟨horderly, hbeside'⟩
    exact ⟨hbeside.trans hbeside', .inr ⟨front, back, rfl, horderly⟩⟩
  rw [if_neg heof]
  by_cases htimeout : err.timeout = true
  · rw [if_pos htimeout]
    exact hdispose
  rw [if_neg htimeout]
  by_cases herror : err.error = true
  · rw [if_pos herror]
    exact hdispose
  · rw [if_neg herror]
    exact Triple.pure ⟨fun b _ _ => Spared.refl b p, .inl rfl⟩

/-! ### Runs

An event keeps the process in order, and so does a run.
-/

/-- The connection that an event is about. -/
def DaemonEvent.about : DaemonEvent S → Option Nat
  | connect _ _ a _ => some a
  | read a _ => some a
  | event a _ => some a
  | idle _ => none

/-- A connection whose IrDA socket cannot be set up. -/
def DaemonEvent.Broken (ev : DaemonEvent S) : Prop :=
  ∃ fd a failure, 0 ≤ fd ∧ (failure = .irdaOpen ∨ failure = .irdaTimeout) ∧
    ev = connect fd true a (some failure)

/-- A connection at `a` is set up. -/
def DaemonEvent.Accepts (a : Nat) (ev : DaemonEvent S) : Prop :=
  ∃ fd, 0 ≤ fd ∧ ev = connect fd true a none

variable {W : Nat → Irda S} {fuel : Nat} {w : S} {es : List (DaemonEvent S)} {ev : DaemonEvent S}

/-- The other connections are spared. -/
theorem Beside.about (h : Beside a p p' as) (hev : ev.about = some a) :
    ∀ b ∈ as, ev.about ≠ some b → Spared b p p' := by
  intro b hb hne
  apply h b hb
  rintro rfl
  exact hne hev

/-- **One event**: the process stays in order, the connections that the event is not about are
spared, and only a connection without an IrDA socket brings a null pointer up. -/
theorem handle_orderly (h : Orderly as p) (hev : ev.Possible p) :
    Triple (ev.handle W fuel) p
      (fun _ p' => (∃ as', Orderly as' p' ∧ ∀ b ∈ as', b ∈ as ∨ ev.Accepts b) ∧
        ∀ b ∈ as, ev.about ≠ some b → Spared b p p')
      fun e => e = .dangling → ev.Broken := by
  have hsame : ∀ b ∈ as, b ∈ as ∨ ev.Accepts b := fun _ hb => .inl hb
  have hnever : ∀ {P : Prop} e, never e → (e = Halt.dangling → P) := fun _ h => h.elim
  cases ev with
  | connect fd nonblocking a failure =>
    rw [DaemonEvent.handle]
    by_cases hfd : fd < 0
    · rw [servConnectIn, if_pos hfd]
      exact Triple.pure ⟨⟨as, h, hsame⟩, fun b _ _ => Spared.refl b p⟩
    cases nonblocking with
    | false =>
      rw [servConnectIn, if_neg hfd, if_pos (by decide)]
      refine Triple.of_run rfl ⟨⟨as, ⟨h.list, fun b hb => ?_, h.devices.server _ _⟩, hsame⟩,
        fun b _ _ => ⟨rfl, rfl, fun _ _ => rfl⟩⟩
      exact ⟨(h.ready b hb).irda, (h.ready b hb).shutdown, (h.ready b hb).dev⟩
    | true =>
      have hfd : 0 ≤ fd := not_lt.mp hfd
      cases failure with
      | none =>
        refine (servConnectIn_accepted h hev hfd).mono ?_ hnever
        rintro _ p' ⟨horderly, hbeside, -⟩
        refine ⟨⟨a :: as, horderly, fun b hb => ?_⟩, hbeside.about rfl⟩
        rcases List.mem_cons.mp hb with rfl | hb
        · exact .inr ⟨fd, hfd, rfl⟩
        · exact .inl hb
      | some failure =>
        by_cases hirda : failure = .irdaOpen ∨ failure = .irdaTimeout
        · exact Triple.of_run_error (servConnectIn_dangling hfd hirda)
            fun _ => ⟨fd, a, failure, hfd, hirda, rfl⟩
        · refine (servConnectIn_rejected h hev hfd (not_or.mp hirda)).mono ?_ hnever
          rintro _ p' ⟨horderly, hbeside⟩
          exact ⟨⟨as, horderly, hsame⟩, hbeside.about rfl⟩
  | read a bytes =>
    refine (connReadIn_spec h ((h.list.live a).mpr hev) bytes).mono ?_ ?_
    · rintro _ p' ⟨horderly, hbeside, -⟩
      exact ⟨⟨as, horderly, hsame⟩, hbeside.about rfl⟩
    · rintro e ⟨hne, -⟩ heq
      exact absurd heq hne
  | event a err =>
    refine (connEventIn_spec h ((h.list.live a).mpr hev) err).mono ?_ hnever
    rintro _ p' ⟨hbeside, hrest⟩
    refine ⟨?_, hbeside.about rfl⟩
    rcases hrest with rfl | ⟨front, back, rfl, horderly⟩
    · exact ⟨as, h, hsame⟩
    · refine ⟨front ++ back, horderly, fun b hb => hsame b ?_⟩
      rw [List.mem_append] at hb ⊢
      exact hb.imp_right (List.mem_cons_of_mem a)
  | idle w =>
    refine Triple.modify ⟨⟨as, ⟨h.list, fun b hb => ?_, ?_⟩, hsame⟩,
      fun b _ _ => ⟨rfl, rfl, fun _ _ => rfl⟩⟩
    · exact ⟨(h.ready b hb).irda, (h.ready b hb).shutdown, (h.ready b hb).dev⟩
    · exact ⟨h.devices.sound, h.devices.live, h.devices.heap, h.devices.fresh, h.devices.apart⟩

/-- A process that starts is in order. -/
theorem orderly_start (w : S) : Orderly [] (Process.start w) where
  list := holds_start
  ready _ ha := nomatch ha
  devices := by
    refine ⟨.nil, fun h => ?_, fun h => ?_, by rintro _ ⟨⟩, by rintro _ ⟨⟩⟩
    · exact iff_of_false (not_live_nil h) (by simp)
    · exact iff_of_false (by simp [Process.start]) (not_live_nil h)

/-- **Every run keeps the process in order.** -/
theorem DaemonReaches.orderly (h : DaemonReaches W fuel w es p) : ∃ as, Orderly as p := by
  induction h with
  | start => exact ⟨[], orderly_start w⟩
  | step _ hev hrun ih =>
    obtain ⟨as, horderly⟩ := ih
    obtain ⟨⟨as', horderly', -⟩, -⟩ := (handle_orderly horderly hev).result hrun
    exact ⟨as', horderly'⟩

/-- **The cleanup disposes every connection**, whatever is left in the list; more passes than
there are connections change nothing. -/
theorem smartidConnCleanup_orderly (h : Orderly as p) :
    ∃ p', Orderly [] p' ∧ ∀ passes, as.length < passes →
      (smartidConnCleanup passes).run p = .ok ((), p') := by
  induction as generalizing p with
  | nil =>
    obtain ⟨n, hn, hnext⟩ : HasNext p.server.table.cells .head none := h.list.linked
    refine ⟨p, h, fun passes hpasses => ?_⟩
    obtain ⟨k, rfl⟩ := Nat.exists_eq_add_of_lt hpasses
    rw [smartidConnCleanup, run_bind_of_ok (onServer_run (onTable_run (load_run hn))), hnext]
    rfl
  | cons a as ih =>
    obtain ⟨n, hn, hnext⟩ := h.list.linked.1
    have hlist : Holds ([] ++ a :: as) p.server.table := h.list
    have hready : ∀ b ∈ [] ++ as, Ready b p := fun b hb => h.ready b (List.mem_cons_of_mem a hb)
    obtain ⟨_, p₁, hrun₁, horderly₁, -⟩ :=
      (smartidConnDisposeIn_orderly hlist hready h.devices).exists_run
    obtain ⟨p', horderly', hrun'⟩ := ih horderly₁
    refine ⟨p', horderly', fun passes hpasses => ?_⟩
    obtain ⟨k, rfl⟩ := Nat.exists_eq_add_of_lt hpasses
    rw [smartidConnCleanup, run_bind_of_ok (onServer_run (onTable_run (load_run hn))), hnext]
    refine (run_bind_of_ok hrun₁).trans (hrun' _ ?_)
    rw [List.length_cons]
    omega

/-- **The device structures of the daemon**, in every run: they are in order, each of them with
one connection.  A null or dangling pointer is followed by no event but a connection whose IrDA
socket cannot be set up.  And `smartid_conn_cleanup` ends: no connection is left, every structure
has been disposed exactly once, and none has been used after that. -/
theorem daemon_handles (h : DaemonReaches W fuel w es p) :
    (∃ as, Orderly as p) ∧
    (∀ ev : DaemonEvent S, ev.Possible p →
      ((ev.handle W fuel).run p = .error .dangling ↔ ev.Broken)) ∧
    ∃ passes p', (smartidConnCleanup passes).run p = .ok ((), p') ∧
      (∀ a, ¬p'.server.table.Live a) ∧
      (∀ h, .alloc h ∈ p'.events → p'.events.count (.dispose h) = 1) ∧
      ∀ pre h post, p'.events = pre ++ .use h :: post → .dispose h ∉ pre := by
  obtain ⟨as, horderly⟩ := h.orderly
  refine ⟨⟨as, horderly⟩, fun ev hev => ⟨?_, ?_⟩, ?_⟩
  · exact fun hrun => (handle_orderly horderly hev).halt hrun rfl
  · rintro ⟨fd, a, failure, hfd, hfailure, rfl⟩
    exact servConnectIn_dangling hfd hfailure
  · obtain ⟨p', hempty, hrun⟩ := smartidConnCleanup_orderly horderly
    refine ⟨as.length + 1, p', hrun _ (Nat.lt_succ_self _), fun a ha => ?_, fun k halloc => ?_,
      fun pre k post hsplit => ?_⟩
    · cases (hempty.list.live a).mpr ha
    · refine hempty.devices.sound.count_dispose halloc fun hlive => ?_
      obtain ⟨a, ha, -⟩ := (hempty.devices.live k).mp hlive
      cases ha
    · exact (hempty.devices.sound.live_of_use hsplit).2

/-! ### Two clients

Two connections, each with a device that it has opened.
-/

/-- The process behind a callback. -/
def processAfter (m : ProcM S Unit) (p : Process S) : Process S :=
  match m.run p with
  | .ok (_, p) => p
  | .error _ => p

/-- A function that returns has a process behind it. -/
theorem run_processAfter {m : ProcM S Unit} (h : (m.run p).isOk) :
    m.run p = .ok ((), processAfter m p) := by
  rw [processAfter]
  cases hrun : m.run p with
  | error e =>
    rw [hrun] at h
    cases h
  | ok r => rfl

/-- Sockets behind which a device answers every command with ones. -/
def liveIrda : Irda Unit := answeringIrda fun n => .done (List.replicate n 1)

/-- The process behind the events `es`. -/
def processBehind (es : List (DaemonEvent Unit)) : Process Unit :=
  es.foldl (fun p ev => processAfter (ev.handle (fun _ => liveIrda) 0) p) (Process.start ())

/-- Two clients connect, and both of them open the device. -/
def twoOpens : List (DaemonEvent Unit) :=
  [.connect 5 true 1 none, .connect 6 true 2 none, .read 1 "OPEN 1\n".toList,
    .read 2 "OPEN 1\n".toList]

/-- The process with both of them. -/
def twoClients : Process Unit := processBehind twoOpens

theorem processBehind_reached {es : List (DaemonEvent Unit)} (ev : DaemonEvent Unit)
    (h : DaemonReaches (fun _ => liveIrda) 0 () es (processBehind es))
    (hev : ev.Possible (processBehind es))
    (hrun : ((ev.handle (fun _ => liveIrda) 0).run (processBehind es)).isOk) :
    DaemonReaches (fun _ => liveIrda) 0 () (es ++ [ev]) (processBehind (es ++ [ev])) := by
  have hbehind : processBehind (es ++ [ev]) =
      processAfter (ev.handle (fun _ => liveIrda) 0) (processBehind es) := by
    simp [processBehind]
  rw [hbehind]
  exact h.step hev (run_processAfter hrun)

/-- It is reached from the start. -/
theorem twoClients_reached : DaemonReaches (fun _ => liveIrda) 0 () twoOpens twoClients := by
  have hstart : DaemonReaches (fun _ => liveIrda) 0 () [] (processBehind []) := .start
  have hone := processBehind_reached (.connect 5 true 1 none) hstart rfl rfl
  have htwo := processBehind_reached (.connect 6 true 2 none) hone rfl rfl
  have hfirst := processBehind_reached (.read 1 "OPEN 1\n".toList) htwo
    (by rintro ⟨⟩) (by decide +kernel)
  exact processBehind_reached (.read 2 "OPEN 1\n".toList) hfirst
    (by rintro ⟨⟩) (by decide +kernel)

/-- Each of the two has a device structure of its own. -/
example : (twoClients.devs 1, twoClients.devs 2) = (some 0, some 1) := by decide +kernel

/-- Each of them has a device of its own. -/
theorem daemon_handles_two :
    (∃ as, Orderly as twoClients) ∧
    (∀ ev : DaemonEvent Unit, ev.Possible twoClients →
      ((ev.handle (fun _ => liveIrda) 0).run twoClients = .error .dangling ↔ ev.Broken)) ∧
    ∃ passes p', (smartidConnCleanup passes).run twoClients = .ok ((), p') ∧
      (∀ a, ¬p'.server.table.Live a) ∧
      (∀ h, .alloc h ∈ p'.events → p'.events.count (.dispose h) = 1) ∧
      ∀ pre h post, p'.events = pre ++ .use h :: post → .dispose h ∉ pre :=
  daemon_handles twoClients_reached

end BenthosDc

/-
BenthosDc/UddfTree.lean

The pointers of the UDDF formatter build the document.

All callbacks work on nodes to which the formatter holds a pointer (`UddfFmtData.Held`), so
that what it has let go is finished.  Inside a dive `InProgress` says what stands below the
pointers: the nodes around the dives with the groups so far (`Outline`), and the dive with one
node for each of its places (`Sketch`).  The prolog starts this state, each token adds to it,
and the epilog lets the dive go.  So the closed document is `uddfDocument`
(`uddfClose_document`).
-/
import BenthosDc.UddfDocument

namespace BenthosDc

open CString XmlHeap

variable {f f' : UddfFmtData} {held held' : NodeId → Prop} {gen c : Element}
variable {gs : List UddfGroup} {extra : List NodeId} {n p : Nat} {σ : UddfSlot}
variable {name content id : Text}
variable {leaves : UddfSlot → List Element} {closed : List (List Element)} {tanks : List Nat}

/-! ### The pointers

The formatter holds few pointers, and a node is written only while one of them leads to it.
-/

/-- The node that takes the leaves of a place. -/
def UddfFmtData.slot (f : UddfFmtData) : UddfSlot → Option NodeId
  | .appdata => f.appdata
  | .before => f.before
  | .after => f.after
  | .waypoint => f.curWaypoint
  | .tank i => f.tankNode i

/-- A pointer leads to a node around the dives. -/
def UddfFmtData.Outer (f : UddfFmtData) (i : NodeId) : Prop :=
  f.root = i ∨ f.gasdef = some i ∨ f.profiles = some i ∨ f.repgrp = some i

/-- A pointer of the formatter leads to the node. -/
def UddfFmtData.Held (f : UddfFmtData) (i : NodeId) : Prop :=
  f.Outer i ∨ f.curProfile = some i ∨ f.samples = some i ∨ ∃ σ, f.slot σ = some i

/-! ### The nodes around the dives

The nodes of the document itself have fixed places, as they are made first.
-/

/-- The repetition groups: the last one is held, and has the children `extra` behind its dives. -/
inductive GroupNodes (held : NodeId → Prop) (f : UddfFmtData) (extra : List NodeId) :
    List UddfGroup → Prop
  | none (hgroup : f.repgrp = none)
      (hdoc : Partly held f.doc 6 (.branch "profiledata".toList []) []) : GroupNodes held f extra []
  | last {done : List UddfGroup} {g : UddfGroup} {r : NodeId} (hgroup : f.repgrp = some r)
      (hdoc : Partly held f.doc 6 (.branch "profiledata".toList (done.map groupElement)) [r])
      (hdives : Partly held f.doc r (groupElement g) extra) : GroupNodes held f extra (done ++ [g])

/-- The nodes around the dives; those of the formatter itself are the first of the document. -/
structure Outline (held : NodeId → Prop) (f : UddfFmtData) (gen : Element) (gs : List UddfGroup)
    (extra : List NodeId) : Prop where
  root : f.root = 0
  gasdef : f.gasdef = some 5
  profiles : f.profiles = some 6
  behind : ∀ r : Nat, f.repgrp = some r → 6 < r
  rgid : f.rgid = gs.length
  doc : Partly held f.doc 0
    (.node "uddf".toList [] [("version".toList, "3.0.0".toList)] [gen]) [5, 6]
  gases : Partly held f.doc 5 (.branch "gasdefinitions".toList []) []
  groups : GroupNodes held f extra gs

/-- The pointers around the dives are the same. -/
structure SameOuter (f f' : UddfFmtData) : Prop where
  root : f'.root = f.root
  gasdef : f'.gasdef = f.gasdef
  profiles : f'.profiles = f.profiles
  repgrp : f'.repgrp = f.repgrp
  rgid : f'.rgid = f.rgid

/-- Which pointers lead there. -/
theorem Outline.outer_iff (h : Outline held f gen gs extra) (i : NodeId) :
    f.Outer i ↔ i = 0 ∨ i = 5 ∨ i = 6 ∨ f.repgrp = some i := by
  rw [UddfFmtData.Outer, h.root, h.gasdef, h.profiles]
  simp only [Option.some.injEq, eq_comm]

/-- They lead to nodes. -/
theorem Outline.valid (h : Outline held f gen gs extra) : Valid f.Outer f.doc := by
  intro i hi
  rcases (h.outer_iff i).mp hi with rfl | rfl | rfl | hr
  · exact h.doc.lt
  · exact h.gases.lt
  · cases h.groups with
    | none _ hdoc => exact hdoc.lt
    | last _ hdoc _ => exact hdoc.lt
  · cases h.groups with
    | none hgroup _ =>
      rw [hgroup] at hr
      cases hr
    | last hgroup _ hdives =>
      rw [hgroup] at hr
      obtain rfl := Option.some.inj hr
      exact hdives.lt

/-- The nodes around the dives stay. -/
theorem Outline.mono (h : Outline held f gen gs extra) (hsame : SameOuter f f')
    (hnodes : ∀ i, f.Outer i → f'.doc[i]? = f.doc[i]?)
    (hkeep : ∀ i, i < f.doc.length → ¬held i → f'.doc[i]? = f.doc[i]?)
    (hheld : ∀ i, i < f.doc.length → held' i → held i) : Outline held' f' gen gs extra where
  root := hsame.root.trans h.root
  gasdef := hsame.gasdef.trans h.gasdef
  profiles := hsame.profiles.trans h.profiles
  behind := by
    rw [hsame.repgrp]
    exact h.behind
  rgid := hsame.rgid.trans h.rgid
  doc := h.doc.mono (hnodes 0 ((h.outer_iff 0).mpr (.inl rfl))) hkeep hheld
  gases := h.gases.mono (hnodes 5 ((h.outer_iff 5).mpr (.inr (.inl rfl)))) hkeep hheld
  groups := by
    have h6 := hnodes 6 ((h.outer_iff 6).mpr (.inr (.inr (.inl rfl))))
    cases h.groups with
    | none hgroup hdoc => exact .none (hsame.repgrp.trans hgroup) (hdoc.mono h6 hkeep hheld)
    | last hgroup hdoc hdives =>
      exact .last (hsame.repgrp.trans hgroup) (hdoc.mono h6 hkeep hheld)
        (hdives.mono (hnodes _ (.inr (.inr (.inr hgroup)))) hkeep hheld)

/-- Work on a node inside a dive. -/
theorem Outline.works (h : Outline held f gen gs extra) (hsame : SameOuter f f')
    (hw : Works held held' p f.doc f'.doc) (hp : ¬f.Outer p) : Outline held' f' gen gs extra :=
  h.mono hsame (fun i hi => hw.grows.keep i (h.valid i hi) fun heq => hp (heq ▸ hi)) hw.keep
    hw.drops

/-! ### The dive

The nodes of a dive are those from its own node on.
-/

/-- The nodes of the dive `n`, which the prolog makes one behind the other: `leaves` are the
elements in its places, `closed` its waypoints but the current one, `tanks` the tanks made. -/
structure Sketch (f : UddfFmtData) (n : Nat) (id : Text) (leaves : UddfSlot → List Element)
    (closed : List (List Element)) (tanks : List Nat) : Prop where
  profile : f.curProfile = some n
  appdata : f.appdata = some (n + 2)
  before : f.before = some (n + 3)
  after : f.after = some (n + 4)
  samples : f.samples = some (n + 5)
  dive : ∃ T, Partly f.Held f.doc n (.node "dive".toList [] [("id".toList, id)] [])
      ([n + 1, n + 3, n + 4, n + 5] ++ T) ∧
    List.Forall₂ (fun i t => f.tanks[i]? = some (some t)) tanks T
  wrapper : Partly f.Held f.doc (n + 1) (.branch "applicationdata".toList []) [n + 2]
  waypoints : Partly f.Held f.doc (n + 5)
    (.branch "samples".toList (closed.map (.branch UddfSlot.waypoint.name))) f.curWaypoint.toList
  places : ∀ σ (p : Nat), f.slot σ = some p → Partly f.Held f.doc p (.branch σ.name (leaves σ)) []
  inside : ∀ σ (p : Nat), f.slot σ = some p → n + 2 ≤ p ∧ p ≠ n + 5
  distinct : ∀ σ τ p, f.slot σ = some p → f.slot τ = some p → σ = τ
  made : ∀ i : Nat, (∃ p, f.tanks[i]? = some p) ↔ i ∈ tanks

/-- The formatter inside the dive `n`. -/
structure InProgress (f : UddfFmtData) (gen : Element) (gs : List UddfGroup) (extra : List NodeId)
    (n : Nat) (id : Text) (leaves : UddfSlot → List Element) (closed : List (List Element))
    (tanks : List Nat) : Prop where
  outline : Outline f.Held f gen gs extra
  sketch : Sketch f n id leaves closed tanks
  behind : 6 < n
  apart : ∀ r : Nat, f.repgrp = some r → r < n ∨ n + 5 < r ∧ ∀ σ, f.slot σ ≠ some r

namespace InProgress

/-- A place that has been made is held. -/
theorem held_slot (hσ : f.slot σ = some p) : f.Held p := .inr (.inr (.inr ⟨σ, hσ⟩))

/-- No pointer around the dives leads into the dive. -/
theorem outside (h : InProgress f gen gs extra n id leaves closed tanks) (hp : n ≤ p)
    (hslot : p ≤ n + 5 ∨ ∃ σ, f.slot σ = some p) : ¬f.Outer p := by
  have hn := h.behind
  rw [h.outline.outer_iff]
  rintro (rfl | rfl | rfl | hr)
  · omega
  · omega
  · omega
  · rcases h.apart p hr with hlt | ⟨hlt, hne⟩
    · omega
    · rcases hslot with hle | ⟨σ, hσ⟩
      · omega
      · exact hne σ hσ

/-- The pointers lead to nodes. -/
theorem valid (h : InProgress f gen gs extra n id leaves closed tanks) : Valid f.Held f.doc := by
  rintro i (houter | hcur | hsamples | ⟨σ, hσ⟩)
  · exact h.outline.valid i houter
  · rw [h.sketch.profile] at hcur
    obtain rfl := Option.some.inj hcur
    obtain ⟨T, hdive, -⟩ := h.sketch.dive
    exact hdive.lt
  · rw [h.sketch.samples] at hsamples
    obtain rfl := Option.some.inj hsamples
    exact h.sketch.waypoints.lt
  · exact (h.sketch.places σ i hσ).lt

/-- **A finished element for one of the places.** -/
theorem add {doc : Heap} (h : InProgress f gen gs extra n id leaves closed tanks)
    (hσ : f.slot σ = some p) (ha : Adds f.Held p c f.doc doc) :
    InProgress { f with doc := doc } gen gs extra n id
      (Function.update leaves σ (leaves σ ++ [c])) closed tanks := by
  have hw : Works f.Held f.Held p f.doc doc := ha.works (held_slot hσ)
  obtain ⟨hle, hne⟩ := h.sketch.inside σ p hσ
  have hn : n ≠ p := by omega
  have hn₁ : n + 1 ≠ p := by omega
  have hsame : SameOuter f { f with doc := doc } := ⟨rfl, rfl, rfl, rfl, rfl⟩
  refine ⟨h.outline.works hsame hw (h.outside (by omega) (.inr ⟨σ, hσ⟩)), ?_, h.behind, h.apart⟩
  obtain ⟨T, hdive, htanks⟩ := h.sketch.dive
  exact
    { profile := h.sketch.profile
      appdata := h.sketch.appdata
      before := h.sketch.before
      after := h.sketch.after
      samples := h.sketch.samples
      dive := ⟨T, hdive.works hw hn, htanks⟩
      wrapper := h.sketch.wrapper.works hw hn₁
      waypoints := h.sketch.waypoints.works hw hne.symm
      places := by
        intro τ q hτ
        by_cases heq : τ = σ
        · subst heq
          obtain rfl := Option.some.inj (hσ.symm.trans hτ)
          rw [Function.update_self]
          exact (h.sketch.places τ p hσ).adds ha (held_slot hσ)
        · rw [Function.update_of_ne heq]
          apply (h.sketch.places τ q hτ).works hw
          rintro rfl
          exact heq (h.sketch.distinct τ σ q hτ hσ)
      inside := h.sketch.inside
      distinct := h.sketch.distinct
      made := h.sketch.made }

/-- A child for one of the places. -/
theorem leaf (h : InProgress f gen gs extra n id leaves closed tanks) (hσ : f.slot σ = some p) :
    InProgress (f.leaf (f.slot σ) name content) gen gs extra n id
      (Function.update leaves σ (leaves σ ++ [.leaf name content])) closed tanks := by
  obtain ⟨ids, hnode, -⟩ := h.sketch.places σ p hσ
  rw [hσ]
  exact h.add hσ (adds_leaf hnode h.valid)

/-- Only the elements at the places matter. -/
theorem congr (h : InProgress f gen gs extra n id leaves closed tanks)
    {leaves' : UddfSlot → List Element} (hleaves : ∀ σ, leaves' σ = leaves σ) :
    InProgress f gen gs extra n id leaves' closed tanks := by
  rw [funext hleaves]
  exact h

end InProgress

/-! ### New places

A place is made by a new node with a pointer to it.
-/

/-- A new node, which is a child of `q`, takes the place `σ`. -/
structure NewPlace (f f' : UddfFmtData) (σ : UddfSlot) (q : Nat) : Prop where
  outer : SameOuter f f'
  profile : f'.curProfile = f.curProfile
  samples : f'.samples = f.samples
  slot : ∀ τ, f'.slot τ = if τ = σ then some f.doc.length else f.slot τ
  doc : f'.doc = (xmlNewChild f.doc (some q) σ.name []).1

namespace NewPlace

variable {q : Nat}

/-- The pointer that had the place is given up. -/
theorem holds (hnew : NewPlace f f' σ q) (h : InProgress f gen gs extra n id leaves closed tanks)
    {j : Nat} (hj : f'.Held j) : f.Held j ∧ f.slot σ ≠ some j ∨ j = f.doc.length := by
  have hinside : ∀ {i : Nat}, f.slot σ = some i → n + 2 ≤ i ∧ i ≠ n + 5 := h.sketch.inside σ _
  rcases hj with houter | hcur | hsamples | ⟨τ, hτ⟩
  · have hj : f.Outer j := by
      unfold UddfFmtData.Outer at houter ⊢
      rwa [hnew.outer.root, hnew.outer.gasdef, hnew.outer.profiles, hnew.outer.repgrp] at houter
    refine .inl ⟨.inl hj, fun hσ => h.outside ?_ (.inr ⟨σ, hσ⟩) hj⟩
    exact (Nat.le_add_right n 2).trans (hinside hσ).1
  · rw [hnew.profile] at hcur
    refine .inl ⟨.inr (.inl hcur), fun hσ => ?_⟩
    have hn : n = j := Option.some.inj (h.sketch.profile.symm.trans hcur)
    have hle := (hinside hσ).1
    omega
  · rw [hnew.samples] at hsamples
    refine .inl ⟨.inr (.inr (.inl hsamples)), fun hσ => ?_⟩
    have hn : n + 5 = j := Option.some.inj (h.sketch.samples.symm.trans hsamples)
    exact (hinside hσ).2 hn.symm
  · rw [hnew.slot] at hτ
    split at hτ
    · exact .inr (Option.some.inj hτ).symm
    · next hne =>
      exact .inl ⟨InProgress.held_slot hτ, fun hσ => hne (h.sketch.distinct τ σ j hτ hσ)⟩

/-- The work touches no other node. -/
theorem works (hnew : NewPlace f f' σ q) (h : InProgress f gen gs extra n id leaves closed tanks)
    (hq : f.Held q) : Works f.Held f'.Held q f.doc f'.doc := by
  rw [hnew.doc]
  exact ⟨grows_newChild, hq, fun j hj hheld =>
    ((hnew.holds h hheld).resolve_right (Nat.ne_of_lt hj)).1⟩

/-- The new place stands below its parent. -/
theorem places (hnew : NewPlace f f' σ q) (h : InProgress f gen gs extra n id leaves closed tanks)
    (hq : f.Held q) (hqn : q = n ∨ q = n + 5) (τ : UddfSlot) (p : Nat) (hτ : f'.slot τ = some p) :
    Partly f'.Held f'.doc p (.branch τ.name (Function.update leaves σ [] τ)) [] := by
  have hw := hnew.works h hq
  rw [hnew.slot] at hτ
  split at hτ
  · next heq =>
    obtain rfl := Option.some.inj hτ
    obtain ⟨m, hm⟩ : ∃ m, f.doc[q]? = some m := ⟨_, List.getElem?_eq_getElem (h.valid q hq)⟩
    rw [heq, Function.update_self, hnew.doc]
    exact partly_newChild hm
  · next hne =>
    obtain ⟨hle, hsamples⟩ := h.sketch.inside τ p hτ
    have hpq : p ≠ q := by omega
    rw [Function.update_of_ne hne]
    exact (h.sketch.places τ p hτ).works hw hpq

/-- All places stand in the dive. -/
theorem inside (hnew : NewPlace f f' σ q) (h : InProgress f gen gs extra n id leaves closed tanks)
    (τ : UddfSlot) (p : Nat) (hτ : f'.slot τ = some p) : n + 2 ≤ p ∧ p ≠ n + 5 := by
  rw [hnew.slot] at hτ
  split at hτ
  · have hlt : n + 5 < f.doc.length := h.sketch.waypoints.lt
    obtain rfl := Option.some.inj hτ
    omega
  · exact h.sketch.inside τ p hτ

/-- No node is two places. -/
theorem distinct (hnew : NewPlace f f' σ q)
    (h : InProgress f gen gs extra n id leaves closed tanks) (τ υ : UddfSlot) (p : NodeId)
    (hτ : f'.slot τ = some p) (hυ : f'.slot υ = some p) : τ = υ := by
  have hold : ∀ τ, f.slot τ ≠ some f.doc.length := fun τ hτ =>
    Nat.lt_irrefl _ (h.sketch.places τ _ hτ).lt
  rw [hnew.slot] at hτ hυ
  split at hτ
  · next hτσ =>
    obtain rfl := Option.some.inj hτ
    split at hυ
    · next hυσ => rw [hτσ, hυσ]
    · exact absurd hυ (hold υ)
  · split at hυ
    · obtain rfl := Option.some.inj hυ
      exact absurd hτ (hold τ)
    · exact h.sketch.distinct τ υ p hτ hυ

/-- The group is none of the nodes of the dive. -/
theorem apart (hnew : NewPlace f f' σ q) (h : InProgress f gen gs extra n id leaves closed tanks)
    (r : Nat) (hr : f'.repgrp = some r) : r < n ∨ n + 5 < r ∧ ∀ τ, f'.slot τ ≠ some r := by
  rw [hnew.outer.repgrp] at hr
  refine (h.apart r hr).imp_right fun hlt => ⟨hlt.1, fun τ hτ => ?_⟩
  rw [hnew.slot] at hτ
  split at hτ
  · have hr' : r < f.doc.length := h.valid r (.inl (.inr (.inr (.inr hr))))
    exact Nat.ne_of_lt hr' (Option.some.inj hτ).symm
  · exact hlt.2 τ hτ

end NewPlace

/-! ### Tanks

A tank is a place of its own for each index.
-/

/-- The formatter with a node for the tank `i`. -/
def withTank (f : UddfFmtData) (n i : Nat) : UddfFmtData := { f with
  doc := (xmlNewChild f.doc (some n) "tankdata".toList []).1
  tanks := f.tanks.insert i (some f.doc.length) }

/-- A new tank is a new place. -/
theorem withTank_newPlace (f : UddfFmtData) (n i : Nat) :
    NewPlace f (withTank f n i) (.tank i) n where
  outer := ⟨rfl, rfl, rfl, rfl, rfl⟩
  profile := rfl
  samples := rfl
  slot := by
    intro σ
    cases σ with
    | tank j =>
      show (f.tanks.insert i (some f.doc.length))[j]?.join = _
      rw [getElem?_insert_tank]
      by_cases hj : j = i
      · rw [if_pos hj, hj, if_pos rfl]
        rfl
      · rw [if_neg hj, if_neg fun heq => hj (UddfSlot.tank.inj heq)]
        rfl
    | _ => rfl
  doc := rfl

/-- The tank comes behind the others. -/
theorem InProgress.newTank {i : Nat} (h : InProgress f gen gs extra n id leaves closed tanks)
    (hi : i ∉ tanks) (hleaves : leaves (.tank i) = []) :
    InProgress (withTank f n i) gen gs extra n id leaves closed (tanks ++ [i]) := by
  have hnew := withTank_newPlace f n i
  have hq : f.Held n := .inr (.inl h.sketch.profile)
  have hw := hnew.works h hq
  obtain ⟨T, hdive, htanks⟩ := h.sketch.dive
  have hnone : f.tanks[i]? = none := by
    by_contra hsome
    obtain ⟨q, hq⟩ := Option.ne_none_iff_exists'.mp hsome
    exact hi ((h.sketch.made i).mp ⟨q, hq⟩)
  have hget : ∀ j, (withTank f n i).tanks[j]? =
      if j = i then some (some f.doc.length) else f.tanks[j]? := getElem?_insert_tank i
  have hsame : Function.update leaves (.tank i) [] = leaves := by
    rw [← hleaves, Function.update_eq_self]
  refine ⟨h.outline.works hnew.outer hw (h.outside le_rfl (.inl (Nat.le_add_right _ _))), ?_,
    h.behind, hnew.apart h⟩
  exact
    { profile := h.sketch.profile
      appdata := h.sketch.appdata
      before := h.sketch.before
      after := h.sketch.after
      samples := h.sketch.samples
      dive := by
        refine ⟨T ++ [f.doc.length], hdive.newChild hw,
          List.rel_append (htanks.imp fun j t ht => ?_) (.cons ?_ .nil)⟩
        · rw [hget, if_neg, ht]
          rintro rfl
          rw [hnone] at ht
          cases ht
        · rw [hget, if_pos rfl]
      wrapper := h.sketch.wrapper.works hw (Nat.succ_ne_self n)
      waypoints := h.sketch.waypoints.works hw (by simp)
      places := by
        rw [← hsame]
        exact hnew.places h hq (.inl rfl)
      inside := hnew.inside h
      distinct := hnew.distinct h
      made := by
        intro j
        rw [hget, List.mem_append, List.mem_singleton, ← h.sketch.made j]
        by_cases hj : j = i
        · rw [if_pos hj]
          exact iff_of_true ⟨_, rfl⟩ (.inr hj)
        · rw [if_neg hj]
          exact (or_iff_left hj).symm }

/-- A tank that has been mentioned has its node. -/
theorem Sketch.exists_tank {i : Nat} (h : Sketch f n id leaves closed tanks) (hi : i ∈ tanks) :
    ∃ p, f.tanks[i]? = some (some p) ∧ f.slot (.tank i) = some p := by
  obtain ⟨T, -, htanks⟩ := h.dive
  have hnodes : ∀ j ∈ tanks, ∃ t, f.tanks[j]? = some (some t) :=
    ((List.forall₂_and_left _ _).mp (htanks.imp fun j t ht => ⟨⟨t, ht⟩, ht⟩)).1
  obtain ⟨t, ht⟩ := hnodes i hi
  refine ⟨t, ht, ?_⟩
  show f.tanks[i]?.join = some t
  rw [ht]
  rfl

/-- **The tank of an index is there**, whether it was made now or before. -/
theorem InProgress.tank {i : Nat} (h : InProgress f gen gs extra n id leaves closed tanks)
    (hleaves : i ∉ tanks → leaves (.tank i) = []) :
    InProgress (uddfTank f i) gen gs extra n id leaves closed
        (if i ∈ tanks then tanks else tanks ++ [i]) ∧
      ∃ p, (uddfTank f i).slot (.tank i) = some p := by
  unfold uddfTank
  split
  · next hcontains =>
    have hi : i ∈ tanks := (h.sketch.made i).mp
      ⟨_, Std.TreeMap.getElem?_eq_some_getElem (Std.TreeMap.mem_iff_contains.mpr hcontains)⟩
    obtain ⟨t, -, ht⟩ := h.sketch.exists_tank hi
    exact ⟨by rwa [if_pos hi], t, ht⟩
  · next hcontains =>
    have hi : i ∉ tanks := by
      intro hi
      obtain ⟨q, hq⟩ := (h.sketch.made i).mpr hi
      rw [Std.TreeMap.getElem?_eq_none_of_contains_eq_false (Bool.eq_false_iff.mpr hcontains)] at hq
      cases hq
    have hmade : f.newChild f.curProfile "tankdata".toList [] =
        ({ f with doc := (xmlNewChild f.doc (some n) "tankdata".toList []).1 },
          some f.doc.length) := by
      rw [UddfFmtData.newChild, h.sketch.profile]
      rfl
    rw [hmade, if_neg hi]
    refine ⟨h.newTank hi (hleaves hi), f.doc.length, ?_⟩
    exact ((withTank_newPlace f n i).slot _).trans (if_pos rfl)

/-! ### Repetition groups

A new group comes behind the others, and the dive goes on beside it.
-/

/-- The pointers into the dive are the same. -/
structure SameInner (f f' : UddfFmtData) : Prop where
  profile : f'.curProfile = f.curProfile
  samples : f'.samples = f.samples
  slot : ∀ σ, f'.slot σ = f.slot σ
  tanks : f'.tanks = f.tanks

/-- The nodes of the dive stay. -/
theorem Sketch.mono (h : Sketch f n id leaves closed tanks) (hsame : SameInner f f')
    (hnodes : ∀ i : Nat, n ≤ i → (i ≤ n + 5 ∨ ∃ σ, f.slot σ = some i) → f'.doc[i]? = f.doc[i]?)
    (hkeep : ∀ i, i < f.doc.length → ¬f.Held i → f'.doc[i]? = f.doc[i]?)
    (hheld : ∀ i, i < f.doc.length → f'.Held i → f.Held i) :
    Sketch f' n id leaves closed tanks where
  profile := hsame.profile.trans h.profile
  appdata := (hsame.slot .appdata).trans h.appdata
  before := (hsame.slot .before).trans h.before
  after := (hsame.slot .after).trans h.after
  samples := hsame.samples.trans h.samples
  dive := by
    obtain ⟨T, hdive, htanks⟩ := h.dive
    rw [hsame.tanks]
    exact ⟨T, hdive.mono (hnodes n le_rfl (.inl (by omega))) hkeep hheld, htanks⟩
  wrapper := h.wrapper.mono (hnodes (n + 1) (by omega) (.inl (by omega))) hkeep hheld
  waypoints := by
    have hcur : f'.curWaypoint = f.curWaypoint := hsame.slot .waypoint
    rw [hcur]
    exact h.waypoints.mono (hnodes (n + 5) (by omega) (.inl le_rfl)) hkeep hheld
  places := by
    intro σ q hσ
    rw [hsame.slot] at hσ
    have hle := (h.inside σ q hσ).1
    exact (h.places σ q hσ).mono (hnodes q (by omega) (.inr ⟨σ, hσ⟩)) hkeep hheld
  inside := by
    intro σ
    rw [hsame.slot]
    exact h.inside σ
  distinct := by
    intro σ τ
    rw [hsame.slot, hsame.slot]
    exact h.distinct σ τ
  made := by
    rw [hsame.tanks]
    exact h.made

/-- What the formatter does to its other data. -/
theorem InProgress.samePointers (h : InProgress f gen gs extra n id leaves closed tanks)
    (houter : SameOuter f f') (hinner : SameInner f f') (hdoc : f'.doc = f.doc) :
    InProgress f' gen gs extra n id leaves closed tanks := by
  have hheld : ∀ j, f'.Held j → f.Held j := by
    rintro j ((hroot | hgas | hprofiles | hrep) | hcur | hsamples | ⟨σ, hσ⟩)
    · exact .inl (.inl (houter.root ▸ hroot))
    · exact .inl (.inr (.inl (houter.gasdef ▸ hgas)))
    · exact .inl (.inr (.inr (.inl (houter.profiles ▸ hprofiles))))
    · exact .inl (.inr (.inr (.inr (houter.repgrp ▸ hrep))))
    · exact .inr (.inl (hinner.profile ▸ hcur))
    · exact .inr (.inr (.inl (hinner.samples ▸ hsamples)))
    · exact InProgress.held_slot (hinner.slot σ ▸ hσ)
  have hnodes : ∀ i : Nat, f'.doc[i]? = f.doc[i]? := fun i => by rw [hdoc]
  refine ⟨h.outline.mono houter (fun i _ => hnodes i) (fun i _ _ => hnodes i) (fun j _ => hheld j),
    h.sketch.mono hinner (fun i _ _ => hnodes i) (fun i _ _ => hnodes i) (fun j _ => hheld j),
    h.behind, ?_⟩
  intro r hr
  rw [houter.repgrp] at hr
  exact (h.apart r hr).imp_right fun hlt => ⟨hlt.1, fun σ => by rw [hinner.slot]; exact hlt.2 σ⟩

/-- Work on a node outside the dive. -/
theorem Sketch.works (h : Sketch f n id leaves closed tanks) (hsame : SameInner f f')
    (hw : Works f.Held f'.Held p f.doc f'.doc) (hp : p < n ∨ n + 5 < p)
    (hslot : ∀ σ, f.slot σ ≠ some p) : Sketch f' n id leaves closed tanks := by
  refine h.mono hsame (fun i hle hi => ?_) hw.keep hw.drops
  have hlt : i < f.doc.length := by
    rcases hi with hi | ⟨σ, hσ⟩
    · exact Nat.lt_of_le_of_lt hi h.waypoints.lt
    · exact (h.places σ i hσ).lt
  apply hw.grows.keep i hlt
  rintro rfl
  rcases hi with hi | ⟨σ, hσ⟩
  · omega
  · exact hslot σ hσ

/-- The group so far is let go. -/
theorem InProgress.held_newGroup (h : InProgress f gen gs extra n id leaves closed tanks) {j : Nat}
    (hj : (uddfNewGroup f).Held j) : f.Held j ∧ f.repgrp ≠ some j ∨ j = f.doc.length := by
  have hslot : ∀ σ, (uddfNewGroup f).slot σ = f.slot σ := fun σ => by cases σ <;> rfl
  have hsmall : ∀ i : Nat, i ≤ 6 → f.repgrp ≠ some i := fun i hi hr =>
    absurd (h.outline.behind i hr) (Nat.not_lt.mpr hi)
  have hinside : ∀ i : Nat, n ≤ i → (i ≤ n + 5 ∨ ∃ σ, f.slot σ = some i) → f.repgrp ≠ some i :=
    fun i hi hi' hr => h.outside hi hi' (.inr (.inr (.inr hr)))
  rcases hj with (hroot | hgas | hprofiles | hrep) | hcur | hsamples | ⟨σ, hσ⟩
  · refine .inl ⟨.inl (.inl hroot), hsmall j ?_⟩
    have h0 : (0 : Nat) = j := h.outline.root.symm.trans hroot
    omega
  · refine .inl ⟨.inl (.inr (.inl hgas)), hsmall j ?_⟩
    have h5 : (5 : Nat) = j := Option.some.inj (h.outline.gasdef.symm.trans hgas)
    omega
  · refine .inl ⟨.inl (.inr (.inr (.inl hprofiles))), hsmall j ?_⟩
    have h6 : (6 : Nat) = j := Option.some.inj (h.outline.profiles.symm.trans hprofiles)
    omega
  · rw [(uddfNewGroup_doc h.outline.profiles).2] at hrep
    exact .inr (Option.some.inj hrep).symm
  · refine .inl ⟨.inr (.inl hcur), ?_⟩
    have hn : n = j := Option.some.inj (h.sketch.profile.symm.trans hcur)
    exact hinside j (by omega) (.inl (by omega))
  · refine .inl ⟨.inr (.inr (.inl hsamples)), ?_⟩
    have hn : n + 5 = j := Option.some.inj (h.sketch.samples.symm.trans hsamples)
    exact hinside j (by omega) (.inl (by omega))
  · rw [hslot] at hσ
    have hle := (h.sketch.inside σ j hσ).1
    exact .inl ⟨InProgress.held_slot hσ, hinside j (by omega) (.inr ⟨σ, hσ⟩)⟩

/-- **A repetition group of its own**, behind the others. -/
theorem InProgress.newGroup (h : InProgress f gen gs [] n id leaves closed tanks) :
    InProgress (uddfNewGroup f) gen
      (gs ++ [("benthos_repgroup_".toList ++ f.ts ++ '_' :: padded 3 gs.length, [])]) [] n id leaves
      closed tanks := by
  obtain ⟨hdoc, hrep⟩ := uddfNewGroup_doc h.outline.profiles
  rw [h.outline.rgid] at hdoc
  have hlen : n + 5 < f.doc.length := h.sketch.waypoints.lt
  have hn := h.behind
  -- the new node first, then its attribute
  let doc := (xmlNewChild f.doc (some 6) "repetitiongroup".toList []).1
  have hchild : Works f.Held (uddfNewGroup f).Held 6 f.doc doc :=
    ⟨grows_newChild, .inl (.inr (.inr (.inl h.outline.profiles))), fun j hj hnew =>
      ((h.held_newGroup hnew).resolve_right (Nat.ne_of_lt hj)).1⟩
  have hlast : (uddfNewGroup f).Held f.doc.length := .inl (.inr (.inr (.inr hrep)))
  have hprop : Works (uddfNewGroup f).Held (uddfNewGroup f).Held f.doc.length doc
      (uddfNewGroup f).doc := by
    rw [hdoc]
    exact ⟨grows_modify _, hlast, fun _ _ hj => hj⟩
  have hw := hchild.after hprop le_rfl
  have hfresh : ∀ σ, f.slot σ ≠ some f.doc.length := fun σ hσ =>
    Nat.lt_irrefl _ (h.sketch.places σ _ hσ).lt
  have hslot : ∀ σ, (uddfNewGroup f).slot σ = f.slot σ := fun σ => by cases σ <;> rfl
  have hinner : SameInner f (uddfNewGroup f) := ⟨rfl, rfl, hslot, rfl⟩
  have hsix : ∀ σ, f.slot σ ≠ some 6 := by
    intro σ hσ
    have hle := (h.sketch.inside σ 6 hσ).1
    omega
  refine ⟨?_, h.sketch.works hinner hw (.inl hn) hsix, hn, ?_⟩
  · have hold : ∀ {q : Nat} {e : Element} {rest : List NodeId}, Partly f.Held f.doc q e rest →
        q ≠ 6 → Partly (uddfNewGroup f).Held (uddfNewGroup f).doc q e rest :=
      fun hq hne => hq.works hw hne
    have hdives : Partly (uddfNewGroup f).Held (uddfNewGroup f).doc f.doc.length
        (groupElement ("benthos_repgroup_".toList ++ f.ts ++ '_' :: padded 3 gs.length, []))
        [] := by
      have hnode : ∃ m, f.doc[6]? = some m := by
        cases h.outline.groups with
        | none _ hp =>
          obtain ⟨ids, hnode, -⟩ := hp
          exact ⟨_, hnode⟩
        | last _ hp _ =>
          obtain ⟨ids, hnode, -⟩ := hp
          exact ⟨_, hnode⟩
      obtain ⟨m, hm⟩ := hnode
      rw [hdoc]
      exact (partly_newChild hm).newProp hlast
    exact
      { root := h.outline.root
        gasdef := h.outline.gasdef
        profiles := h.outline.profiles
        behind := by
          intro r hr
          rw [hrep] at hr
          obtain rfl := Option.some.inj hr
          omega
        rgid := by
          show f.rgid + 1 = _
          rw [h.outline.rgid, List.length_append]
          rfl
        doc := hold h.outline.doc (by decide)
        gases := hold h.outline.gases (by decide)
        groups := by
          have hsix : (6 : Nat) ≠ f.doc.length := by omega
          cases h.outline.groups with
          | none _ hp =>
            have hfirst : Partly (uddfNewGroup f).Held (uddfNewGroup f).doc 6
                (.branch "profiledata".toList (List.map groupElement [])) [f.doc.length] :=
              (hp.newChild hchild).works hprop hsix
            exact .last hrep hfirst hdives
          | @last done g r hgroup hp hdone =>
            refine .last hrep ?_ hdives
            have hr : r ≠ f.doc.length := by
              intro heq
              exact Nat.lt_irrefl _ (heq ▸ hdone.lt)
            have hfree : ¬(uddfNewGroup f).Held r := fun hr' =>
              ((h.held_newGroup hr').resolve_right hr).2 hgroup
            have hgroup' : Stands (uddfNewGroup f).Held (uddfNewGroup f).doc r (groupElement g) :=
              (hold hdone (Nat.ne_of_gt (h.outline.behind r hgroup))).stands hfree
            have hboth := ((hp.newChild hchild).works hprop hsix).finish (.cons hgroup' .nil)
            rw [List.map_append]
            exact hboth }
  · intro r hr
    rw [hrep] at hr
    obtain rfl := Option.some.inj hr
    exact .inr ⟨hlen, fun σ => (hslot σ).symm ▸ hfresh σ⟩

/-! ### The header

Each token of the header adds to one place.
-/

/-- What a header token does not concern. -/
structure HeaderKeeps (f f' : UddfFmtData) : Prop where
  ts : f'.ts = f.ts
  did : f'.did = f.did
  curWaypoint : f'.curWaypoint = f.curWaypoint

theorem uddfTank_keeps (f : UddfFmtData) (i : Nat) : HeaderKeeps f (uddfTank f i) := by
  unfold uddfTank
  split
  · exact ⟨rfl, rfl, rfl⟩
  · exact ⟨rfl, rfl, rfl⟩

theorem uddfTankMix_keeps (f : UddfFmtData) (e : HeaderEntry) (set : Mix → Mix) :
    HeaderKeeps f (uddfTankMix f e set) := by
  unfold uddfTankMix
  split
  · exact ⟨rfl, rfl, rfl⟩
  · exact ⟨(uddfTank_keeps f e.index).ts, (uddfTank_keeps f e.index).did,
      (uddfTank_keeps f e.index).curWaypoint⟩

theorem uddfTankPressure_keeps (f : UddfFmtData) (e : HeaderEntry) (name : Text) :
    HeaderKeeps f (uddfTankPressure f e name) :=
  ⟨(uddfTank_keeps f e.index).ts, (uddfTank_keeps f e.index).did,
    (uddfTank_keeps f e.index).curWaypoint⟩

theorem uddfInterval_keeps (f : UddfFmtData) (v : BitVec 32) :
    HeaderKeeps f (uddfInterval f v) := by
  by_cases hv : v = 0
  · have heq : uddfInterval f v = _ := if_pos hv
    rw [heq]
    exact ⟨rfl, rfl, rfl⟩
  · have heq : uddfInterval f v = _ := if_neg hv
    rw [heq]
    exact ⟨rfl, rfl, rfl⟩

theorem uddfHeaderToken_keeps (f : UddfFmtData) (e : HeaderEntry) :
    HeaderKeeps f (uddfHeaderToken f e) := by
  unfold uddfHeaderToken
  split
  · exact uddfInterval_keeps f e.value
  · split <;> exact ⟨rfl, rfl, rfl⟩
  · exact uddfTankPressure_keeps f e _
  · exact uddfTankPressure_keeps f e _
  · exact uddfTankMix_keeps f e _
  · exact uddfTankMix_keeps f e _
  · split <;> exact ⟨rfl, rfl, rfl⟩

/-- The tokens about tanks are four. -/
theorem not_mentionsTank {e : HeaderEntry} {token : HeaderToken} (he : e.token = token)
    (h : token ∉ [.pxStart, .pxEnd, .pmo2, .pmhe]) : ¬MentionsTank e := by
  subst he
  rintro (ht | ht | ⟨ht | ht, -⟩)
  all_goals
    rw [ht] at h
    exact h (by decide)

namespace InProgress

variable {hdr : List HeaderEntry} {e : HeaderEntry}

/-- A token that is no element, and about no tank. -/
theorem skip (h : InProgress f gen gs extra n id (elementsIn hdr) closed (tanksOf hdr))
    (he : headerElement e = none) (hm : ¬MentionsTank e) :
    InProgress f gen gs extra n id (elementsIn (hdr ++ [e])) closed (tanksOf (hdr ++ [e])) := by
  rw [tanksOf_concat, if_neg fun hmem => hm hmem.1]
  exact h.congr fun τ => elementsIn_concat_none he τ

/-- A token that is a leaf of the dive itself. -/
theorem headerLeaf (h : InProgress f gen gs extra n id (elementsIn hdr) closed (tanksOf hdr))
    (he : headerElement e = some (σ, .leaf name content)) (hm : ¬MentionsTank e)
    (hσ : f.slot σ = some p) :
    InProgress (f.leaf (f.slot σ) name content) gen gs extra n id (elementsIn (hdr ++ [e])) closed
      (tanksOf (hdr ++ [e])) := by
  rw [tanksOf_concat, if_neg fun hmem => hm hmem.1]
  exact (h.leaf hσ).congr fun τ => elementsIn_concat_some he τ

/-- The surface interval is an element with a leaf. -/
theorem interval (h : InProgress f gen gs extra n id leaves closed tanks) (v : BitVec 32) :
    InProgress (uddfInterval f v) gen gs extra n id
      (Function.update leaves .before (leaves .before ++ [intervalElement v])) closed tanks := by
  have hσ : f.slot .before = some (n + 3) := h.sketch.before
  obtain ⟨ids, hnode, -⟩ := h.sketch.places .before _ hσ
  let h₁ := (xmlNewChild f.doc (some (n + 3)) "surfaceintervalbeforedive".toList []).1
  have hgrows : Grows (n + 3) f.doc h₁ := grows_newChild
  have hlen : h₁.length = f.doc.length + 1 := (newChild_spec hnode).2.2
  have hvalid : Valid (fun i => f.Held i ∨ i = f.doc.length) h₁ := by
    rintro i (hi | rfl)
    · exact h.valid.grows hgrows i hi
    · rw [hlen]
      exact Nat.lt_succ_self _
  -- the new node is held until it has its child
  have hwork : ∀ name content, Adds f.Held (n + 3)
      (.branch "surfaceintervalbeforedive".toList [.leaf name content]) f.doc
      (xmlNewChild h₁ (some f.doc.length) name content).1 := fun name content =>
    adds_newChild hnode h.valid grows_newChild ((partly_newChild hnode).newLeaf (.inr rfl) hvalid)
  have hchild : xmlNewChild f.doc f.before "surfaceintervalbeforedive".toList [] =
      (h₁, some f.doc.length) := by
    rw [h.sketch.before]
    rfl
  by_cases hv : v = 0
  · have heq : uddfInterval f v = _ := if_pos hv
    rw [heq, hchild, intervalElement, if_pos hv]
    exact h.add hσ (hwork _ _)
  · have heq : uddfInterval f v = _ := if_neg hv
    rw [heq, hchild, intervalElement, if_neg hv]
    exact h.add hσ (hwork _ _)

/-- A token about a tank makes the tank. -/
theorem mention (h : InProgress f gen gs extra n id (elementsIn hdr) closed (tanksOf hdr))
    (hm : MentionsTank e) :
    InProgress (uddfTank f e.index) gen gs extra n id (elementsIn hdr) closed
        (tanksOf (hdr ++ [e])) ∧
      ∃ p, (uddfTank f e.index).slot (.tank e.index) = some p := by
  have htank := h.tank (i := e.index) elementsIn_tank
  have htanks : tanksOf (hdr ++ [e]) =
      if e.index ∈ tanksOf hdr then tanksOf hdr else tanksOf hdr ++ [e.index] := by
    rw [tanksOf_concat]
    by_cases hi : e.index ∈ tanksOf hdr
    · rw [if_neg fun hmem => hmem.2 hi, if_pos hi]
    · rw [if_pos ⟨hm, hi⟩, if_neg hi]
  rw [htanks]
  exact htank

/-- A pressure is a leaf of its tank. -/
theorem tankPressure (h : InProgress f gen gs extra n id (elementsIn hdr) closed (tanksOf hdr))
    (hm : MentionsTank e)
    (he : headerElement e = some (.tank e.index, .leaf name (decimal e.value.toNat))) :
    InProgress (uddfTankPressure f e name) gen gs extra n id (elementsIn (hdr ++ [e])) closed
      (tanksOf (hdr ++ [e])) := by
  obtain ⟨htank, p, hp⟩ := h.mention hm
  exact (htank.leaf hp).congr fun τ => elementsIn_concat_some he τ

/-- The contents of a tank are kept for the epilog. -/
theorem tankMix (h : InProgress f gen gs extra n id (elementsIn hdr) closed (tanksOf hdr))
    (ht : e.token = .pmo2 ∨ e.token = .pmhe) (he : headerElement e = none) (set : Mix → Mix) :
    InProgress (uddfTankMix f e set) gen gs extra n id (elementsIn (hdr ++ [e])) closed
      (tanksOf (hdr ++ [e])) := by
  by_cases hv : e.value = 0
  · have hmix : uddfTankMix f e set = f := if_pos hv
    rw [hmix]
    apply h.skip he
    rintro (hm | hm | hm)
    · rcases ht with ht | ht <;> cases hm.symm.trans ht
    · rcases ht with ht | ht <;> cases hm.symm.trans ht
    · exact hm.2 hv
  · have hm : MentionsTank e := .inr (.inr ⟨ht, hv⟩)
    obtain ⟨htank, -⟩ := h.mention hm
    have hmix : uddfTankMix f e set = { uddfTank f e.index with
        curMixes := (uddfTank f e.index).curMixes.alter (mixName e.index)
          fun m => some (set (m.getD (0, 0))) } := if_neg hv
    rw [hmix]
    have hslot : ∀ σ, { uddfTank f e.index with
        curMixes := (uddfTank f e.index).curMixes.alter (mixName e.index)
          fun m => some (set (m.getD (0, 0))) }.slot σ = (uddfTank f e.index).slot σ :=
      fun σ => by cases σ <;> rfl
    refine (htank.congr fun τ => elementsIn_concat_none he τ).samePointers ?_ ?_ rfl
    · exact ⟨rfl, rfl, rfl, rfl, rfl⟩
    · exact ⟨rfl, rfl, hslot, rfl⟩

/-- **One header token.** -/
theorem headerToken (h : InProgress f gen gs [] n id (elementsIn hdr) closed (tanksOf hdr))
    (e : HeaderEntry) :
    InProgress (uddfHeaderToken f e) gen (groupsAfter f.ts gs e) [] n id (elementsIn (hdr ++ [e]))
      closed (tanksOf (hdr ++ [e])) := by
  obtain ⟨token, value, index, label⟩ := e
  have hgroups : token ≠ .repetition →
      groupsAfter f.ts gs ⟨token, value, index, label⟩ = gs := fun ht => if_neg fun hm => ht hm.1
  -- a token that makes no group, and is about no tank
  have hplain : ∀ {σ p name content}, token ∉ [.repetition, .pxStart, .pxEnd, .pmo2, .pmhe] →
      headerElement ⟨token, value, index, label⟩ = some (σ, .leaf name content) →
      f.slot σ = some p →
      InProgress (f.leaf (f.slot σ) name content) gen
        (groupsAfter f.ts gs ⟨token, value, index, label⟩) [] n id
        (elementsIn (hdr ++ [⟨token, value, index, label⟩])) closed
        (tanksOf (hdr ++ [⟨token, value, index, label⟩])) := by
    intro σ p name content ht he hσ
    rw [hgroups fun heq => ht (heq ▸ List.mem_cons_self)]
    exact h.headerLeaf he (not_mentionsTank rfl fun hmem => ht (List.mem_cons_of_mem _ hmem)) hσ
  cases token with
  | interval =>
    have ht : HeaderToken.interval ∉ [.pxStart, .pxEnd, .pmo2, .pmhe] := by decide
    have hm : ¬MentionsTank ⟨.interval, value, index, label⟩ := not_mentionsTank rfl ht
    rw [hgroups (by decide), tanksOf_concat, if_neg fun hmem => hm hmem.1]
    exact (h.interval value).congr fun τ => elementsIn_concat_some rfl τ
  | repetition =>
    have ht : HeaderToken.repetition ∉ [.pxStart, .pxEnd, .pmo2, .pmhe] := by decide
    have hm : ¬MentionsTank ⟨.repetition, value, index, label⟩ := not_mentionsTank rfl ht
    have hskip := h.skip rfl hm
    by_cases hv : value = 1
    · have hgroup : uddfHeaderToken f ⟨.repetition, value, index, label⟩ = uddfNewGroup f :=
        if_pos hv
      have hafter : groupsAfter f.ts gs ⟨.repetition, value, index, label⟩ = _ := if_pos ⟨rfl, hv⟩
      rw [hgroup, hafter]
      exact hskip.newGroup
    · have hsame : uddfHeaderToken f ⟨.repetition, value, index, label⟩ = f := if_neg hv
      have hafter : groupsAfter f.ts gs ⟨.repetition, value, index, label⟩ = gs :=
        if_neg fun hmakes => hv hmakes.2
      rw [hsame, hafter]
      exact hskip
  | pxStart =>
    rw [hgroups (by decide)]
    exact h.tankPressure (.inl rfl) rfl
  | pxEnd =>
    rw [hgroups (by decide)]
    exact h.tankPressure (.inr (.inl rfl)) rfl
  | pmo2 =>
    have he : headerElement ⟨.pmo2, value, index, label⟩ = none := rfl
    rw [hgroups (by decide)]
    exact h.tankMix (.inl rfl) he fun m => (value.setWidth 16, m.2)
  | pmhe =>
    have he : headerElement ⟨.pmhe, value, index, label⟩ = none := rfl
    rw [hgroups (by decide)]
    exact h.tankMix (.inr rfl) he fun m => (m.1, value.setWidth 16)
  | startTime | desatBefore | noflyBefore | airTemp =>
    exact hplain (by decide) rfl h.sketch.before
  | duration | desatAfter | noflyAfter | maxDepth | minTemp =>
    exact hplain (by decide) rfl h.sketch.after
  | utcOffset | avgDepth | maxTemp | vendor =>
    exact hplain (by decide) rfl h.sketch.appdata

/-- **The header of a dive.** -/
theorem header (tokens : List HeaderEntry)
    (h : InProgress f gen gs [] n id (elementsIn hdr) closed (tanksOf hdr)) :
    InProgress (tokens.foldl uddfHeaderToken f) gen (tokens.foldl (groupsAfter f.ts) gs) [] n id
      (elementsIn (hdr ++ tokens)) closed (tanksOf (hdr ++ tokens)) := by
  induction tokens generalizing f gs hdr with
  | nil =>
    rw [List.append_nil]
    exact h
  | cons e tokens ih =>
    have hrest := ih (h.headerToken e)
    rw [(uddfHeaderToken_keeps f e).ts, List.append_assoc] at hrest
    exact hrest

end InProgress

end BenthosDc

/-
BenthosDc/UddfTanks.lean

The tanks of a dive in the document of the UDDF formatter, up to the epilog.

A tank is made by the first header token of the dive that is about its index, and the gas
contents that are not 0 are collected under its index; nothing else that a dive does is
about tanks, or makes a link (`KeepsTanks`).  So in front of the epilog the tanks are those
that the header mentions, each with the last contents reported for it (`InDive`).
-/
import BenthosDc.OutputUddfRuns

namespace BenthosDc

open CString XmlHeap

/-! ### Steps that make no tank and no link

Most of what a dive writes has nothing to do with tanks.  Such a step is said to keep them, and
the rules put steps together.
-/

/-- The names of the nodes that a pointer of the formatter must not lead to. -/
def Guarded (name : Text) : Prop := name = "link".toList ∨ name = "gasdefinitions".toList

instance : DecidablePred Guarded := fun _ => instDecidableOr

/-- The name of a node that is nothing to the tanks and mixes. -/
def Harmless (name : Text) : Prop := ¬Guarded name ∧ name ≠ "tankdata".toList

instance : DecidablePred Harmless := fun _ => instDecidableAnd

/-- The links below a node. -/
abbrev linksAt (h : Heap) (i : NodeId) : List XmlNode := elementsNamed h i "link".toList

/-- The gas definitions get no child, and all links stay as they are; `D` are names that no new
node has. -/
structure KeepsLinks (D : Text → Prop) (h h' : Heap) : Prop where
  frame : Frame (· = "gasdefinitions".toList) D h h'
  links : ∀ i, linksAt h' i = linksAt h i

/-- Where the pointers of the formatter lead. -/
structure UddfFmtData.Clear (f : UddfFmtData) : Prop extends f.Leads Guarded where
  closed : Closed f.doc
  profiles : Outside Guarded f.doc f.profiles
  repgrp : Outside Guarded f.doc f.repgrp

/-- From `f` to `f'` nothing happens to the tanks and mixes. -/
structure KeepsTanks (f f' : UddfFmtData) : Prop where
  doc : KeepsLinks (· = "tankdata".toList) f.doc f'.doc
  gasdef : f'.gasdef = f.gasdef
  mixes : f'.mixes = f.mixes
  tanks : f'.tanks = f.tanks
  curMixes : f'.curMixes = f.curMixes
  curProfile : f'.curProfile = f.curProfile
  clear : f'.Clear

variable {s : OutputFmtData} {f f' f'' : UddfFmtData} {p : Option NodeId} {D : Text → Prop}
variable {name content key value : Text} {h h' h'' : Heap}

namespace KeepsLinks

theorem refl (h : Heap) : KeepsLinks D h h := ⟨Frame.refl h, fun _ => rfl⟩

theorem trans (h₁ : KeepsLinks D h h') (h₂ : KeepsLinks D h' h'') : KeepsLinks D h h'' :=
  ⟨h₁.frame.trans h₂.frame, fun i => (h₂.links i).trans (h₁.links i)⟩

/-- A new node that is neither a tank nor a link. -/
theorem newChild (hp : Outside Guarded h p) (hname : ¬Guarded name) (hD : ¬D name) :
    KeepsLinks D h (xmlNewChild h p name content).1 := by
  have hout : Outside (· = "gasdefinitions".toList) h p := hp.imp fun _ => .inr
  refine ⟨(Frame.newChild hout (fun hgas => hname (.inr hgas)) hD).1, fun i => ?_⟩
  exact elementsNamed_newChild (hp.imp fun _ => .inl) fun hlink => hname (.inl hlink)

theorem newProp (hp : Outside Guarded h p) : KeepsLinks D h (xmlNewProp h p key value) :=
  ⟨Frame.newProp p, fun _ => elementsNamed_newProp (hp.imp fun _ => .inl)⟩

/-- Fewer names to keep clear of. -/
theorem weaken (hk : KeepsLinks D h h') : KeepsLinks (fun _ => False) h h' :=
  ⟨⟨hk.frame.name, hk.frame.children, fun i t hi hi' => ⟨(hk.frame.fresh i t hi hi').1, id⟩⟩,
    hk.links⟩

end KeepsLinks

/-- A document with more nodes. -/
theorem UddfFmtData.Clear.setDoc (h : f.Clear) {doc : Heap} (hclosed : Closed doc)
    (hnames : ∀ i t, nameOf f.doc i = some t → nameOf doc i = some t) :
    { f with doc := doc }.Clear :=
  { h.toLeads.setDoc hnames with
    closed := hclosed
    profiles := h.profiles.of_names hnames
    repgrp := h.repgrp.of_names hnames }

/-- A new child is outside the guarded names, with its own name. -/
theorem outside_newChild (hp : Outside Guarded h p) (hname : ¬Guarded name) :
    Outside Guarded (xmlNewChild h p name content).1 (xmlNewChild h p name content).2 :=
  (Frame.newChild (D := fun _ => False) hp hname id).2

namespace KeepsTanks

theorem refl (h : f.Clear) : KeepsTanks f f := ⟨.refl _, rfl, rfl, rfl, rfl, rfl, h⟩

theorem trans (h₁ : KeepsTanks f f') (h₂ : KeepsTanks f' f'') : KeepsTanks f f'' where
  doc := h₁.doc.trans h₂.doc
  gasdef := h₂.gasdef.trans h₁.gasdef
  mixes := h₂.mixes.trans h₁.mixes
  tanks := h₂.tanks.trans h₁.tanks
  curMixes := h₂.curMixes.trans h₁.curMixes
  curProfile := h₂.curProfile.trans h₁.curProfile
  clear := h₂.clear

theorem newChild (content : Text) (h : f.Clear) (hp : Outside Guarded f.doc p)
    (hname : Harmless name) :
    KeepsTanks f (f.newChild p name content).1 ∧
      Outside Guarded (f.newChild p name content).1.doc (f.newChild p name content).2 := by
  have hdoc : KeepsLinks (· = "tankdata".toList) f.doc (xmlNewChild f.doc p name content).1 :=
    .newChild hp hname.1 hname.2
  refine ⟨⟨hdoc, rfl, rfl, rfl, rfl, rfl, ?_⟩, outside_newChild hp hname.1⟩
  exact h.setDoc (h.closed.newChild p) hdoc.frame.name

theorem newProp (h : f.Clear) (hp : Outside Guarded f.doc p) :
    KeepsTanks f (f.newProp p key value) := by
  have hdoc : KeepsLinks (· = "tankdata".toList) f.doc (xmlNewProp f.doc p key value) := .newProp hp
  refine ⟨hdoc, rfl, rfl, rfl, rfl, rfl, ?_⟩
  exact h.setDoc (h.closed.newProp p) hdoc.frame.name

end KeepsTanks

/-! ### The callbacks

The tokens that are about no tank.
-/

/-- A name from a token is none of the names that matter. -/
theorem vendorName_harmless (e : HeaderEntry) : Harmless (vendorName e) := by
  refine ⟨?_, vendorName_ne e (by decide) (by decide)⟩
  rintro (h | h)
  · exact vendorName_ne e (by decide) (by decide) h
  · exact vendorName_ne e (by decide) (by decide) h

/-- The work inside a dive, but for its tanks. -/
theorem keepsTanks_working : Working Guarded Harmless UddfFmtData.Clear KeepsTanks where
  refl := KeepsTanks.refl
  trans := KeepsTanks.trans
  inv := KeepsTanks.clear
  leads := UddfFmtData.Clear.toLeads
  nodes := fun h => h.doc.frame.name
  newChild := KeepsTanks.newChild
  pointers := fun h hw ha hs hb hc => ⟨.refl _, rfl, rfl, rfl, rfl, rfl, { h with
    curWaypoint := hw
    appdata := ha
    samples := hs
    before := hb
    after := hc }⟩
  work := by decide
  vendor := vendorName_harmless

/-- A new repetition group. -/
theorem uddfNewGroup_keepsTanks (h : f.Clear) : KeepsTanks f (uddfNewGroup f) := by
  let f₁ := { f with rgid := f.rgid + 1 }
  have hstart : KeepsTanks f f₁ := ⟨.refl _, rfl, rfl, rfl, rfl, rfl, { h with }⟩
  obtain ⟨hgroup, hout⟩ := KeepsTanks.newChild [] hstart.clear hstart.clear.profiles
    (by decide : Harmless "repetitiongroup".toList)
  let group := f₁.newChild f₁.profiles "repetitiongroup".toList []
  have hset : KeepsTanks group.1 { group.1 with repgrp := group.2 } :=
    ⟨.refl _, rfl, rfl, rfl, rfl, rfl, { hgroup.clear with repgrp := hout }⟩
  exact (hstart.trans (hgroup.trans hset)).trans (.newProp hset.clear hout)

/-- A token of the header. -/
theorem uddfHeaderToken_keepsTanks (h : f.Clear) {e : HeaderEntry} (he : ¬MentionsTank e) :
    KeepsTanks f (uddfHeaderToken f e) := by
  by_cases hgroup : MakesGroup e
  · have heq : uddfHeaderToken f e = uddfNewGroup f := by
      rw [uddfHeaderToken, hgroup.1]
      exact if_pos hgroup.2
    rw [heq]
    exact uddfNewGroup_keepsTanks h
  · exact keepsTanks_working.headerToken h hgroup he

/-! ### What the header reports

A content of 0 is no report.  Of two reports the later one counts.
-/

/-- The last value that is not 0. -/
def lastNonZero (tok : HeaderToken) (i : Nat) (hdr : List HeaderEntry) : Option (BitVec 32) :=
  (hdr.filter fun e => e.token = tok ∧ e.index = i ∧ e.value ≠ 0).getLast?.map (·.value)

/-- The mix of a tank, if its header tokens report one. -/
def headerMix (hdr : List HeaderEntry) (i : Nat) : Option Mix :=
  let o2 := lastNonZero .pmo2 i hdr
  let he := lastNonZero .pmhe i hdr
  if o2 = none ∧ he = none then none
  else some ((o2.getD 0).setWidth 16, (he.getD 0).setWidth 16)

theorem lastNonZero_append (tok : HeaderToken) (i : Nat) (hdr : List HeaderEntry)
    (e : HeaderEntry) :
    lastNonZero tok i (hdr ++ [e]) =
      if e.token = tok ∧ e.index = i ∧ e.value ≠ 0 then some e.value
      else lastNonZero tok i hdr := by
  rw [lastNonZero, lastNonZero, List.filter_append, List.filter_cons, List.filter_nil]
  by_cases h : e.token = tok ∧ e.index = i ∧ e.value ≠ 0
  · rw [if_pos (decide_eq_true h), if_pos h, List.getLast?_concat, Option.map_some]
  · rw [if_neg (by simpa using h), if_neg h, List.append_nil]

/-- A token that reports nothing of the tank's mix. -/
theorem headerMix_append_of_ne {hdr : List HeaderEntry} {e : HeaderEntry} {i : Nat}
    (h : ¬((e.token = .pmo2 ∨ e.token = .pmhe) ∧ e.index = i ∧ e.value ≠ 0)) :
    headerMix (hdr ++ [e]) i = headerMix hdr i := by
  have ho2 : ¬(e.token = .pmo2 ∧ e.index = i ∧ e.value ≠ 0) := fun ⟨ht, hi⟩ => h ⟨.inl ht, hi⟩
  have hhe : ¬(e.token = .pmhe ∧ e.index = i ∧ e.value ≠ 0) := fun ⟨ht, hi⟩ => h ⟨.inr ht, hi⟩
  rw [headerMix, lastNonZero_append, lastNonZero_append, if_neg ho2, if_neg hhe, headerMix]

theorem headerMix_append_pmo2 {hdr : List HeaderEntry} {e : HeaderEntry} (ht : e.token = .pmo2)
    (hv : e.value ≠ 0) : headerMix (hdr ++ [e]) e.index =
      some (e.value.setWidth 16, ((headerMix hdr e.index).getD (0, 0)).2) := by
  have ho2 : lastNonZero .pmo2 e.index (hdr ++ [e]) = some e.value := by
    rw [lastNonZero_append, if_pos ⟨ht, rfl, hv⟩]
  have hhe : lastNonZero .pmhe e.index (hdr ++ [e]) = lastNonZero .pmhe e.index hdr := by
    rw [lastNonZero_append, if_neg (by simp [ht])]
  rw [headerMix, ho2, hhe, if_neg (fun h => nomatch h.1), headerMix]
  by_cases hnone : lastNonZero .pmo2 e.index hdr = none ∧ lastNonZero .pmhe e.index hdr = none
  · rw [if_pos hnone, hnone.2]
    rfl
  · rw [if_neg hnone]
    rfl

theorem headerMix_append_pmhe {hdr : List HeaderEntry} {e : HeaderEntry} (ht : e.token = .pmhe)
    (hv : e.value ≠ 0) : headerMix (hdr ++ [e]) e.index =
      some (((headerMix hdr e.index).getD (0, 0)).1, e.value.setWidth 16) := by
  have ho2 : lastNonZero .pmo2 e.index (hdr ++ [e]) = lastNonZero .pmo2 e.index hdr := by
    rw [lastNonZero_append, if_neg (by simp [ht])]
  have hhe : lastNonZero .pmhe e.index (hdr ++ [e]) = some e.value := by
    rw [lastNonZero_append, if_pos ⟨ht, rfl, hv⟩]
  rw [headerMix, ho2, hhe, if_neg (fun h => nomatch h.2), headerMix]
  by_cases hnone : lastNonZero .pmo2 e.index hdr = none ∧ lastNonZero .pmhe e.index hdr = none
  · rw [if_pos hnone, hnone.1]
    rfl
  · rw [if_neg hnone]
    rfl

/-! ### The tanks of a dive

The invariant has three parts: which tanks there are, where their nodes are, and which mix each
of them has.
-/

/-- The formatter inside a dive, behind the header tokens `hdr`, with the mixes `m`; `f₀` is the
formatter in front of the dive. -/
structure InDive (f₀ f : UddfFmtData) (hdr : List HeaderEntry) (m : Nat → Option Mix) : Prop where
  doc : KeepsLinks (fun _ => False) f₀.doc f.doc
  gasdef : f.gasdef = f₀.gasdef
  mixes : f.mixes = f₀.mixes
  clear : f.Clear
  profile : ∃ c, f.curProfile = some c ∧ nameOf f.doc c = some "dive".toList
  mentioned : ∀ i : Nat, (∃ p, f.tanks[i]? = some p) ↔ ∃ e ∈ hdr, MentionsTank e ∧ e.index = i
  nodes : ∀ (i : Nat) p, f.tanks[i]? = some p →
    ∃ n, p = some n ∧ nameOf f.doc n = some "tankdata".toList ∧ nameOf f₀.doc n = none
  inj : ∀ (i j : Nat) n, f.tanks[i]? = some (some n) → f.tanks[j]? = some (some n) → i = j
  only : ∀ n, nameOf f.doc n = some "tankdata".toList →
    nameOf f₀.doc n = some "tankdata".toList ∨ ∃ i : Nat, f.tanks[i]? = some (some n)
  mix : ∀ i, f.curMixes[mixName i]? = m i

/-- Different numbers, different ids. -/
theorem mixName_inj {i j : Nat} (h : mixName i = mixName j) : i = j :=
  decimal_injective (List.append_cancel_left h)

/-- The table behind a new tank. -/
theorem getElem?_insert_tank {tanks : Std.TreeMap Nat (Option NodeId)} {p : Option NodeId}
    (i j : Nat) : (tanks.insert i p)[j]? = if j = i then some p else tanks[j]? := by
  rw [Std.TreeMap.getElem?_insert]
  by_cases hi : j = i
  · rw [if_pos hi, if_pos (Std.LawfulEqCmp.compare_eq_iff_eq.mpr hi.symm)]
  · rw [if_neg hi, if_neg fun heq => hi (Std.LawfulEqCmp.compare_eq_iff_eq.mp heq).symm]

namespace InDive

variable {f₀ : UddfFmtData} {hdr : List HeaderEntry} {e : HeaderEntry} {m m' : Nat → Option Mix}
variable {n : NodeId}

/-- Only the values of the mixes matter. -/
theorem congr (h : InDive f₀ f hdr m) (hm : ∀ i, m' i = m i) : InDive f₀ f hdr m' :=
  { h with mix := fun i => (h.mix i).trans (hm i).symm }

/-- A step that keeps tanks keeps them here. -/
theorem keeps (h : InDive f₀ f hdr m) (hk : KeepsTanks f f') : InDive f₀ f' hdr m where
  doc := h.doc.trans hk.doc.weaken
  gasdef := hk.gasdef.trans h.gasdef
  mixes := hk.mixes.trans h.mixes
  clear := hk.clear
  profile := by
    obtain ⟨c, hcur, hname⟩ := h.profile
    exact ⟨c, hk.curProfile.trans hcur, hk.doc.frame.name c _ hname⟩
  mentioned := by
    rw [hk.tanks]
    exact h.mentioned
  nodes := by
    intro i p hp
    rw [hk.tanks] at hp
    obtain ⟨n, rfl, hn, hold⟩ := h.nodes i p hp
    exact ⟨n, rfl, hk.doc.frame.name n _ hn, hold⟩
  inj := by
    rw [hk.tanks]
    exact h.inj
  only := by
    intro n hn
    rw [hk.tanks]
    exact h.only n ((hk.doc.frame.nameOf_eq_iff (.inr rfl)).mp hn)
  mix := by
    rw [hk.curMixes]
    exact h.mix

/-- A token that is about no tank. -/
theorem skip (h : InDive f₀ f hdr m) (he : ¬MentionsTank e) : InDive f₀ f (hdr ++ [e]) m :=
  { h with
    mentioned := by
      intro i
      rw [h.mentioned i]
      simp [he] }

/-- A tank that is there is no node behind the heap. -/
theorem ne_length (h : InDive f₀ f hdr m) {i : Nat} (hn : f.tanks[i]? = some (some n)) :
    n ≠ f.doc.length := by
  obtain ⟨n', heq, hname, -⟩ := h.nodes i _ hn
  obtain rfl := Option.some.inj heq
  exact ne_length_of_nameOf hname

/-- A token about a tank that is there. -/
theorem mention (h : InDive f₀ f hdr m) (hmem : e.index ∈ f.tanks) :
    InDive f₀ f (hdr ++ [e]) m :=
  { h with
    mentioned := by
      intro i
      rw [h.mentioned i]
      constructor
      · rintro ⟨e', he', hi⟩
        exact ⟨e', List.mem_append_left _ he', hi⟩
      · rintro ⟨e', he', hi⟩
        rcases List.mem_append.mp he' with he' | he'
        · exact ⟨e', he', hi⟩
        · -- the index is that of a tank already
          obtain rfl := List.mem_singleton.mp he'
          obtain rfl := hi.2
          exact (h.mentioned _).mp ⟨_, Std.TreeMap.getElem?_eq_some_getElem hmem⟩ }

/-- A token about a tank that is not there: its node is the new one of the dive. -/
theorem newTank (h : InDive f₀ f hdr m) (he : MentionsTank e) (hnew : f.tanks[e.index]? = none)
    {c : NodeId} (hcur : f.curProfile = some c) (hcname : nameOf f.doc c = some "dive".toList) :
    InDive f₀ { f with
      doc := xmlAddChild (xmlNewNode f.doc "tankdata".toList []) (some c) f.doc.length
      tanks := f.tanks.insert e.index (some f.doc.length) } (hdr ++ [e]) m := by
  let doc := xmlAddChild (xmlNewNode f.doc "tankdata".toList []) (some c) f.doc.length
  have hname : ∀ n, nameOf doc n =
      if n = f.doc.length then some "tankdata".toList else nameOf f.doc n := by
    intro n
    rw [nameOf_xmlAddChild, nameOf_xmlNewNode]
  have hprofile : Outside Guarded f.doc (some c) := by
    rintro _ ⟨⟩
    exact ⟨_, hcname, by decide⟩
  have hkeeps : KeepsLinks (fun _ => False) f.doc doc := .newChild hprofile (by decide) id
  have hclear : { f with doc := doc }.Clear :=
    h.clear.setDoc (h.clear.closed.newChild (some c)) hkeeps.frame.name
  exact
    { doc := h.doc.trans hkeeps
      gasdef := h.gasdef
      mixes := h.mixes
      clear := { hclear with
        tanks := by
          intro i p hp
          rw [getElem?_insert_tank] at hp
          split at hp
          · obtain rfl := Option.some.inj hp
            rintro _ ⟨⟩
            exact ⟨_, (hname _).trans (if_pos rfl), by decide⟩
          · exact hclear.tanks i p hp }
      profile := ⟨c, hcur, hkeeps.frame.name c _ hcname⟩
      mentioned := by
        intro i
        rw [getElem?_insert_tank]
        by_cases hi : i = e.index
        · rw [if_pos hi]
          exact iff_of_true ⟨_, rfl⟩ ⟨e, List.mem_append_right _ List.mem_cons_self, he, hi.symm⟩
        · rw [if_neg hi, h.mentioned i]
          simp [Ne.symm hi]
      nodes := by
        intro i p hp
        rw [getElem?_insert_tank] at hp
        split at hp
        · obtain rfl := Option.some.inj hp
          refine ⟨_, rfl, (hname _).trans (if_pos rfl), ?_⟩
          have hlast : nameOf f.doc f.doc.length = none := nameOf_eq_none_iff.mpr le_rfl
          by_contra hsome
          obtain ⟨t, ht⟩ := Option.ne_none_iff_exists'.mp hsome
          rw [h.doc.frame.name _ t ht] at hlast
          cases hlast
        · obtain ⟨n, rfl, hn, hold⟩ := h.nodes i p hp
          exact ⟨n, rfl, hkeeps.frame.name n _ hn, hold⟩
      inj := by
        intro i j n hi hj
        rw [getElem?_insert_tank] at hi hj
        split at hi
        · next hieq =>
          obtain rfl := Option.some.inj (Option.some.inj hi)
          split at hj
          · next hjeq => exact hieq.trans hjeq.symm
          · exact absurd rfl (h.ne_length hj)
        · split at hj
          · obtain rfl := Option.some.inj (Option.some.inj hj)
            exact absurd rfl (h.ne_length hi)
          · exact h.inj i j n hi hj
      only := by
        intro n hn
        rw [hname] at hn
        split at hn
        · next heq => exact .inr ⟨e.index, by rw [getElem?_insert_tank, if_pos rfl, heq]⟩
        · apply (h.only n hn).imp_right
          rintro ⟨i, hi⟩
          refine ⟨i, ?_⟩
          rw [getElem?_insert_tank, if_neg, hi]
          rintro rfl
          rw [hnew] at hi
          cases hi
      mix := h.mix }

/-- **A token about a tank makes the tank**, unless it is there. -/
theorem tank (h : InDive f₀ f hdr m) (he : MentionsTank e) :
    InDive f₀ (uddfTank f e.index) (hdr ++ [e]) m := by
  unfold uddfTank
  split
  · next hcontains => exact h.mention (Std.TreeMap.mem_iff_contains.mpr hcontains)
  · next hcontains =>
    obtain ⟨c, hcur, hcname⟩ := h.profile
    have hnew : f.tanks[e.index]? = none :=
      Std.TreeMap.getElem?_eq_none_of_contains_eq_false (Bool.eq_false_iff.mpr hcontains)
    let doc := xmlAddChild (xmlNewNode f.doc "tankdata".toList []) (some c) f.doc.length
    have htank : f.newChild f.curProfile "tankdata".toList [] =
        ({ f with doc := doc }, some f.doc.length) := by
      rw [UddfFmtData.newChild, hcur]
      rfl
    rw [htank]
    exact h.newTank he hnew hcur hcname

/-- The node of a tank. -/
theorem tankNode (h : f.Clear) (i : Nat) : Outside Guarded f.doc (f.tankNode i) := by
  cases htank : f.tanks[i]? with
  | none =>
    rw [UddfFmtData.tankNode, htank]
    exact Outside.none
  | some p =>
    rw [UddfFmtData.tankNode, htank]
    exact h.tanks i p htank

theorem pressure (h : InDive f₀ f hdr m) (he : MentionsTank e) (hname : Harmless name) :
    InDive f₀ (uddfTankPressure f e name) (hdr ++ [e]) m := by
  have htank := h.tank he
  exact htank.keeps (keepsTanks_working.leaf htank.clear (tankNode htank.clear e.index) hname)

/-- A gas content that is not 0 goes to the mix of the tank. -/
theorem tankMix (h : InDive f₀ f hdr m) (he : MentionsTank e) (hv : e.value ≠ 0) (set : Mix → Mix) :
    InDive f₀ (uddfTankMix f e set) (hdr ++ [e])
      (fun i => if i = e.index then some (set ((m i).getD (0, 0))) else m i) := by
  have htank := h.tank he
  have hmix : uddfTankMix f e set = { uddfTank f e.index with
      curMixes := (uddfTank f e.index).curMixes.alter (mixName e.index)
        fun m => some (set (m.getD (0, 0))) } := if_neg hv
  rw [hmix]
  refine { htank with clear := { htank.clear with }, mix := ?_ }
  intro i
  show ((uddfTank f e.index).curMixes.alter (mixName e.index) _)[mixName i]? = _
  rw [Std.TreeMap.getElem?_alter]
  by_cases hi : i = e.index
  · subst hi
    rw [if_pos Std.ReflCmp.compare_self, if_pos rfl, htank.mix]
  · have hne : compare (mixName e.index) (mixName i) ≠ .eq := fun heq =>
      hi (mixName_inj (Std.LawfulEqCmp.compare_eq_iff_eq.mp heq)).symm
    rw [if_neg hne, if_neg hi, htank.mix]

/-- **One header token.** -/
theorem headerToken (h : InDive f₀ f hdr (headerMix hdr)) (e : HeaderEntry) :
    InDive f₀ (uddfHeaderToken f e) (hdr ++ [e]) (headerMix (hdr ++ [e])) := by
  by_cases he : MentionsTank e
  · obtain ⟨token, value, index, label⟩ := e
    rcases he with rfl | rfl | ⟨rfl | rfl, hv⟩
    · refine (h.pressure (.inl rfl) (by decide)).congr fun i => headerMix_append_of_ne ?_
      rintro ⟨ht | ht, -⟩ <;> cases ht
    · refine (h.pressure (.inr (.inl rfl)) (by decide)).congr fun i => headerMix_append_of_ne ?_
      rintro ⟨ht | ht, -⟩ <;> cases ht
    · refine (h.tankMix (.inr (.inr ⟨.inl rfl, hv⟩)) hv
        fun mix => (value.setWidth 16, mix.2)).congr fun i => ?_
      by_cases hi : i = index
      · subst hi
        exact (headerMix_append_pmo2 rfl hv).trans (if_pos rfl).symm
      · rw [if_neg hi]
        exact headerMix_append_of_ne fun hne => hi hne.2.1.symm
    · refine (h.tankMix (.inr (.inr ⟨.inr rfl, hv⟩)) hv
        fun mix => (mix.1, value.setWidth 16)).congr fun i => ?_
      by_cases hi : i = index
      · subst hi
        exact (headerMix_append_pmhe rfl hv).trans (if_pos rfl).symm
      · rw [if_neg hi]
        exact headerMix_append_of_ne fun hne => hi hne.2.1.symm
  · refine ((h.skip he).keeps (uddfHeaderToken_keepsTanks h.clear he)).congr fun i => ?_
    exact headerMix_append_of_ne fun hne => he (.inr (.inr ⟨hne.1, hne.2.2⟩))

/-- **The header of a dive**, behind the tokens `hdr`. -/
theorem header (tokens : List HeaderEntry) (h : InDive f₀ f hdr (headerMix hdr)) :
    InDive f₀ (tokens.foldl uddfHeaderToken f) (hdr ++ tokens) (headerMix (hdr ++ tokens)) := by
  induction tokens generalizing f hdr with
  | nil =>
    rw [List.append_nil]
    exact h
  | cons e tokens ih =>
    rw [List.append_cons]
    exact ih (h.headerToken e)

end InDive

/-- The header tokens that the formatter looks at. -/
def seenHeader (s : OutputFmtData) (d : DiveTokens) : List HeaderEntry :=
  if s.outputHeader then d.header else []

/-- The header that is seen. -/
theorem foldl_uddfHeaderCb (d : DiveTokens) :
    d.header.foldl (uddfHeaderCb s) f = (seenHeader s d).foldl uddfHeaderToken f := by
  by_cases hs : s.outputHeader = true
  · have hcb : uddfHeaderCb s = uddfHeaderToken := by
      funext f e
      exact if_pos hs
    rw [seenHeader, if_pos hs, hcb]
  · have hcb : ∀ tokens : List HeaderEntry, tokens.foldl (uddfHeaderCb s) f = f := by
      intro tokens
      induction tokens with
      | nil => rfl
      | cons e tokens ih =>
        have hskip : uddfHeaderCb s f e = f := if_neg hs
        rw [List.foldl_cons, hskip, ih]
    rw [seenHeader, if_neg hs, hcb]
    rfl

/-- A new dive has no tank. -/
theorem withDive_inDive (h : f.Clear) : InDive f (withDive f) [] (headerMix []) := by
  have hdive : Harmless "dive".toList := by decide
  have hlast : Outside Guarded (xmlNewNode f.doc "dive".toList []) (some f.doc.length) := by
    rintro _ ⟨⟩
    exact ⟨_, by rw [nameOf_xmlNewNode, if_pos rfl], hdive.1⟩
  have hnode : KeepsLinks (· = "tankdata".toList) f.doc (xmlNewNode f.doc "dive".toList []) := by
    refine ⟨Frame.newNode (fun hgas => hdive.1 (.inr hgas)) hdive.2, fun i => ?_⟩
    exact elementsNamed_congr childrenOf_xmlNewNode fun c =>
      elementNamed_xmlNewNode_of_ne fun hlink => hdive.1 (.inl hlink)
  have hkeeps : KeepsLinks (· = "tankdata".toList) f.doc (withDive f).doc :=
    hnode.trans (.newProp hlast)
  have hclosed : Closed (xmlNewProp (xmlNewNode f.doc "dive".toList []) (some f.doc.length)
      "id".toList (diveId f)) := h.closed.newNode.newProp _
  exact
    { doc := hkeeps.weaken
      gasdef := rfl
      mixes := rfl
      clear := { h.setDoc hclosed hkeeps.frame.name with
        curProfile := by
          rintro _ ⟨⟩
          exact ⟨_, by rw [nameOf_withDive, if_pos rfl], hdive.1⟩
        curWaypoint := Outside.none
        tanks := by
          intro i p hp
          rw [getElem?_withDive_tanks] at hp
          cases hp }
      profile := ⟨_, rfl, by rw [nameOf_withDive, if_pos rfl]⟩
      mentioned := by
        intro i
        simp [getElem?_withDive_tanks]
      nodes := by
        intro i p hp
        rw [getElem?_withDive_tanks] at hp
        cases hp
      inj := by
        intro i j n hi
        rw [getElem?_withDive_tanks] at hi
        cases hi
      only := fun n hn => .inl ((hkeeps.frame.nameOf_eq_iff (.inr rfl)).mp hn)
      mix := fun i => Std.TreeMap.getElem?_emptyc }

/-- **The prolog starts a dive without tanks.** -/
theorem uddfProlog_inDive (h : f.Clear) : InDive f (uddfProlog f) [] (headerMix []) := by
  have hstart := withDive_inDive h
  exact hstart.keeps (keepsTanks_working.prolog hstart.clear)

end BenthosDc

/-
BenthosDc/OutputUddfRuns.lean

Which dives the document of the UDDF formatter contains.

The callbacks work below the node of the dive: they change nothing about the root, the
profile data and the repetition groups (`Inner`), but for the token that makes a group.
So the document holds, group by group, the dives from the first one on whose header has a
repetition number 1 (`UddfLayout`), and it holds all of them exactly if that is the first
dive of the list (`keepsEveryDive_iff`).

The frame of a dive is an instance of `Working`: one rule for each operation on the heap, and
from these one lemma for each callback.
-/
import BenthosDc.OutputCsvRuns
import BenthosDc.UddfWork

namespace BenthosDc

open CString XmlHeap

/-! ### Steps inside a dive -/

/-- The nodes that a dive must not touch. -/
def Structural (name : Text) : Prop :=
  name = "uddf".toList ∨ name = "profiledata".toList ∨ name = "repetitiongroup".toList

instance : DecidablePred Structural := fun _ => instDecidableOr

/-- A name that is neither a dive's nor one of the nodes above the dives. -/
def Plain (name : Text) : Prop := ¬Structural name ∧ name ≠ "dive".toList

instance : DecidablePred Plain := fun _ => instDecidableAnd

/-- The nodes above the dives stay as they are, and no dive is made. -/
abbrev UddfFrame : Heap → Heap → Prop := Frame Structural (· = "dive".toList)

/-- The pointers of the formatter lead below the groups. -/
structure UddfFmtData.Own (f : UddfFmtData) : Prop extends f.Leads Structural where
  gasdef : Outside Structural f.doc f.gasdef

/-- From `f` to `f'` the formatter works inside a dive. -/
structure Inner (f f' : UddfFmtData) : Prop where
  frame : UddfFrame f.doc f'.doc
  root : f'.root = f.root
  profiles : f'.profiles = f.profiles
  repgrp : f'.repgrp = f.repgrp
  curProfile : f'.curProfile = f.curProfile
  own : f'.Own

variable {s : OutputFmtData} {f f' f'' : UddfFmtData} {p : Option NodeId}
variable {name content key value : Text}

/-- A change of the document that renames nothing. -/
theorem UddfFmtData.Own.setDoc (h : f.Own) {doc : Heap}
    (hnames : ∀ i t, nameOf f.doc i = some t → nameOf doc i = some t) :
    { f with doc := doc }.Own :=
  { h.toLeads.setDoc hnames with gasdef := h.gasdef.of_names hnames }

namespace Inner

theorem refl (h : f.Own) : Inner f f := ⟨Frame.refl _, rfl, rfl, rfl, rfl, h⟩

/-- One step after the other. -/
theorem trans (h₁ : Inner f f') (h₂ : Inner f' f'') : Inner f f'' where
  frame := h₁.frame.trans h₂.frame
  root := h₂.root.trans h₁.root
  profiles := h₂.profiles.trans h₁.profiles
  repgrp := h₂.repgrp.trans h₁.repgrp
  curProfile := h₂.curProfile.trans h₁.curProfile
  own := h₂.own

/-- A child below the dive. -/
theorem newChild (content : Text) (h : f.Own) (hp : Outside Structural f.doc p)
    (hname : Plain name) :
    Inner f (f.newChild p name content).1 ∧
      Outside Structural (f.newChild p name content).1.doc (f.newChild p name content).2 := by
  have hnew : UddfFrame f.doc (xmlNewChild f.doc p name content).1 ∧ _ :=
    Frame.newChild hp hname.1 hname.2
  exact ⟨⟨hnew.1, rfl, rfl, rfl, rfl, h.setDoc hnew.1.name⟩, hnew.2⟩

/-- An attribute below the dive. -/
theorem newProp (h : f.Own) : Inner f (f.newProp p key value) :=
  have hframe : UddfFrame f.doc (f.newProp p key value).doc := Frame.newProp p
  ⟨hframe, rfl, rfl, rfl, rfl, h.setDoc hframe.name⟩

end Inner

/-! ### The callbacks -/

/-- A token of a vendor is no structural node. -/
theorem vendorName_plain (e : HeaderEntry) : Plain (vendorName e) := by
  refine ⟨?_, vendorName_ne e (by decide) (by decide)⟩
  rintro (h | h | h)
  · exact vendorName_ne e (by decide) (by decide) h
  · exact vendorName_ne e (by decide) (by decide) h
  · exact vendorName_ne e (by decide) (by decide) h

/-- The work inside a dive. -/
theorem inner_working : Working Structural Plain UddfFmtData.Own Inner where
  refl := Inner.refl
  trans := Inner.trans
  inv := Inner.own
  leads := UddfFmtData.Own.toLeads
  nodes := fun h => h.frame.name
  newChild := Inner.newChild
  pointers := fun h hw ha hs hb hc => ⟨Frame.refl _, rfl, rfl, rfl, rfl, { h with
    curWaypoint := hw
    appdata := ha
    samples := hs
    before := hb
    after := hc }⟩
  work := by decide
  vendor := vendorName_plain

/-- A tank of the dive. -/
theorem uddfTank_inner (h : f.Own) (i : Nat) : Inner f (uddfTank f i) := by
  unfold uddfTank
  split
  · exact .refl h
  · obtain ⟨htank, hout⟩ := Inner.newChild [] h h.curProfile
      (by decide : Plain "tankdata".toList)
    refine htank.trans ⟨Frame.refl _, rfl, rfl, rfl, rfl, { htank.own with tanks := ?_ }⟩
    intro j q hq
    rw [Std.TreeMap.getElem?_insert] at hq
    split at hq
    · cases hq
      exact hout
    · exact htank.own.tanks j q hq

/-- A tank is below the dive. -/
theorem UddfFmtData.Own.tankNode (h : f.Own) (i : Nat) :
    Outside Structural f.doc (f.tankNode i) := by
  rcases htank : f.tanks[i]? with - | q
  · rw [UddfFmtData.tankNode, htank]
    exact Outside.none
  · rw [UddfFmtData.tankNode, htank]
    exact h.tanks i q htank

theorem uddfTankPressure_inner (h : f.Own) (e : HeaderEntry) (hname : Plain name) :
    Inner f (uddfTankPressure f e name) := by
  have htank := uddfTank_inner h e.index
  exact htank.trans (inner_working.leaf htank.own (htank.own.tankNode e.index) hname)

theorem uddfTankMix_inner (h : f.Own) (e : HeaderEntry) (set : Mix → Mix) :
    Inner f (uddfTankMix f e set) := by
  unfold uddfTankMix
  split
  · exact .refl h
  · have htank := uddfTank_inner h e.index
    exact htank.trans ⟨Frame.refl _, rfl, rfl, rfl, rfl, { htank.own with }⟩

/-- A header token that makes no group. -/
theorem uddfHeaderToken_inner (h : f.Own) {e : HeaderEntry} (he : ¬MakesGroup e) :
    Inner f (uddfHeaderToken f e) := by
  by_cases htank : MentionsTank e
  · obtain ⟨token, value, index, label⟩ := e
    rcases htank with ht | ht | ⟨ht | ht, -⟩ <;> cases ht
    · exact uddfTankPressure_inner h _ (by decide)
    · exact uddfTankPressure_inner h _ (by decide)
    · exact uddfTankMix_inner h _ fun mix => (value.setWidth 16, mix.2)
    · exact uddfTankMix_inner h _ fun mix => (mix.1, value.setWidth 16)
  · exact inner_working.headerToken h he htank

/-- A link to a gas. -/
theorem uddfLink_inner (h : f.Own) (hp : Outside Structural f.doc p) (ref : Text) :
    Inner f (uddfLink f p ref) := by
  obtain ⟨hmn, -⟩ := Inner.newChild [] h hp (by decide : Plain "link".toList)
  exact hmn.trans (.newProp hmn.own)

/-- The link of a tank. -/
theorem uddfTankLink_inner (h : f.Own) {tank : Nat × Option NodeId}
    (hp : Outside Structural f.doc tank.2) : Inner f (uddfTankLink f tank) := by
  unfold uddfTankLink
  split
  · exact uddfLink_inner h hp _
  · rename_i mix _
    split
    · have hmix : Inner f { f with mixes := f.mixes.insertIfNew (mixName f.mixes.size) mix } :=
        ⟨Frame.refl _, rfl, rfl, rfl, rfl, { h with }⟩
      exact hmix.trans (uddfLink_inner hmix.own hp _)
    · exact uddfLink_inner h hp _

theorem uddfMix_inner (h : f.Own) (mix : Text × Mix) : Inner f (uddfMix f mix) := by
  obtain ⟨hnode, hout⟩ := Inner.newChild [] h h.gasdef
    (by decide : Plain "mix".toList)
  have hid : Inner _ ((f.newChild f.gasdef "mix".toList []).1.newProp
      (f.newChild f.gasdef "mix".toList []).2 "id".toList mix.1) := Inner.newProp hnode.own
  refine hnode.trans (hid.trans (inner_working.leaves [("o2".toList, permille mix.2.1),
    ("n2".toList, permille (1000 - (mix.2.1 + mix.2.2))), ("he".toList, permille mix.2.2),
    ("ar".toList, "0.000".toList), ("h2".toList, "0.000".toList)] hid.own (hout.mono hid.frame) ?_))
  simp only [List.forall_mem_cons, List.not_mem_nil, false_imp_iff, implies_true, and_true]
  decide

/-- The end of the document. -/
theorem uddfClose_inner (h : f.Own) : Inner f (uddfClose f) :=
  inner_working.foldl _ h fun _ hg mix _ => uddfMix_inner hg.own mix

/-! ### The document -/

/-- The document between two callbacks: `gs` are the repetition groups, `att` the dives that
are linked to them, `ids` the dives made so far. -/
structure UddfLayout (f : UddfFmtData) (gs att ids : List NodeId) : Prop where
  own : f.Own
  root : nameOf f.doc f.root = some "uddf".toList
  profiles : ∃ p, f.profiles = some p ∧ nameOf f.doc p = some "profiledata".toList ∧
    p ∈ childrenOf f.doc f.root ∧ childrenOf f.doc p = gs
  repgrp : f.repgrp = gs.getLast?
  groups : ∀ g ∈ gs, nameOf f.doc g = some "repetitiongroup".toList
  nodup : gs.Nodup
  attached : gs.flatMap (childrenOf f.doc) = att
  dives : ∀ i, nameOf f.doc i = some "dive".toList ↔ i ∈ ids
  dives_nodup : ids.Nodup

variable {gs att ids ids' : List NodeId} {D : Text → Prop}

/-- What leaves the nodes above the dives alone changes at most which dives there are. -/
theorem UddfLayout.frame (h : UddfLayout f gs att ids) (hf : Frame Structural D f.doc f'.doc)
    (hroot : f'.root = f.root) (hprofiles : f'.profiles = f.profiles)
    (hrepgrp : f'.repgrp = f.repgrp) (hown : f'.Own)
    (hdives : ∀ i, nameOf f'.doc i = some "dive".toList ↔ i ∈ ids') (hnodup : ids'.Nodup) :
    UddfLayout f' gs att ids' where
  own := hown
  root := by rw [hroot]; exact hf.name _ _ h.root
  profiles := by
    obtain ⟨p, hp, hname, hmem, hchildren⟩ := h.profiles
    refine ⟨p, hprofiles.trans hp, hf.name _ _ hname, ?_, ?_⟩
    · rw [hroot, hf.children _ _ h.root (.inl rfl)]
      exact hmem
    · rw [hf.children _ _ hname (.inr (.inl rfl))]
      exact hchildren
  repgrp := hrepgrp.trans h.repgrp
  groups := fun g hg => hf.name _ _ (h.groups g hg)
  nodup := h.nodup
  attached := by
    rw [← h.attached]
    exact List.flatMap_congr fun g hg =>
      hf.children _ _ (h.groups g hg) (.inr (.inr rfl))
  dives := hdives
  dives_nodup := hnodup

/-- Work inside a dive does not change the layout. -/
theorem UddfLayout.inner (h : UddfLayout f gs att ids) (hi : Inner f f') :
    UddfLayout f' gs att ids := by
  refine h.frame hi.frame hi.root hi.profiles hi.repgrp hi.own ?_ h.dives_nodup
  intro i
  rw [hi.frame.nameOf_eq_iff (.inr rfl)]
  exact h.dives i

/-- The new node is a dive. -/
theorem nameOf_withDive (i : NodeId) : nameOf (withDive f).doc i =
    if i = f.doc.length then some "dive".toList else nameOf f.doc i := by
  rw [withDive, nameOf_xmlNewProp, nameOf_xmlNewNode]

/-- It has no tanks yet. -/
theorem getElem?_withDive_tanks (i : Nat) : (withDive f).tanks[i]? = none :=
  Std.TreeMap.getElem?_emptyc

/-- The new dive is the node behind the heap. -/
theorem UddfLayout.newDive (h : UddfLayout f gs att ids) :
    UddfLayout (withDive f) gs att (ids ++ [f.doc.length]) := by
  have hnode : Frame Structural (fun _ => False) f.doc (xmlNewNode f.doc "dive".toList []) :=
    Frame.newNode (by decide : ¬Structural "dive".toList) id
  have hframe : Frame Structural (fun _ => False) f.doc (withDive f).doc :=
    hnode.trans (Frame.newProp (some f.doc.length))
  have hown : (withDive f).Own :=
    { gasdef := h.own.gasdef.mono hframe
      curProfile := by
        rintro i ⟨⟩
        exact ⟨_, by rw [nameOf_withDive, if_pos rfl], by decide⟩
      curWaypoint := Outside.none
      appdata := h.own.appdata.mono hframe
      samples := h.own.samples.mono hframe
      before := h.own.before.mono hframe
      after := h.own.after.mono hframe
      tanks := by
        intro i p hp
        rw [getElem?_withDive_tanks] at hp
        cases hp }
  have hnone : nameOf f.doc f.doc.length = none := nameOf_eq_none_iff.mpr le_rfl
  have hfresh : f.doc.length ∉ ids := by
    intro hmem
    rw [(h.dives _).mpr hmem] at hnone
    cases hnone
  refine h.frame hframe rfl rfl rfl hown ?_ ?_
  · intro i
    rw [nameOf_withDive, List.mem_append, List.mem_singleton]
    by_cases hi : i = f.doc.length
    · exact iff_of_true (if_pos hi) (.inr hi)
    · rw [if_neg hi, h.dives i]
      exact (or_iff_left hi).symm
  · exact h.dives_nodup.append (List.nodup_singleton _) (by simpa using hfresh)

/-- **The prolog** adds a dive that is linked to nothing. -/
theorem UddfLayout.prolog (h : UddfLayout f gs att ids) :
    UddfLayout (uddfProlog f) gs att (ids ++ [f.doc.length]) ∧
      (uddfProlog f).curProfile = some f.doc.length := by
  have hchildren := inner_working.prolog h.newDive.own
  exact ⟨h.newDive.inner hchildren, hchildren.curProfile⟩

/-- The new group is the node behind the heap, and the last child of the profiles. -/
theorem uddfNewGroup_doc {p : NodeId} (hp : f.profiles = some p) :
    (uddfNewGroup f).doc = xmlNewProp (xmlAddChild (xmlNewNode f.doc
      "repetitiongroup".toList []) (some p) f.doc.length) (some f.doc.length) "id".toList
      ("benthos_repgroup_".toList ++ f.ts ++ '_' :: padded 3 f.rgid) ∧
      (uddfNewGroup f).repgrp = some f.doc.length := by
  simp only [uddfNewGroup, UddfFmtData.newChild, UddfFmtData.newProp, hp, xmlNewChild_some,
    and_self]

/-- The new node is a group. -/
theorem nameOf_uddfNewGroup {p : NodeId} (hp : f.profiles = some p) (i : NodeId) :
    nameOf (uddfNewGroup f).doc i =
      if i = f.doc.length then some "repetitiongroup".toList else nameOf f.doc i := by
  rw [(uddfNewGroup_doc hp).1, nameOf_xmlNewProp, nameOf_xmlAddChild, nameOf_xmlNewNode]

/-- The other nodes keep their children. -/
theorem childrenOf_uddfNewGroup_of_ne {p i : NodeId} (hp : f.profiles = some p) (hi : i ≠ p) :
    childrenOf (uddfNewGroup f).doc i = childrenOf f.doc i := by
  rw [(uddfNewGroup_doc hp).1, childrenOf_xmlNewProp, childrenOf_xmlAddChild_of_ne hi,
    childrenOf_xmlNewNode]

/-- The group stands behind the others. -/
theorem childrenOf_uddfNewGroup_self {p : NodeId} {t : Text} (hp : f.profiles = some p)
    (hname : nameOf f.doc p = some t) :
    childrenOf (uddfNewGroup f).doc p = childrenOf f.doc p ++ [f.doc.length] := by
  have hname' : nameOf (xmlNewNode f.doc "repetitiongroup".toList []) p = some t := by
    rw [nameOf_xmlNewNode, if_neg (ne_length_of_nameOf hname), hname]
  rw [(uddfNewGroup_doc hp).1, childrenOf_xmlNewProp, childrenOf_xmlAddChild_self hname',
    childrenOf_xmlNewNode]

/-- A new group, at the end and still without dives. -/
theorem UddfLayout.newGroup (h : UddfLayout f gs att ids) :
    UddfLayout (uddfNewGroup f) (gs ++ [f.doc.length]) att ids ∧
      (uddfNewGroup f).curProfile = f.curProfile := by
  obtain ⟨p, hp, hpname, hpmem, hpchildren⟩ := h.profiles
  have hold : ∀ {i t}, nameOf f.doc i = some t → nameOf (uddfNewGroup f).doc i = some t := by
    intro i t hi
    rw [nameOf_uddfNewGroup hp, if_neg (ne_length_of_nameOf hi), hi]
  have hgp : ∀ g ∈ gs, g ≠ p := by
    rintro g hg rfl
    rw [h.groups g hg] at hpname
    exact absurd hpname (by decide)
  have hrootp : f.root ≠ p := by
    intro heq
    rw [← heq, h.root] at hpname
    exact absurd hpname (by decide)
  refine ⟨?_, rfl⟩
  exact
    { own := { h.own.setDoc fun _ _ => hold with }
      root := hold h.root
      profiles := by
        refine ⟨p, hp, hold hpname, ?_, ?_⟩
        · show p ∈ childrenOf _ f.root
          rw [childrenOf_uddfNewGroup_of_ne hp hrootp]
          exact hpmem
        · rw [childrenOf_uddfNewGroup_self hp hpname, hpchildren]
      repgrp := by rw [(uddfNewGroup_doc hp).2, List.getLast?_concat]
      groups := by
        intro g hg
        rcases List.mem_append.mp hg with hg | hg
        · exact hold (h.groups g hg)
        · rw [List.mem_singleton.mp hg, nameOf_uddfNewGroup hp, if_pos rfl]
      nodup := by
        apply h.nodup.append (List.nodup_singleton _)
        rw [List.disjoint_singleton]
        intro hg
        exact ne_length_of_nameOf (h.groups _ hg) rfl
      attached := by
        have hempty : childrenOf f.doc f.doc.length = [] := by simp [childrenOf]
        rw [List.flatMap_append, List.flatMap_singleton,
          childrenOf_uddfNewGroup_of_ne hp (ne_length_of_nameOf hpname).symm, hempty,
          List.append_nil, ← h.attached]
        exact List.flatMap_congr fun g hg => childrenOf_uddfNewGroup_of_ne hp (hgp g hg)
      dives := by
        intro i
        rw [← h.dives i, nameOf_uddfNewGroup hp]
        by_cases hi : i = f.doc.length
        · subst hi
          have hnone : nameOf f.doc f.doc.length = none := nameOf_eq_none_iff.mpr le_rfl
          rw [if_pos rfl, hnone]
          decide
        · rw [if_neg hi]
      dives_nodup := h.dives_nodup }

/-- The dive is linked to the last group, if there is one. -/
theorem UddfLayout.link {d : NodeId} (h : UddfLayout f gs att ids) :
    UddfLayout { f with doc := xmlAddChild f.doc f.repgrp d } gs
      (if gs = [] then att else att ++ [d]) ids := by
  have hname : ∀ i, nameOf (xmlAddChild f.doc f.repgrp d) i = nameOf f.doc i :=
    fun i => nameOf_xmlAddChild _
  have hown := h.own.setDoc fun i t hi => (hname i).trans hi
  rcases List.eq_nil_or_concat' gs with rfl | ⟨pre, g, rfl⟩
  · -- `xmlAddChild` does nothing on the null pointer
    have hdoc : xmlAddChild f.doc f.repgrp d = f.doc := by
      rw [h.repgrp]
      rfl
    rw [hdoc, if_pos rfl]
    exact h
  · have hrepgrp : f.repgrp = some g := by rw [h.repgrp, List.getLast?_concat]
    have hgname : nameOf f.doc g = some "repetitiongroup".toList :=
      h.groups g (List.mem_append_right _ (List.mem_singleton_self g))
    have hchildren : ∀ i, i ≠ g →
        childrenOf (xmlAddChild f.doc f.repgrp d) i = childrenOf f.doc i := by
      intro i hi
      rw [hrepgrp, childrenOf_xmlAddChild_of_ne hi]
    have hg : childrenOf (xmlAddChild f.doc f.repgrp d) g = childrenOf f.doc g ++ [d] := by
      rw [hrepgrp, childrenOf_xmlAddChild_self hgname]
    have hne : ∀ {i t}, nameOf f.doc i = some t → t ≠ "repetitiongroup".toList → i ≠ g := by
      rintro i t hi ht rfl
      rw [hgname] at hi
      exact ht (Option.some.inj hi).symm
    obtain ⟨p, hp, hpname, hpmem, hpchildren⟩ := h.profiles
    refine ⟨hown, (hname _).trans h.root, ⟨p, hp, (hname _).trans hpname, ?_, ?_⟩, h.repgrp,
      fun i hi => (hname i).trans (h.groups i hi), h.nodup, ?_,
      fun i => (by rw [hname]; exact h.dives i), h.dives_nodup⟩
    · show p ∈ childrenOf (xmlAddChild f.doc f.repgrp d) f.root
      rw [hchildren _ (hne h.root (by decide))]
      exact hpmem
    · show childrenOf (xmlAddChild f.doc f.repgrp d) p = _
      rw [hchildren _ (hne hpname (by decide))]
      exact hpchildren
    · -- the groups before the last keep their children
      have hpre : g ∉ pre := by
        have := List.nodup_append.mp h.nodup
        exact fun hmem => this.2.2 g hmem g (List.mem_singleton_self g) rfl
      show List.flatMap (childrenOf (xmlAddChild f.doc f.repgrp d)) (pre ++ [g]) = _
      rw [if_neg (by simp), ← h.attached, List.flatMap_append, List.flatMap_append,
        List.flatMap_singleton, List.flatMap_singleton, hg, ← List.append_assoc]
      congr 2
      exact List.flatMap_congr fun i hi => hchildren i (fun heq => hpre (heq ▸ hi))

/-- **The epilog** links the dive to the last group, if there is one. -/
theorem UddfLayout.epilog {d : NodeId} (h : UddfLayout f gs att ids) (hd : f.curProfile = some d) :
    UddfLayout (uddfEpilog f) gs (if gs = [] then att else att ++ [d]) ids ∧
      (uddfEpilog f).curProfile = some d := by
  let f₁ : UddfFmtData := { f with doc := xmlAddChild f.doc f.repgrp d }
  have h₁ : UddfLayout f₁ gs (if gs = [] then att else att ++ [d]) ids := h.link
  have htanks : Inner f₁ (uddfEpilog f) := by
    have hepilog : uddfEpilog f = f₁.tanks.toList.foldl uddfTankLink f₁ := by
      simp only [uddfEpilog, hd, f₁]
    rw [hepilog]
    refine inner_working.foldl _ h₁.own fun g hg tank htank => uddfTankLink_inner hg.own ?_
    have hget : f₁.tanks[tank.1]? = some tank.2 :=
      Std.TreeMap.mem_toList_iff_getElem?_eq_some.mp htank
    exact (h₁.own.tanks tank.1 tank.2 hget).mono hg.frame
  exact ⟨h₁.inner htanks, htanks.curProfile.trans hd⟩

/-! ### Runs -/

/-- The header of the dive makes a repetition group. -/
def Grouped (s : OutputFmtData) (d : DiveTokens) : Prop :=
  s.outputHeader = true ∧ ∃ e ∈ d.header, MakesGroup e

instance (s : OutputFmtData) : DecidablePred (Grouped s) := fun _ => instDecidableAnd

/-- The header tokens of a dive may make groups. -/
theorem UddfLayout.header (hdr : List HeaderEntry) (h : UddfLayout f gs att ids) :
    ∃ gs', UddfLayout (hdr.foldl (uddfHeaderCb s) f) gs' att ids ∧
      (hdr.foldl (uddfHeaderCb s) f).curProfile = f.curProfile ∧
      (gs' = [] ↔ gs = [] ∧ ¬(s.outputHeader = true ∧ ∃ e ∈ hdr, MakesGroup e)) := by
  induction hdr generalizing f gs with
  | nil => exact ⟨gs, h, rfl, by simp⟩
  | cons e hdr ih =>
    rw [List.foldl_cons]
    by_cases hs : s.outputHeader = true
    · have hcb : uddfHeaderCb s f e = uddfHeaderToken f e := if_pos hs
      rw [hcb]
      by_cases he : MakesGroup e
      · have htoken : uddfHeaderToken f e = uddfNewGroup f := by
          obtain ⟨token, value, index, name⟩ := e
          obtain ⟨rfl, rfl⟩ := he
          rfl
        obtain ⟨hgroup, hcur⟩ := h.newGroup
        obtain ⟨gs', h', hcur', hnil⟩ := ih hgroup
        rw [htoken]
        refine ⟨gs', h', hcur'.trans hcur, ?_⟩
        rw [hnil]
        simp [hs, he]
      · have hinner := uddfHeaderToken_inner h.own he
        obtain ⟨gs', h', hcur', hnil⟩ := ih (h.inner hinner)
        refine ⟨gs', h', hcur'.trans hinner.curProfile, ?_⟩
        rw [hnil]
        simp [he]
    · have hcb : uddfHeaderCb s f e = f := if_neg hs
      obtain ⟨gs', h', hcur', hnil⟩ := ih h
      rw [hcb]
      refine ⟨gs', h', hcur', ?_⟩
      rw [hnil]
      simp [hs]

/-- **One dive: it is made, and linked if there is a group by then.** -/
theorem UddfLayout.dive (h : UddfLayout f gs att ids) (d : DiveTokens) :
    ∃ gs', UddfLayout ((uddfFormatter s).dive f d) gs'
        (if gs' = [] then att else att ++ [f.doc.length]) (ids ++ [f.doc.length]) ∧
      ((uddfFormatter s).dive f d).curProfile = some f.doc.length ∧
      (gs' = [] ↔ gs = [] ∧ ¬Grouped s d) := by
  obtain ⟨hprolog, hcur⟩ := h.prolog
  obtain ⟨gs', hheader, hcur', hnil⟩ := hprolog.header (s := s) d.header
  have hprofile := inner_working.profile (s := s) hheader.own d.profile
  obtain ⟨hepilog, hlast⟩ :=
    (hheader.inner hprofile).epilog (hprofile.curProfile.trans (hcur'.trans hcur))
  exact ⟨gs', hepilog, hlast, hnil⟩

/-- The nodes that `uddf_init_formatter` makes. -/
theorem nameOf_uddfInit (version date ts : Text) (i : NodeId) :
    nameOf (uddfInit version date ts).doc i =
      ["uddf".toList, "generator".toList, "name".toList, "version".toList, "datetime".toList,
        "gasdefinitions".toList, "profiledata".toList][i]? := by
  have hnames : (uddfInit version date ts).doc.map (·.name) =
      ["uddf".toList, "generator".toList, "name".toList, "version".toList, "datetime".toList,
        "gasdefinitions".toList, "profiledata".toList] := rfl
  rw [← hnames, List.getElem?_map]
  rfl

/-- The document begins without groups. -/
theorem uddfInit_layout (version date ts : Text) :
    UddfLayout (uddfInit version date ts) [] [] [] := by
  have hname := nameOf_uddfInit version date ts
  refine
    { own := ⟨uddfInit_leads Structural version date ts, ?_⟩
      root := hname 0
      profiles := ⟨6, rfl, hname 6, ?_, rfl⟩
      repgrp := rfl
      groups := fun _ hg => absurd hg List.not_mem_nil
      nodup := List.nodup_nil
      attached := rfl
      dives := ?_
      dives_nodup := List.nodup_nil }
  · rintro i ⟨⟩
    exact ⟨_, hname 5, by decide⟩
  · have hroot : childrenOf (uddfInit version date ts).doc (uddfInit version date ts).root =
        [1, 5, 6] := rfl
    rw [hroot]
    decide
  · intro i
    rw [hname]
    refine iff_of_false (fun hi => ?_) List.not_mem_nil
    exact absurd (List.mem_of_getElem? hi) (by decide)

/-- The nodes made for the dives of a list, in order. -/
def uddfDiveNodes (s : OutputFmtData) : UddfFmtData → List DiveTokens → List NodeId
  | _, [] => []
  | f, d :: ds =>
      ((uddfFormatter s).dive f d).curProfile.toList ++
        uddfDiveNodes s ((uddfFormatter s).dive f d) ds

/-- The number of dives in front of the first one that makes a group. -/
def ungrouped (s : OutputFmtData) (ds : List DiveTokens) : Nat :=
  (ds.takeWhile fun d => ¬Grouped s d).length

/-- **A list of dives: those in front of the first group are lost.** -/
theorem UddfLayout.run (h : UddfLayout f gs att ids) (ds : List DiveTokens) :
    ∃ gs', UddfLayout ((uddfFormatter s).dives f ds) gs'
        (att ++ (uddfDiveNodes s f ds).drop (if gs = [] then ungrouped s ds else 0))
        (ids ++ uddfDiveNodes s f ds) ∧
      (uddfDiveNodes s f ds).length = ds.length := by
  induction ds generalizing f gs att ids with
  | nil => exact ⟨gs, by simpa [uddfDiveNodes] using h, rfl⟩
  | cons d ds ih =>
    obtain ⟨gs₁, hdive, hcur, hnil⟩ := h.dive (s := s) d
    obtain ⟨gs', hrest, hlen⟩ := ih hdive
    have hnodes : uddfDiveNodes s f (d :: ds) =
        f.doc.length :: uddfDiveNodes s ((uddfFormatter s).dive f d) ds := by
      rw [uddfDiveNodes, hcur]
      rfl
    refine ⟨gs', ?_, by rw [hnodes, List.length_cons, hlen, List.length_cons]⟩
    rw [hnodes]
    rw [List.append_assoc, List.singleton_append] at hrest
    by_cases hgs : gs₁ = []
    · -- the dive is lost, and there is still no group
      obtain ⟨hgs₀, hd⟩ := hnil.mp hgs
      have hcount : ungrouped s (d :: ds) = ungrouped s ds + 1 := by
        rw [ungrouped, List.takeWhile_cons_of_pos (by simpa using hd), List.length_cons]
        rfl
      rw [if_pos hgs, if_pos hgs] at hrest
      rw [if_pos hgs₀, hcount, List.drop_succ_cons]
      exact hrest
    · have hcount : (if gs = [] then ungrouped s (d :: ds) else 0) = 0 := by
        by_cases hgs₀ : gs = []
        · have hd : Grouped s d := by
            by_contra hd
            exact hgs (hnil.mpr ⟨hgs₀, hd⟩)
          rw [if_pos hgs₀, ungrouped, List.takeWhile_cons_of_neg (by simpa using hd)]
          rfl
        · exact if_neg hgs₀
      rw [if_neg hgs, if_neg hgs, List.append_assoc] at hrest
      rw [hcount]
      exact hrest

/-- The saved document has one dive node for each dive, in order, each below a repetition
group of the profile data. -/
structure KeepsEveryDive (f : UddfFmtData) (dives : List NodeId) : Prop where
  nodup : dives.Nodup
  named : ∀ i ∈ dives, nameOf f.doc i = some "dive".toList
  only : ∀ i, Below f.doc f.root i → nameOf f.doc i = some "dive".toList → i ∈ dives
  linked : ∃ p gs, f.profiles = some p ∧ p ∈ childrenOf f.doc f.root ∧
    nameOf f.doc p = some "profiledata".toList ∧ childrenOf f.doc p = gs ∧
    (∀ g ∈ gs, nameOf f.doc g = some "repetitiongroup".toList) ∧
    gs.flatMap (childrenOf f.doc) = dives

/-- All dives are kept if all of them are attached. -/
theorem UddfLayout.keepsEveryDive_eq_iff (h : UddfLayout f gs att ids) :
    KeepsEveryDive f ids ↔ att = ids := by
  obtain ⟨p, hp, hpname, hpmem, hpchildren⟩ := h.profiles
  constructor
  · intro hk
    obtain ⟨q, gs', hq, -, -, hqchildren, -, hflat⟩ := hk.linked
    obtain rfl : p = q := Option.some.inj (hp.symm.trans hq)
    rw [← h.attached, ← hpchildren, hqchildren, hflat]
  · rintro rfl
    exact ⟨h.dives_nodup, fun i hi => (h.dives i).mpr hi, fun i _ hi => (h.dives i).mp hi,
      ⟨p, gs, hp, hpmem, hpname, hpchildren, h.groups, h.attached⟩⟩

/-- **The document keeps every dive of a list exactly if the first one makes a repetition
group.** -/
theorem keepsEveryDive_iff (s : OutputFmtData) (version date ts : Text) (ds : List DiveTokens) :
    KeepsEveryDive
        ((uddfFormatter s).closeFn ((uddfFormatter s).dives (uddfInit version date ts) ds))
        (uddfDiveNodes s (uddfInit version date ts) ds) ↔
      ∀ d ∈ ds.head?, Grouped s d := by
  obtain ⟨gs, hdives, hlen⟩ := (uddfInit_layout version date ts).run (s := s) ds
  have hclose := hdives.inner (uddfClose_inner hdives.own)
  rw [List.nil_append, List.nil_append, if_pos rfl] at hclose
  rw [show (uddfFormatter s).closeFn = uddfClose from rfl, hclose.keepsEveryDive_eq_iff]
  cases ds with
  | nil => simp [uddfDiveNodes]
  | cons d ds =>
    by_cases hd : Grouped s d
    · have hcount : ungrouped s (d :: ds) = 0 := by
        rw [ungrouped, List.takeWhile_cons_of_neg (by simpa using hd)]
        rfl
      rw [hcount]
      exact iff_of_true rfl (by simpa using hd)
    · have hcount : 0 < ungrouped s (d :: ds) := by
        rw [ungrouped, List.takeWhile_cons_of_pos (by simpa using hd)]
        exact Nat.succ_pos _
      refine iff_of_false (fun heq => ?_) (by simpa using hd)
      have hshort := congrArg List.length heq
      rw [List.length_drop, hlen, List.length_cons] at hshort
      omega

/-- A dive without header tokens is lost. -/
theorem not_keepsEveryDive_plain :
    ¬KeepsEveryDive
      ((uddfFormatter ⟨true, true⟩).closeFn
        ((uddfFormatter ⟨true, true⟩).dives (uddfInit [] [] []) [oneWaypoint]))
      (uddfDiveNodes ⟨true, true⟩ (uddfInit [] [] []) [oneWaypoint]) := by
  rintro ⟨-, -, -, ⟨p, gs, ⟨⟩, -, -, rfl, -, hflat⟩⟩
  revert hflat
  decide +kernel

end BenthosDc

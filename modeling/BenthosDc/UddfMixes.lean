/-
BenthosDc/UddfMixes.lean

The gas mixes of the UDDF formatter, and the links to them.

Links are made in the epilog of a dive, and nowhere else.  The id of a new mix is made from
the number of mixes, which only grows, and the predefined mixes have ids of another form, so
that the id is new (`MixesOk.fresh`).  So behind every epilog each tank of each dive has one
link, to the mix that the header tokens of its dive report (`uddfLinks_sound`).
-/
import BenthosDc.UddfTanks

namespace BenthosDc

open CString XmlHeap

variable {s : OutputFmtData} {f f' f'' f₀ : UddfFmtData} {mixes : Std.TreeMap Text Mix}
variable {k ref : Text} {m : Mix} {n : NodeId}

/-! ### The list of mixes

The list starts with three predefined mixes and grows by mixes that are not in it.
-/

/-- Air and two nitrox mixes. -/
def predefined : List (Text × Mix) :=
  [("air".toList, (210, 0)), ("ean32".toList, (320, 0)), ("ean36".toList, (360, 0))]

/-- What holds of the mixes between two dives. -/
structure MixesOk (mixes : Std.TreeMap Text Mix) : Prop where
  air : mixes["air".toList]? = some (210, 0)
  names : ∀ (k : Text) m, mixes[k]? = some m →
    k ∈ predefined.map Prod.fst ∨ ∃ j, k = mixName j ∧ j < mixes.size
  distinct : ∀ (k k' : Text) m, mixes[k]? = some m → mixes[k']? = some m → k = k'

/-- An id that is made has a number in it. -/
theorem mixName_not_predefined (j : Nat) : mixName j ∉ predefined.map Prod.fst := by
  intro hmem
  rcases List.mem_cons.mp hmem with h | hmem
  · cases h
  · rcases List.mem_cons.mp hmem with h | hmem
    · cases h
    · cases List.mem_singleton.mp hmem

/-- A mix that is not found is not there. -/
theorem find?_mix_eq_none :
    mixes.toList.find? (·.2 = m) = none ↔ ∀ k : Text, mixes[k]? ≠ some m := by
  rw [List.find?_eq_none]
  constructor
  · intro h k hk
    exact h (k, m) (Std.TreeMap.mem_toList_iff_getElem?_eq_some.mpr hk) (decide_eq_true rfl)
  · rintro h ⟨k, m'⟩ hmem heq
    obtain rfl : m' = m := of_decide_eq_true heq
    exact h k (Std.TreeMap.mem_toList_iff_getElem?_eq_some.mp hmem)

namespace MixesOk

/-- **The number of mixes makes a new id.** -/
theorem fresh (h : MixesOk mixes) : mixName mixes.size ∉ mixes := by
  intro hmem
  rcases h.names _ _ (Std.TreeMap.getElem?_eq_some_getElem hmem) with hpre | ⟨j, hj, hlt⟩
  · exact mixName_not_predefined _ hpre
  · rw [mixName_inj hj] at hlt
    exact Nat.lt_irrefl j hlt

/-- What the list has behind a new mix. -/
theorem getElem?_add (h : MixesOk mixes) (k : Text) :
    (mixes.insertIfNew (mixName mixes.size) m)[k]? =
      if k = mixName mixes.size then some m else mixes[k]? := by
  rw [Std.TreeMap.getElem?_insertIfNew]
  by_cases hk : k = mixName mixes.size
  · rw [if_pos hk, if_pos ⟨Std.LawfulEqCmp.compare_eq_iff_eq.mpr hk.symm, h.fresh⟩]
  · rw [if_neg hk, if_neg fun heq => hk (Std.LawfulEqCmp.compare_eq_iff_eq.mp heq.1).symm]

theorem grows (h : MixesOk mixes) {m' : Mix} (hk : mixes[k]? = some m') :
    (mixes.insertIfNew (mixName mixes.size) m)[k]? = some m' := by
  rw [h.getElem?_add, if_neg, hk]
  rintro rfl
  rw [Std.TreeMap.getElem?_eq_none h.fresh] at hk
  cases hk

/-- The list stays in order. -/
theorem add (h : MixesOk mixes) (hm : ∀ k : Text, mixes[k]? ≠ some m) :
    MixesOk (mixes.insertIfNew (mixName mixes.size) m) := by
  have hsize : (mixes.insertIfNew (mixName mixes.size) m).size = mixes.size + 1 := by
    rw [Std.TreeMap.size_insertIfNew, if_neg h.fresh]
  refine ⟨h.grows h.air, ?_, ?_⟩
  · intro k m' hk
    rw [h.getElem?_add] at hk
    rw [hsize]
    split at hk
    · next heq => exact .inr ⟨_, heq, Nat.lt_succ_self _⟩
    · apply (h.names k m' hk).imp_right
      rintro ⟨j, hj, hlt⟩
      exact ⟨j, hj, Nat.lt_succ_of_lt hlt⟩
  · intro k k' m' hk hk'
    rw [h.getElem?_add] at hk hk'
    -- the new mix has another composition than all others
    split at hk
    · next heq =>
      obtain rfl := Option.some.inj hk
      split at hk'
      · next heq' => exact heq.trans heq'.symm
      · exact absurd hk' (hm k')
    · split at hk'
      · obtain rfl := Option.some.inj hk'
        exact absurd hk (hm k)
      · exact h.distinct k k' m' hk hk'

end MixesOk

/-! ### The epilog

The tanks of the dive are gone through, and each of them gets a link.
-/

/-- The node of a link. -/
def linkTo (ref : Text) : XmlNode := ⟨"link".toList, [], [("ref".toList, ref)], []⟩

/-- The id of a mix of the list: of the one given, or of air. -/
def Refers (mixes : Std.TreeMap Text Mix) (mix : Option Mix) (ref : Text) : Prop :=
  mixes[ref]? = some (mix.getD (210, 0)) ∧ (mix = none → ref = "air".toList)

/-- From `f` to `f'` tanks are linked to mixes: `new` are the new links of each node. -/
structure LinksTanks (f f' : UddfFmtData) (new : NodeId → List XmlNode) : Prop where
  doc : Frame (· = "gasdefinitions".toList) (· = "tankdata".toList) f.doc f'.doc
  links : ∀ n, linksAt f'.doc n = linksAt f.doc n ++ new n
  gasdef : f'.gasdef = f.gasdef
  tanks : f'.tanks = f.tanks
  curMixes : f'.curMixes = f.curMixes
  mixes : MixesOk f'.mixes
  grows : ∀ (k : Text) m, f.mixes[k]? = some m → f'.mixes[k]? = some m
  clear : f'.Clear

namespace LinksTanks

variable {new new' : NodeId → List XmlNode}

/-- No link is made. -/
theorem refl (h : f.Clear) (hmixes : MixesOk f.mixes) : LinksTanks f f fun _ => [] :=
  ⟨.refl _, fun _ => (List.append_nil _).symm, rfl, rfl, rfl, hmixes, fun _ _ hk => hk, h⟩

theorem trans (h₁ : LinksTanks f f' new) (h₂ : LinksTanks f' f'' new') :
    LinksTanks f f'' fun n => new n ++ new' n where
  doc := h₁.doc.trans h₂.doc
  links := fun n => by rw [h₂.links, h₁.links, List.append_assoc]
  gasdef := h₂.gasdef.trans h₁.gasdef
  tanks := h₂.tanks.trans h₁.tanks
  curMixes := h₂.curMixes.trans h₁.curMixes
  mixes := h₂.mixes
  grows := fun k m hk => h₂.grows k m (h₁.grows k m hk)
  clear := h₂.clear

end LinksTanks

theorem uddfLink_links (h : f.Clear) (hmixes : MixesOk f.mixes)
    (hn : nameOf f.doc n = some "tankdata".toList) (ref : Text) :
    LinksTanks f (uddfLink f (some n) ref) fun i => if i = n then [linkTo ref] else [] := by
  have hgas : Outside (· = "gasdefinitions".toList) f.doc (some n) := by
    rintro _ ⟨⟩
    exact ⟨_, hn, by decide⟩
  have hchild : Frame (· = "gasdefinitions".toList) (· = "tankdata".toList) f.doc
      (xmlNewChild f.doc (some n) "link".toList []).1 :=
    (Frame.newChild hgas (by decide) (by decide)).1
  have hdoc : Frame (· = "gasdefinitions".toList) (· = "tankdata".toList) f.doc
      (uddfLink f (some n) ref).doc := hchild.trans (Frame.newProp (some f.doc.length))
  have hclosed : Closed (xmlNewProp (xmlNewChild f.doc (some n) "link".toList []).1
      (some f.doc.length) "ref".toList ref) := (h.closed.newChild _).newProp _
  have hlinks : ∀ i, linksAt (uddfLink f (some n) ref).doc i =
      linksAt f.doc i ++ if i = n then [linkTo ref] else [] :=
    fun i => elementsNamed_newChild_prop h.closed hn (by decide)
  exact ⟨hdoc, hlinks, rfl, rfl, rfl, hmixes, fun _ _ hk => hk, h.setDoc hclosed hdoc.name⟩

/-- **One pass of the loop of `uddf_epilog`.** -/
theorem uddfTankLink_links (h : f.Clear) (hmixes : MixesOk f.mixes)
    (hn : nameOf f.doc n = some "tankdata".toList) (i : Nat) :
    ∃ ref, LinksTanks f (uddfTankLink f (i, some n)) (fun j => if j = n then [linkTo ref] else []) ∧
      Refers (uddfTankLink f (i, some n)).mixes f.curMixes[mixName i]? ref := by
  unfold uddfTankLink
  split
  · next hmix =>
    rw [hmix]
    exact ⟨_, uddfLink_links h hmixes hn _, hmixes.air, fun _ => rfl⟩
  · next mix hmix =>
    rw [hmix]
    split
    · next hfind =>
      have hadd := hmixes.add (find?_mix_eq_none.mp hfind)
      let f₁ := { f with mixes := f.mixes.insertIfNew (mixName f.mixes.size) mix }
      have hlink : LinksTanks f₁ (uddfLink f₁ (some n) (mixName f.mixes.size)) _ :=
        uddfLink_links (f := f₁) { h with } hadd hn _
      refine ⟨_, { hlink with grows := fun k m hk => hlink.grows k m (hmixes.grows hk) }, ?_, nofun⟩
      exact (hmixes.getElem?_add _).trans (if_pos rfl)
    · next known hfind =>
      have hmem := List.mem_of_find?_eq_some hfind
      have heq : known.2 = mix := by simpa using List.find?_some hfind
      have hget : f.mixes[known.1]? = some mix :=
        heq ▸ Std.TreeMap.mem_toList_iff_getElem?_eq_some.mp hmem
      exact ⟨_, uddfLink_links h hmixes hn _, hget, nofun⟩

/-- The loop over the tanks: the tanks that come later have other nodes. -/
theorem uddfTankLinks (ts : List (Nat × Option NodeId)) (h : f.Clear) (hmixes : MixesOk f.mixes)
    (hnodes : ∀ t ∈ ts, ∃ n, t.2 = some n ∧ nameOf f.doc n = some "tankdata".toList)
    (hdistinct : (ts.map (·.2)).Nodup) :
    ∃ new, LinksTanks f (ts.foldl uddfTankLink f) new ∧ (∀ n, some n ∉ ts.map (·.2) → new n = []) ∧
      ∀ t ∈ ts, ∀ n, t.2 = some n → ∃ ref, new n = [linkTo ref] ∧
        Refers (ts.foldl uddfTankLink f).mixes f.curMixes[mixName t.1]? ref := by
  induction ts generalizing f with
  | nil => exact ⟨_, .refl h hmixes, fun _ _ => rfl, fun _ ht => absurd ht List.not_mem_nil⟩
  | cons t ts ih =>
    obtain ⟨i, p⟩ := t
    obtain ⟨n, rfl, hn⟩ := hnodes _ List.mem_cons_self
    obtain ⟨hout, hdistinct⟩ := List.nodup_cons.mp hdistinct
    obtain ⟨ref, hlink, hrefers⟩ := uddfTankLink_links h hmixes hn i
    have hnodes' : ∀ t ∈ ts, ∃ n', t.2 = some n' ∧
        nameOf (uddfTankLink f (i, some n)).doc n' = some "tankdata".toList := by
      intro t ht
      obtain ⟨n', hn', hname⟩ := hnodes t (List.mem_cons_of_mem _ ht)
      exact ⟨n', hn', hlink.doc.name n' _ hname⟩
    obtain ⟨new, hrest, hnone, hnew⟩ := ih hlink.clear hlink.mixes hnodes' hdistinct
    refine ⟨_, hlink.trans hrest, ?_, ?_⟩
    · intro j hj
      have hne : j ≠ n := fun heq => hj (heq ▸ List.mem_cons_self)
      rw [if_neg hne, hnone j fun hmem => hj (List.mem_cons_of_mem _ hmem)]
      rfl
    · intro t ht j hj
      rcases List.mem_cons.mp ht with rfl | ht'
      · obtain rfl := Option.some.inj hj
        refine ⟨ref, ?_, hrest.grows _ _ hrefers.1, hrefers.2⟩
        rw [if_pos rfl, hnone _ hout]
        rfl
      · have hne : j ≠ n := by
          rintro rfl
          exact hout (List.mem_map.mpr ⟨t, ht', hj⟩)
        obtain ⟨ref', hone, hrefers'⟩ := hnew t ht' j hj
        rw [hlink.curMixes] at hrefers'
        exact ⟨ref', by rw [if_neg hne, hone]; rfl, hrefers'⟩

/-- The dive is linked to its group. -/
theorem uddfAddDive_keepsTanks (h : f.Clear) {c : NodeId}
    (hc : nameOf f.doc c = some "dive".toList) :
    KeepsTanks f { f with doc := xmlAddChild f.doc f.repgrp c } := by
  have hlt : c < f.doc.length := by
    by_contra hle
    rw [nameOf_eq_none_iff.mpr (Nat.le_of_not_lt hle)] at hc
    cases hc
  have hdoc : KeepsLinks (· = "tankdata".toList) f.doc (xmlAddChild f.doc f.repgrp c) := by
    cases hgroup : f.repgrp with
    | none => exact .refl _
    | some p =>
      obtain ⟨t, ht, hguard⟩ := h.repgrp p hgroup
      refine ⟨Frame.addChild ht fun hgas => hguard (.inr hgas), fun i => ?_⟩
      exact elementsNamed_addChild ht (fun hlink => hguard (.inl hlink)) (by rw [hc]; decide)
  exact ⟨hdoc, rfl, rfl, rfl, rfl, rfl, h.setDoc (h.closed.addChild _ hlt) hdoc.frame.name⟩

/-- What a dive with the header tokens `hdr` adds to the tanks and mixes of `f₀`. -/
structure LinksDive (f₀ f : UddfFmtData) (hdr : List HeaderEntry) : Prop where
  doc : Frame (· = "gasdefinitions".toList) (fun _ => False) f₀.doc f.doc
  gasdef : f.gasdef = f₀.gasdef
  mixes : MixesOk f.mixes
  grows : ∀ (k : Text) m, f₀.mixes[k]? = some m → f.mixes[k]? = some m
  clear : f.Clear
  old : ∀ n t, nameOf f₀.doc n = some t → linksAt f.doc n = linksAt f₀.doc n
  mentioned : ∀ i : Nat,
    (∃ n, f.tanks[i]? = some (some n)) ↔ ∃ e ∈ hdr, MentionsTank e ∧ e.index = i
  tanks : ∀ (i : Nat) n, f.tanks[i]? = some (some n) →
    nameOf f.doc n = some "tankdata".toList ∧ nameOf f₀.doc n = none ∧
      ∃ ref, linksAt f.doc n = [linkTo ref] ∧ Refers f.mixes (headerMix hdr i) ref
  inj : ∀ (i j : Nat) n, f.tanks[i]? = some (some n) → f.tanks[j]? = some (some n) → i = j
  only : ∀ n, nameOf f.doc n = some "tankdata".toList →
    nameOf f₀.doc n = some "tankdata".toList ∨ ∃ i : Nat, f.tanks[i]? = some (some n)

/-- The tanks, as the loop of the epilog meets them, have nodes. -/
theorem InDive.toList_nodes {hdr : List HeaderEntry} {mix : Nat → Option Mix}
    (h : InDive f₀ f hdr mix) (t : Nat × Option NodeId) (ht : t ∈ f.tanks.toList) :
    ∃ n, t.2 = some n ∧ nameOf f.doc n = some "tankdata".toList := by
  obtain ⟨n, hn, hname, -⟩ := h.nodes t.1 t.2 (Std.TreeMap.mem_toList_iff_getElem?_eq_some.mp ht)
  exact ⟨n, hn, hname⟩

/-- No two tanks have one node. -/
theorem InDive.toList_distinct {hdr : List HeaderEntry} {mix : Nat → Option Mix}
    (h : InDive f₀ f hdr mix) : (f.tanks.toList.map (·.2)).Nodup := by
  have hget : ∀ t ∈ f.tanks.toList, f.tanks[t.1]? = some t.2 :=
    fun t ht => Std.TreeMap.mem_toList_iff_getElem?_eq_some.mp ht
  rw [List.Nodup, List.pairwise_map]
  refine Std.TreeMap.distinct_keys_toList.imp_of_mem fun {a b} ha hb hne heq => hne ?_
  obtain ⟨n, hn, -⟩ := h.nodes a.1 a.2 (hget a ha)
  have hkeys : a.1 = b.1 := by
    apply h.inj a.1 b.1 n ((hget a ha).trans (congrArg some hn))
    rw [hget b hb, ← heq, hn]
  exact Std.LawfulEqCmp.compare_eq_iff_eq.mpr hkeys

/-- **The epilog gives each tank of the dive its link.** -/
theorem InDive.epilog {hdr : List HeaderEntry} (h : InDive f₀ f hdr (headerMix hdr))
    (hmixes : MixesOk f₀.mixes) : LinksDive f₀ (uddfEpilog f) hdr := by
  obtain ⟨c, hcur, hcname⟩ := h.profile
  have hadd := h.keeps (uddfAddDive_keepsTanks h.clear hcname)
  obtain ⟨f₁, hf₁⟩ : ∃ f₁, f₁ = { f with doc := xmlAddChild f.doc f.repgrp c } := ⟨_, rfl⟩
  have hepilog : uddfEpilog f = f₁.tanks.toList.foldl uddfTankLink f₁ := by
    simp only [uddfEpilog, hcur, hf₁]
  rw [← hf₁] at hadd
  rw [hepilog]
  obtain ⟨new, hlinks, hnone, hnew⟩ := uddfTankLinks f₁.tanks.toList hadd.clear
    (hadd.mixes.symm ▸ hmixes) hadd.toList_nodes hadd.toList_distinct
  have hmem : ∀ {i : Nat} {n}, f₁.tanks[i]? = some (some n) → (i, some n) ∈ f₁.tanks.toList :=
    fun hi => Std.TreeMap.mem_toList_iff_getElem?_eq_some.mpr hi
  exact
    { doc := hadd.doc.frame.trans ⟨hlinks.doc.name, hlinks.doc.children,
        fun i t hi hi' => ⟨(hlinks.doc.fresh i t hi hi').1, id⟩⟩
      gasdef := hlinks.gasdef.trans hadd.gasdef
      mixes := hlinks.mixes
      grows := by
        intro k m hk
        apply hlinks.grows k m
        rw [hadd.mixes]
        exact hk
      clear := hlinks.clear
      old := by
        intro n t hn
        rw [hlinks.links, hadd.doc.links, hnone n, List.append_nil]
        intro hmem
        obtain ⟨t', ht', heq⟩ := List.mem_map.mp hmem
        obtain ⟨n', hn', -, hfresh⟩ :=
          hadd.nodes t'.1 t'.2 (Std.TreeMap.mem_toList_iff_getElem?_eq_some.mp ht')
        obtain rfl : n = n' := Option.some.inj (heq.symm.trans hn')
        rw [hn] at hfresh
        cases hfresh
      mentioned := by
        intro i
        rw [hlinks.tanks, ← hadd.mentioned i]
        constructor
        · rintro ⟨n, hn⟩
          exact ⟨_, hn⟩
        · rintro ⟨p, hp⟩
          obtain ⟨n, rfl, -⟩ := hadd.nodes i p hp
          exact ⟨n, hp⟩
      tanks := by
        intro i n hi
        rw [hlinks.tanks] at hi
        obtain ⟨n', heq, hname, hfresh⟩ := hadd.nodes i _ hi
        obtain rfl := Option.some.inj heq
        obtain ⟨ref, hone, hrefers⟩ := hnew _ (hmem hi) n rfl
        refine ⟨hlinks.doc.name n _ hname, hfresh, ref, ?_, ?_⟩
        · rw [hlinks.links, hadd.doc.links, linksAt, elementsNamed_eq_nil hfresh, hone]
          rfl
        · rw [← hadd.mix i]
          exact hrefers
      inj := by
        intro i j n
        rw [hlinks.tanks]
        exact hadd.inj i j n
      only := by
        intro n hn
        rw [hlinks.tanks]
        exact hadd.only n ((hlinks.doc.nameOf_eq_iff (.inr rfl)).mp hn) }

/-- **One dive.** -/
theorem uddfDive_links (h : f₀.Clear) (hmixes : MixesOk f₀.mixes) (d : DiveTokens) :
    LinksDive f₀ ((uddfFormatter s).dive f₀ d) (seenHeader s d) := by
  have hheader := (uddfProlog_inDive h).header (seenHeader s d)
  rw [List.nil_append, ← foldl_uddfHeaderCb] at hheader
  exact (hheader.keeps (keepsTanks_working.profile hheader.clear d.profile)).epilog hmixes

/-! ### Runs

A tank is known by its node.  The nodes of different dives are different, and a dive that is
over gets no link any more.
-/

/-- Node `n` was made for tank `i` of the dive `d`, which comes behind the dives `pre`. -/
def TankAt (s : OutputFmtData) (f₀ : UddfFmtData) (pre : List DiveTokens) (d : DiveTokens) (i : Nat)
    (n : NodeId) : Prop :=
  ((uddfFormatter s).dives f₀ (pre ++ [d])).tanks[i]? = some (some n)

/-- Node `n` was made for tank `i` of the dive `d`, one of `ds`. -/
def TankOf (s : OutputFmtData) (f₀ : UddfFmtData) (ds : List DiveTokens) (d : DiveTokens) (i : Nat)
    (n : NodeId) : Prop :=
  ∃ pre, pre ++ [d] <+: ds ∧ TankAt s f₀ pre d i n

/-- The tanks of a dive are those that its header tokens report. -/
def TanksReported (s : OutputFmtData) (f₀ : UddfFmtData) (ds : List DiveTokens) : Prop :=
  ∀ pre d i, pre ++ [d] <+: ds →
    ((∃ n, TankAt s f₀ pre d i n) ↔ ∃ e ∈ seenHeader s d, MentionsTank e ∧ e.index = i)

/-- A node is made for one tank of one dive. -/
def TanksApart (s : OutputFmtData) (f₀ : UddfFmtData) (ds : List DiveTokens) : Prop :=
  ∀ pre d i pre' d' i' n, pre ++ [d] <+: ds → pre' ++ [d'] <+: ds →
    TankAt s f₀ pre d i n → TankAt s f₀ pre' d' i' n → pre = pre' ∧ i = i'

variable {ds : List DiveTokens} {d d' : DiveTokens} {i : Nat}

/-- A dive is the last one of the list, or one of those before. -/
theorem prefix_concat_dive {pre : List DiveTokens} (h : pre ++ [d] <+: ds ++ [d']) :
    (pre = ds ∧ d = d') ∨ pre ++ [d] <+: ds := by
  rcases List.prefix_concat_iff.mp h with heq | hpre
  · obtain ⟨rfl, hd⟩ := List.append_inj' heq rfl
    exact .inl ⟨rfl, List.singleton_inj.mp hd⟩
  · exact .inr hpre

/-- The tanks of one dive more. -/
theorem tankOf_concat : TankOf s f₀ (ds ++ [d']) d i n ↔ TankOf s f₀ ds d i n ∨
    d = d' ∧ TankAt s f₀ ds d' i n := by
  constructor
  · rintro ⟨pre, hpre, htank⟩
    rcases prefix_concat_dive hpre with ⟨rfl, rfl⟩ | hpre
    · exact .inr ⟨rfl, htank⟩
    · exact .inl ⟨pre, hpre, htank⟩
  · rintro (⟨pre, hpre, htank⟩ | ⟨rfl, htank⟩)
    · exact ⟨pre, hpre.trans (List.prefix_append ds [d']), htank⟩
    · exact ⟨ds, List.prefix_rfl, htank⟩

/-- What holds of the tanks and mixes behind every epilog. -/
structure UddfLinks (s : OutputFmtData) (f₀ : UddfFmtData) (ds : List DiveTokens)
    (f : UddfFmtData) : Prop where
  clear : f.Clear
  mixes : MixesOk f.mixes
  gasdef : ∃ g, f.gasdef = some g ∧ nameOf f.doc g = some "gasdefinitions".toList ∧
    childrenOf f.doc g = []
  tanks : ∀ n, nameOf f.doc n = some "tankdata".toList ↔ ∃ d i, TankOf s f₀ ds d i n
  mentioned : TanksReported s f₀ ds
  apart : TanksApart s f₀ ds
  links : ∀ d i n, TankOf s f₀ ds d i n →
    ∃ ref, linksAt f.doc n = [linkTo ref] ∧ Refers f.mixes (headerMix (seenHeader s d) i) ref

/-- A link stays good while the list grows. -/
theorem Refers.grows {mixes' : Std.TreeMap Text Mix} {mix : Option Mix} (h : Refers mixes mix ref)
    (hgrows : ∀ (k : Text) m, mixes[k]? = some m → mixes'[k]? = some m) : Refers mixes' mix ref :=
  ⟨hgrows _ _ h.1, h.2⟩

theorem UddfLinks.dive (h : UddfLinks s f₀ ds ((uddfFormatter s).dives f₀ ds)) (d : DiveTokens) :
    UddfLinks s f₀ (ds ++ [d]) ((uddfFormatter s).dives f₀ (ds ++ [d])) := by
  have hrun : (uddfFormatter s).dives f₀ (ds ++ [d]) =
      (uddfFormatter s).dive ((uddfFormatter s).dives f₀ ds) d := List.foldl_concat ..
  have hdive := uddfDive_links (s := s) h.clear h.mixes d
  rw [← hrun] at hdive
  -- the nodes of the dive are new, those of the dives before have a name already
  have hnew : ∀ pre d' i n, pre ++ [d'] <+: ds → TankAt s f₀ pre d' i n → ∀ j,
      ¬TankAt s f₀ ds d j n := by
    intro pre d' i n hpre htank j htank'
    have hold := (h.tanks n).mpr ⟨d', i, pre, hpre, htank⟩
    rw [(hdive.tanks j n htank').2.1] at hold
    cases hold
  refine ⟨hdive.clear, hdive.mixes, ?_, ?_, ?_, ?_, ?_⟩
  · obtain ⟨g, hg, hname, hempty⟩ := h.gasdef
    refine ⟨g, hdive.gasdef.trans hg, hdive.doc.name g _ hname, ?_⟩
    rw [hdive.doc.children g _ hname rfl, hempty]
  · intro n
    simp only [tankOf_concat]
    constructor
    · intro hn
      rcases hdive.only n hn with hold | ⟨i, hi⟩
      · obtain ⟨d', i, htank⟩ := (h.tanks n).mp hold
        exact ⟨d', i, .inl htank⟩
      · exact ⟨d, i, .inr ⟨rfl, hi⟩⟩
    · rintro ⟨d', i, htank | ⟨rfl, htank⟩⟩
      · exact hdive.doc.name n _ ((h.tanks n).mpr ⟨d', i, htank⟩)
      · exact (hdive.tanks i n htank).1
  · intro pre d' i hpre
    rcases prefix_concat_dive hpre with ⟨rfl, rfl⟩ | hpre
    · exact hdive.mentioned i
    · exact h.mentioned pre d' i hpre
  · intro pre d₁ i pre' d₂ j n hpre hpre' htank htank'
    rcases prefix_concat_dive hpre with ⟨rfl, rfl⟩ | hold
    · rcases prefix_concat_dive hpre' with ⟨rfl, rfl⟩ | hold'
      · exact ⟨rfl, hdive.inj i j n htank htank'⟩
      · exact absurd htank (hnew pre' d₂ j n hold' htank' i)
    · rcases prefix_concat_dive hpre' with ⟨rfl, rfl⟩ | hold'
      · exact absurd htank' (hnew pre d₁ i n hold htank j)
      · exact h.apart pre d₁ i pre' d₂ j n hold hold' htank htank'
  · intro d' i n htank
    rcases tankOf_concat.mp htank with htank | ⟨rfl, htank⟩
    · obtain ⟨ref, hone, hrefers⟩ := h.links d' i n htank
      have hname := (h.tanks n).mpr ⟨d', i, htank⟩
      exact ⟨ref, by rw [hdive.old n _ hname, hone], hrefers.grows hdive.grows⟩
    · exact (hdive.tanks i n htank).2.2

/-- A new document has no tank. -/
theorem uddfInit_clear (version date ts : Text) : (uddfInit version date ts).Clear := by
  have hchildren : (uddfInit version date ts).doc.map (·.children) =
      [[1, 5, 6], [2, 3, 4], [], [], [], [], []] := rfl
  have hname : nameOf (uddfInit version date ts).doc 6 = some "profiledata".toList := rfl
  have hlength : (uddfInit version date ts).doc.length = 7 := rfl
  refine ⟨uddfInit_leads Guarded version date ts, ?_, ?_, .none⟩
  · intro i c hc
    rw [childrenOf, ← List.getElem?_map, hchildren] at hc
    rw [hlength]
    rcases i with _ | _ | i
    · revert c
      decide
    · revert c
      decide
    · rcases i with _ | _ | _ | _ | _ | i
      all_goals cases hc
  · rintro _ ⟨⟩
    exact ⟨_, hname, by decide⟩

/-- A new list is in order. -/
theorem uddfInit_mixes (version date ts : Text) : MixesOk (uddfInit version date ts).mixes := by
  have hlist : (uddfInit version date ts).mixes.toList = predefined := rfl
  have hmem : ∀ (k : Text) m,
      (uddfInit version date ts).mixes[k]? = some m ↔ (k, m) ∈ predefined := by
    intro k m
    rw [← Std.TreeMap.mem_toList_iff_getElem?_eq_some, hlist]
  have hdistinct : ∀ a ∈ predefined, ∀ b ∈ predefined, a.2 = b.2 → a.1 = b.1 := by decide
  refine ⟨?_, ?_, ?_⟩
  · exact (hmem _ _).mpr List.mem_cons_self
  · exact fun k m hk => .inl (List.mem_map_of_mem ((hmem k m).mp hk))
  · exact fun k k' m hk hk' => hdistinct (k, m) ((hmem k m).mp hk) (k', m) ((hmem k' m).mp hk') rfl

/-- **The links of a run.** -/
theorem uddfLinks (s : OutputFmtData) (version date ts : Text) (ds : List DiveTokens) :
    UddfLinks s (uddfInit version date ts) ds
      ((uddfFormatter s).dives (uddfInit version date ts) ds) := by
  induction ds using List.reverseRecOn with
  | nil =>
    have hnone : ∀ d i n, ¬TankOf s (uddfInit version date ts) [] d i n := by
      rintro d i n ⟨pre, hpre, -⟩
      exact absurd (List.prefix_nil.mp hpre) (List.append_ne_nil_of_right_ne_nil _ nofun)
    refine ⟨uddfInit_clear version date ts, uddfInit_mixes version date ts, ⟨5, rfl, rfl, rfl⟩,
      ?_, ?_, ?_, ?_⟩
    · intro n
      refine iff_of_false ?_ ?_
      · rw [Formatter.dives_nil, nameOf_uddfInit]
        exact fun hn => absurd (List.mem_of_getElem? hn) (by decide)
      · rintro ⟨d, i, htank⟩
        exact hnone d i n htank
    · exact fun pre d i hpre => absurd (List.prefix_nil.mp hpre)
        (List.append_ne_nil_of_right_ne_nil _ nofun)
    · exact fun pre d i pre' d' i' n hpre _ htank _ => absurd ⟨pre, hpre, htank⟩ (hnone d i n)
    · exact fun d i n htank => absurd htank (hnone d i n)
  | append_singleton ds d ih => exact ih.dive d

/-- The last content that is reported for a tank and is not 0; 0 if there is none. -/
def reportedGas (tok : HeaderToken) (i : Nat) (hdr : List HeaderEntry) : Nat :=
  ((lastNonZero tok i hdr).getD 0).toNat

/-- The id of a mix with the contents that the header reports for the tank. -/
def NamesMix (mixes : List (Text × Mix)) (hdr : List HeaderEntry) (i : Nat) (ref : Text) : Prop :=
  ∃ mix, (ref, mix) ∈ mixes ∧
    if lastNonZero .pmo2 i hdr = none ∧ lastNonZero .pmhe i hdr = none then ref = "air".toList
    else mix.1.toNat = reportedGas .pmo2 i hdr ∧ mix.2.toNat = reportedGas .pmhe i hdr

/-- What has been reported has been reported by a token. -/
theorem mem_of_lastNonZero {tok : HeaderToken} {hdr : List HeaderEntry} {v : BitVec 32}
    (h : lastNonZero tok i hdr = some v) : ∃ e ∈ hdr, e.token = tok ∧ e.value = v := by
  obtain ⟨e, he, rfl⟩ := Option.map_eq_some_iff.mp h
  obtain ⟨hmem, htoken⟩ := List.mem_filter.mp (List.mem_of_getLast? he)
  exact ⟨e, hmem, (of_decide_eq_true htoken).1, rfl⟩

/-- Contents of 16 bits are stored as they are reported. -/
theorem toNat_reported {tok : HeaderToken} {hdr : List HeaderEntry}
    (h : ∀ e ∈ hdr, e.token = tok → e.value.toNat ≤ 65535) :
    (((lastNonZero tok i hdr).getD 0).setWidth 16).toNat = reportedGas tok i hdr := by
  have hlt : reportedGas tok i hdr < 2 ^ 16 := by
    cases hlast : lastNonZero tok i hdr with
    | none =>
      rw [reportedGas, hlast]
      decide
    | some v =>
      obtain ⟨e, he, htoken, rfl⟩ := mem_of_lastNonZero hlast
      rw [reportedGas, hlast]
      exact Nat.lt_succ_of_le (h e he htoken)
  rw [BitVec.toNat_setWidth]
  exact Nat.mod_eq_of_lt hlt

/-- The tanks and mixes of the document behind the epilogs of the dives `ds`, from `f₀` on. -/
structure LinksSound (s : OutputFmtData) (f₀ : UddfFmtData) (ds : List DiveTokens)
    (f : UddfFmtData) : Prop where
  ids : (f.mixes.toList.map Prod.fst).Nodup
  compositions : (f.mixes.toList.map Prod.snd).Nodup
  tanks : ∀ n, nameOf f.doc n = some "tankdata".toList ↔ ∃ d i, TankOf s f₀ ds d i n
  reported : TanksReported s f₀ ds
  apart : TanksApart s f₀ ds
  links : ∀ d i n, TankOf s f₀ ds d i n →
    ∃ ref, linksAt f.doc n = [linkTo ref] ∧ NamesMix f.mixes.toList d.header i ref

/-- **References to gas mixes are sound**: each dive has one tank for each index that its header
tokens report, and no other, and each tank of each dive has one link, to the mix with the last
contents reported for it. -/
theorem uddfLinks_sound (s : OutputFmtData) (version date ts : Text) (ds : List DiveTokens)
    (hvalues : ∀ d ∈ ds, ∀ e ∈ d.header, e.token = .pmo2 ∨ e.token = .pmhe →
      e.value.toNat ≤ 65535) :
    LinksSound s (uddfInit version date ts) ds
      ((uddfFormatter s).dives (uddfInit version date ts) ds) := by
  have hinv := uddfLinks s version date ts ds
  refine ⟨?_, ?_, hinv.tanks, hinv.mentioned, hinv.apart, ?_⟩
  · rw [List.Nodup, List.pairwise_map]
    exact Std.TreeMap.distinct_keys_toList.imp fun hne heq =>
      hne (Std.LawfulEqCmp.compare_eq_iff_eq.mpr heq)
  · rw [List.Nodup, List.pairwise_map]
    refine Std.TreeMap.distinct_keys_toList.imp_of_mem fun {a b} ha hb hne heq => hne ?_
    have hget := Std.TreeMap.mem_toList_iff_getElem?_eq_some.mp ha
    have hget' := Std.TreeMap.mem_toList_iff_getElem?_eq_some.mp hb
    rw [← heq] at hget'
    exact Std.LawfulEqCmp.compare_eq_iff_eq.mpr (hinv.mixes.distinct _ _ _ hget hget')
  · intro d i n htank
    obtain ⟨ref, hone, hget, hair⟩ := hinv.links d i n htank
    have hseen : seenHeader s d = d.header := by
      obtain ⟨pre, hpre, htank⟩ := htank
      obtain ⟨e, he, -⟩ := (hinv.mentioned pre d i hpre).mp ⟨n, htank⟩
      rw [seenHeader] at he ⊢
      split at he
      · next hs => exact if_pos hs
      · cases he
    have hd : d ∈ ds := by
      obtain ⟨pre, hpre, -⟩ := htank
      exact hpre.subset (List.mem_append_right _ List.mem_cons_self)
    rw [hseen] at hget hair
    refine ⟨ref, hone, _, Std.TreeMap.mem_toList_iff_getElem?_eq_some.mpr hget, ?_⟩
    by_cases hnone : lastNonZero .pmo2 i d.header = none ∧ lastNonZero .pmhe i d.header = none
    · rw [if_pos hnone]
      exact hair (if_pos hnone)
    · have hmix : headerMix d.header i = some _ := if_neg hnone
      rw [if_neg hnone, hmix]
      exact ⟨toNat_reported fun e he htoken => hvalues d hd e he (.inl htoken),
        toNat_reported fun e he htoken => hvalues d hd e he (.inr htoken)⟩

/-- One dive with a nitrox mix of 40 %. -/
theorem uddfLinks_sound_ean40 :
    LinksSound ⟨true, true⟩ (uddfInit [] [] []) [⟨[⟨.pmo2, 400, 0, none⟩], []⟩]
      ((uddfFormatter ⟨true, true⟩).dives (uddfInit [] [] []) [⟨[⟨.pmo2, 400, 0, none⟩], []⟩]) :=
  uddfLinks_sound ⟨true, true⟩ [] [] [] _ (by decide)

end BenthosDc

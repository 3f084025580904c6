/-
BenthosDc/UddfFractions.lean

The gas fractions in the document of the UDDF formatter.

Closing the formatter writes one node for each mix (`uddfClose_nodes`).  The contents are
permille, printed behind `0.` with three digits at least; 1000 has four, and comes out as
a tenth.  So the fractions of a mix are right exactly if no gas alone makes up all of it
and oxygen and helium are no more than all of it (`uddfFractions_correct_iff`).
-/
import BenthosDc.UddfMixes
import BenthosDc.Lib.DecimalFraction
import Mathlib.Tactic.NormNum
import Mathlib.Tactic.Ring

namespace BenthosDc

open CString XmlHeap

variable {f : UddfFmtData} {h : Heap} {c g : NodeId} {cs : List NodeId} {mix : Text × Mix} {m : Mix}

/-! ### The nodes of the mixes

The mixes are written last, each as a node with three leaves, and no node is written twice.
-/

/-- The contents of the leaves with a name. -/
def contentsNamed (h : Heap) (c : NodeId) (name : Text) : List Text :=
  (elementsNamed h c name).map (·.content)

/-- The node of a mix, as `uddf_close_formatter` writes it. -/
structure MixNode (h : Heap) (c : NodeId) (m : Mix) : Prop where
  name : nameOf h c = some "mix".toList
  o2 : contentsNamed h c "o2".toList = [permille m.1]
  n2 : contentsNamed h c "n2".toList = [permille (1000 - (m.1 + m.2))]
  he : contentsNamed h c "he".toList = [permille m.2]

/-- The gas definitions have the children `cs`. -/
structure GasNode (f : UddfFmtData) (g : NodeId) (cs : List NodeId) : Prop where
  gasdef : f.gasdef = some g
  name : nameOf f.doc g = some "gasdefinitions".toList
  closed : Closed f.doc
  children : childrenOf f.doc g = cs

/-- The three contents of a mix. -/
def mixTexts (m : Mix) : List (Text × Text) :=
  [("o2".toList, permille m.1), ("n2".toList, permille (1000 - (m.1 + m.2))),
    ("he".toList, permille m.2), ("ar".toList, "0.000".toList), ("h2".toList, "0.000".toList)]

/-- The mix node before it gets its texts. -/
def mixStart (h : Heap) (g : NodeId) (id : Text) : Heap :=
  xmlNewProp (xmlNewChild h (some g) "mix".toList []).1 (some h.length) "id".toList id

namespace GasNode

/-- The document behind a mix. -/
theorem doc_uddfMix (h : GasNode f g cs) : (uddfMix f mix).doc =
    xmlLeaves (mixStart f.doc g mix.1) (some f.doc.length) (mixTexts mix.2) := by
  obtain ⟨doc, root, profiles, gasdef⟩ := f
  obtain rfl : gasdef = some g := h.gasdef
  rfl

/-- The new node, in front of its leaves. -/
theorem nameOf_mixStart (i : NodeId) (id : Text) :
    nameOf (mixStart h g id) i = if i = h.length then some "mix".toList else nameOf h i := by
  rw [mixStart, nameOf_xmlNewProp, xmlNewChild_some, nameOf_xmlAddChild, nameOf_xmlNewNode]

/-- The child elements with other names than those above them. -/
theorem elementsNamed_uddfMix (h : GasNode f g cs) {e : Text} (hmix : "mix".toList ≠ e)
    (hgas : "gasdefinitions".toList ≠ e) (i : NodeId) :
    elementsNamed (uddfMix f mix).doc i e = elementsNamed f.doc i e ++
      if i = f.doc.length then
        ((mixTexts mix.2).filter (·.1 = e)).map fun x => ⟨x.1, x.2, [], []⟩
      else [] := by
  have hparent : Outside (· = e) f.doc (some g) := by
    rintro _ ⟨⟩
    exact ⟨_, h.name, hgas⟩
  have hlast : nameOf (xmlNewChild f.doc (some g) "mix".toList []).1 f.doc.length =
      some "mix".toList := by
    rw [xmlNewChild_some, nameOf_xmlAddChild, nameOf_xmlNewNode, if_pos rfl]
  have hnode : Outside (· = e) (xmlNewChild f.doc (some g) "mix".toList []).1
      (some f.doc.length) := by
    rintro _ ⟨⟩
    exact ⟨_, hlast, hmix⟩
  have hstart : elementsNamed (mixStart f.doc g mix.1) i e = elementsNamed f.doc i e := by
    rw [mixStart, elementsNamed_newProp hnode, elementsNamed_newChild hparent hmix]
  have hname : nameOf (mixStart f.doc g mix.1) f.doc.length = some "mix".toList := by
    rw [nameOf_mixStart, if_pos rfl]
  have hclosed : Closed (mixStart f.doc g mix.1) := (h.closed.newChild (some g)).newProp _
  rw [h.doc_uddfMix, elementsNamed_leaves (mixTexts mix.2) hclosed hname hmix, hstart]

/-- The contents of other nodes stay as they are. -/
theorem contentsNamed_uddfMix (h : GasNode f g cs) {e : Text} (hmix : "mix".toList ≠ e)
    (hgas : "gasdefinitions".toList ≠ e) (i : NodeId) :
    contentsNamed (uddfMix f mix).doc i e = contentsNamed f.doc i e ++
      if i = f.doc.length then ((mixTexts mix.2).filter (·.1 = e)).map (·.2) else [] := by
  rw [contentsNamed, h.elementsNamed_uddfMix hmix hgas, List.map_append, contentsNamed]
  split
  · rw [List.map_map]
    rfl
  · rfl

/-- What is below a new mix. -/
theorem contentsNamed_uddfMix_new (h : GasNode f g cs) {e : Text} (hmix : "mix".toList ≠ e)
    (hgas : "gasdefinitions".toList ≠ e) :
    contentsNamed (uddfMix f mix).doc f.doc.length e =
      ((mixTexts mix.2).filter (·.1 = e)).map (·.2) := by
  have hnew : contentsNamed f.doc f.doc.length e = [] := by
    rw [contentsNamed, elementsNamed_eq_nil (nameOf_eq_none_iff.mpr le_rfl)]
    rfl
  rw [h.contentsNamed_uddfMix hmix hgas, hnew, if_pos rfl]
  rfl

/-- The texts of a mix leave the gas definitions as they are. -/
theorem frame_uddfMix (h : GasNode f g cs) :
    Frame (· = "gasdefinitions".toList) (fun _ => False) (mixStart f.doc g mix.1)
      (uddfMix f mix).doc := by
  rw [h.doc_uddfMix]
  refine Frame.leaves _ ((nameOf_mixStart _ _).trans (if_pos rfl)) (by decide) ?_ fun _ _ => id
  simp only [mixTexts, List.forall_mem_cons, List.not_mem_nil, false_imp_iff, implies_true,
    and_true]
  decide

/-- Nodes keep their names. -/
theorem nameOf_uddfMix (h : GasNode f g cs) {i : NodeId} {t : Text}
    (hi : nameOf f.doc i = some t) : nameOf (uddfMix f mix).doc i = some t := by
  apply h.frame_uddfMix.name i t
  rw [nameOf_mixStart, if_neg (ne_length_of_nameOf hi), hi]

/-- The mixes stand below the gas definitions, in order. -/
theorem uddfMix_gasNode (h : GasNode f g cs) (mix : Text × Mix) :
    GasNode (uddfMix f mix) g (cs ++ [f.doc.length]) where
  gasdef := h.gasdef
  name := h.nameOf_uddfMix h.name
  closed := by
    rw [h.doc_uddfMix]
    exact ((h.closed.newChild (some g)).newProp _).leaves _ _
  children := by
    have hstart : nameOf (mixStart f.doc g mix.1) g = some "gasdefinitions".toList := by
      rw [nameOf_mixStart, if_neg (ne_length_of_nameOf h.name), h.name]
    have hnode : nameOf (xmlNewNode f.doc "mix".toList []) g = some "gasdefinitions".toList := by
      rw [nameOf_xmlNewNode, if_neg (ne_length_of_nameOf h.name), h.name]
    rw [h.frame_uddfMix.children g _ hstart rfl, mixStart, childrenOf_xmlNewProp,
      xmlNewChild_some, childrenOf_xmlAddChild_self hnode, childrenOf_xmlNewNode, h.children]

/-- The new node has the contents of its mix. -/
theorem uddfMix_mixNode (h : GasNode f g cs) (mix : Text × Mix) :
    MixNode (uddfMix f mix).doc f.doc.length mix.2 where
  name := h.frame_uddfMix.name _ _ ((nameOf_mixStart _ _).trans (if_pos rfl))
  o2 := by
    rw [h.contentsNamed_uddfMix_new (by decide) (by decide)]
    rfl
  n2 := by
    rw [h.contentsNamed_uddfMix_new (by decide) (by decide)]
    rfl
  he := by
    rw [h.contentsNamed_uddfMix_new (by decide) (by decide)]
    rfl

/-- The nodes of other mixes stay as they are. -/
theorem uddfMix_keeps (h : GasNode f g cs) (mix : Text × Mix) (hc : MixNode f.doc c m) :
    MixNode (uddfMix f mix).doc c m := by
  have hne := ne_length_of_nameOf hc.name
  have hsame : ∀ e, "mix".toList ≠ e → "gasdefinitions".toList ≠ e →
      contentsNamed (uddfMix f mix).doc c e = contentsNamed f.doc c e := by
    intro e hmix hgas
    rw [h.contentsNamed_uddfMix hmix hgas, if_neg hne, List.append_nil]
  refine ⟨h.nameOf_uddfMix hc.name, ?_, ?_, ?_⟩
  · rw [hsame _ (by decide) (by decide), hc.o2]
  · rw [hsame _ (by decide) (by decide), hc.n2]
  · rw [hsame _ (by decide) (by decide), hc.he]

/-- **The loop over the mixes.** -/
theorem foldl (xs : List (Text × Mix)) (h : GasNode f g cs) :
    ∃ cs', GasNode (xs.foldl uddfMix f) g (cs ++ cs') ∧
      List.Forall₂ (fun c mix => MixNode (xs.foldl uddfMix f).doc c mix.2) cs' xs ∧
      ∀ c m, MixNode f.doc c m → MixNode (xs.foldl uddfMix f).doc c m := by
  induction xs generalizing f cs with
  | nil => exact ⟨[], by rwa [List.append_nil], .nil, fun _ _ hc => hc⟩
  | cons mix xs ih =>
    obtain ⟨cs', hgas, hnodes, hkeep⟩ := ih (h.uddfMix_gasNode mix)
    refine ⟨f.doc.length :: cs', ?_, .cons (hkeep _ _ (h.uddfMix_mixNode mix)) hnodes, ?_⟩
    · rw [List.append_cons]
      exact hgas
    · exact fun c m hc => hkeep c m (h.uddfMix_keeps mix hc)

end GasNode

/-- **Closing writes one node for each mix.** -/
theorem uddfClose_nodes (h : GasNode f g []) :
    ∃ cs, GasNode (uddfClose f) g cs ∧
      List.Forall₂ (fun c mix => MixNode (uddfClose f).doc c mix.2) cs f.mixes.toList := by
  obtain ⟨cs, hgas, hnodes, -⟩ := h.foldl f.mixes.toList
  exact ⟨cs, hgas, hnodes⟩

/-! ### What the texts denote

A text of `0.` and digits is a decimal fraction.  With four digits it is a tenth of what was
meant.
-/

variable {v : BitVec 16}

/-- 1000 permille come out as a tenth. -/
theorem decimalValue_permille_iff (h : v.toNat ≤ 1000) :
    decimalValue (permille v) = some ((v.toNat : ℚ) / 1000) ↔ v.toNat < 1000 := by
  constructor
  · intro hvalue
    refine lt_of_le_of_ne h fun heq => ?_
    have htenth : decimalValue (permille v) = some (1 / 10) := by
      rw [permille, heq]
      show some ((0 : ℚ) + 1000 / 10 ^ 4) = some (1 / 10)
      norm_num
    rw [htenth, heq] at hvalue
    norm_num at hvalue
  · intro hlt
    rw [permille, decimalValue_padded (by decide) hlt]
    norm_num

/-- The nitrogen that 16 bits make of a mix. -/
def wrappedN2 (m : Mix) : BitVec 16 := BitVec.ofInt 16 (1000 - (m.1.toNat + m.2.toNat))

/-- The texts in the node of a mix denote its contents, as parts of 1; what is over 1000 permille
does not wrap around. -/
def FractionsCorrect (h : Heap) (c : NodeId) (m : Mix) : Prop :=
  ∃ o2 n2 he, contentsNamed h c "o2".toList = [o2] ∧ contentsNamed h c "n2".toList = [n2] ∧
    contentsNamed h c "he".toList = [he] ∧
    if m.1.toNat + m.2.toNat ≤ 1000 then
      ∃ x y z : ℚ, decimalValue o2 = some x ∧ decimalValue n2 = some y ∧ decimalValue he = some z ∧
        x = m.1.toNat / 1000 ∧ y = (1000 - m.1.toNat - m.2.toNat) / 1000 ∧ z = m.2.toNat / 1000 ∧
        x + y + z = 1
    else n2 ≠ permille (wrappedN2 m)

/-- No gas alone is all of the mix, and oxygen and helium are no more than all of it. -/
def Thousandths (m : Mix) : Prop :=
  m.1.toNat + m.2.toNat ≤ 1000 ∧ m.1.toNat < 1000 ∧ m.2.toNat < 1000 ∧ 0 < m.1.toNat + m.2.toNat

/-- The share of nitrogen, in 16 bits. -/
theorem wrappedN2_eq (m : Mix) : 1000 - (m.1 + m.2) = wrappedN2 m := by
  apply BitVec.eq_of_toNat_eq
  simp only [wrappedN2, BitVec.toNat_ofInt, BitVec.toNat_sub, BitVec.toNat_add,
    BitVec.ofNat_eq_ofNat, BitVec.toNat_ofNat]
  omega

/-- It is what is left if the others are not too much. -/
theorem toNat_n2 (hsum : m.1.toNat + m.2.toNat ≤ 1000) :
    (1000 - (m.1 + m.2)).toNat = 1000 - m.1.toNat - m.2.toNat := by
  simp only [BitVec.toNat_sub, BitVec.toNat_add, BitVec.ofNat_eq_ofNat, BitVec.toNat_ofNat]
  omega

/-- The condition for one mix. -/
theorem fractionsCorrect_iff (hc : MixNode h c m) : FractionsCorrect h c m ↔ Thousandths m := by
  by_cases hsum : m.1.toNat + m.2.toNat ≤ 1000
  · have hn2 := toNat_n2 hsum
    have hle : m.1.toNat ≤ 1000 := (Nat.le_add_right _ _).trans hsum
    have hcast : ((1000 - m.1.toNat - m.2.toNat : Nat) : ℚ) = 1000 - m.1.toNat - m.2.toNat := by
      rw [Nat.cast_sub (Nat.le_sub_of_add_le' hsum), Nat.cast_sub hle]
      rfl
    -- each text is right exactly if it is below 1000
    have ho2 := decimalValue_permille_iff hle
    have hhe := decimalValue_permille_iff ((Nat.le_add_left _ _).trans hsum)
    have hn2' := decimalValue_permille_iff (v := 1000 - (m.1 + m.2))
      (by rw [hn2, Nat.sub_sub]; exact Nat.sub_le _ _)
    rw [hn2, hcast] at hn2'
    constructor
    · rintro ⟨o2, n2, he, hto2, htn2, hthe, hvalues⟩
      rw [if_pos hsum] at hvalues
      obtain ⟨x, y, z, hx, hy, hz, rfl, rfl, rfl, -⟩ := hvalues
      obtain rfl := List.singleton_inj.mp (hc.o2.symm.trans hto2)
      obtain rfl := List.singleton_inj.mp (hc.n2.symm.trans htn2)
      obtain rfl := List.singleton_inj.mp (hc.he.symm.trans hthe)
      have hlt := hn2'.mp hy
      exact ⟨hsum, ho2.mp hx, hhe.mp hz, by omega⟩
    · rintro ⟨-, hlto2, hlthe, hpos⟩
      refine ⟨_, _, _, hc.o2, hc.n2, hc.he, ?_⟩
      rw [if_pos hsum]
      refine ⟨_, _, _, ho2.mpr hlto2, hn2'.mpr (by omega), hhe.mpr hlthe, rfl, rfl, rfl, ?_⟩
      ring
  · refine iff_of_false ?_ fun hthousandths => hsum hthousandths.1
    rintro ⟨o2, n2, he, -, htn2, -, hwrap⟩
    rw [if_neg hsum, ← wrappedN2_eq] at hwrap
    exact hwrap (List.singleton_inj.mp (htn2.symm.trans hc.n2))

/-! ### Documents

All mixes of a document are written by the same function.
-/

/-- `nodes` are the children of the gas definitions. -/
def GasNodes (f : UddfFmtData) (nodes : List NodeId) : Prop :=
  ∃ g, f.gasdef = some g ∧ childrenOf f.doc g = nodes

/-- Closing the formatter writes a node with correct fractions for each mix. -/
def FractionsWritten (f : UddfFmtData) : Prop :=
  ∃ nodes, GasNodes (uddfClose f) nodes ∧
    List.Forall₂ (fun c mix => FractionsCorrect (uddfClose f).doc c mix.2) nodes f.mixes.toList

/-- Before the end there is no mix in the document. -/
theorem uddfRun_gasNode (s : OutputFmtData) (version date ts : Text) (ds : List DiveTokens) :
    ∃ g, GasNode ((uddfFormatter s).dives (uddfInit version date ts) ds) g [] := by
  have hinv := uddfLinks s version date ts ds
  obtain ⟨g, hg, hname, hempty⟩ := hinv.gasdef
  exact ⟨g, hg, hname, hinv.clear.closed, hempty⟩

/-- The condition for all mixes. -/
theorem GasNode.fractionsWritten_iff (h : GasNode f g []) :
    FractionsWritten f ↔ ∀ mix ∈ f.mixes.toList, Thousandths mix.2 := by
  obtain ⟨cs, hclosed, hnodes⟩ := uddfClose_nodes h
  constructor
  · rintro ⟨nodes, ⟨g', hg', rfl⟩, hcorrect⟩
    obtain rfl : g = g' := Option.some.inj (hclosed.gasdef.symm.trans hg')
    rw [hclosed.children] at hcorrect
    intro mix hmix
    obtain ⟨i, hi, rfl⟩ := List.mem_iff_getElem.mp hmix
    have hlt : i < cs.length := hnodes.length_eq.symm ▸ hi
    exact (fractionsCorrect_iff (hnodes.get hlt hi)).mp (hcorrect.get hlt hi)
  · intro hall
    refine ⟨cs, ⟨g, hclosed.gasdef, hclosed.children⟩, ?_⟩
    have hlength := hnodes.length_eq
    refine List.forall₂_iff_get.mpr ⟨hlength, fun i hi hi' => ?_⟩
    exact (fractionsCorrect_iff (hnodes.get hi hi')).mpr (hall _ (List.get_mem _ _))

/-- **The fractions of a mix are right exactly if they are below 1 and the contents are no more
than 1000 permille.** -/
theorem uddfFractions_correct_iff (s : OutputFmtData) (version date ts : Text)
    (ds : List DiveTokens) :
    let f := (uddfFormatter s).dives (uddfInit version date ts) ds
    (FractionsWritten f ↔ ∀ mix ∈ f.mixes.toList, Thousandths mix.2) ∧
      ∃ nodes, GasNodes (uddfClose f) nodes ∧
        List.Forall₂ (fun c mix => FractionsCorrect (uddfClose f).doc c mix.2 ↔ Thousandths mix.2)
          nodes f.mixes.toList := by
  intro f
  obtain ⟨g, hgas⟩ := uddfRun_gasNode s version date ts ds
  obtain ⟨cs, hclosed, hnodes⟩ := uddfClose_nodes hgas
  exact ⟨hgas.fractionsWritten_iff, cs, ⟨g, hclosed.gasdef, hclosed.children⟩,
    hnodes.imp fun _ _ hc => fractionsCorrect_iff hc⟩

/-- Pure oxygen is written as a tenth. -/
theorem not_fractionsWritten_oxygen :
    ¬FractionsWritten ((uddfFormatter ⟨true, true⟩).dives (uddfInit [] [] [])
      [⟨[⟨.pmo2, 1000, 0, none⟩], []⟩]) := by
  obtain ⟨g, hgas⟩ := uddfRun_gasNode ⟨true, true⟩ [] [] [] [⟨[⟨.pmo2, 1000, 0, none⟩], []⟩]
  rw [hgas.fractionsWritten_iff]
  intro hall
  have hlt := (hall ("mix-3".toList, (1000, 0)) (by decide +kernel)).2.1
  exact absurd hlt (by decide)

end BenthosDc

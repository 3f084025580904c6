/-
BenthosDc/Lib/XmlHeap.lean

Element trees that are built through pointers, as libxml2 builds them.

Nodes live in a heap and are never freed; a pointer is an index, and a null pointer is
`none`.  The operations do nothing on a null pointer, as those of the library.  Names say
what a node is for: `Frame P D` holds of a piece of a construction that leaves the children
of the nodes with names in `P` alone, and makes no node with a name in `P` or `D`.

The functions are those of `tree.h` as far as they are used here.  Assumed is what their
documentation says, and that memory is not exhausted: `xmlNewNode` and `xmlNewChild` return a
node of their own, `xmlAddChild` puts a node behind the last child of its parent and merges
nothing (the nodes are elements, and are added once), and `xmlNewProp` appends an attribute
without looking for one of the same name.  Namespaces, entities and the links back to parents
and siblings are not modelled; nothing here reads them.
-/
import Mathlib.Data.List.Basic
import Mathlib.Logic.Relation
import BenthosDc.Lib.CString

namespace XmlHeap

open CString

/-- A pointer to a node. -/
abbrev NodeId := Nat

/-- An element, with the text in front of its child elements. -/
structure XmlNode where
  name : Text
  content : Text
  props : List (Text × Text)
  children : List NodeId
  deriving DecidableEq

/-- All nodes that have been made. -/
abbrev Heap := List XmlNode

/-- The name of a node, if there is one. -/
def nameOf (h : Heap) (i : NodeId) : Option Text := h[i]?.map (·.name)

/-- The children of a node, in the order in which they have been added. -/
def childrenOf (h : Heap) (i : NodeId) : List NodeId := (h[i]?.map (·.children)).getD []

/-- `xmlNewNode`; the node is the one behind the heap. -/
def xmlNewNode (h : Heap) (name content : Text) : Heap := h ++ [⟨name, content, [], []⟩]

/-- `xmlAddChild` -/
def xmlAddChild (h : Heap) (parent : Option NodeId) (c : NodeId) : Heap :=
  match parent with
  | none => h
  | some p => h.modify p fun n => { n with children := n.children ++ [c] }

/-- `xmlNewProp` -/
def xmlNewProp (h : Heap) (node : Option NodeId) (key value : Text) : Heap :=
  match node with
  | none => h
  | some i => h.modify i fun n => { n with props := n.props ++ [(key, value)] }

/-- `xmlNewChild` -/
def xmlNewChild (h : Heap) (parent : Option NodeId) (name content : Text) :
    Heap × Option NodeId :=
  match parent with
  | none => (h, none)
  | some p => (xmlAddChild (xmlNewNode h name content) (some p) h.length, some h.length)

/-- Node `j` is node `i` or stands below it. -/
def Below (h : Heap) : NodeId → NodeId → Prop :=
  Relation.ReflTransGen fun i j => j ∈ childrenOf h i

/-! ### Names and children -/

variable {h h' h'' : Heap} {i c p : NodeId} {name content key value : Text}

/-- Behind the heap there are no nodes. -/
theorem nameOf_eq_none_iff : nameOf h i = none ↔ h.length ≤ i := by
  simp [nameOf]

/-- A change that keeps the name of a node keeps all names. -/
theorem nameOf_modify (f : XmlNode → XmlNode) (hf : ∀ n, (f n).name = n.name) :
    nameOf (h.modify p f) i = nameOf h i := by
  simp only [nameOf, List.getElem?_modify]
  by_cases hp : p = i <;> cases h[i]? <;> simp [hp, hf]

/-- Adding a child does not rename. -/
@[simp] theorem nameOf_xmlAddChild (parent : Option NodeId) :
    nameOf (xmlAddChild h parent c) i = nameOf h i := by
  cases parent with
  | none => rfl
  | some p => exact nameOf_modify _ fun _ => rfl

/-- Adding an attribute does not rename. -/
@[simp] theorem nameOf_xmlNewProp (node : Option NodeId) :
    nameOf (xmlNewProp h node key value) i = nameOf h i := by
  cases node with
  | none => rfl
  | some p => exact nameOf_modify _ fun _ => rfl

/-- The new node has its name, and the others keep theirs. -/
theorem nameOf_xmlNewNode :
    nameOf (xmlNewNode h name content) i = if i = h.length then some name else nameOf h i := by
  simp only [nameOf, xmlNewNode, List.getElem?_append, List.getElem?_singleton]
  by_cases hi : i < h.length
  · simp [hi, Nat.ne_of_lt hi]
  · by_cases heq : i = h.length
    · simp [heq]
    · have hne : i - h.length ≠ 0 :=
        Nat.sub_ne_zero_of_lt (Nat.lt_of_le_of_ne (Nat.not_lt.mp hi) (Ne.symm heq))
      simp [hi, heq, hne]

/-- A node with a name is not the next one. -/
theorem ne_length_of_nameOf {s : Text} (hi : nameOf h i = some s) : i ≠ h.length := by
  rintro rfl
  rw [nameOf_eq_none_iff.mpr le_rfl] at hi
  cases hi

/-- A new node has no children, and takes none from others. -/
@[simp] theorem childrenOf_xmlNewNode :
    childrenOf (xmlNewNode h name content) i = childrenOf h i := by
  simp only [childrenOf, xmlNewNode, List.getElem?_append, List.getElem?_singleton]
  by_cases hi : i < h.length
  · simp [hi]
  · by_cases heq : i - h.length = 0 <;>
      simp [hi, heq]

/-- Adding an attribute adds no child. -/
@[simp] theorem childrenOf_xmlNewProp (node : Option NodeId) :
    childrenOf (xmlNewProp h node key value) i = childrenOf h i := by
  cases node with
  | none => rfl
  | some p =>
    simp only [childrenOf, xmlNewProp, List.getElem?_modify]
    by_cases hp : p = i <;> cases h[i]? <;> simp [hp]

/-- The other nodes keep their children. -/
theorem childrenOf_xmlAddChild_of_ne (hp : i ≠ p) :
    childrenOf (xmlAddChild h (some p) c) i = childrenOf h i := by
  simp only [childrenOf, xmlAddChild, List.getElem?_modify]
  cases h[i]? <;> simp [Ne.symm hp]

/-- The child stands behind the others. -/
theorem childrenOf_xmlAddChild_self (hp : nameOf h p = some name) :
    childrenOf (xmlAddChild h (some p) c) p = childrenOf h p ++ [c] := by
  obtain ⟨n, hn, -⟩ := Option.map_eq_some_iff.mp hp
  simp [childrenOf, xmlAddChild, hn]

/-- `xmlNewChild` makes a node and adds it. -/
theorem xmlNewChild_some : xmlNewChild h (some p) name content =
    (xmlAddChild (xmlNewNode h name content) (some p) h.length, some h.length) := rfl

/-! ### Frames -/

/-- From `h` to `h'` no node with a name in `P` gets a child, and the new nodes have names
outside `P` and `D`. -/
structure Frame (P D : Text → Prop) (h h' : Heap) : Prop where
  name : ∀ i s, nameOf h i = some s → nameOf h' i = some s
  children : ∀ i s, nameOf h i = some s → P s → childrenOf h' i = childrenOf h i
  fresh : ∀ i s, nameOf h i = none → nameOf h' i = some s → ¬P s ∧ ¬D s

variable {P D : Text → Prop}

theorem Frame.refl (h : Heap) : Frame P D h h :=
  ⟨fun _ _ hi => hi, fun _ _ _ _ => rfl, fun _ _ hi hi' => absurd (hi.symm.trans hi') nofun⟩

/-- One piece after the other. -/
theorem Frame.trans (h₁ : Frame P D h h') (h₂ : Frame P D h' h'') : Frame P D h h'' := by
  refine ⟨?_, ?_, ?_⟩
  · exact fun i s hi => h₂.name i s (h₁.name i s hi)
  · intro i s hi hs
    rw [h₂.children i s (h₁.name i s hi) hs, h₁.children i s hi hs]
  · intro i s hi hi''
    rcases hi' : nameOf h' i with - | s'
    · exact h₂.fresh i s hi' hi''
    · have hs := h₂.name i s' hi'
      rw [hi''] at hs
      obtain rfl := Option.some.inj hs
      exact h₁.fresh i s hi hi'

/-- The nodes with names in `P` or `D` are the same before and after. -/
theorem Frame.nameOf_eq_iff (hf : Frame P D h h') {s : Text} (hs : P s ∨ D s) :
    nameOf h' i = some s ↔ nameOf h i = some s := by
  refine ⟨fun hi' => ?_, hf.name i s⟩
  rcases hi : nameOf h i with - | s'
  · obtain ⟨hP, hD⟩ := hf.fresh i s hi hi'
    exact absurd hs (not_or.mpr ⟨hP, hD⟩)
  · rw [hf.name i s' hi] at hi'
    exact hi'

/-- An attribute is no child. -/
theorem Frame.newProp (node : Option NodeId) :
    Frame P D h (xmlNewProp h node key value) := by
  refine ⟨?_, ?_, ?_⟩
  · intro i s hi
    rwa [nameOf_xmlNewProp]
  · intro i s _ _
    exact childrenOf_xmlNewProp node
  · intro i s hi hi'
    rw [nameOf_xmlNewProp, hi] at hi'
    cases hi'

/-- A node with another name. -/
theorem Frame.newNode (hP : ¬P name) (hD : ¬D name) : Frame P D h (xmlNewNode h name content) := by
  refine ⟨?_, ?_, ?_⟩
  · intro i s hi
    rw [nameOf_xmlNewNode, if_neg (ne_length_of_nameOf hi), hi]
  · intro i s _ _
    exact childrenOf_xmlNewNode
  · intro i s hi hi'
    rw [nameOf_xmlNewNode] at hi'
    split at hi'
    · cases hi'
      exact ⟨hP, hD⟩
    · rw [hi] at hi'
      cases hi'

/-- A child for a node with another name. -/
theorem Frame.addChild {t : Text} (hp : nameOf h p = some t) (hP : ¬P t) :
    Frame P D h (xmlAddChild h (some p) c) := by
  refine ⟨?_, ?_, ?_⟩
  · intro i s hi
    rwa [nameOf_xmlAddChild]
  · intro i s hi hs
    apply childrenOf_xmlAddChild_of_ne
    rintro rfl
    rw [hp] at hi
    exact hP (Option.some.inj hi ▸ hs)
  · intro i s hi hi'
    rw [nameOf_xmlAddChild, hi] at hi'
    cases hi'

/-- A pointer that is null, or points to a node with a name outside `P`. -/
def Outside (P : Text → Prop) (h : Heap) (p : Option NodeId) : Prop :=
  ∀ i, p = some i → ∃ s, nameOf h i = some s ∧ ¬P s

/-- A null pointer leads to no node. -/
theorem Outside.none : Outside P h none := fun _ hi => by cases hi

/-- It is enough that the names stay. -/
theorem Outside.of_names {p : Option NodeId} (hp : Outside P h p)
    (hnames : ∀ i s, nameOf h i = some s → nameOf h' i = some s) : Outside P h' p := by
  intro i hi
  obtain ⟨s, hs, hP⟩ := hp i hi
  exact ⟨s, hnames i s hs, hP⟩

/-- Names stay in a frame. -/
theorem Outside.mono {p : Option NodeId} (hp : Outside P h p) (hf : Frame P D h h') :
    Outside P h' p :=
  hp.of_names hf.name

/-- **A child with a harmless name, under a node with one.** -/
theorem Frame.newChild {p : Option NodeId} (hp : Outside P h p) (hP : ¬P name) (hD : ¬D name) :
    Frame P D h (xmlNewChild h p name content).1 ∧
      Outside P (xmlNewChild h p name content).1 (xmlNewChild h p name content).2 := by
  cases p with
  | none => exact ⟨Frame.refl h, Outside.none⟩
  | some p =>
    obtain ⟨t, ht, hPt⟩ := hp p rfl
    have hnode : Frame P D h (xmlNewNode h name content) := Frame.newNode hP hD
    refine ⟨hnode.trans (Frame.addChild (hnode.name p t ht) hPt), ?_⟩
    rintro i ⟨⟩
    refine ⟨name, ?_, hP⟩
    rw [xmlNewChild_some, nameOf_xmlAddChild, nameOf_xmlNewNode, if_pos rfl]

/-- Another set of names. -/
theorem Outside.imp {Q : Text → Prop} {p : Option NodeId} (hp : Outside P h p)
    (hQ : ∀ s, Q s → P s) : Outside Q h p := by
  intro i hi
  obtain ⟨s, hs, hP⟩ := hp i hi
  exact ⟨s, hs, fun hq => hP (hQ s hq)⟩

/-! ### Child elements with a name -/

/-- The node, if it has the name. -/
def elementNamed (h : Heap) (name : Text) (c : NodeId) : Option XmlNode :=
  h[c]?.filter fun n => n.name = name

/-- The children of a node that have the name. -/
def elementsNamed (h : Heap) (i : NodeId) (name : Text) : List XmlNode :=
  (childrenOf h i).filterMap (elementNamed h name)

/-- All children of all nodes are in the heap. -/
def Closed (h : Heap) : Prop := ∀ i, ∀ c ∈ childrenOf h i, c < h.length

variable {e : Text}

/-- A node with another name is no such element. -/
theorem elementNamed_eq_none (hc : nameOf h c ≠ some e) : elementNamed h e c = none := by
  unfold nameOf at hc
  unfold elementNamed
  cases hn : h[c]? with
  | none => rfl
  | some n =>
    rw [hn] at hc
    exact if_neg fun heq => hc (congrArg some (of_decide_eq_true heq))

/-- A new node with another name is none, either. -/
theorem elementNamed_xmlNewNode_of_ne (hname : name ≠ e) :
    elementNamed (xmlNewNode h name content) e c = elementNamed h e c := by
  by_cases hc : c = h.length
  · have hnew : nameOf (xmlNewNode h name content) c ≠ some e := by
      rw [nameOf_xmlNewNode, if_pos hc]
      exact fun heq => hname (Option.some.inj heq)
    have hold : nameOf h c ≠ some e := by
      rw [nameOf_eq_none_iff.mpr hc.ge]
      exact nofun
    rw [elementNamed_eq_none hnew, elementNamed_eq_none hold]
  · have hget : (xmlNewNode h name content)[c]? = h[c]? := by
      rcases Nat.lt_or_gt_of_ne hc with hlt | hgt
      · exact List.getElem?_append_left hlt
      · rw [List.getElem?_eq_none hgt.le, List.getElem?_eq_none]
        rw [xmlNewNode, List.length_append]
        exact hgt
    rw [elementNamed, hget, elementNamed]

/-- A node with another name is changed. -/
theorem elementNamed_modify_of_ne {f : XmlNode → XmlNode} (hf : ∀ n, (f n).name = n.name)
    (hp : nameOf h p ≠ some e) : elementNamed (h.modify p f) e c = elementNamed h e c := by
  by_cases hc : p = c
  · subst hc
    have hnew : nameOf (h.modify p f) p ≠ some e := by rwa [nameOf_modify f hf]
    rw [elementNamed_eq_none hnew, elementNamed_eq_none hp]
  · rw [elementNamed, List.getElem?_modify_ne f h hc, elementNamed]

/-- The elements are told from the children, and from what these are. -/
theorem elementsNamed_congr (hchildren : childrenOf h' i = childrenOf h i)
    (hnodes : ∀ c, elementNamed h' e c = elementNamed h e c) :
    elementsNamed h' i e = elementsNamed h i e := by
  rw [elementsNamed, hchildren, elementsNamed, funext hnodes]

/-- Where there is no node there are no elements. -/
theorem elementsNamed_eq_nil (hi : nameOf h i = none) : elementsNamed h i e = [] := by
  have hchildren : childrenOf h i = [] := by
    rw [childrenOf, List.getElem?_eq_none (nameOf_eq_none_iff.mp hi)]
    rfl
  rw [elementsNamed, hchildren]
  rfl

/-- An attribute for another node changes none of them. -/
theorem elementsNamed_newProp {node : Option NodeId} (hnode : Outside (· = e) h node) :
    elementsNamed (xmlNewProp h node key value) i e = elementsNamed h i e := by
  cases node with
  | none => rfl
  | some q =>
    obtain ⟨t, ht, hne⟩ := hnode q rfl
    refine elementsNamed_congr (childrenOf_xmlNewProp _) fun c => ?_
    refine elementNamed_modify_of_ne (fun _ => rfl) ?_
    rw [ht]
    exact fun heq => hne (Option.some.inj heq)

/-- A child with another name, under a node with another name. -/
theorem elementsNamed_addChild {t : Text} (hp : nameOf h p = some t) (ht : t ≠ e)
    (hc : nameOf h c ≠ some e) :
    elementsNamed (xmlAddChild h (some p) c) i e = elementsNamed h i e := by
  have hnodes : ∀ d, elementNamed (xmlAddChild h (some p) c) e d = elementNamed h e d := by
    intro d
    refine elementNamed_modify_of_ne (fun _ => rfl) ?_
    rw [hp]
    exact fun heq => ht (Option.some.inj heq)
  by_cases hi : i = p
  · subst hi
    rw [elementsNamed, childrenOf_xmlAddChild_self hp, List.filterMap_append, funext hnodes,
      List.filterMap_cons_none (elementNamed_eq_none hc)]
    exact List.append_nil _
  · exact elementsNamed_congr (childrenOf_xmlAddChild_of_ne hi) hnodes

/-- A child with another name is none of them. -/
theorem elementsNamed_newChild {parent : Option NodeId} (hparent : Outside (· = e) h parent)
    (hname : name ≠ e) :
    elementsNamed (xmlNewChild h parent name content).1 i e = elementsNamed h i e := by
  cases parent with
  | none => rfl
  | some p =>
    obtain ⟨t, ht, hne⟩ := hparent p rfl
    have ht' : nameOf (xmlNewNode h name content) p = some t := by
      rw [nameOf_xmlNewNode, if_neg (ne_length_of_nameOf ht), ht]
    have hnew : nameOf (xmlNewNode h name content) h.length ≠ some e := by
      rw [nameOf_xmlNewNode, if_pos rfl]
      exact fun heq => hname (Option.some.inj heq)
    apply (elementsNamed_addChild ht' hne hnew).trans
    exact elementsNamed_congr childrenOf_xmlNewNode fun _ => elementNamed_xmlNewNode_of_ne hname

/-- **A child with the name is one more element of its parent**, and of no other node; what is done
to it later on is `f`. -/
theorem elementsNamed_newChild_modify {f : XmlNode → XmlNode} {t : Text}
    (hf : ∀ n, (f n).name = n.name) (hfc : ∀ n, (f n).children = n.children) (hclosed : Closed h)
    (hp : nameOf h p = some t) (ht : t ≠ e) :
    elementsNamed ((xmlNewChild h (some p) e content).1.modify h.length f) i e =
      elementsNamed h i e ++ if i = p then [f ⟨e, content, [], []⟩] else [] := by
  have ht' : nameOf (xmlNewNode h e content) p = some t := by
    rw [nameOf_xmlNewNode, if_neg (ne_length_of_nameOf hp), hp]
  have hne : p ≠ h.length := ne_length_of_nameOf hp
  have hkeep : childrenOf ((xmlNewChild h (some p) e content).1.modify h.length f) i =
      childrenOf (xmlNewChild h (some p) e content).1 i := by
    simp only [childrenOf, List.getElem?_modify]
    by_cases hi : h.length = i <;> cases (xmlNewChild h (some p) e content).1[i]? <;> simp [hi, hfc]
  -- the children so far are in the heap, and the new node is behind it
  have hold : (childrenOf h i).filterMap
      (elementNamed ((xmlNewChild h (some p) e content).1.modify h.length f) e) =
      elementsNamed h i e := by
    refine List.filterMap_congr fun d hd => ?_
    have hlt : d < h.length := hclosed i d hd
    have hmodify : elementNamed ((xmlNewChild h (some p) e content).1.modify h.length f) e d =
        elementNamed (xmlNewChild h (some p) e content).1 e d := by
      rw [elementNamed, List.getElem?_modify_ne _ _ (Nat.ne_of_gt hlt), elementNamed]
    have hchild : elementNamed (xmlNewChild h (some p) e content).1 e d =
        elementNamed (xmlNewNode h e content) e d := by
      refine elementNamed_modify_of_ne (fun _ => rfl) ?_
      rw [ht']
      exact fun heq => ht (Option.some.inj heq)
    rw [hmodify, hchild, elementNamed, xmlNewNode, List.getElem?_append_left hlt, elementNamed]
  have hnew : elementNamed ((xmlNewChild h (some p) e content).1.modify h.length f) e h.length =
      some (f ⟨e, content, [], []⟩) := by
    rw [elementNamed, List.getElem?_modify_eq, xmlNewChild_some, xmlAddChild,
      List.getElem?_modify_ne _ _ hne, xmlNewNode, List.getElem?_concat_length]
    exact if_pos (decide_eq_true (hf _))
  by_cases hi : i = p
  · subst hi
    rw [elementsNamed, hkeep, xmlNewChild_some, childrenOf_xmlAddChild_self ht',
      childrenOf_xmlNewNode, ← xmlNewChild_some, List.filterMap_append, hold, if_pos rfl,
      List.filterMap_cons_some hnew]
    rfl
  · rw [elementsNamed, hkeep, xmlNewChild_some, childrenOf_xmlAddChild_of_ne hi,
      childrenOf_xmlNewNode, ← xmlNewChild_some, hold, if_neg hi, List.append_nil]

/-- A new element with an attribute stands behind the others. -/
theorem elementsNamed_newChild_prop {t : Text} (hclosed : Closed h) (hp : nameOf h p = some t)
    (ht : t ≠ e) :
    elementsNamed (xmlNewProp (xmlNewChild h (some p) e content).1 (some h.length) key value) i e =
      elementsNamed h i e ++ if i = p then [⟨e, content, [(key, value)], []⟩] else [] :=
  elementsNamed_newChild_modify (fun _ => rfl) (fun _ => rfl) hclosed hp ht

/-- A new element stands behind the others. -/
theorem elementsNamed_newChild_self {t : Text} (hclosed : Closed h) (hp : nameOf h p = some t)
    (ht : t ≠ e) :
    elementsNamed (xmlNewChild h (some p) e content).1 i e =
      elementsNamed h i e ++ if i = p then [⟨e, content, [], []⟩] else [] := by
  have hmodify : elementsNamed ((xmlNewChild h (some p) e content).1.modify h.length id) i e = _ :=
    elementsNamed_newChild_modify (fun _ => rfl) (fun _ => rfl) hclosed hp ht
  rwa [List.modify_id] at hmodify

/-- A child is an old one or the one that has been added. -/
theorem mem_childrenOf_xmlAddChild {parent : Option NodeId} {d : NodeId}
    (hd : d ∈ childrenOf (xmlAddChild h parent c) i) : d ∈ childrenOf h i ∨ d = c := by
  cases parent with
  | none => exact .inl hd
  | some p =>
    by_cases hi : i = p
    · subst hi
      cases hname : nameOf h i with
      | none =>
        -- the node does not exist, and gets no child
        have hsame : xmlAddChild h (some i) c = h :=
          List.modify_eq_self (nameOf_eq_none_iff.mp hname)
        rw [hsame] at hd
        exact .inl hd
      | some t =>
        rw [childrenOf_xmlAddChild_self hname] at hd
        exact (List.mem_append.mp hd).imp_right List.mem_singleton.mp
    · rw [childrenOf_xmlAddChild_of_ne hi] at hd
      exact .inl hd

/-- A node that is there may be added. -/
theorem Closed.addChild (hclosed : Closed h) (parent : Option NodeId) (hc : c < h.length) :
    Closed (xmlAddChild h parent c) := by
  have hlen : (xmlAddChild h parent c).length = h.length := by
    cases parent with
    | none => rfl
    | some p => exact List.length_modify ..
  intro i d hd
  rw [hlen]
  rcases mem_childrenOf_xmlAddChild hd with hd | rfl
  · exact hclosed i d hd
  · exact hc

/-- A new node has no children. -/
theorem Closed.newNode (hclosed : Closed h) : Closed (xmlNewNode h name content) := by
  intro i c hc
  rw [childrenOf_xmlNewNode] at hc
  rw [xmlNewNode, List.length_append]
  exact Nat.lt_add_right _ (hclosed i c hc)

/-- Attributes are no pointers. -/
theorem Closed.newProp (hclosed : Closed h) (node : Option NodeId) :
    Closed (xmlNewProp h node key value) := by
  have hlen : (xmlNewProp h node key value).length = h.length := by
    cases node with
    | none => rfl
    | some q => exact List.length_modify ..
  intro i c hc
  rw [childrenOf_xmlNewProp] at hc
  rw [hlen]
  exact hclosed i c hc

/-- The new child is there. -/
theorem Closed.newChild (hclosed : Closed h) (parent : Option NodeId) :
    Closed (xmlNewChild h parent name content).1 := by
  cases parent with
  | none => exact hclosed
  | some p =>
    apply hclosed.newNode.addChild (some p)
    rw [xmlNewNode, List.length_append]
    exact Nat.lt_succ_self _

/-! ### Leaves -/

/-- Children of one node that nothing is added to, with their names and contents. -/
def xmlLeaves (h : Heap) (parent : Option NodeId) (xs : List (Text × Text)) : Heap :=
  xs.foldl (fun h x => (xmlNewChild h parent x.1 x.2).1) h

/-- Leaves with other names for a node with another name. -/
theorem Frame.leaves {t : Text} (xs : List (Text × Text)) (hp : nameOf h p = some t) (ht : ¬P t)
    (hP : ∀ x ∈ xs, ¬P x.1) (hD : ∀ x ∈ xs, ¬D x.1) : Frame P D h (xmlLeaves h (some p) xs) := by
  induction xs generalizing h with
  | nil => exact .refl h
  | cons x xs ih =>
    have hout : Outside P h (some p) := by
      rintro _ ⟨⟩
      exact ⟨t, hp, ht⟩
    have hx : Frame P D h (xmlNewChild h (some p) x.1 x.2).1 :=
      (Frame.newChild hout (hP x List.mem_cons_self) (hD x List.mem_cons_self)).1
    exact hx.trans (ih (hx.name p t hp) (fun y hy => hP y (List.mem_cons_of_mem x hy))
      fun y hy => hD y (List.mem_cons_of_mem x hy))

/-- The new leaves are there. -/
theorem Closed.leaves (hclosed : Closed h) (parent : Option NodeId) (xs : List (Text × Text)) :
    Closed (xmlLeaves h parent xs) := by
  induction xs generalizing h with
  | nil => exact hclosed
  | cons x xs ih => exact ih (hclosed.newChild parent)

/-- The leaves with a name, in order. -/
theorem elementsNamed_leaves {t : Text} (xs : List (Text × Text)) (hclosed : Closed h)
    (hp : nameOf h p = some t) (ht : t ≠ e) :
    elementsNamed (xmlLeaves h (some p) xs) i e = elementsNamed h i e ++
      if i = p then (xs.filter (·.1 = e)).map fun x => ⟨x.1, x.2, [], []⟩ else [] := by
  induction xs generalizing h with
  | nil => simp [xmlLeaves]
  | cons x xs ih =>
    have hname : nameOf (xmlNewChild h (some p) x.1 x.2).1 p = some t := by
      rw [xmlNewChild_some, nameOf_xmlAddChild, nameOf_xmlNewNode,
        if_neg (ne_length_of_nameOf hp), hp]
    apply (ih (hclosed.newChild (some p)) hname).trans
    by_cases hx : x.1 = e
    · subst hx
      rw [elementsNamed_newChild_self hclosed hp ht, List.append_assoc]
      by_cases hi : i = p <;> simp [hi]
    · have hout : Outside (· = e) h (some p) := by
        rintro _ ⟨⟩
        exact ⟨t, hp, ht⟩
      rw [elementsNamed_newChild hout hx, List.filter_cons_of_neg (by simpa using hx)]

end XmlHeap

/-
BenthosDc/Lib/XmlTree.lean

The element trees that stand in a heap.

A construction through pointers changes only the nodes it holds a pointer to.  So what it
holds no pointer to, with everything below, is finished: `Stands` says which element it is,
and such an element stays whatever is done to the nodes that are held (`Stands.mono`).  A node
that is held is described by `Partly`: the element so far, and behind it the children that
are still worked on.

A finished element is reached by no pointer that the program holds, and no two children of a
node are the same node, because each child is made when it is added.  So the heap holds trees,
and `IsElement` reads an element off it in one way only (`Stands.unique`).
-/
import Mathlib.Data.List.Forall2
import BenthosDc.Lib.XmlHeap

namespace XmlHeap

open CString

/-! ### Elements -/

/-- An element with everything below it. -/
inductive Element
  | node (name content : Text) (props : List (Text × Text)) (children : List Element)

namespace Element

/-- The name of an element. -/
def name : Element → Text
  | node name _ _ _ => name

/-- Its text. -/
def content : Element → Text
  | node _ content _ _ => content

/-- Its attributes, in the order in which they have been added. -/
def props : Element → List (Text × Text)
  | node _ _ props _ => props

/-- Its child elements. -/
def children : Element → List Element
  | node _ _ _ children => children

/-- An element with a text. -/
def leaf (name content : Text) : Element := node name content [] []

/-- An element with children. -/
def branch (name : Text) (children : List Element) : Element := node name [] [] children

/-- Further children, behind the others. -/
def addAll (e : Element) (es : List Element) : Element :=
  node e.name e.content e.props (e.children ++ es)

/-- The node of an element with the children `ids`. -/
def toNode (e : Element) (ids : List NodeId) : XmlNode := ⟨e.name, e.content, e.props, ids⟩

end Element

/-- Node `i` is the element `e`, and no pointer leads to it or below it. -/
inductive Stands (held : NodeId → Prop) (h : Heap) : NodeId → Element → Prop
  | mk {i : NodeId} {e : Element} {ids : List NodeId} (free : ¬held i)
      (node : h[i]? = some (e.toNode ids))
      (children : List.Forall₂ (Stands held h) ids e.children) : Stands held h i e

/-- Node `i` is the element `e` with the nodes `rest` behind its children; the children of `e`
are finished. -/
def Partly (held : NodeId → Prop) (h : Heap) (i : NodeId) (e : Element) (rest : List NodeId) :
    Prop :=
  ∃ ids, h[i]? = some (e.toNode (ids ++ rest)) ∧ List.Forall₂ (Stands held h) ids e.children

/-- Node `i` is the element `e`, when all pointers are given up. -/
def IsElement (h : Heap) : NodeId → Element → Prop := Stands (fun _ => False) h

variable {held held' : NodeId → Prop} {h h' h'' : Heap} {i p c : NodeId} {e e' : Element}
variable {rest : List NodeId} {name content key value : Text}

/-- A node that is there is below the end of the heap. -/
theorem lt_of_getElem? {n : XmlNode} (hi : h[i]? = some n) : i < h.length :=
  (List.getElem?_eq_some_iff.mp hi).1

/-- **What is finished stays**, whatever happens to the nodes that are held, as long as no
pointer to an old node is taken up. -/
theorem Stands.mono (hs : Stands held h i e)
    (hkeep : ∀ i, i < h.length → ¬held i → h'[i]? = h[i]?)
    (hheld : ∀ i, i < h.length → held' i → held i) : Stands held' h' i e := by
  induction e using Element.rec (motive_2 := fun es => ∀ ids,
      List.Forall₂ (Stands held h) ids es → List.Forall₂ (Stands held' h') ids es)
      generalizing i with
  | node name content props children ih =>
    cases hs with
    | mk hfree hnode hchildren =>
      have hlt := lt_of_getElem? hnode
      exact .mk (fun hi => hfree (hheld i hlt hi)) ((hkeep i hlt hfree).trans hnode)
        (ih _ hchildren)
  | nil =>
    rename_i hids
    cases hids
    exact .nil
  | cons e es ihe ihes =>
    rename_i hids
    cases hids with
    | cons he hes => exact .cons (ihe he) (ihes _ hes)

/-- A node is at most one element. -/
theorem Stands.unique (hs : Stands held h i e) (hs' : Stands held h i e') : e = e' := by
  induction e using Element.rec (motive_2 := fun es => ∀ ids es',
      List.Forall₂ (Stands held h) ids es → List.Forall₂ (Stands held h) ids es' → es = es')
      generalizing i e' with
  | node name content props children ih =>
    cases hs with
    | mk _ hnode hchildren =>
      cases hs' with
      | mk _ hnode' hchildren' =>
        obtain ⟨name', content', props', children'⟩ := e'
        rw [hnode] at hnode'
        obtain ⟨rfl, rfl, rfl, rfl⟩ := XmlNode.mk.inj (Option.some.inj hnode')
        exact congrArg _ (ih _ _ hchildren hchildren')
  | nil =>
    rename_i hids hids'
    cases hids
    cases hids'
    rfl
  | cons e es ihe ihes =>
    rename_i hids hids'
    cases hids with
    | cons he hes =>
      cases hids' with
      | cons he' hes' => rw [ihe he he', ihes _ _ hes hes']

/-- A node is one element. -/
theorem IsElement.eq_iff (he : IsElement h i e) : IsElement h i e' ↔ e' = e :=
  ⟨fun he' => he'.unique he, fun heq => heq ▸ he⟩

/-- A node that is worked on is there. -/
theorem Partly.lt (hp : Partly held h i e rest) : i < h.length := by
  obtain ⟨ids, hnode, -⟩ := hp
  exact lt_of_getElem? hnode

/-- Nothing is done to the node and to what stands below it, and nothing more is held. -/
theorem Partly.mono (hp : Partly held h i e rest) (hi : h'[i]? = h[i]?)
    (hkeep : ∀ i, i < h.length → ¬held i → h'[i]? = h[i]?)
    (hheld : ∀ i, i < h.length → held' i → held i) : Partly held' h' i e rest := by
  obtain ⟨ids, hnode, hchildren⟩ := hp
  exact ⟨ids, hi.trans hnode, hchildren.imp fun _ _ hs => hs.mono hkeep hheld⟩

/-- The first of the children that were worked on are finished. -/
theorem Partly.finish {rest' : List NodeId} {es : List Element}
    (hp : Partly held h i e (rest ++ rest')) (hrest : List.Forall₂ (Stands held h) rest es) :
    Partly held h i (e.addAll es) rest' := by
  obtain ⟨ids, hnode, hchildren⟩ := hp
  refine ⟨ids ++ rest, ?_, List.rel_append hchildren hrest⟩
  rw [hnode, List.append_assoc]
  rfl

/-- A node that is let go. -/
theorem Partly.stands (hp : Partly held h i e []) (hfree : ¬held i) : Stands held h i e := by
  obtain ⟨ids, hnode, hchildren⟩ := hp
  rw [List.append_nil] at hnode
  exact .mk hfree hnode hchildren

/-- A node that is let go with all that is worked on below it. -/
theorem Partly.letGo {es : List Element} (hp : Partly held h i e rest)
    (hrest : List.Forall₂ (Stands held h) rest es) (hfree : ¬held i) :
    Stands held h i (e.addAll es) := by
  have hall : Partly held h i e (rest ++ []) := by rwa [List.append_nil]
  exact (hall.finish hrest).stands hfree

/-! ### Operations on one node -/

/-- Only node `p` is changed, and nodes are made. -/
structure Grows (p : NodeId) (h h' : Heap) : Prop where
  length_le : h.length ≤ h'.length
  keep : ∀ i, i < h.length → i ≠ p → h'[i]? = h[i]?

/-- What is done to a new node afterwards. -/
theorem Grows.after (hg : Grows p h h') (hg' : Grows c h' h'') (hc : h.length ≤ c) :
    Grows p h h'' where
  length_le := hg.length_le.trans hg'.length_le
  keep := by
    intro i hi hne
    rw [hg'.keep i (Nat.lt_of_lt_of_le hi hg.length_le) (Nat.ne_of_lt (Nat.lt_of_lt_of_le hi hc)),
      hg.keep i hi hne]

/-- Nothing changes in front of the new nodes. -/
theorem Grows.trans (hg : Grows p h h') (hg' : Grows p h' h'') : Grows p h h'' where
  length_le := hg.length_le.trans hg'.length_le
  keep := by
    intro i hi hne
    rw [hg'.keep i (Nat.lt_of_lt_of_le hi hg.length_le) hne, hg.keep i hi hne]

/-- A change of one node. -/
theorem grows_modify (f : XmlNode → XmlNode) : Grows p h (h.modify p f) where
  length_le := (List.length_modify f h p).ge
  keep := fun _ _ hne => List.getElem?_modify_ne f h (Ne.symm hne)

/-- The node that is changed. -/
theorem getElem?_modify_self {n : XmlNode} (f : XmlNode → XmlNode) (hp : h[p]? = some n) :
    (h.modify p f)[p]? = some (f n) := by
  rw [List.getElem?_modify_eq, hp]
  rfl

/-- A new node changes no other. -/
theorem grows_newNode : Grows p h (xmlNewNode h name content) where
  length_le := by
    rw [xmlNewNode, List.length_append]
    exact Nat.le_add_right _ _
  keep := fun _ hi _ => List.getElem?_append_left hi

theorem getElem?_newNode :
    (xmlNewNode h name content)[h.length]? = some ⟨name, content, [], []⟩ := by
  rw [xmlNewNode, List.getElem?_concat_length]

/-- A new child changes its parent only. -/
theorem grows_newChild : Grows p h (xmlNewChild h (some p) name content).1 :=
  grows_newNode.trans (grows_modify _)

/-- **A new child is the last one of its parent**, and has no children of its own. -/
theorem newChild_spec {n : XmlNode} (hp : h[p]? = some n) :
    (xmlNewChild h (some p) name content).1[p]? =
        some { n with children := n.children ++ [h.length] } ∧
      (xmlNewChild h (some p) name content).1[h.length]? = some ⟨name, content, [], []⟩ ∧
      (xmlNewChild h (some p) name content).1.length = h.length + 1 := by
  have hlt := lt_of_getElem? hp
  have hp' : (xmlNewNode h name content)[p]? = some n :=
    (List.getElem?_append_left hlt).trans hp
  refine ⟨getElem?_modify_self _ hp', ?_, ?_⟩
  · rw [xmlNewChild_some, xmlAddChild, List.getElem?_modify_ne _ _ (Nat.ne_of_lt hlt)]
    exact getElem?_newNode
  · rw [xmlNewChild_some, xmlAddChild, List.length_modify, xmlNewNode, List.length_append]
    rfl

/-! ### Work on held nodes -/

/-- Every pointer that is held leads to a node. -/
def Valid (held : NodeId → Prop) (h : Heap) : Prop := ∀ i, held i → i < h.length

/-- The next node is not held. -/
theorem Valid.not_held (hv : Valid held h) : ¬held h.length := fun hl => Nat.lt_irrefl _ (hv _ hl)

/-- Held nodes stay there. -/
theorem Valid.grows (hv : Valid held h) (hg : Grows p h h') : Valid held h' :=
  fun i hi => Nat.lt_of_lt_of_le (hv i hi) hg.length_le

/-- The heap from `h` to `h'`, with work on the held node `p`; no pointer to an old node is taken
up. -/
structure Works (held held' : NodeId → Prop) (p : NodeId) (h h' : Heap) : Prop where
  grows : Grows p h h'
  holds : held p
  drops : ∀ i, i < h.length → held' i → held i

/-- What is not held stays as it is. -/
theorem Works.keep (hw : Works held held' p h h') (i : NodeId) (hi : i < h.length)
    (hfree : ¬held i) : h'[i]? = h[i]? :=
  hw.grows.keep i hi fun heq => hfree (heq ▸ hw.holds)

/-- What is done to a new node afterwards. -/
theorem Works.after (hw : Works held held' p h h') (hw' : Works held' held' c h' h'')
    (hc : h.length ≤ c) : Works held held' p h h'' :=
  ⟨hw.grows.after hw'.grows hc, hw.holds, hw.drops⟩

/-- **Finished elements stay finished** while work goes on at held nodes. -/
theorem Stands.works (hs : Stands held h i e) (hw : Works held held' p h h') :
    Stands held' h' i e :=
  hs.mono hw.keep hw.drops

/-- The other nodes that are worked on. -/
theorem Partly.works (hp : Partly held h i e rest) (hw : Works held held' p h h') (hne : i ≠ p) :
    Partly held' h' i e rest :=
  hp.mono (hw.grows.keep i hp.lt hne) hw.keep hw.drops

/-- Node `p` gets a child, which is `e` and finished. -/
structure Adds (held : NodeId → Prop) (p : NodeId) (e : Element) (h h' : Heap) : Prop where
  grows : Grows p h h'
  node : ∀ n, h[p]? = some n →
    ∃ c, h'[p]? = some { n with children := n.children ++ [c] } ∧ Stands held h' c e

/-- Adding an element is work at a held node. -/
theorem Adds.works (ha : Adds held p e h h') (hp : held p) : Works held held p h h' :=
  ⟨ha.grows, hp, fun _ _ hi => hi⟩

/-- The element is one of the children. -/
theorem Partly.adds (hp : Partly held h p e []) (ha : Adds held p e' h h') (hheld : held p) :
    Partly held h' p (e.addAll [e']) [] := by
  obtain ⟨ids, hnode, hchildren⟩ := hp
  obtain ⟨c, hnode', hc⟩ := ha.node _ hnode
  refine ⟨ids ++ [c], ?_, List.rel_append (hchildren.imp fun _ _ hs => hs.works (ha.works hheld))
    (.cons hc .nil)⟩
  rw [hnode', List.append_nil, List.append_nil]
  rfl

/-- A new node is held while it is worked on. -/
theorem partly_newChild {n : XmlNode} (hp : h[p]? = some n) :
    Partly held (xmlNewChild h (some p) name content).1 h.length (.leaf name content) [] :=
  ⟨[], (newChild_spec hp).2.1, .nil⟩

/-- A child with all the work on it, which is let go in the end. -/
theorem adds_newChild {n : XmlNode} (hp : h[p]? = some n) (hv : Valid held h)
    (hg : Grows h.length (xmlNewChild h (some p) name content).1 h')
    (hc : Partly (fun i => held i ∨ i = h.length) h' h.length e []) : Adds held p e h h' := by
  refine ⟨grows_newChild.after hg le_rfl, fun m hm => ⟨h.length, ?_, ?_⟩⟩
  · have hlt : p < (xmlNewChild h (some p) name content).1.length :=
      Nat.lt_of_lt_of_le (lt_of_getElem? hp) (grows_newChild (p := p)).length_le
    rw [hg.keep p hlt (Nat.ne_of_lt (lt_of_getElem? hp))]
    exact (newChild_spec hm).1
  · have hmono : Partly held h' h.length e [] :=
      hc.mono rfl (fun _ _ _ => rfl) fun _ _ hi => .inl hi
    exact hmono.stands hv.not_held

/-- A leaf is finished when it is made. -/
theorem adds_leaf {n : XmlNode} (hp : h[p]? = some n) (hv : Valid held h) :
    Adds held p (.leaf name content) h (xmlNewChild h (some p) name content).1 :=
  adds_newChild hp hv ⟨le_rfl, fun _ _ _ => rfl⟩ (partly_newChild hp)

/-- A leaf for a node that is worked on. -/
theorem Partly.newLeaf (hp : Partly held h p e []) (hheld : held p) (hv : Valid held h) :
    Partly held (xmlNewChild h (some p) name content).1 p (e.addAll [.leaf name content]) [] := by
  obtain ⟨ids, hnode, -⟩ := id hp
  exact hp.adds (adds_leaf hnode hv) hheld

/-- One more child that is worked on. -/
theorem Partly.newChild (hp : Partly held h p e rest)
    (hw : Works held held' p h (xmlNewChild h (some p) name content).1) :
    Partly held' (xmlNewChild h (some p) name content).1 p e (rest ++ [h.length]) := by
  obtain ⟨ids, hnode, hchildren⟩ := hp
  refine ⟨ids, ?_, hchildren.imp fun _ _ hs => hs.works hw⟩
  rw [(newChild_spec hnode).1, ← List.append_assoc]
  rfl

/-- A child that is a node of its own. -/
theorem Partly.addChild (hp : Partly held h p e rest)
    (hw : Works held held' p h (xmlAddChild h (some p) c)) :
    Partly held' (xmlAddChild h (some p) c) p e (rest ++ [c]) := by
  obtain ⟨ids, hnode, hchildren⟩ := hp
  refine ⟨ids, ?_, hchildren.imp fun _ _ hs => hs.works hw⟩
  rw [xmlAddChild, getElem?_modify_self _ hnode, ← List.append_assoc]
  rfl

/-- An attribute, behind the others. -/
def Element.withProp (e : Element) (key value : Text) : Element :=
  node e.name e.content (e.props ++ [(key, value)]) e.children

/-- An attribute for a node that is worked on. -/
theorem Partly.newProp (hp : Partly held h p e rest) (hheld : held p) :
    Partly held (xmlNewProp h (some p) key value) p (e.withProp key value) rest := by
  obtain ⟨ids, hnode, hchildren⟩ := hp
  have hg : Grows p h (xmlNewProp h (some p) key value) := grows_modify _
  have hw : Works held held p h (xmlNewProp h (some p) key value) := ⟨hg, hheld, fun _ _ hi => hi⟩
  exact ⟨ids, getElem?_modify_self _ hnode, hchildren.imp fun _ _ hs => hs.works hw⟩

/-- Leaves change their parent only. -/
theorem Grows.leaves (xs : List (Text × Text)) : Grows p h (xmlLeaves h (some p) xs) := by
  induction xs generalizing h with
  | nil => exact ⟨le_rfl, fun _ _ _ => rfl⟩
  | cons x xs ih => exact grows_newChild.trans ih

/-- Leaves for a node that is worked on, in order. -/
theorem Partly.leaves (xs : List (Text × Text)) (hp : Partly held h p e []) (hheld : held p)
    (hv : Valid held h) :
    Partly held (xmlLeaves h (some p) xs) p (e.addAll (xs.map fun x => .leaf x.1 x.2)) [] := by
  induction xs generalizing h e with
  | nil =>
    obtain ⟨name, content, props, children⟩ := e
    rw [Element.addAll, List.map_nil, List.append_nil]
    exact hp
  | cons x xs ih =>
    have hx : Partly held (xmlNewChild h (some p) x.1 x.2).1 p (e.addAll [.leaf x.1 x.2]) [] :=
      hp.newLeaf hheld hv
    have hrest := ih hx (hv.grows grows_newChild)
    rw [Element.addAll, Element.addAll, Element.children, List.append_assoc] at hrest
    exact hrest

end XmlHeap

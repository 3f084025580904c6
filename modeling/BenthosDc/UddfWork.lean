/-
BenthosDc/UddfWork.lean

What the callbacks of the UDDF formatter do inside a dive, said once.

Between the prolog and the epilog of a dive the formatter makes elements under the nodes that
its pointers lead to, and moves the pointers of the dive.  What is asked about this work
differs: one result counts the dives by the names of the nodes above them, another one tells
the tanks by the links below them.  Each is a relation between the formatter before and behind
a piece of the work, which holds of one new element and can be chained.  `Working P N I R`
asks for that alone, with pointers that keep off the names in `P` and elements with names in
`N`, and the rules give the rest:

* `Working.prolog`, `Working.headerToken` and `Working.waypointCb`: `R` holds of the callbacks.
  The tokens with an effect of their own are left to the relation: the one that makes a
  repetition group (`MakesGroup`), and those that are about a tank (`MentionsTank`).
* `Working.foldl`: `R` holds of any number of steps.
-/
import BenthosDc.OutputUddf

namespace BenthosDc

open CString XmlHeap

/-! ### The prolog in two steps

The node of the dive is made first, and then what always stands in it.
-/

/-- The formatter with the node of a new dive, before the children of the dive are made. -/
def withDive (f : UddfFmtData) : UddfFmtData := { f with
  doc := xmlNewProp (xmlNewNode f.doc "dive".toList []) (some f.doc.length) "id".toList (diveId f)
  curProfile := some f.doc.length
  curWaypoint := none
  curMixes := ∅
  tanks := ∅
  did := f.did + 1 }

/-! ### Tokens with an effect of their own -/

/-- The token that makes a repetition group. -/
def MakesGroup (e : HeaderEntry) : Prop := e.token = .repetition ∧ e.value = 1

instance : DecidablePred MakesGroup := fun _ => instDecidableAnd

/-- The tokens that are about the tank of their index; a gas content of 0 is not. -/
def MentionsTank (e : HeaderEntry) : Prop :=
  e.token = .pxStart ∨ e.token = .pxEnd ∨ (e.token = .pmo2 ∨ e.token = .pmhe) ∧ e.value ≠ 0

instance : DecidablePred MentionsTank := fun _ => instDecidableOr

/-! ### Names

The names that the work may give, the fixed ones and those that are made from tokens.
-/

/-- The names that the prolog and the callbacks give, but for those of tanks and groups. -/
def workNames : List Text :=
  ["applicationdata", "benthos", "informationbeforedive", "informationafterdive", "samples",
    "surfaceintervalbeforedive", "infinity", "passedtime", "datetime", "utc_offset",
    "diveduration", "desaturationtime", "noflighttime", "greatestdepth", "avg_depth",
    "airtemperature", "max_temp", "lowesttemperature", "waypoint", "divetime", "depth",
    "temperature", "alarm"].map String.toList

/-- The name of a vendor's element has 254 characters, or ends with a digit. -/
theorem vendorName_ne (e : HeaderEntry) {t : Text} (hlen : t.length < 254)
    (hlast : t.getLast?.any Char.isDigit = false) : vendorName e ≠ t := by
  rintro rfl
  have hshort : (tokenName e.name ++ decimal e.index).length < 254 := by
    rw [vendorName, List.length_take] at hlen
    omega
  have hne : decimal e.index ≠ [] := Nat.toDigits_ne_nil
  rw [vendorName, List.take_of_length_le hshort.le, List.getLast?_append_of_ne_nil _ hne,
    List.getLast?_eq_some_getLast hne] at hlast
  have hdigit : (some ((decimal e.index).getLast hne)).any Char.isDigit = true :=
    isDigit_of_mem_decimal (List.getLast_mem hne)
  rw [hdigit] at hlast
  cases hlast

/-! ### The rules

From one new leaf to all the callbacks of a dive.
-/

/-- The pointers of a dive are null, or lead to nodes with names outside `P`. -/
structure UddfFmtData.Leads (P : Text → Prop) (f : UddfFmtData) : Prop where
  curProfile : Outside P f.doc f.curProfile
  curWaypoint : Outside P f.doc f.curWaypoint
  appdata : Outside P f.doc f.appdata
  samples : Outside P f.doc f.samples
  before : Outside P f.doc f.before
  after : Outside P f.doc f.after
  tanks : ∀ (i : Nat) p, f.tanks[i]? = some p → Outside P f.doc p

/-- A document in which the nodes have the names they had. -/
theorem UddfFmtData.Leads.setDoc {P : Text → Prop} {f : UddfFmtData} (h : f.Leads P) {doc : Heap}
    (hnames : ∀ i t, nameOf f.doc i = some t → nameOf doc i = some t) :
    { f with doc := doc }.Leads P where
  curProfile := h.curProfile.of_names hnames
  curWaypoint := h.curWaypoint.of_names hnames
  appdata := h.appdata.of_names hnames
  samples := h.samples.of_names hnames
  before := h.before.of_names hnames
  after := h.after.of_names hnames
  tanks := fun i p hp => (h.tanks i p hp).of_names hnames

/-- Before the first dive the pointers are null. -/
theorem uddfInit_leads (P : Text → Prop) (version date ts : Text) :
    (uddfInit version date ts).Leads P :=
  ⟨Outside.none, Outside.none, Outside.none, Outside.none, Outside.none, Outside.none,
    fun _ _ hp => by cases Std.TreeMap.getElem?_emptyc.symm.trans hp⟩

/-- A relation that one new element keeps, for a formatter with the invariant `I`. -/
structure Working (P N : Text → Prop) (I : UddfFmtData → Prop)
    (R : UddfFmtData → UddfFmtData → Prop) : Prop where
  refl : ∀ {f}, I f → R f f
  trans : ∀ {f f' f''}, R f f' → R f' f'' → R f f''
  inv : ∀ {f f'}, R f f' → I f'
  leads : ∀ {f}, I f → f.Leads P
  nodes : ∀ {f f'}, R f f' → ∀ i t, nameOf f.doc i = some t → nameOf f'.doc i = some t
  newChild : ∀ {f p name} (content : Text), I f → Outside P f.doc p → N name →
    R f (f.newChild p name content).1 ∧
      Outside P (f.newChild p name content).1.doc (f.newChild p name content).2
  pointers : ∀ {f waypoint appdata samples before after}, I f →
    Outside P f.doc waypoint → Outside P f.doc appdata → Outside P f.doc samples →
    Outside P f.doc before → Outside P f.doc after →
    R f { f with
      curWaypoint := waypoint
      appdata := appdata
      samples := samples
      before := before
      after := after }
  work : ∀ name ∈ workNames, N name
  vendor : ∀ e, N (vendorName e)

namespace Working

variable {P N : Text → Prop} {I : UddfFmtData → Prop} {R : UddfFmtData → UddfFmtData → Prop}
variable {s : OutputFmtData} {f : UddfFmtData} {p : Option NodeId} {name content : Text}

theorem leaf (w : Working P N I R) (h : I f) (hp : Outside P f.doc p) (hname : N name) :
    R f (f.leaf p name content) :=
  (w.newChild content h hp hname).1

/-- A fold of steps. -/
theorem foldl {α : Type} {step : UddfFmtData → α → UddfFmtData} (w : Working P N I R)
    (xs : List α) (h : I f) (hstep : ∀ g, R f g → ∀ x ∈ xs, R g (step g x)) :
    R f (xs.foldl step f) := by
  have hrun : ∀ ys : List α, (∀ y ∈ ys, y ∈ xs) → ∀ g, R f g → R f (ys.foldl step g) := by
    intro ys
    induction ys with
    | nil => exact fun _ g hg => hg
    | cons y ys ih =>
      intro hys g hg
      have hy := hstep g hg y (hys y List.mem_cons_self)
      exact ih (fun z hz => hys z (List.mem_cons_of_mem y hz)) _ (w.trans hg hy)
  exact hrun xs (fun _ hx => hx) f (w.refl h)

/-- Leaves below one node. -/
theorem leaves (w : Working P N I R) (xs : List (Text × Text)) (h : I f) (hp : Outside P f.doc p)
    (hname : ∀ x ∈ xs, N x.1) : R f (xs.foldl (fun f x => f.leaf p x.1 x.2) f) := by
  refine w.foldl xs h fun g hg x hx => ?_
  exact w.leaf (w.inv hg) (hp.of_names (w.nodes hg)) (hname x hx)

/-- The children of a new dive. -/
theorem prolog (w : Working P N I R) (h : I (withDive f)) :
    R (withDive f) (uddfProlog f) := by
  obtain ⟨r₂, o₂⟩ := w.newChild [] h (w.leads h).curProfile
    (w.work "applicationdata".toList (by decide))
  obtain ⟨r₃, o₃⟩ := w.newChild [] (w.inv r₂) o₂ (w.work "benthos".toList (by decide))
  obtain ⟨r₄, o₄⟩ := w.newChild [] (w.inv r₃) (w.leads (w.inv r₃)).curProfile
    (w.work "informationbeforedive".toList (by decide))
  obtain ⟨r₅, o₅⟩ := w.newChild [] (w.inv r₄) (w.leads (w.inv r₄)).curProfile
    (w.work "informationafterdive".toList (by decide))
  obtain ⟨r₆, o₆⟩ := w.newChild [] (w.inv r₅) (w.leads (w.inv r₅)).curProfile
    (w.work "samples".toList (by decide))
  have hchildren := w.trans r₂ (w.trans r₃ (w.trans r₄ (w.trans r₅ r₆)))
  -- the nodes made first are still there when the pointers are set
  have hpointers := w.pointers (w.inv r₆) (w.leads (w.inv r₆)).curWaypoint
    (o₃.of_names (w.nodes (w.trans r₄ (w.trans r₅ r₆)))) o₆ (o₄.of_names (w.nodes (w.trans r₅ r₆)))
    (o₅.of_names (w.nodes r₆))
  exact w.trans hchildren hpointers

/-- A header token that is one element. -/
theorem headerLeaf (w : Working P N I R) (h : I f) {e : HeaderEntry}
    (hleaf : uddfHeaderLeaf f e = some (p, name, content)) : R f (f.leaf p name content) := by
  have hlead := w.leads h
  unfold uddfHeaderLeaf at hleaf
  split at hleaf <;> cases hleaf
  all_goals first
    | exact w.leaf h hlead.before (w.work _ (by decide))
    | exact w.leaf h hlead.after (w.work _ (by decide))
    | exact w.leaf h hlead.appdata (w.work _ (by decide))
    | exact w.leaf h hlead.appdata (w.vendor e)

/-- The surface interval is two elements. -/
theorem interval (w : Working P N I R) (h : I f) (v : BitVec 32) :
    R f (uddfInterval f v) := by
  obtain ⟨hsi, hout⟩ := w.newChild [] h (w.leads h).before
    (w.work "surfaceintervalbeforedive".toList (by decide))
  by_cases hv : v = 0
  · have heq : uddfInterval f v = _ := if_pos hv
    rw [heq]
    exact w.trans hsi (w.leaf (w.inv hsi) hout (w.work _ (by decide)))
  · have heq : uddfInterval f v = _ := if_neg hv
    rw [heq]
    exact w.trans hsi (w.leaf (w.inv hsi) hout (w.work _ (by decide)))

/-- **A header token** that makes no group and is about no tank. -/
theorem headerToken (w : Working P N I R) (h : I f) {e : HeaderEntry}
    (hgroup : ¬MakesGroup e) (htank : ¬MentionsTank e) : R f (uddfHeaderToken f e) := by
  have hmix : ∀ set, e.token = .pmo2 ∨ e.token = .pmhe → uddfTankMix f e set = f := by
    intro set htoken
    have hzero : e.value = 0 := by
      by_contra hne
      exact htank (.inr (.inr ⟨htoken, hne⟩))
    exact if_pos hzero
  unfold uddfHeaderToken
  split
  · exact w.interval h e.value
  · next htoken =>
    rw [if_neg fun hvalue => hgroup ⟨htoken, hvalue⟩]
    exact w.refl h
  · next htoken => exact absurd (.inl htoken) htank
  · next htoken => exact absurd (.inr (.inl htoken)) htank
  · next htoken =>
    rw [hmix _ (.inl htoken)]
    exact w.refl h
  · next htoken =>
    rw [hmix _ (.inr htoken)]
    exact w.refl h
  · split
    · exact w.refl h
    · next hleaf => exact w.headerLeaf h hleaf

/-- **A token of the profile.** -/
theorem waypointCb (w : Working P N I R) (h : I f) (t : Waypoint) :
    R f (uddfWaypointCb s f t) := by
  have hlead := w.leads h
  unfold uddfWaypointCb
  split
  · unfold uddfWaypointToken
    split
    · obtain ⟨hw, hout⟩ := w.newChild [] h hlead.samples (w.work "waypoint".toList (by decide))
      have hlead' := w.leads (w.inv hw)
      have hcur := w.pointers (w.inv hw) hout hlead'.appdata hlead'.samples hlead'.before
        hlead'.after
      exact w.trans (w.trans hw hcur) (w.leaf (w.inv hcur) hout (w.work _ (by decide)))
    · exact w.leaf h hlead.curWaypoint (w.work _ (by decide))
    · exact w.leaf h hlead.curWaypoint (w.work _ (by decide))
    · exact w.leaf h hlead.curWaypoint (w.work _ (by decide))
    · exact w.refl h
  · exact w.refl h

/-- The profile of a dive. -/
theorem profile (w : Working P N I R) (h : I f) (ts : List Waypoint) :
    R f (ts.foldl (uddfWaypointCb s) f) :=
  w.foldl ts h fun _ hg t _ => w.waypointCb (w.inv hg) t

end Working

end BenthosDc

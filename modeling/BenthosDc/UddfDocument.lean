/-
BenthosDc/UddfDocument.lean

The document of the UDDF formatter as one element, made from the tokens of the dives without
pointers.

A header token is at most one element in one place of its dive (`headerElement`), a time token
begins a waypoint, the tanks stand in the order in which the header mentions them, and each
links to the mix that the header reports for it.  A dive goes to the last repetition group.

Nothing of the formatter stands in the definitions of this file but the texts that it prints.
The heap with its pointers is compared with them in `UddfTree`.
-/
import Mathlib.Data.List.ModifyLast
import BenthosDc.Lib.XmlTree
import BenthosDc.UddfFractions

namespace BenthosDc

open CString XmlHeap

/-! ### The places of a dive

A dive has a fixed set of places, and a place that gets no element is not in the document.
-/

/-- The elements of a dive that take one leaf after the other. -/
inductive UddfSlot
  | appdata
  | before
  | after
  | waypoint
  | tank (i : Nat)
  deriving DecidableEq

/-- The name of the element at a place. -/
def UddfSlot.name : UddfSlot → Text
  | .appdata => "benthos".toList
  | .before => "informationbeforedive".toList
  | .after => "informationafterdive".toList
  | .waypoint => "waypoint".toList
  | .tank _ => "tankdata".toList

/-- The surface interval, which is infinite if it is 0. -/
def intervalElement (v : BitVec 32) : Element :=
  .branch "surfaceintervalbeforedive".toList [if v = 0 then .leaf "infinity".toList []
    else .leaf "passedtime".toList (decimalInt (seconds v).toInt)]

/-- What a header token is in the document. -/
def headerElement (e : HeaderEntry) : Option (UddfSlot × Element) :=
  match e.token with
  | .startTime => some (.before, .leaf "datetime".toList (isoTime e.value.toInt))
  | .utcOffset => some (.appdata, .leaf "utc_offset".toList (decimalInt e.value.toInt))
  | .duration => some (.after, .leaf "diveduration".toList (decimal (seconds e.value).toNat))
  | .interval => some (.before, intervalElement e.value)
  | .desatBefore =>
      some (.before, .leaf "desaturationtime".toList (decimal (seconds e.value).toNat))
  | .desatAfter =>
      some (.after, .leaf "desaturationtime".toList (decimal (seconds e.value).toNat))
  | .noflyBefore => some (.before, .leaf "noflighttime".toList (decimal (seconds e.value).toNat))
  | .noflyAfter => some (.after, .leaf "noflighttime".toList (decimal (seconds e.value).toNat))
  | .maxDepth => some (.after, .leaf "greatestdepth".toList (hundredths e.value))
  | .avgDepth => some (.appdata, .leaf "avg_depth".toList (hundredths e.value))
  | .airTemp => some (.before, .leaf "airtemperature".toList (kelvin e.value))
  | .maxTemp => some (.appdata, .leaf "max_temp".toList (hundredths e.value))
  | .minTemp => some (.after, .leaf "lowesttemperature".toList (kelvin e.value))
  | .pxStart => some (.tank e.index, .leaf "tankpressurebegin".toList (decimal e.value.toNat))
  | .pxEnd => some (.tank e.index, .leaf "tankpressureend".toList (decimal e.value.toNat))
  | .vendor => some (.appdata, .leaf (vendorName e) (decimal e.value.toNat))
  | .repetition | .pmo2 | .pmhe => none

/-- The elements of a header in one place. -/
def elementsIn (hdr : List HeaderEntry) (σ : UddfSlot) : List Element :=
  hdr.filterMap fun e => (headerElement e).bind fun x => if x.1 = σ then some x.2 else none

/-- The tanks of a header, in the order in which it mentions them. -/
def tanksOf (hdr : List HeaderEntry) : List Nat :=
  ((hdr.filter (MentionsTank ·)).map (·.index)).eraseDups

/-- What a token behind a time token is in its waypoint. -/
def waypointElement (t : Waypoint) : Option Element :=
  match t.token with
  | .depth => some (.leaf "depth".toList (hundredths t.value))
  | .temp => some (.leaf "temperature".toList (kelvin t.value))
  | .alarm => some (.leaf "alarm".toList (tokenName t.name))
  | _ => none

/-- The leaves of the waypoint that the time token `t` begins. -/
def waypointLeaves (t : Waypoint) (own : List Waypoint) : List Element :=
  .leaf "divetime".toList (decimalInt t.value.toInt) :: own.filterMap waypointElement

/-- The waypoints of a profile, each with its leaves. -/
def waypointsIn : List Waypoint → List (List Element)
  | [] => []
  | t :: ts =>
      if t.token = .time then waypointLeaves t (ownTokens ts) :: waypointsIn ts else waypointsIn ts

/-- A dive, with the leaves of all places but the waypoints. -/
def diveElement (id : Text) (leaves : UddfSlot → List Element) (waypoints : List (List Element))
    (tanks : List Nat) : Element :=
  .node "dive".toList [] [("id".toList, id)]
    ([.branch "applicationdata".toList [.branch UddfSlot.appdata.name (leaves .appdata)],
      .branch UddfSlot.before.name (leaves .before), .branch UddfSlot.after.name (leaves .after),
      .branch "samples".toList (waypoints.map (.branch UddfSlot.waypoint.name))] ++
      tanks.map fun i => .branch (UddfSlot.tank i).name (leaves (.tank i)))

/-- The places that a dive has. -/
theorem diveElement_congr {id : Text} {leaves leaves' : UddfSlot → List Element}
    {waypoints : List (List Element)} {tanks : List Nat}
    (h : ∀ σ, σ ≠ .waypoint → (∀ i, σ = .tank i → i ∈ tanks) → leaves σ = leaves' σ) :
    diveElement id leaves waypoints tanks = diveElement id leaves' waypoints tanks := by
  have htanks : tanks.map (fun i => Element.branch (UddfSlot.tank i).name (leaves (.tank i))) =
      tanks.map fun i => .branch (UddfSlot.tank i).name (leaves' (.tank i)) := by
    refine List.map_congr_left fun i hi => congrArg _ (h (.tank i) nofun ?_)
    rintro j ⟨⟩
    exact hi
  rw [diveElement, diveElement, htanks, h .appdata nofun nofun, h .before nofun nofun,
    h .after nofun nofun]

/-! ### Mixes

The mixes are collected over all dives, and a mix that is there already is linked to.
-/

variable {mixes : Std.TreeMap Text Mix}

/-- The id of a mix in the list; what is not reported is air. -/
def refTo (mixes : Std.TreeMap Text Mix) : Option Mix → Text
  | none => "air".toList
  | some m => ((mixes.toList.find? (·.2 = m)).map Prod.fst).getD []

/-- The list with a mix that is reported. -/
def withMix (mixes : Std.TreeMap Text Mix) : Option Mix → Std.TreeMap Text Mix
  | none => mixes
  | some m =>
      match mixes.toList.find? (·.2 = m) with
      | none => mixes.insertIfNew (mixName mixes.size) m
      | some _ => mixes

/-- The mixes behind the tanks `is`. -/
def withMixes (mixes : Std.TreeMap Text Mix) (mix : Nat → Option Mix) (is : List Nat) :
    Std.TreeMap Text Mix :=
  is.foldl (fun mixes i => withMix mixes (mix i)) mixes

/-- A link to a mix. -/
def linkElement (ref : Text) : Element := .node "link".toList [] [("ref".toList, ref)] []

/-- The link of a tank, behind its pressures. -/
def linksIn (mixes : Std.TreeMap Text Mix) (mix : Nat → Option Mix) : UddfSlot → List Element
  | .tank i => [linkElement (refTo mixes (mix i))]
  | _ => []

/-- A mix with its three contents. -/
def mixElement (mix : Text × Mix) : Element :=
  .node "mix".toList [] [("id".toList, mix.1)]
    ((mixTexts mix.2).map fun x => .leaf x.1 x.2)

/-! ### The document

The document is a fold over the dives: the groups with their dives, the mixes, and the number
of the next one.
-/

/-- A repetition group: its id, and its dives. -/
abbrev UddfGroup := Text × List Element

/-- A repetition group. -/
def groupElement (g : UddfGroup) : Element :=
  .node "repetitiongroup".toList [] [("id".toList, g.1)] g.2

/-- The groups behind a header token. -/
def groupsAfter (ts : Text) (gs : List UddfGroup) (e : HeaderEntry) : List UddfGroup :=
  if MakesGroup e then gs ++ [("benthos_repgroup_".toList ++ ts ++ '_' :: padded 3 gs.length, [])]
  else gs

/-- What a run of the formatter has made: groups, mixes, and the number of dives. -/
structure UddfRun where
  groups : List UddfGroup
  mixes : Std.TreeMap Text Mix
  dives : Nat

/-- The profile tokens that the formatter looks at. -/
def seenProfile (s : OutputFmtData) (d : DiveTokens) : List Waypoint :=
  if s.outputProfile then d.profile else []

/-- The tanks in the order in which they are linked. -/
def linkOrder (hdr : List HeaderEntry) : List Nat := (tanksOf hdr).mergeSort

/-- One dive more. -/
def UddfRun.dive (s : OutputFmtData) (ts : Text) (r : UddfRun) (d : DiveTokens) : UddfRun :=
  let hdr := seenHeader s d
  let mixes := withMixes r.mixes (headerMix hdr) (linkOrder hdr)
  let dive := diveElement ("benthos_dive_".toList ++ ts ++ '_' :: padded 3 r.dives)
    (fun σ => elementsIn hdr σ ++ linksIn mixes (headerMix hdr) σ) (waypointsIn (seenProfile s d))
    (tanksOf hdr)
  { groups := (hdr.foldl (groupsAfter ts) r.groups).modifyLast fun g => (g.1, g.2 ++ [dive])
    mixes := mixes
    dives := r.dives + 1 }

/-- Who has written the document. -/
def generatorElement (version date : Text) : Element :=
  .branch "generator".toList [.leaf "name".toList "benthos-dc".toList,
    .leaf "version".toList version, .leaf "datetime".toList date]

/-- The root element with what a run has made. -/
def UddfRun.document (version date : Text) (r : UddfRun) : Element :=
  .node "uddf".toList [] [("version".toList, "3.0.0".toList)]
    [generatorElement version date, .branch "gasdefinitions".toList (r.mixes.toList.map mixElement),
      .branch "profiledata".toList (r.groups.map groupElement)]

/-- **The document of a list of dives.** -/
def uddfDocument (s : OutputFmtData) (version date ts : Text) (ds : List DiveTokens) : Element :=
  (ds.foldl (UddfRun.dive s ts) ⟨[], .ofList predefined, 0⟩).document version date

/-! ### One token more

The definitions are computed token by token from the end, in step with the callbacks.
-/

variable {hdr : List HeaderEntry} {e : HeaderEntry} {σ : UddfSlot} {i : Nat}

/-- A token adds its element to its place. -/
theorem elementsIn_concat (hdr : List HeaderEntry) (e : HeaderEntry) (σ : UddfSlot) :
    elementsIn (hdr ++ [e]) σ = elementsIn hdr σ ++
      ((headerElement e).bind fun x => if x.1 = σ then some x.2 else none).toList := by
  rw [elementsIn, List.filterMap_append, ← elementsIn]
  rfl

/-- A token without an element adds nothing. -/
theorem elementsIn_concat_none (he : headerElement e = none) (τ : UddfSlot) :
    elementsIn (hdr ++ [e]) τ = elementsIn hdr τ := by
  rw [elementsIn_concat, he]
  exact List.append_nil _

/-- A token with an element adds it. -/
theorem elementsIn_concat_some {c : Element} (he : headerElement e = some (σ, c)) (τ : UddfSlot) :
    elementsIn (hdr ++ [e]) τ =
      Function.update (elementsIn hdr) σ (elementsIn hdr σ ++ [c]) τ := by
  rw [elementsIn_concat, he, Option.bind_some]
  by_cases hτ : τ = σ
  · rw [hτ, Function.update_self, if_pos rfl]
    rfl
  · rw [Function.update_of_ne hτ, if_neg (Ne.symm hτ)]
    exact List.append_nil _

/-- Only tokens about a tank are elements of a tank. -/
theorem mentions_of_headerElement {c : Element} (h : headerElement e = some (.tank i, c)) :
    MentionsTank e ∧ e.index = i := by
  unfold headerElement at h
  split at h
  case h_14 ht =>
    cases h
    exact ⟨.inl ht, rfl⟩
  case h_15 ht =>
    cases h
    exact ⟨.inr (.inl ht), rfl⟩
  all_goals cases h

/-- The tanks are those that the header mentions. -/
theorem mem_tanksOf : i ∈ tanksOf hdr ↔ ∃ e ∈ hdr, MentionsTank e ∧ e.index = i := by
  rw [tanksOf, List.mem_eraseDups, List.mem_map]
  constructor
  · rintro ⟨e, he, rfl⟩
    obtain ⟨he, hm⟩ := List.mem_filter.mp he
    exact ⟨e, he, of_decide_eq_true hm, rfl⟩
  · rintro ⟨e, he, hm, rfl⟩
    exact ⟨e, List.mem_filter.mpr ⟨he, decide_eq_true hm⟩, rfl⟩

/-- A tank that is not mentioned has no elements. -/
theorem elementsIn_tank (h : i ∉ tanksOf hdr) : elementsIn hdr (.tank i) = [] := by
  refine List.filterMap_eq_nil_iff.mpr fun e he => ?_
  cases hel : headerElement e with
  | none => rfl
  | some x =>
    obtain ⟨σ, c⟩ := x
    apply if_neg
    rintro rfl
    exact h (mem_tanksOf.mpr ⟨e, he, mentions_of_headerElement hel⟩)

/-- A tank that is mentioned first is the last one. -/
theorem tanksOf_concat (hdr : List HeaderEntry) (e : HeaderEntry) : tanksOf (hdr ++ [e]) =
    if MentionsTank e ∧ e.index ∉ tanksOf hdr then tanksOf hdr ++ [e.index] else tanksOf hdr := by
  by_cases he : MentionsTank e
  · have hmem : e.index ∈ tanksOf hdr ↔ e.index ∈ (hdr.filter (MentionsTank ·)).map (·.index) :=
      List.mem_eraseDups
    have hlast : [e].filter (MentionsTank ·) = [e] := List.filter_cons_of_pos (decide_eq_true he)
    rw [tanksOf, List.filter_append, List.map_append, List.eraseDups_append, ← tanksOf, hlast]
    by_cases hi : e.index ∈ tanksOf hdr
    · have hin : ((hdr.filter (MentionsTank ·)).map (·.index)).elem e.index = true :=
        List.elem_eq_true_of_mem (hmem.mp hi)
      rw [if_neg fun h => h.2 hi, List.map_singleton, List.removeAll,
        List.filter_cons_of_neg (by rw [hin]; exact Bool.false_ne_true)]
      exact List.append_nil _
    · have hnot : ((hdr.filter (MentionsTank ·)).map (·.index)).elem e.index = false := by
        rw [← Bool.not_eq_true, List.elem_iff]
        exact fun h => hi (hmem.mpr h)
      rw [if_pos ⟨he, hi⟩, List.map_singleton, List.removeAll,
        List.filter_cons_of_pos (by rw [hnot]; rfl)]
      rfl
  · have hlast : [e].filter (MentionsTank ·) = [] := List.filter_cons_of_neg (by simpa using he)
    rw [if_neg fun h => he h.1, tanksOf, List.filter_append, hlast, List.append_nil, ← tanksOf]

/-- No tank is there twice. -/
theorem nodup_tanksOf (hdr : List HeaderEntry) : (tanksOf hdr).Nodup := by
  induction hdr using List.reverseRecOn with
  | nil => exact List.nodup_nil
  | append_singleton hdr e ih =>
    rw [tanksOf_concat]
    split
    · next h => exact ih.append (List.nodup_singleton _) (List.disjoint_singleton.mpr h.2)
    · exact ih

/-- A sorted list of the tanks is the order in which they are linked. -/
theorem eq_linkOrder {is : List Nat} (hsorted : is.Pairwise (· < ·))
    (hmem : ∀ i, i ∈ is ↔ i ∈ tanksOf hdr) : is = linkOrder hdr := by
  have hperm : is.Perm (linkOrder hdr) := by
    refine ((List.perm_ext_iff_of_nodup (hsorted.imp fun h => Nat.ne_of_lt h)
      (nodup_tanksOf hdr)).mpr hmem).trans (List.mergeSort_perm _ _).symm
  have horder : (linkOrder hdr).Pairwise (· ≤ ·) := by
    refine (List.pairwise_mergeSort ?_ ?_ (tanksOf hdr)).imp fun h => of_decide_eq_true h
    · intro a b c hab hbc
      exact decide_eq_true ((of_decide_eq_true hab).trans (of_decide_eq_true hbc))
    · intro a b
      simpa using Nat.le_total a b
  exact hperm.eq_of_pairwise (fun _ _ _ _ => Nat.le_antisymm) (hsorted.imp Nat.le_of_lt) horder

/-- A TIME token behind a profile starts a waypoint. -/
theorem ownTokens_concat_time {t : Waypoint} (ht : t.token = .time) (ts : List Waypoint) :
    ownTokens (ts ++ [t]) = ownTokens ts := by
  induction ts with
  | nil => exact ownTokens_time [] ht
  | cons u ts ih =>
    by_cases hu : u.token = .time
    · rw [List.cons_append, ownTokens_time _ hu, ownTokens_time _ hu]
    · rw [List.cons_append, ownTokens_own _ hu, ownTokens_own _ hu, ih]

/-- A time token begins the next waypoint. -/
theorem waypointsIn_concat_time {t : Waypoint} (ht : t.token = .time) (ts : List Waypoint) :
    waypointsIn (ts ++ [t]) = waypointsIn ts ++ [waypointLeaves t []] := by
  induction ts with
  | nil => exact if_pos ht
  | cons u ts ih =>
    rw [List.cons_append, waypointsIn, waypointsIn, ownTokens_concat_time ht, ih]
    split <;> rfl

/-- Another token behind a profile joins the last waypoint. -/
theorem ownTokens_concat_own {t : Waypoint} (ht : t.token ≠ .time) (ts : List Waypoint) :
    ownTokens (ts ++ [t]) = if waypointsIn ts = [] then ownTokens ts ++ [t] else ownTokens ts := by
  induction ts with
  | nil => exact ownTokens_own [] ht
  | cons u ts ih =>
    by_cases hu : u.token = .time
    · have hne : waypointsIn (u :: ts) ≠ [] := by
        rw [waypointsIn, if_pos hu]
        exact List.cons_ne_nil _ _
      rw [if_neg hne, List.cons_append, ownTokens_time _ hu, ownTokens_time _ hu]
    · rw [List.cons_append, ownTokens_own _ hu, ownTokens_own _ hu, ih, waypointsIn, if_neg hu]
      split <;> rfl

/-- Any other token belongs to the last waypoint. -/
theorem waypointsIn_concat_own {t : Waypoint} (ht : t.token ≠ .time) (ts : List Waypoint) :
    waypointsIn (ts ++ [t]) =
      (waypointsIn ts).modifyLast (· ++ (waypointElement t).toList) := by
  induction ts with
  | nil => exact if_neg ht
  | cons u ts ih =>
    rw [List.cons_append, waypointsIn, waypointsIn, ih]
    by_cases hu : u.token = .time
    · rw [if_pos hu, if_pos hu, ownTokens_concat_own ht]
      by_cases hnil : waypointsIn ts = []
      · -- the token is the first waypoint's
        have hown : waypointLeaves u (ownTokens ts ++ [t]) =
            waypointLeaves u (ownTokens ts) ++ (waypointElement t).toList := by
          rw [waypointLeaves, List.filterMap_append, ← List.cons_append, ← waypointLeaves]
          rfl
        rw [if_pos hnil, hnil, hown]
        exact (List.modifyLast_concat _ _ []).symm
      · rw [if_neg hnil]
        exact (List.modifyLast_append_of_right_ne_nil _ [waypointLeaves u (ownTokens ts)] _
          hnil).symm
    · rw [if_neg hu, if_neg hu]

/-- A token that a waypoint does not show changes none. -/
theorem waypointsIn_concat_none {t : Waypoint} (ht : t.token ≠ .time)
    (helement : waypointElement t = none) (ts : List Waypoint) :
    waypointsIn (ts ++ [t]) = waypointsIn ts := by
  rw [waypointsIn_concat_own ht, helement]
  rcases List.eq_nil_or_concat' (waypointsIn ts) with hnil | ⟨ws, w, hws⟩
  · rw [hnil]
    rfl
  · rw [hws, List.modifyLast_concat]
    exact congrArg (fun w => ws ++ [w]) (List.append_nil w)

/-! ### The mixes behind a tank

A mix that has been linked to keeps its id, however many follow.
-/

variable {k : Text} {m : Mix} {mix : Nat → Option Mix}

/-- The id of a mix that is in the list. -/
theorem refTo_eq (h : MixesOk mixes) (hk : mixes[k]? = some m) : refTo mixes (some m) = k := by
  cases hfind : mixes.toList.find? (·.2 = m) with
  | none => exact absurd hk (find?_mix_eq_none.mp hfind k)
  | some known =>
    have hmem := List.mem_of_find?_eq_some hfind
    have hvalue : known.2 = m := by simpa using List.find?_some hfind
    have hget : mixes[known.1]? = some m :=
      hvalue ▸ Std.TreeMap.mem_toList_iff_getElem?_eq_some.mp hmem
    rw [refTo, hfind]
    exact h.distinct known.1 k m hget hk

/-- The list stays in order. -/
theorem withMix_ok (h : MixesOk mixes) (o : Option Mix) : MixesOk (withMix mixes o) := by
  unfold withMix
  split
  · exact h
  · split
    · next hfind => exact h.add (find?_mix_eq_none.mp hfind)
    · exact h

theorem withMix_grows (h : MixesOk mixes) (o : Option Mix) (hk : mixes[k]? = some m) :
    (withMix mixes o)[k]? = some m := by
  unfold withMix
  split
  · exact hk
  · split
    · exact h.grows hk
    · exact hk

/-- A mix that is reported is in the list afterwards. -/
theorem exists_getElem?_withMix (h : MixesOk mixes) (m : Mix) :
    ∃ k : Text, (withMix mixes (some m))[k]? = some m := by
  unfold withMix
  split
  · next hnone => cases hnone
  · next m' hsome =>
    obtain rfl := Option.some.inj hsome
    split
    · exact ⟨_, (h.getElem?_add _).trans (if_pos rfl)⟩
    · next known hfind =>
      have hmem := List.mem_of_find?_eq_some hfind
      have hvalue : known.2 = m := by simpa using List.find?_some hfind
      exact ⟨known.1, hvalue ▸ Std.TreeMap.mem_toList_iff_getElem?_eq_some.mp hmem⟩

theorem withMixes_ok (h : MixesOk mixes) (is : List Nat) : MixesOk (withMixes mixes mix is) := by
  induction is generalizing mixes with
  | nil => exact h
  | cons i is ih => exact ih (withMix_ok h (mix i))

theorem withMixes_grows (h : MixesOk mixes) (is : List Nat) (hk : mixes[k]? = some m) :
    (withMixes mixes mix is)[k]? = some m := by
  induction is generalizing mixes with
  | nil => exact hk
  | cons i is ih => exact ih (withMix_ok h (mix i)) (withMix_grows h (mix i) hk)

/-- **The id of a mix stays** when further mixes are reported. -/
theorem refTo_withMixes (h : MixesOk mixes) (o : Option Mix) (is : List Nat) :
    refTo (withMixes (withMix mixes o) mix is) o = refTo (withMix mixes o) o := by
  cases o with
  | none => rfl
  | some m =>
    obtain ⟨k, hk⟩ := exists_getElem?_withMix h m
    have hok := withMix_ok h (some m)
    rw [refTo_eq hok hk, refTo_eq (withMixes_ok hok is) (withMixes_grows hok is hk)]

end BenthosDc

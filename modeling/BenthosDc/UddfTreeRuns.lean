/-
BenthosDc/UddfTreeRuns.lean

Whole runs of the UDDF formatter, and the document they build.

The prolog starts a dive, each token adds to it, and the epilog lets it go: then it is one more
dive of the last repetition group (`Between.dive`).  So the closed document is `uddfDocument`
(`uddfClose_document`).
-/
import BenthosDc.UddfTree

namespace BenthosDc

open CString XmlHeap

variable {s : OutputFmtData} {f f' : UddfFmtData}
variable {gen c : Element} {gs : List UddfGroup} {extra : List NodeId} {n p : Nat}
variable {σ : UddfSlot} {name content id : Text}
variable {leaves : UddfSlot → List Element} {closed : List (List Element)} {tanks : List Nat}

/-! ### The prolog

The prolog makes all the nodes of a dive at once, as a block at the end of the heap.
-/

/-- The nodes of a dive that the prolog makes behind `n` others. -/
def diveNodes (n : Nat) (id : Text) : Heap :=
  [⟨"dive".toList, [], [("id".toList, id)], [n + 1, n + 3, n + 4, n + 5]⟩,
    ⟨"applicationdata".toList, [], [], [n + 2]⟩, ⟨"benthos".toList, [], [], []⟩,
    ⟨"informationbeforedive".toList, [], [], []⟩, ⟨"informationafterdive".toList, [], [], []⟩,
    ⟨"samples".toList, [], [], []⟩]

/-- A child of one of the nodes behind `h`. -/
theorem newChild_append (h k : Heap) (i : Nat) (name : Text) :
    xmlNewChild (h ++ k) (some (h.length + i)) name [] =
      (h ++ (k ++ [(⟨name, [], [], []⟩ : XmlNode)]).modify i
        (fun m => { m with children := m.children ++ [h.length + k.length] }),
        some (h.length + k.length)) := by
  have hmodify : ∀ (l : Heap) (g : XmlNode → XmlNode),
      (h ++ l).modify (h.length + i) g = h ++ l.modify i g := fun l g =>
    List.modifyTailIdx_add (List.modifyHead g) i h l
  rw [xmlNewChild_some, xmlNewNode, xmlAddChild, List.append_assoc, hmodify, List.length_append]

/-- The prolog is this block and the pointers into it. -/
theorem uddfProlog_eq (f : UddfFmtData) : uddfProlog f = { f with
    doc := f.doc ++ diveNodes f.doc.length (diveId f)
    curProfile := some f.doc.length
    curWaypoint := none
    curMixes := ∅
    tanks := ∅
    did := f.did + 1
    appdata := some (f.doc.length + 2)
    before := some (f.doc.length + 3)
    after := some (f.doc.length + 4)
    samples := some (f.doc.length + 5) } := by
  let n := f.doc.length
  let dive (ids : List NodeId) : XmlNode := ⟨"dive".toList, [], [("id".toList, diveId f)], ids⟩
  let node (name : Text) (ids : List NodeId) : XmlNode := ⟨name, [], [], ids⟩
  let app := node "applicationdata".toList [n + 2]
  let benthos := node "benthos".toList []
  let before := node "informationbeforedive".toList []
  let after := node "informationafterdive".toList []
  have hdive : xmlNewProp (xmlNewNode f.doc "dive".toList []) (some n) "id".toList (diveId f) =
      f.doc ++ [dive []] :=
    List.modifyTailIdx_add (List.modifyHead _) 0 f.doc _
  have happ : xmlNewChild (f.doc ++ [dive []]) (some n) "applicationdata".toList [] =
      (f.doc ++ [dive [n + 1], node "applicationdata".toList []], some (n + 1)) :=
    newChild_append f.doc _ 0 _
  have hbenthos : xmlNewChild (f.doc ++ [dive [n + 1], node "applicationdata".toList []])
      (some (n + 1)) "benthos".toList [] =
      (f.doc ++ [dive [n + 1], app, benthos], some (n + 2)) :=
    newChild_append f.doc _ 1 _
  have hbefore : xmlNewChild (f.doc ++ [dive [n + 1], app, benthos]) (some n)
      "informationbeforedive".toList [] =
      (f.doc ++ [dive [n + 1, n + 3], app, benthos, before], some (n + 3)) :=
    newChild_append f.doc _ 0 _
  have hafter : xmlNewChild (f.doc ++ [dive [n + 1, n + 3], app, benthos, before]) (some n)
      "informationafterdive".toList [] =
      (f.doc ++ [dive [n + 1, n + 3, n + 4], app, benthos, before, after], some (n + 4)) :=
    newChild_append f.doc _ 0 _
  have hsamples : xmlNewChild (f.doc ++ [dive [n + 1, n + 3, n + 4], app, benthos, before, after])
      (some n) "samples".toList [] =
      (f.doc ++ diveNodes n (diveId f), some (n + 5)) :=
    newChild_append f.doc _ 0 _
  simp only [uddfProlog, UddfFmtData.newChild, n, hdive, happ, hbenthos, hbefore, hafter, hsamples]

/-- A node of the block. -/
theorem getElem?_diveNodes (h : Heap) (n : Nat) (id : Text) (k : Nat) :
    (h ++ diveNodes n id)[h.length + k]? = (diveNodes n id)[k]? := by
  rw [List.getElem?_append_right (Nat.le_add_right _ _), Nat.add_sub_cancel_left]

/-- The places of a new dive. -/
theorem slot_uddfProlog (h : (uddfProlog f).slot σ = some p) :
    ∃ k, p = f.doc.length + k ∧
      (σ = .appdata ∧ k = 2 ∨ σ = .before ∧ k = 3 ∨ σ = .after ∧ k = 4) := by
  rw [uddfProlog_eq] at h
  cases σ with
  | appdata => exact ⟨2, (Option.some.inj h).symm, .inl ⟨rfl, rfl⟩⟩
  | before => exact ⟨3, (Option.some.inj h).symm, .inr (.inl ⟨rfl, rfl⟩)⟩
  | after => exact ⟨4, (Option.some.inj h).symm, .inr (.inr ⟨rfl, rfl⟩)⟩
  | waypoint => cases h
  | tank i =>
    have hnone : (∅ : Std.TreeMap Nat (Option NodeId))[i]?.join = none := by
      rw [Std.TreeMap.getElem?_emptyc]
      rfl
    cases hnone.symm.trans h

/-- **The prolog starts a dive.** -/
theorem uddfProlog_inProgress (h : Outline f.Outer f gen gs []) :
    InProgress (uddfProlog f) gen gs [] f.doc.length (diveId f) (elementsIn []) []
      (tanksOf []) := by
  have hdoc : (uddfProlog f).doc = f.doc ++ diveNodes f.doc.length (diveId f) := by
    rw [uddfProlog_eq]
  have hcur : (uddfProlog f).curProfile = some f.doc.length := by rw [uddfProlog_eq]
  have hsamples : (uddfProlog f).samples = some (f.doc.length + 5) := by rw [uddfProlog_eq]
  have hsame : SameOuter f (uddfProlog f) := by
    rw [uddfProlog_eq]
    exact ⟨rfl, rfl, rfl, rfl, rfl⟩
  have hold : ∀ i, i < f.doc.length → (uddfProlog f).doc[i]? = f.doc[i]? := by
    intro i hi
    rw [hdoc, List.getElem?_append_left hi]
  have hnew : ∀ k : Nat, (uddfProlog f).doc[f.doc.length + k]? =
      (diveNodes f.doc.length (diveId f))[k]? := by
    intro k
    rw [hdoc, getElem?_diveNodes]
  have hheld : ∀ i, i < f.doc.length → (uddfProlog f).Held i → f.Outer i := by
    rintro i hi (houter | hprofile | hsample | ⟨σ, hσ⟩)
    · unfold UddfFmtData.Outer at houter ⊢
      rwa [hsame.root, hsame.gasdef, hsame.profiles, hsame.repgrp] at houter
    · rw [hcur] at hprofile
      exact absurd (Option.some.inj hprofile) (Nat.ne_of_gt hi)
    · rw [hsamples] at hsample
      have heq : f.doc.length + 5 = i := Option.some.inj hsample
      omega
    · obtain ⟨k, heq, -⟩ := slot_uddfProlog hσ
      omega
  have hnodes : ∀ i, f.Outer i → (uddfProlog f).doc[i]? = f.doc[i]? :=
    fun i hi => hold i (h.valid i hi)
  have hsix : 6 < f.doc.length := h.valid 6 (.inr (.inr (.inl h.profiles)))
  refine ⟨h.mono hsame hnodes (fun i hi _ => hold i hi) hheld, ?_, hsix, ?_⟩
  · exact
      { profile := hcur
        appdata := by rw [uddfProlog_eq]
        before := by rw [uddfProlog_eq]
        after := by rw [uddfProlog_eq]
        samples := hsamples
        dive := ⟨[], ⟨[], hnew 0, .nil⟩, .nil⟩
        wrapper := ⟨[], hnew 1, .nil⟩
        waypoints := by
          have hnone : (uddfProlog f).curWaypoint = none := by rw [uddfProlog_eq]
          rw [hnone]
          exact ⟨[], hnew 5, .nil⟩
        places := by
          intro σ p hσ
          obtain ⟨k, rfl, ⟨rfl, rfl⟩ | ⟨rfl, rfl⟩ | ⟨rfl, rfl⟩⟩ := slot_uddfProlog hσ
          · exact ⟨[], hnew 2, .nil⟩
          · exact ⟨[], hnew 3, .nil⟩
          · exact ⟨[], hnew 4, .nil⟩
        inside := by
          intro σ p hσ
          obtain ⟨k, rfl, hk⟩ := slot_uddfProlog hσ
          omega
        distinct := by
          intro σ τ p hσ hτ
          obtain ⟨k, rfl, hk⟩ := slot_uddfProlog hσ
          obtain ⟨k', heq, hk'⟩ := slot_uddfProlog hτ
          obtain rfl : k = k' := Nat.add_left_cancel heq
          rcases hk with ⟨rfl, rfl⟩ | ⟨rfl, rfl⟩ | ⟨rfl, rfl⟩
          all_goals rcases hk' with ⟨rfl, hk'⟩ | ⟨rfl, hk'⟩ | ⟨rfl, hk'⟩
          all_goals first
            | rfl
            | cases hk'
        made := by
          intro i
          have htanks : (uddfProlog f).tanks = ∅ := by rw [uddfProlog_eq]
          rw [htanks, Std.TreeMap.getElem?_emptyc]
          refine iff_of_false ?_ List.not_mem_nil
          rintro ⟨p, hp⟩
          cases hp }
  · intro r hr
    rw [hsame.repgrp] at hr
    exact .inl (h.valid r (.inr (.inr (.inr hr))))

/-! ### The profile

A waypoint is a new place below the samples, and the one before it is let go.
-/

/-- The formatter with a node for a waypoint. -/
def withWaypoint (f : UddfFmtData) (n : Nat) : UddfFmtData := { f with
  doc := (xmlNewChild f.doc (some (n + 5)) "waypoint".toList []).1
  curWaypoint := some f.doc.length }

/-- A new waypoint is a new place. -/
theorem withWaypoint_newPlace (f : UddfFmtData) (n : Nat) :
    NewPlace f (withWaypoint f n) .waypoint (n + 5) where
  outer := ⟨rfl, rfl, rfl, rfl, rfl⟩
  profile := rfl
  samples := rfl
  slot := fun σ => by cases σ <;> rfl
  doc := rfl

/-- **A new waypoint**: the one before is finished. -/
theorem InProgress.newWaypoint (h : InProgress f gen gs extra n id leaves closed tanks) :
    InProgress (withWaypoint f n) gen gs extra n id (Function.update leaves .waypoint [])
      (closed ++ f.curWaypoint.toList.map fun _ => leaves .waypoint) tanks := by
  have hnew := withWaypoint_newPlace f n
  have hq : f.Held (n + 5) := .inr (.inr (.inl h.sketch.samples))
  have hw := hnew.works h hq
  obtain ⟨T, hdive, htanks⟩ := h.sketch.dive
  have hn : n ≠ n + 5 := by omega
  have hn₁ : n + 1 ≠ n + 5 := by omega
  have hlast : List.Forall₂ (Stands (withWaypoint f n).Held (withWaypoint f n).doc)
      f.curWaypoint.toList (f.curWaypoint.toList.map fun _ =>
        .branch UddfSlot.waypoint.name (leaves .waypoint)) := by
    cases hcur : f.curWaypoint with
    | none => exact .nil
    | some w =>
      have hplace := h.sketch.places .waypoint w hcur
      have hw' : w ≠ n + 5 := (h.sketch.inside .waypoint w hcur).2
      refine .cons ((hplace.works hw hw').stands fun hheld => ?_) .nil
      exact ((hnew.holds h hheld).resolve_right (Nat.ne_of_lt hplace.lt)).2 hcur
  refine ⟨h.outline.works hnew.outer hw (h.outside (by omega) (.inl le_rfl)), ?_, h.behind,
    hnew.apart h⟩
  exact
    { profile := h.sketch.profile
      appdata := h.sketch.appdata
      before := h.sketch.before
      after := h.sketch.after
      samples := h.sketch.samples
      dive := ⟨T, hdive.works hw hn, htanks⟩
      wrapper := h.sketch.wrapper.works hw hn₁
      waypoints := by
        have hboth := (h.sketch.waypoints.newChild hw).finish hlast
        rw [List.map_append, List.map_map]
        exact hboth
      places := hnew.places h hq (.inr rfl)
      inside := hnew.inside h
      distinct := hnew.distinct h
      made := h.sketch.made }

/-- The waypoints behind the tokens `ts`: the current one is the last. -/
structure Sampled (f : UddfFmtData) (leaves : UddfSlot → List Element)
    (closed : List (List Element)) (ts : List Waypoint) : Prop where
  waypoints : waypointsIn ts = closed ++ f.curWaypoint.toList.map fun _ => leaves .waypoint
  first : f.curWaypoint = none → closed = []

/-- A TIME token makes a waypoint with its time in it. -/
theorem uddfWaypointToken_time {t : Waypoint} (hsamples : f.samples = some (n + 5))
    (ht : t.token = .time) : uddfWaypointToken f t =
      (withWaypoint f n).leaf ((withWaypoint f n).slot .waypoint) "divetime".toList
        (decimalInt t.value.toInt) := by
  obtain ⟨token, value, index, name⟩ := t
  obtain rfl : token = .time := ht
  cases f
  obtain rfl := hsamples
  rfl

/-- Any other token makes a leaf, or nothing. -/
theorem uddfWaypointToken_own {t : Waypoint} (ht : t.token ≠ .time) :
    uddfWaypointToken f t = f ∧ waypointElement t = none ∨
      ∃ name content, uddfWaypointToken f t = f.leaf (f.slot .waypoint) name content ∧
        waypointElement t = some (.leaf name content) := by
  obtain ⟨token, value, index, name⟩ := t
  cases token with
  | time => exact absurd rfl ht
  | depth => exact .inr ⟨_, _, rfl, rfl⟩
  | temp => exact .inr ⟨_, _, rfl, rfl⟩
  | alarm => exact .inr ⟨_, _, rfl, rfl⟩
  | _ => exact .inl ⟨rfl, rfl⟩

namespace InProgress

variable {ts : List Waypoint}

/-- **One profile token.** -/
theorem waypointToken (h : InProgress f gen gs extra n id leaves closed tanks)
    (hs : Sampled f leaves closed ts) (t : Waypoint) :
    ∃ leaves' closed', InProgress (uddfWaypointToken f t) gen gs extra n id leaves' closed' tanks ∧
      Sampled (uddfWaypointToken f t) leaves' closed' (ts ++ [t]) ∧
      ∀ σ, σ ≠ .waypoint → leaves' σ = leaves σ := by
  by_cases ht : t.token = .time
  · have hσ : (withWaypoint f n).slot .waypoint = some f.doc.length := rfl
    rw [uddfWaypointToken_time h.sketch.samples ht]
    refine ⟨_, _, h.newWaypoint.leaf hσ, ⟨?_, fun hnone => ?_⟩, ?_⟩
    · rw [waypointsIn_concat_time ht, hs.waypoints, Function.update_self, Function.update_self]
      rfl
    · cases hnone
    · intro σ hne
      rw [Function.update_of_ne hne, Function.update_of_ne hne]
  · rcases uddfWaypointToken_own (f := f) ht with ⟨htoken, helement⟩ |
      ⟨name, content, htoken, helement⟩
    · rw [htoken]
      refine ⟨leaves, closed, h, ⟨?_, hs.first⟩, fun _ _ => rfl⟩
      rw [waypointsIn_concat_none ht helement, hs.waypoints]
    · rw [htoken]
      cases hcur : f.curWaypoint with
      | none =>
        -- in front of the first time token there is no waypoint
        have hsame : f.leaf (f.slot .waypoint) name content = f := by
          have hslot : f.slot .waypoint = none := hcur
          rw [hslot]
          rfl
        have hnil : waypointsIn ts = [] := by rw [hs.waypoints, hs.first hcur, hcur]; rfl
        rw [hsame]
        refine ⟨leaves, closed, h, ⟨?_, hs.first⟩, fun _ _ => rfl⟩
        rw [waypointsIn_concat_own ht, ← hs.waypoints, hnil]
        rfl
      | some w =>
        refine ⟨_, closed, h.leaf hcur, ⟨?_, fun hnone => ?_⟩, fun σ hne =>
          Function.update_of_ne hne _ _⟩
        · show _ = closed ++ f.curWaypoint.toList.map _
          rw [waypointsIn_concat_own ht, helement, hs.waypoints, hcur, Function.update_self]
          exact List.modifyLast_concat _ _ _
        · exact absurd (hcur.symm.trans hnone) nofun

/-- **The profile of a dive.** -/
theorem profile (tokens : List Waypoint) (h : InProgress f gen gs extra n id leaves closed tanks)
    (hs : Sampled f leaves closed ts) :
    ∃ leaves' closed',
      InProgress (tokens.foldl uddfWaypointToken f) gen gs extra n id leaves' closed' tanks ∧
      Sampled (tokens.foldl uddfWaypointToken f) leaves' closed' (ts ++ tokens) ∧
      ∀ σ, σ ≠ .waypoint → leaves' σ = leaves σ := by
  induction tokens generalizing f leaves closed ts with
  | nil => exact ⟨leaves, closed, h, by rwa [List.append_nil], fun _ _ => rfl⟩
  | cons t tokens ih =>
    obtain ⟨leaves₁, closed₁, h₁, hs₁, hleaves₁⟩ := h.waypointToken hs t
    obtain ⟨leaves₂, closed₂, h₂, hs₂, hleaves₂⟩ := ih h₁ hs₁
    rw [List.append_assoc] at hs₂
    exact ⟨leaves₂, closed₂, h₂, hs₂, fun σ hne => (hleaves₂ σ hne).trans (hleaves₁ σ hne)⟩

end InProgress

/-! ### The epilog

The links come below the tanks, in the order of the table, and then the dive is let go.
-/

/-- The dive is linked to the last group, if there is one. -/
theorem InProgress.linkDive (h : InProgress f gen gs [] n id leaves closed tanks) :
    InProgress { f with doc := xmlAddChild f.doc f.repgrp n } gen gs [n] n id leaves closed
      tanks := by
  have hgroups := h.outline.groups
  generalize hdoc : xmlAddChild f.doc f.repgrp n = doc
  by_cases hnone : f.repgrp = none
  · rw [hnone] at hdoc
    subst hdoc
    refine ⟨{ h.outline with groups := ?_ }, { h.sketch with }, h.behind, h.apart⟩
    cases hgroups with
    | none hgroup hp => exact .none hgroup hp
    | last hgroup _ _ => cases hnone.symm.trans hgroup
  · obtain ⟨r, hrep⟩ := Option.ne_none_iff_exists'.mp hnone
    rw [hrep] at hdoc
    subst hdoc
    have hheld : f.Held r := .inl (.inr (.inr (.inr hrep)))
    have hw : Works f.Held f.Held r f.doc (xmlAddChild f.doc (some r) n) :=
      ⟨grows_modify _, hheld, fun _ _ hi => hi⟩
    have hr := h.outline.behind r hrep
    have hzero : (0 : Nat) ≠ r := by omega
    have hfive : (5 : Nat) ≠ r := by omega
    have hsix : (6 : Nat) ≠ r := by omega
    refine ⟨{ h.outline with
        doc := h.outline.doc.works hw hzero
        gases := h.outline.gases.works hw hfive
        groups := ?_ }, ?_, h.behind, h.apart⟩
    · cases hgroups with
      | none hgroup _ => cases hrep.symm.trans hgroup
      | last hgroup hp hdives =>
        obtain rfl := Option.some.inj (hrep.symm.trans hgroup)
        exact .last hgroup (hp.works hw hsix) (hdives.addChild hw)
    · refine h.sketch.works ⟨rfl, rfl, fun σ => by cases σ <;> rfl, rfl⟩ hw ?_ fun σ hσ => ?_
      · exact (h.apart r hrep).imp_right And.left
      · rcases h.apart r hrep with hlt | hlt
        · have hle := (h.sketch.inside σ r hσ).1
          omega
        · exact hlt.2 σ hσ

/-- The link of a tank. -/
theorem InProgress.link (h : InProgress f gen gs extra n id leaves closed tanks)
    (hσ : f.slot σ = some p) (ref : Text) :
    InProgress (uddfLink f (some p) ref) gen gs extra n id
      (Function.update leaves σ (leaves σ ++ [linkElement ref])) closed tanks := by
  obtain ⟨ids, hnode, -⟩ := h.sketch.places σ p hσ
  refine h.add hσ (adds_newChild hnode h.valid (grows_modify _) ?_)
  exact (partly_newChild hnode).newProp (.inr rfl)

/-- The mix of a tank is looked up, or added, and linked to. -/
theorem uddfTankLink_eq (hmixes : MixesOk f.mixes) (tank : Nat × Option NodeId) :
    uddfTankLink f tank = uddfLink
      { f with mixes := withMix f.mixes f.curMixes[mixName tank.1]? } tank.2
      (refTo (withMix f.mixes f.curMixes[mixName tank.1]?) f.curMixes[mixName tank.1]?) := by
  unfold uddfTankLink
  split
  · next hmix =>
    rw [hmix]
    rfl
  · next m hmix =>
    rw [hmix]
    split
    · next hfind =>
      have hnew : withMix f.mixes (some m) = f.mixes.insertIfNew (mixName f.mixes.size) m := by
        rw [withMix, hfind]
      have hget : (f.mixes.insertIfNew (mixName f.mixes.size) m)[mixName f.mixes.size]? = some m :=
        (hmixes.getElem?_add _).trans (if_pos rfl)
      rw [hnew, refTo_eq (hmixes.add (find?_mix_eq_none.mp hfind)) hget]
    · next known hfind =>
      have hold : withMix f.mixes (some m) = f.mixes := by rw [withMix, hfind]
      rw [hold, refTo, hfind]
      rfl

/-- The links of the tanks `ts`, which are behind their other elements. -/
def linksAmong (mixes : Std.TreeMap Text Mix) (mix : Nat → Option Mix) (is : List Nat) :
    UddfSlot → List Element
  | .tank i => if i ∈ is then linksIn mixes mix (.tank i) else []
  | _ => []

/-- **The loop over the tanks.** -/
theorem InProgress.tankLinks {mix : Nat → Option Mix} (ts : List (Nat × Option NodeId))
    (h : InProgress f gen gs extra n id leaves closed tanks) (hmixes : MixesOk f.mixes)
    (hmix : ∀ i, f.curMixes[mixName i]? = mix i)
    (hnodes : ∀ t ∈ ts, ∃ p, t.2 = some p ∧ f.slot (.tank t.1) = some p)
    (hnodup : (ts.map Prod.fst).Nodup) :
    InProgress (ts.foldl uddfTankLink f) gen gs extra n id
        (fun σ => leaves σ ++ linksAmong (withMixes f.mixes mix (ts.map Prod.fst)) mix
          (ts.map Prod.fst) σ) closed tanks ∧
      (ts.foldl uddfTankLink f).mixes = withMixes f.mixes mix (ts.map Prod.fst) ∧
      (ts.foldl uddfTankLink f).curWaypoint = f.curWaypoint := by
  induction ts generalizing f leaves with
  | nil =>
    refine ⟨h.congr fun σ => ?_, rfl, rfl⟩
    cases σ <;> exact List.append_nil _
  | cons t ts ih =>
    obtain ⟨i, o⟩ := t
    obtain ⟨p, rfl, hp⟩ := hnodes _ List.mem_cons_self
    obtain ⟨hout, hnodup⟩ := List.nodup_cons.mp hnodup
    let f₁ : UddfFmtData := { f with mixes := withMix f.mixes (mix i) }
    let ref := refTo (withMix f.mixes (mix i)) (mix i)
    have hstep : uddfTankLink f (i, some p) = uddfLink f₁ (some p) ref := by
      rw [uddfTankLink_eq hmixes, hmix]
    have hslot : ∀ σ, (uddfLink f₁ (some p) ref).slot σ = f.slot σ := fun σ => by cases σ <;> rfl
    have h₁ : InProgress f₁ gen gs extra n id leaves closed tanks :=
      h.samePointers ⟨rfl, rfl, rfl, rfl, rfl⟩ ⟨rfl, rfl, fun σ => by cases σ <;> rfl, rfl⟩ rfl
    have hp₁ : f₁.slot (.tank i) = some p := hp
    have hlink := h₁.link hp₁ ref
    have hnodes' : ∀ t ∈ ts, ∃ q, t.2 = some q ∧
        (uddfLink f₁ (some p) ref).slot (.tank t.1) = some q := fun t ht => by
      rw [hslot]
      exact hnodes t (List.mem_cons_of_mem _ ht)
    obtain ⟨hrest, hmixes', hcur'⟩ := ih hlink (withMix_ok hmixes (mix i)) hmix hnodes' hnodup
    rw [List.foldl_cons, hstep]
    refine ⟨hrest.congr fun σ => ?_, hmixes', hcur'⟩
    show leaves σ ++ linksAmong (withMixes (withMix f.mixes (mix i)) mix (ts.map Prod.fst)) mix
      (i :: ts.map Prod.fst) σ = _
    by_cases hσ : σ = .tank i
    · subst hσ
      have hlater : linksAmong (withMixes (withMix f.mixes (mix i)) mix (ts.map Prod.fst)) mix
          (ts.map Prod.fst) (.tank i) = [] := if_neg hout
      have hnow : linksAmong (withMixes (withMix f.mixes (mix i)) mix (ts.map Prod.fst)) mix
          (i :: ts.map Prod.fst) (.tank i) = [linkElement ref] := by
        apply (if_pos List.mem_cons_self).trans
        rw [linksIn, refTo_withMixes hmixes]
      rw [Function.update_self, hnow]
      exact ((congrArg _ hlater).trans (List.append_nil _)).symm
    · rw [Function.update_of_ne hσ]
      congr 1
      cases σ with
      | tank j =>
        have hj : j ≠ i := fun heq => hσ (congrArg _ heq)
        have hmem : j ∈ i :: ts.map Prod.fst ↔ j ∈ ts.map Prod.fst := by simp [hj]
        exact if_congr hmem rfl rfl
      | _ => rfl

/-- A dive for the last group. -/
def addDive (dive : Element) (gs : List UddfGroup) : List UddfGroup :=
  gs.modifyLast fun g => (g.1, g.2 ++ [dive])

/-- **The dive is let go**: it stands behind the others of the last group. -/
theorem InProgress.letGo (h : InProgress f gen gs [n] n id leaves closed tanks) :
    Outline f.Outer f gen (addDive (diveElement id leaves
      (closed ++ f.curWaypoint.toList.map fun _ => leaves .waypoint) tanks) gs) [] := by
  have hmono : ∀ {q : Nat} {e : Element} {rest : List NodeId}, Partly f.Held f.doc q e rest →
      Partly f.Outer f.doc q e rest :=
    fun hq => hq.mono rfl (fun _ _ _ => rfl) fun _ _ hi => .inl hi
  have hplace : ∀ σ (p : Nat), f.slot σ = some p →
      Stands f.Outer f.doc p (.branch σ.name (leaves σ)) := by
    intro σ p hσ
    have hle := (h.sketch.inside σ p hσ).1
    exact (hmono (h.sketch.places σ p hσ)).stands (h.outside (by omega) (.inr ⟨σ, hσ⟩))
  have hout : ∀ k : Nat, k ≤ 5 → ¬f.Outer (n + k) := fun k hk =>
    h.outside (Nat.le_add_right n k) (.inl (Nat.add_le_add_left hk n))
  have hwrapper : Stands f.Outer f.doc (n + 1)
      (.branch "applicationdata".toList [.branch UddfSlot.appdata.name (leaves .appdata)]) := by
    have hbenthos := (hmono h.sketch.wrapper).letGo
      (.cons (hplace .appdata _ h.sketch.appdata) .nil) (hout 1 (by decide))
    exact hbenthos
  have hwaypoints : Stands f.Outer f.doc (n + 5) (.branch "samples".toList
      ((closed ++ f.curWaypoint.toList.map fun _ => leaves .waypoint).map
        (.branch UddfSlot.waypoint.name))) := by
    have hlast : List.Forall₂ (Stands f.Outer f.doc) f.curWaypoint.toList
        (f.curWaypoint.toList.map fun _ => .branch UddfSlot.waypoint.name (leaves .waypoint)) := by
      rw [List.forall₂_map_right_iff]
      refine List.forall₂_same.mpr fun w hw => ?_
      exact hplace .waypoint w (Option.mem_toList.mp hw)
    have hboth := (hmono h.sketch.waypoints).letGo hlast (hout 5 le_rfl)
    rw [List.map_append, List.map_map]
    exact hboth
  have hdive : Stands f.Outer f.doc n (diveElement id leaves
      (closed ++ f.curWaypoint.toList.map fun _ => leaves .waypoint) tanks) := by
    obtain ⟨T, hnode, htanks⟩ := h.sketch.dive
    have htank : List.Forall₂ (Stands f.Outer f.doc) T
        (tanks.map fun i => .branch (UddfSlot.tank i).name (leaves (.tank i))) := by
      rw [List.forall₂_map_right_iff]
      refine List.Forall₂.flip (htanks.imp fun i t ht => ?_)
      apply hplace (.tank i) t
      show f.tanks[i]?.join = some t
      rw [ht]
      rfl
    have hplaces := List.Forall₂.cons hwrapper (.cons (hplace .before _ h.sketch.before)
      (.cons (hplace .after _ h.sketch.after) (.cons hwaypoints .nil)))
    have hall := (hmono hnode).letGo (List.rel_append hplaces htank) (hout 0 (Nat.zero_le 5))
    exact hall
  exact
    { root := h.outline.root
      gasdef := h.outline.gasdef
      profiles := h.outline.profiles
      behind := h.outline.behind
      rgid := by
        rw [h.outline.rgid]
        rcases List.eq_nil_or_concat' gs with rfl | ⟨done, g, rfl⟩
        · rfl
        · rw [addDive, List.modifyLast_concat, List.length_append, List.length_append]
          rfl
      doc := hmono h.outline.doc
      gases := hmono h.outline.gases
      groups := by
        cases h.outline.groups with
        | none hgroup hdoc => exact .none hgroup (hmono hdoc)
        | last hgroup hdoc hdives =>
          rw [addDive, List.modifyLast_concat]
          exact .last hgroup (hmono hdoc) ((hmono hdives).finish (.cons hdive .nil)) }

/-- The tanks of the loop, in its order. -/
theorem Sketch.linkOrder {hdr : List HeaderEntry}
    (h : Sketch f n id leaves closed (tanksOf hdr)) :
    f.tanks.toList.map Prod.fst = linkOrder hdr := by
  refine eq_linkOrder ?_ fun i => ?_
  · rw [List.pairwise_map]
    exact Std.TreeMap.ordered_keys_toList.imp fun hlt => Nat.compare_eq_lt.mp hlt
  · rw [← h.made i, List.mem_map]
    constructor
    · rintro ⟨t, ht, rfl⟩
      exact ⟨t.2, Std.TreeMap.mem_toList_iff_getElem?_eq_some.mp ht⟩
    · rintro ⟨p, hp⟩
      exact ⟨(i, p), Std.TreeMap.mem_toList_iff_getElem?_eq_some.mpr hp, rfl⟩

/-- The tanks of the table have their nodes. -/
theorem Sketch.tankNodes (h : Sketch f n id leaves closed tanks) (t : Nat × Option NodeId)
    (ht : t ∈ f.tanks.toList) : ∃ p, t.2 = some p ∧ f.slot (.tank t.1) = some p := by
  have hget : f.tanks[t.1]? = some t.2 := Std.TreeMap.mem_toList_iff_getElem?_eq_some.mp ht
  obtain ⟨p, hp, hslot⟩ := h.exists_tank ((h.made t.1).mp ⟨_, hget⟩)
  exact ⟨p, Option.some.inj (hget.symm.trans hp), hslot⟩

/-- **The epilog finishes the dive.** -/
theorem InProgress.epilog {hdr : List HeaderEntry} {ts : List Waypoint}
    (h : InProgress f gen gs [] n id leaves closed (tanksOf hdr))
    (hleaves : ∀ σ, σ ≠ .waypoint → leaves σ = elementsIn hdr σ) (hs : Sampled f leaves closed ts)
    (hmixes : MixesOk f.mixes) (hmix : ∀ i, f.curMixes[mixName i]? = headerMix hdr i) :
    Outline (uddfEpilog f).Outer (uddfEpilog f) gen (addDive (diveElement id
        (fun σ => elementsIn hdr σ ++
          linksIn (withMixes f.mixes (headerMix hdr) (linkOrder hdr)) (headerMix hdr) σ)
        (waypointsIn ts) (tanksOf hdr)) gs) [] ∧
      (uddfEpilog f).mixes = withMixes f.mixes (headerMix hdr) (linkOrder hdr) := by
  let f₁ : UddfFmtData := { f with doc := xmlAddChild f.doc f.repgrp n }
  have hepilog : uddfEpilog f = f.tanks.toList.foldl uddfTankLink f₁ := by
    simp only [uddfEpilog, h.sketch.profile, f₁]
  have hnodup : (f.tanks.toList.map Prod.fst).Nodup := by
    rw [h.sketch.linkOrder]
    exact (List.mergeSort_perm _ _).nodup_iff.mpr (nodup_tanksOf hdr)
  obtain ⟨hlinks, hmixes', hcur⟩ := h.linkDive.tankLinks f.tanks.toList hmixes hmix
    h.sketch.tankNodes hnodup
  have hdive := hlinks.letGo
  rw [h.sketch.linkOrder, ← hepilog] at hdive hmixes'
  rw [← hepilog] at hcur
  refine ⟨?_, hmixes'⟩
  have hwaypoints : closed ++ (uddfEpilog f).curWaypoint.toList.map (fun _ =>
      leaves .waypoint ++ linksAmong (withMixes f₁.mixes (headerMix hdr) (linkOrder hdr))
        (headerMix hdr) (linkOrder hdr) .waypoint) = waypointsIn ts := by
    rw [hcur, hs.waypoints]
    simp only [linksAmong, List.append_nil]
  rw [hwaypoints] at hdive
  -- every tank of the dive has been in the loop
  have hsame : diveElement id (fun σ => leaves σ ++ linksAmong
      (withMixes f₁.mixes (headerMix hdr) (linkOrder hdr)) (headerMix hdr) (linkOrder hdr) σ)
      (waypointsIn ts) (tanksOf hdr) = diveElement id (fun σ => elementsIn hdr σ ++
        linksIn (withMixes f.mixes (headerMix hdr) (linkOrder hdr)) (headerMix hdr) σ)
      (waypointsIn ts) (tanksOf hdr) := by
    refine diveElement_congr fun σ hne htank => ?_
    rw [hleaves σ hne]
    cases σ with
    | tank i => exact congrArg _ (if_pos (List.mem_mergeSort.mpr (htank i rfl)))
    | _ => rfl
  rw [hsame] at hdive
  exact hdive

/-! ### Dives

A dive is a prolog, the tokens and an epilog, and comes behind the dives before it.
-/

/-- The profile that is seen. -/
theorem foldl_uddfWaypointCb (d : DiveTokens) :
    d.profile.foldl (uddfWaypointCb s) f = (seenProfile s d).foldl uddfWaypointToken f := by
  by_cases hs : s.outputProfile = true
  · have hcb : uddfWaypointCb s = uddfWaypointToken := by
      funext f t
      exact if_pos hs
    rw [seenProfile, if_pos hs, hcb]
  · have hcb : ∀ tokens : List Waypoint, tokens.foldl (uddfWaypointCb s) f = f := by
      intro tokens
      induction tokens with
      | nil => rfl
      | cons t tokens ih =>
        have hskip : uddfWaypointCb s f t = f := if_neg hs
        rw [List.foldl_cons, hskip, ih]
    rw [seenProfile, if_neg hs, hcb]
    rfl

/-- What a fold of steps keeps. -/
theorem foldl_keeps {α β : Type} {step : UddfFmtData → α → UddfFmtData} (get : UddfFmtData → β)
    (hstep : ∀ f x, get (step f x) = get f) (xs : List α) (f : UddfFmtData) :
    get (xs.foldl step f) = get f := by
  induction xs generalizing f with
  | nil => rfl
  | cons x xs ih => exact (ih (step f x)).trans (hstep f x)

/-- The stamp and the number of the dives. -/
def UddfFmtData.stamps (f : UddfFmtData) : Text × Nat := (f.ts, f.did)

/-- The time of the document is written once. -/
theorem stamps_uddfHeaderToken (f : UddfFmtData) (e : HeaderEntry) :
    (uddfHeaderToken f e).stamps = f.stamps :=
  Prod.ext (uddfHeaderToken_keeps f e).ts (uddfHeaderToken_keeps f e).did

theorem stamps_uddfWaypointToken (f : UddfFmtData) (t : Waypoint) :
    (uddfWaypointToken f t).stamps = f.stamps := by
  unfold uddfWaypointToken
  split <;> rfl

theorem stamps_uddfTankLink (f : UddfFmtData) (t : Nat × Option NodeId) :
    (uddfTankLink f t).stamps = f.stamps := by
  unfold uddfTankLink
  split
  · rfl
  · split <;> rfl

theorem stamps_uddfEpilog (f : UddfFmtData) : (uddfEpilog f).stamps = f.stamps := by
  unfold uddfEpilog
  split
  · exact foldl_keeps UddfFmtData.stamps stamps_uddfTankLink _ f
  · exact foldl_keeps UddfFmtData.stamps stamps_uddfTankLink _ _

/-- The formatter between two dives: what stands in the document is what the run has made. -/
structure Between (f : UddfFmtData) (gen : Element) (ts : Text) (r : UddfRun) : Prop where
  outline : Outline f.Outer f gen r.groups []
  mixes : f.mixes = r.mixes
  stamps : f.stamps = (ts, r.dives)

/-- **One dive.** -/
theorem Between.dive {ts : Text} {r : UddfRun} (h : Between f gen ts r) (hclear : f.Clear)
    (hok : MixesOk f.mixes) (d : DiveTokens) :
    Between ((uddfFormatter s).dive f d) gen ts (r.dive s ts d) := by
  have hts : f.ts = ts := congrArg Prod.fst h.stamps
  have hdid : f.did = r.dives := congrArg Prod.snd h.stamps
  let f₁ := (seenHeader s d).foldl uddfHeaderToken (uddfProlog f)
  let f₂ := (seenProfile s d).foldl uddfWaypointToken f₁
  have hdive : (uddfFormatter s).dive f d = uddfEpilog f₂ := by
    show uddfEpilog (d.profile.foldl (uddfWaypointCb s) (d.header.foldl (uddfHeaderCb s) _)) = _
    rw [foldl_uddfWaypointCb, foldl_uddfHeaderCb]
    rfl
  -- the tree
  have hheader := (uddfProlog_inProgress h.outline).header (seenHeader s d)
  rw [List.nil_append] at hheader
  have hnone : f₁.curWaypoint = none := by
    have hprolog : (uddfProlog f).curWaypoint = none := by rw [uddfProlog_eq]
    exact (foldl_keeps UddfFmtData.curWaypoint (fun f e => (uddfHeaderToken_keeps f e).curWaypoint)
      _ _).trans hprolog
  have hstart : Sampled f₁ (elementsIn (seenHeader s d)) [] [] := by
    refine ⟨?_, fun _ => rfl⟩
    rw [hnone]
    rfl
  obtain ⟨leaves, closed, hprofile, hsampled, hleaves⟩ := hheader.profile (seenProfile s d) hstart
  -- the mixes
  have hmixes := (uddfProlog_inDive hclear).header (seenHeader s d)
  have hkeeps := keepsTanks_working.profile (s := s) hmixes.clear d.profile
  rw [foldl_uddfWaypointCb] at hkeeps
  rw [List.nil_append] at hmixes
  have hf₂ : f₂.mixes = r.mixes := hkeeps.mixes.trans (hmixes.mixes.trans h.mixes)
  have hmix : ∀ i, f₂.curMixes[mixName i]? = headerMix (seenHeader s d) i := fun i => by
    rw [hkeeps.curMixes]
    exact hmixes.mix i
  obtain ⟨houtline, hmixes'⟩ :=
    hprofile.epilog hleaves hsampled (hf₂.trans h.mixes.symm ▸ hok) hmix
  have hprolog : (uddfProlog f).ts = ts := by rw [uddfProlog_eq, ← hts]
  have hid : diveId f = "benthos_dive_".toList ++ ts ++ '_' :: padded 3 r.dives :=
    congrArg₂ (fun (t : Text) (d : Nat) => "benthos_dive_".toList ++ t ++ '_' :: padded 3 d) hts
      hdid
  rw [hf₂, hprolog, hid] at houtline
  rw [hdive]
  refine ⟨houtline, ?_, ?_⟩
  · rw [hmixes', hf₂]
    rfl
  · have hstamps : (uddfProlog f).stamps = (ts, r.dives + 1) := by
      rw [uddfProlog_eq, ← hts, ← hdid]
      rfl
    rw [stamps_uddfEpilog]
    exact (foldl_keeps UddfFmtData.stamps stamps_uddfWaypointToken _ _).trans
      ((foldl_keeps UddfFmtData.stamps stamps_uddfHeaderToken _ _).trans hstamps)

/-! ### The document

Between two dives the document is finished but for the mixes, which the end of the formatter
writes.
-/

/-- A new document has no dive. -/
theorem uddfInit_between (version date ts : Text) :
    Between (uddfInit version date ts) (generatorElement version date) ts
      ⟨[], .ofList predefined, 0⟩ := by
  have houter : ∀ i : Nat, (uddfInit version date ts).Outer i → i = 0 ∨ i = 5 ∨ i = 6 := by
    rintro i (hroot | hgas | hprofiles | hrep)
    · exact .inl hroot.symm
    · exact .inr (.inl (Option.some.inj hgas).symm)
    · exact .inr (.inr (Option.some.inj hprofiles).symm)
    · cases hrep
  have hfree : ∀ i : Nat, i ∈ [1, 2, 3, 4] → ¬(uddfInit version date ts).Outer i := by
    intro i hi hout
    rcases houter i hout with rfl | rfl | rfl <;> exact absurd hi (by decide)
  have hleaf : ∀ (i : Nat) (name content : Text), i ∈ [1, 2, 3, 4] →
      (uddfInit version date ts).doc[i]? = some ⟨name, content, [], []⟩ →
      Stands (uddfInit version date ts).Outer (uddfInit version date ts).doc i
        (.leaf name content) :=
    fun i name content hi hnode => .mk (hfree i hi) hnode .nil
  have hgen : Stands (uddfInit version date ts).Outer (uddfInit version date ts).doc 1
      (generatorElement version date) := by
    have hnode : (uddfInit version date ts).doc[1]? =
        some ((generatorElement version date).toNode [2, 3, 4]) := rfl
    refine .mk (hfree 1 (by decide)) hnode (.cons ?_ (.cons ?_ (.cons ?_ .nil)))
    · exact hleaf 2 _ _ (by decide) rfl
    · exact hleaf 3 _ _ (by decide) rfl
    · exact hleaf 4 _ _ (by decide) rfl
  refine ⟨?_, rfl, rfl⟩
  exact
    { root := rfl
      gasdef := rfl
      profiles := rfl
      behind := fun r hr => by cases hr
      rgid := rfl
      doc := ⟨[1], rfl, .cons hgen .nil⟩
      gases := ⟨[], rfl, .nil⟩
      groups := .none rfl ⟨[], rfl, .nil⟩ }

/-- A document with its dives. -/
theorem uddfRun_between (s : OutputFmtData) (version date ts : Text) (ds : List DiveTokens) :
    Between ((uddfFormatter s).dives (uddfInit version date ts) ds)
      (generatorElement version date) ts
      (ds.foldl (UddfRun.dive s ts) ⟨[], .ofList predefined, 0⟩) := by
  induction ds using List.reverseRecOn with
  | nil => exact uddfInit_between version date ts
  | append_singleton ds d ih =>
    have hlinks := uddfLinks s version date ts ds
    have hdive := ih.dive (s := s) hlinks.clear hlinks.mixes d
    rw [Formatter.dives, List.foldl_append, List.foldl_append]
    exact hdive

/-- The document while it is closed: `es` are the mixes so far. -/
structure Closing (h : Heap) (gen profiles : Element) (es : List Element) : Prop where
  root : Partly (· = 5) h 0
    (.node "uddf".toList [] [("version".toList, "3.0.0".toList)] [gen]) [5, 6]
  gases : Partly (· = 5) h 5 (.branch "gasdefinitions".toList es) []
  profiles : Stands (· = 5) h 6 profiles

/-- Nothing but the mixes is left to do. -/
theorem Outline.closing (h : Outline f.Outer f gen gs []) :
    Closing f.doc gen (.branch "profiledata".toList (gs.map groupElement)) [] := by
  have hgas : ∀ i, i = 5 → f.Outer i := fun i hi => (h.outer_iff i).mpr (.inr (.inl hi))
  have hmono : ∀ {q : Nat} {e : Element} {rest : List NodeId}, Partly f.Outer f.doc q e rest →
      Partly (· = 5) f.doc q e rest :=
    fun hq => hq.mono rfl (fun _ _ _ => rfl) fun i _ hi => hgas i hi
  refine ⟨hmono h.doc, hmono h.gases, ?_⟩
  cases h.groups with
  | none _ hdoc => exact (hmono hdoc).stands (by decide)
  | @last done g r hgroup hdoc hdives =>
    have hr : r ≠ 5 := Nat.ne_of_gt (Nat.lt_trans (by decide) (h.behind r hgroup))
    have hlast := (hmono hdoc).letGo (.cons ((hmono hdives).stands hr) .nil) (by decide)
    rw [List.map_append]
    exact hlast

/-- The document behind a mix. -/
theorem doc_uddfMix (hgas : f.gasdef = some 5) (mix : Text × Mix) : (uddfMix f mix).doc =
    xmlLeaves (mixStart f.doc 5 mix.1) (some f.doc.length) (mixTexts mix.2) := by
  cases f
  obtain rfl := hgas
  rfl

theorem Closing.mix {profiles : Element} {es : List Element} (h : Closing f.doc gen profiles es)
    (hgas : f.gasdef = some 5) (mix : Text × Mix) :
    Closing (uddfMix f mix).doc gen profiles (es ++ [mixElement mix]) := by
  obtain ⟨ids, hnode, -⟩ := id h.gases
  have hvalid : Valid (· = 5) f.doc := by
    rintro i rfl
    exact h.gases.lt
  have hstart : Grows f.doc.length (xmlNewChild f.doc (some 5) "mix".toList []).1
      (mixStart f.doc 5 mix.1) := grows_modify _
  -- the node of the mix is held until it has its leaves
  have hprop : Partly (fun i => i = 5 ∨ i = f.doc.length) (mixStart f.doc 5 mix.1) f.doc.length
      (.node "mix".toList [] [("id".toList, mix.1)] []) [] :=
    (partly_newChild hnode).newProp (.inr rfl)
  have hlen : f.doc.length < (mixStart f.doc 5 mix.1).length := hprop.lt
  have hvalid' : Valid (fun i => i = 5 ∨ i = f.doc.length) (mixStart f.doc 5 mix.1) := by
    rintro i (hi | rfl)
    · exact (hvalid i hi).trans hlen
    · exact hlen
  have hadds : Adds (· = 5) 5 (mixElement mix) f.doc (uddfMix f mix).doc := by
    rw [doc_uddfMix hgas]
    exact adds_newChild hnode hvalid (hstart.trans (.leaves _))
      (hprop.leaves (mixTexts mix.2) (.inr rfl) hvalid')
  have hw := hadds.works rfl
  exact ⟨h.root.works hw (by decide), h.gases.adds hadds rfl, h.profiles.works hw⟩

theorem root_uddfMix (f : UddfFmtData) (mix : Text × Mix) : (uddfMix f mix).root = f.root := rfl

/-- All mixes are written. -/
theorem Closing.mixes {profiles : Element} {es : List Element} (ms : List (Text × Mix))
    (h : Closing f.doc gen profiles es) (hgas : f.gasdef = some 5) :
    Closing (ms.foldl uddfMix f).doc gen profiles (es ++ ms.map mixElement) := by
  induction ms generalizing f es with
  | nil =>
    rw [List.map_nil, List.append_nil]
    exact h
  | cons mix ms ih =>
    have hrest := ih (h.mix hgas mix) hgas
    rw [List.append_assoc] at hrest
    exact hrest

/-- **The closed document is the element.** -/
theorem uddfClose_isElement (s : OutputFmtData) (version date ts : Text) (ds : List DiveTokens) :
    IsElement (uddfClose ((uddfFormatter s).dives (uddfInit version date ts) ds)).doc
      (uddfClose ((uddfFormatter s).dives (uddfInit version date ts) ds)).root
      (uddfDocument s version date ts ds) := by
  have hrun := uddfRun_between s version date ts ds
  have hroot : (uddfClose ((uddfFormatter s).dives (uddfInit version date ts) ds)).root = 0 :=
    (foldl_keeps UddfFmtData.root root_uddfMix _ _).trans hrun.outline.root
  have hclosed := hrun.outline.closing.mixes
    ((uddfFormatter s).dives (uddfInit version date ts) ds).mixes.toList hrun.outline.gasdef
  have hfree : ∀ {h : Heap} {q : Nat} {e : Element} {rest : List NodeId},
      Partly (· = 5) h q e rest → Partly (fun _ => False) h q e rest :=
    fun hq => hq.mono rfl (fun _ _ _ => rfl) fun _ _ hi => hi.elim
  have hprofiles := hclosed.profiles.mono (fun _ _ _ => rfl) fun _ _ hi => (hi : False).elim
  have hdoc := (hfree hclosed.root).letGo
    (.cons ((hfree hclosed.gases).stands id) (.cons hprofiles .nil)) id
  rw [hroot, uddfDocument, UddfRun.document, ← hrun.mixes]
  exact hdoc

/-- **The pointers build the document.**  Whatever dives are written, with whatever tokens,
what stands at the root of the closed document is `uddfDocument`, which is made from the tokens
without pointers. -/
theorem uddfClose_document (s : OutputFmtData) (version date ts : Text) (ds : List DiveTokens)
    (e : Element) :
    IsElement (uddfClose ((uddfFormatter s).dives (uddfInit version date ts) ds)).doc
      (uddfClose ((uddfFormatter s).dives (uddfInit version date ts) ds)).root e ↔
        e = uddfDocument s version date ts ds :=
  (uddfClose_isElement s version date ts ds).eq_iff

end BenthosDc

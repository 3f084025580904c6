/-
BenthosDc/RegistryLookup.lean

Names resolve to drivers (`registry_resolves`).

The invariant `Registered` ties the table of manifests and the list of drivers to the
manifests in the order in which they were registered; every call keeps it.  The scan of
the list is computed from the drivers that match (`lookupDriver_eq`), and of those there
is at most one when the name has a plugin in it (`Registered.filter_qualified`).
-/
import BenthosDc.ManifestForm
import BenthosDc.Registry

namespace BenthosDc

open CString Checked

variable {conv : Iconv}

/-! ### Manifests

What a manifest that has been parsed is known to be: it has a name, and its drivers carry the
name of the plugin.
-/

/-- What a lookup needs of a manifest. -/
structure PluginManifest.Sound (m : PluginManifest) : Prop where
  named : m.pluginName ≠ []
  driverNames : m.drivers.Pairwise fun a b => strcaseEq a.driverName b.driverName = false
  plugin : ∀ d ∈ m.drivers, d.plugin.pluginName = m.pluginName

/-- The parser gives nothing else. -/
theorem benthosDcManifestParse_sound {content : ManifestFile} {m : PluginManifest}
    (hok : benthosDcManifestParse conv content = .ok m) : m.Sound := by
  rcases content with _ | _ | _ | _ | ⟨name, properties, children⟩ | _ | _
  case document.element =>
    obtain ⟨-, hok⟩ := require_bind_eq_ok_iff.mp hok
    obtain ⟨m, rfl, hname, -, hparsed⟩ := parseManifest_eq_ok hok
    refine ⟨hname, List.pairwise_map.mpr hparsed.driverNames, ?_⟩
    intro d hd
    obtain ⟨w, -, rfl⟩ := List.mem_map.mp hd
    rfl
  all_goals cases hok

/-! ### The invariant

The list of drivers is what the manifests put together have, and the table holds each of them
under its name.  No two of the manifests have the same name.
-/

/-- The registry after the manifests `ms` have been registered, in this order. -/
structure PluginRegistry.Registered (r : PluginRegistry) (ms : List PluginManifest) : Prop where
  drivers : r.drivers = ms.flatMap (·.drivers)
  names : ms.Pairwise fun a b => strcaseEq a.pluginName b.pluginName = false
  table : ∀ k m, r.manifests[k]? = some m ↔ m ∈ ms ∧ strcaseEq m.pluginName k = true
  sound : ∀ m ∈ ms, m.Sound

/-- Some order of registration explains the registry. -/
def PluginRegistry.Consistent (r : PluginRegistry) : Prop := ∃ ms, r.Registered ms

/-- An empty registry is explained by no manifest at all. -/
theorem consistent_empty : PluginRegistry.Consistent ⟨[], [], [], [], ∅, []⟩ := by
  refine ⟨[], rfl, .nil, ?_, fun _ h => absurd h List.not_mem_nil⟩
  intro k m
  rw [Std.TreeMap.getElem?_emptyc]
  refine iff_of_false (fun h => ?_) (fun h => List.not_mem_nil h.1)
  cases h

@[simp] theorem pushDrivers_eq (drivers : List DriverInfo) (m : PluginManifest) :
    pushDrivers drivers m = drivers ++ m.drivers :=
  foldl_concat m.drivers drivers

variable {r : PluginRegistry} {ms : List PluginManifest}

/-- A name that is not in the table is the name of no registered manifest. -/
theorem PluginRegistry.Registered.name_new (h : r.Registered ms) {name : Text}
    (hnew : r.manifests.contains name = false) :
    ∀ m ∈ ms, strcaseEq m.pluginName name = false := by
  intro m hm
  by_contra heq
  rw [Bool.not_eq_false] at heq
  have hsome := (h.table name m).mpr ⟨hm, heq⟩
  have hnone : r.manifests[name]? = none :=
    Std.TreeMap.getElem?_eq_none_of_contains_eq_false hnew
  rw [hnone] at hsome
  cases hsome

/-- **Registering a manifest keeps the invariant**, whether it is accepted or not. -/
theorem registerManifest_consistent (h : r.Consistent) (content : ManifestFile) :
    (registerManifest conv r content).2.Consistent := by
  obtain ⟨ms, h⟩ := h
  unfold registerManifest
  split
  · exact ⟨ms, h⟩
  · rename_i m hparse
    split
    · exact ⟨ms, h⟩
    · rename_i hcontains
      rw [Bool.not_eq_true] at hcontains
      have hnew := h.name_new hcontains
      refine ⟨ms ++ [m], ?_, pairwise_concat h.names hnew, ?_, ?_⟩
      · show pushDrivers r.drivers m = (ms ++ [m]).flatMap (·.drivers)
        rw [pushDrivers_eq, h.drivers, List.flatMap_append, List.flatMap_singleton]
      · intro k m'
        show (r.manifests.insertIfNew m.pluginName m)[k]? = some m' ↔ _
        rw [Std.TreeMap.getElem?_insertIfNew, List.mem_append, List.mem_singleton]
        -- the entry of the new manifest, or one of the old entries
        by_cases hk : strcaseEq m.pluginName k = true
        · rw [if_pos ⟨ciCmp_eq_iff.mpr hk, by rw [Std.TreeMap.mem_iff_contains, hcontains]; simp⟩]
          constructor
          · rintro ⟨⟩
            exact ⟨.inr rfl, hk⟩
          · rintro ⟨hm' | rfl, hk'⟩
            · have hsame : strcaseEq m'.pluginName m.pluginName = true :=
                strcaseEq_iff.mpr ((strcaseEq_iff.mp hk').trans (strcaseEq_iff.mp hk).symm)
              rw [hnew m' hm'] at hsame
              cases hsame
            · rfl
        · rw [if_neg fun hc => hk (ciCmp_eq_iff.mp hc.1), h.table k m']
          constructor
          · exact fun hm' => ⟨.inl hm'.1, hm'.2⟩
          · rintro ⟨hm' | rfl, hk'⟩
            · exact ⟨hm', hk'⟩
            · exact absurd hk' hk
      · intro m' hm'
        rcases List.mem_append.mp hm' with hm' | hm'
        · exact h.sound m' hm'
        · rw [List.mem_singleton.mp hm']
          exact benthosDcManifestParse_sound hparse

mutual

/-- A node of a directory keeps it. -/
theorem scanManifestEntry_consistent {r : PluginRegistry} (h : r.Consistent) :
    ∀ e, (scanManifestEntry conv r e).Consistent
  | .directory _ entries => by
      unfold scanManifestEntry
      exact scanManifestPath_consistent h entries
  | .file fn content => by
      unfold scanManifestEntry
      split
      · exact registerManifest_consistent h content
      · exact h

/-- A directory keeps it. -/
theorem scanManifestPath_consistent {r : PluginRegistry} (h : r.Consistent) :
    ∀ entries, (scanManifestPath conv r entries).Consistent
  | [] => by
      unfold scanManifestPath
      exact h
  | e :: entries => by
      unfold scanManifestPath
      exact scanManifestPath_consistent (scanManifestEntry_consistent h e) entries

end

/-- The lists of paths and files do not matter. -/
theorem PluginRegistry.Consistent.congr (h : r.Consistent) {r' : PluginRegistry}
    (htable : r'.manifests = r.manifests) (hdrivers : r'.drivers = r.drivers) : r'.Consistent := by
  obtain ⟨ms, hd, hn, ht, hs⟩ := h
  refine ⟨ms, hdrivers.trans hd, hn, ?_, hs⟩
  rwa [htable]

/-- The registry, if there is one, is consistent. -/
def GRegistry.Consistent (g : GRegistry) : Prop := ∀ r, g = some r → r.Consistent

section Calls

variable {g : GRegistry}

theorem addManifestPath_consistent (h : g.Consistent) (path : Option FsNode) :
    (benthosDcRegistryAddManifestPath conv g path).2.Consistent := by
  intro r hr
  unfold benthosDcRegistryAddManifestPath at hr
  split at hr
  · cases hr
  · exact h r hr
  · exact h r hr
  · split at hr
    · exact h r hr
    · obtain rfl := Option.some.inj hr
      refine scanManifestPath_consistent ?_ _
      exact (h _ rfl).congr rfl rfl

theorem addPluginPath_consistent (h : g.Consistent) (path : Option FsNode) :
    (benthosDcRegistryAddPluginPath g path).2.Consistent := by
  intro r hr
  unfold benthosDcRegistryAddPluginPath at hr
  split at hr
  · cases hr
  · exact h r hr
  · exact h r hr
  · split at hr
    · exact h r hr
    · obtain rfl := Option.some.inj hr
      exact (h _ rfl).congr rfl rfl

/-- A manifest keeps it, also one that is refused. -/
theorem addManifest_consistent (h : g.Consistent) (file : Option FsNode) :
    (benthosDcRegistryAddManifest conv g file).2.Consistent := by
  intro r hr
  unfold benthosDcRegistryAddManifest at hr
  split at hr
  · cases hr
  · exact h r hr
  · exact h r hr
  · split at hr
    · exact h r hr
    · split at hr
      · exact h r hr
      · obtain rfl := Option.some.inj hr
        refine registerManifest_consistent ?_ _
        exact (h _ rfl).congr rfl rfl

/-- A plugin is no matter of the manifests. -/
theorem addPlugin_consistent (h : g.Consistent) (file : Option FsNode) :
    (benthosDcRegistryAddPlugin g file).2.Consistent := by
  intro r hr
  unfold benthosDcRegistryAddPlugin at hr
  split at hr
  · cases hr
  · exact h r hr
  · exact h r hr
  · split at hr
    · exact h r hr
    · split at hr
      · exact h r hr
      · obtain rfl := Option.some.inj hr
        exact (h _ rfl).congr rfl rfl

/-- The registry is made, and the two paths are added. -/
theorem init_consistent (h : g.Consistent) (manifestDir pluginDir : Option FsNode) :
    (benthosDcRegistryInit conv manifestDir pluginDir g).2.Consistent := by
  unfold benthosDcRegistryInit
  split
  · exact h
  · apply addPluginPath_consistent
    apply addManifestPath_consistent
    rintro _ ⟨⟩
    exact consistent_empty

/-- **Every call keeps the invariant.** -/
theorem RegistryCall.run_consistent (h : g.Consistent) (call : RegistryCall) :
    GRegistry.Consistent (call.run conv g) := by
  cases call with
  | init manifestDir pluginDir => exact init_consistent h manifestDir pluginDir
  | addManifest file => exact addManifest_consistent h file
  | addPlugin file => exact addPlugin_consistent h file
  | addManifestPath path => exact addManifestPath_consistent h path
  | addPluginPath path => exact addPluginPath_consistent h path
  | cleanup => exact fun r hr => nomatch hr

end Calls

/-- **Every run keeps the invariant.** -/
theorem runCalls_consistent (calls : List RegistryCall) :
    ∀ r, runCalls conv calls = some r → r.Consistent := by
  have hrun : ∀ (cs : List RegistryCall) (g : GRegistry), (∀ r, g = some r → r.Consistent) →
      ∀ r, cs.foldl (RegistryCall.run conv) g = some r → r.Consistent := by
    intro cs
    induction cs with
    | nil => exact fun _ h => h
    | cons call cs ih => exact fun g h => ih (call.run conv g) (call.run_consistent h)
  apply hrun calls none
  intro r hr
  cases hr

/-! ### The scan

The scan goes on behind the first match, to see whether there is a second one.  It is a
function of the list of the drivers that match.
-/

/-- The test of a driver, with the plugin only if a plugin is given. -/
def driverMatches (plugin driver : Text) (d : DriverInfo) : Bool :=
  (plugin = [] ∨ strcaseEq d.plugin.pluginName plugin) ∧ strcaseEq d.driverName driver

/-- What a scan makes of the drivers that match. -/
def pickDriver : List DriverInfo → Except RegistryErr (Option DriverInfo)
  | [] => .ok none
  | [d] => .ok (some d)
  | _ :: _ :: _ => .error .ambiguous

/-- **The loop stops at a second match and only there.** -/
theorem lookupDriver_eq (plugin driver : Text) (drivers : List DriverInfo)
    (ret : Option DriverInfo) :
    lookupDriver plugin driver drivers ret =
      pickDriver (ret.toList ++ drivers.filter (driverMatches plugin driver)) := by
  induction drivers generalizing ret with
  | nil => cases ret <;> rfl
  | cons d drivers ih =>
    have hskip (h : driverMatches plugin driver d = false) :
        (d :: drivers).filter (driverMatches plugin driver) =
          drivers.filter (driverMatches plugin driver) :=
      List.filter_cons_of_neg (by rw [h]; exact Bool.false_ne_true)
    rw [lookupDriver]
    by_cases hplugin : plugin ≠ [] ∧ strcaseEq d.plugin.pluginName plugin = false
    · have hno : driverMatches plugin driver d = false := by
        unfold driverMatches
        simp [hplugin.1, hplugin.2]
      rw [if_pos hplugin, ih, hskip hno]
    · rw [if_neg hplugin]
      by_cases hname : strcaseEq d.driverName driver = true
      · have hyes : driverMatches plugin driver d = true := by
          unfold driverMatches
          rw [not_and_or, not_not, Bool.not_eq_false] at hplugin
          exact decide_eq_true ⟨hplugin, hname⟩
        rw [List.filter_cons_of_pos hyes]
        cases ret with
        | none => simp [hname, ih]
        -- the second match ends the loop
        | some first => simp [hname, pickDriver]
      · have hno : driverMatches plugin driver d = false := by
          unfold driverMatches
          simp [hname]
        rw [hskip hno]
        cases ret <;> simp [hname, ih]

/-! ### Names with a plugin

A name with a dot names the plugin, and a plugin has one manifest with driver names that are
all different.
-/

/-- Of a list without two matches the only match remains. -/
theorem filter_eq_singleton {α : Type} {p : α → Bool} {xs : List α} {x : α}
    (hone : xs.Pairwise fun a b => ¬(p a = true ∧ p b = true)) (hmem : x ∈ xs) (hx : p x = true) :
    xs.filter p = [x] := by
  induction hone with
  | nil => cases hmem
  | @cons a xs ha _ ih =>
    rcases List.mem_cons.mp hmem with rfl | hmem
    · have hnone : xs.filter p = [] :=
        List.filter_eq_nil_iff.mpr fun y hy hyes => ha y hy ⟨hx, hyes⟩
      rw [List.filter_cons_of_pos hx, hnone]
    · rw [List.filter_cons_of_neg fun hyes => ha x hmem ⟨hyes, hx⟩]
      exact ih hmem

/-- No two drivers agree in both names. -/
theorem PluginRegistry.Registered.distinct (h : r.Registered ms) :
    r.drivers.Pairwise fun a b => ¬(strcaseEq a.plugin.pluginName b.plugin.pluginName = true ∧
      strcaseEq a.driverName b.driverName = true) := by
  rw [h.drivers, List.pairwise_flatMap]
  constructor
  · intro m hm
    apply (h.sound m hm).driverNames.imp
    intro a b hab hsame
    rw [hab] at hsame
    cases hsame.2
  · apply h.names.imp_of_mem
    intro m m' hm hm' hmm' a ha b hb hsame
    rw [(h.sound m hm).plugin a ha, (h.sound m' hm').plugin b hb, hmm'] at hsame
    cases hsame.1

/-- The plugin of a driver has a name. -/
theorem PluginRegistry.Registered.plugin_named (h : r.Registered ms) {d : DriverInfo}
    (hd : d ∈ r.drivers) : d.plugin.pluginName ≠ [] := by
  rw [h.drivers] at hd
  obtain ⟨m, hm, hd⟩ := List.mem_flatMap.mp hd
  rw [(h.sound m hm).plugin d hd]
  exact (h.sound m hm).named

/-- The names of a driver, in any case, match this driver only. -/
theorem PluginRegistry.Registered.filter_qualified (h : r.Registered ms) {d : DriverInfo}
    (hd : d ∈ r.drivers) {plugin driver : Text}
    (hplugin : strcaseEq d.plugin.pluginName plugin = true)
    (hdriver : strcaseEq d.driverName driver = true) :
    r.drivers.filter (driverMatches plugin driver) = [d] := by
  have hne : plugin ≠ [] := by
    rintro rfl
    exact h.plugin_named hd (List.map_eq_nil_iff.mp (strcaseEq_iff.mp hplugin))
  have hmatches : ∀ a, driverMatches plugin driver a = true →
      a.plugin.pluginName.map Char.toLower = plugin.map Char.toLower ∧
        a.driverName.map Char.toLower = driver.map Char.toLower := by
    intro a ha
    obtain ⟨hp | hp, hn⟩ := of_decide_eq_true ha
    · exact absurd hp hne
    · exact ⟨strcaseEq_iff.mp hp, strcaseEq_iff.mp hn⟩
  refine filter_eq_singleton (h.distinct.imp ?_) hd (decide_eq_true ⟨.inr hplugin, hdriver⟩)
  intro a b hab hboth
  obtain ⟨hap, han⟩ := hmatches a hboth.1
  obtain ⟨hbp, hbn⟩ := hmatches b hboth.2
  exact hab ⟨strcaseEq_iff.mpr (hap.trans hbp.symm), strcaseEq_iff.mpr (han.trans hbn.symm)⟩

theorem toLower_eq_dot {c : Char} : c.toLower = '.' ↔ c = '.' := by
  rw [← Char.toNat_inj, ← Char.toNat_inj, toNat_toLower]
  show _ = 46 ↔ _ = 46
  split <;> omega

/-- A plugin without a dot, and the driver behind it, are found again in any case. -/
theorem splitDriver_qualified {plugin driver name : Text} (hdot : '.' ∉ plugin)
    (hname : strcaseEq name (plugin ++ '.' :: driver) = true) :
    strcaseEq plugin (splitDriver name).1 = true ∧ strcaseEq driver (splitDriver name).2 = true := by
  rw [strcaseEq_iff, List.map_append] at hname
  obtain ⟨p, rest, rfl, hp, hrest⟩ := List.map_eq_append_iff.mp hname
  obtain ⟨c, q, rfl, hc, hq⟩ := List.map_eq_cons_iff.mp hrest
  obtain rfl : c = '.' := toLower_eq_dot.mp hc
  -- the dot is the first one of the name, since no other character is lowered to a dot
  have hnodot : ∀ c ∈ p, decide (c ≠ '.') = true := by
    intro c hc
    apply decide_eq_true
    rintro rfl
    have hmem : Char.toLower '.' ∈ plugin.map Char.toLower := hp ▸ List.mem_map_of_mem hc
    obtain ⟨c, hcmem, hc⟩ := List.mem_map.mp hmem
    rw [toLower_eq_dot.mp hc] at hcmem
    exact hdot hcmem
  have hsplit : splitDriver (p ++ '.' :: q) = (p, q) := by
    unfold splitDriver
    rw [if_pos (List.mem_append_right _ List.mem_cons_self), List.takeWhile_append_of_pos hnodot,
      List.dropWhile_append_of_pos hnodot]
    show (p ++ [], q) = _
    rw [List.append_nil]
  rw [hsplit]
  exact ⟨strcaseEq_iff.mpr hp.symm, strcaseEq_iff.mpr hq.symm⟩

/-! ### Resolution

What a name should resolve to is said of the drivers of the registry: all of that name, of the
plugin if one is named.
-/

/-- The drivers with a name, in any case. -/
def PluginRegistry.driversNamed (r : PluginRegistry) (name : Text) : List DriverInfo :=
  r.drivers.filter fun d => strcaseEq d.driverName name

/-- How a lookup of a name without a plugin ends. -/
structure Resolves (r : PluginRegistry) (name : Text) (info : Option DriverInfo) : Prop where
  found : ∀ d, benthosDcRegistryDriverInfo (some r) name info = (0, some d) ↔
    r.driversNamed name = [d]
  ambiguous : (benthosDcRegistryDriverInfo (some r) name info).1 = RegistryErr.ambiguous.code ↔
    2 ≤ (r.driversNamed name).length
  notFound : (benthosDcRegistryDriverInfo (some r) name info).1 = RegistryErr.notFound.code ↔
    r.driversNamed name = []
  untouched : 2 ≤ (r.driversNamed name).length ∨ r.driversNamed name = [] →
    (benthosDcRegistryDriverInfo (some r) name info).2 = info

/-- The result in terms of the drivers that match. -/
theorem driverInfo_eq (r : PluginRegistry) (name : Text) (info : Option DriverInfo) :
    benthosDcRegistryDriverInfo (some r) name info =
      match r.drivers.filter (driverMatches (splitDriver name).1 (splitDriver name).2) with
      | [] => (RegistryErr.notFound.code, info)
      | [d] => (0, some d)
      | _ :: _ :: _ => (RegistryErr.ambiguous.code, info) := by
  have hscan := lookupDriver_eq (splitDriver name).1 (splitDriver name).2 r.drivers none
  rw [Option.toList_none, List.nil_append] at hscan
  rw [benthosDcRegistryDriverInfo, hscan]
  rcases r.drivers.filter (driverMatches (splitDriver name).1 (splitDriver name).2)
    with _ | ⟨d, _ | ⟨d', ds⟩⟩ <;> rfl

/-- A name without a dot is looked for in all plugins. -/
theorem resolves_of_no_dot (r : PluginRegistry) {name : Text} (hdot : '.' ∉ name)
    (info : Option DriverInfo) : Resolves r name info := by
  have hfilter : r.drivers.filter (driverMatches (splitDriver name).1 (splitDriver name).2) =
      r.driversNamed name := by
    refine List.filter_congr fun d _ => ?_
    unfold splitDriver driverMatches
    rw [if_neg hdot]
    simp
  have heq := driverInfo_eq r name info
  rw [hfilter] at heq
  rcases hds : r.driversNamed name with _ | ⟨d, _ | ⟨d', ds⟩⟩ <;> rw [hds] at heq <;>
    refine ⟨?_, ?_, ?_, ?_⟩ <;> rw [heq, hds] <;> simp [RegistryErr.code]

/-- **Names resolve to drivers**, in every state that the calls can reach: a name with its plugin
in front leads to the driver of the plugin, and a name alone to the only driver that has it. -/
theorem registry_resolves (calls : List RegistryCall) {r : PluginRegistry}
    (hr : runCalls conv calls = some r) :
    (∀ d ∈ r.drivers, '.' ∉ d.plugin.pluginName →
      ∀ name info, strcaseEq name (d.plugin.pluginName ++ '.' :: d.driverName) = true →
        benthosDcRegistryDriverInfo (some r) name info = (0, some d)) ∧
      ∀ name info, '.' ∉ name → Resolves r name info := by
  obtain ⟨ms, h⟩ := runCalls_consistent calls r hr
  refine ⟨?_, fun name info hdot => resolves_of_no_dot r hdot info⟩
  intro d hd hdot name info hname
  obtain ⟨hplugin, hdriver⟩ := splitDriver_qualified hdot hname
  rw [driverInfo_eq, h.filter_qualified hd hplugin hdriver]

/-- The registry is made with one manifest in a directory of the manifest path. -/
def smartCalls : List RegistryCall :=
  [.init (some (.directory "/m".toList [.directory "/m/smart".toList
    [.file "/m/smart/smart.xml".toList
      (.document (.element "plugin".toList smartProperties smartChildren))]])) none]

theorem registry_resolves_smart : ∃ r d, runCalls some smartCalls = some r ∧ d ∈ r.drivers ∧
    benthosDcRegistryDriverInfo (some r) "Benthosdc-SMART.Smart".toList none = (0, some d) := by
  obtain ⟨r, d, hr, hdrivers, hplugin, hdriver⟩ : ∃ r d, runCalls some smartCalls = some r ∧
      r.drivers = [d] ∧ d.plugin.pluginName = "benthosdc-smart".toList ∧
      d.driverName = "smart".toList := ⟨_, _, rfl, rfl, rfl, rfl⟩
  have hd : d ∈ r.drivers := hdrivers ▸ List.mem_singleton_self d
  refine ⟨r, d, hr, hd, (registry_resolves smartCalls hr).1 d hd ?_ _ none ?_⟩
  · rw [hplugin]
    decide
  · rw [hplugin, hdriver]
    decide

end BenthosDc

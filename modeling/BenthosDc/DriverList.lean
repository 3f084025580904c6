/-
BenthosDc/DriverList.lean

The list and the test of the installed drivers (`main.cpp`, with the driver iterator of
`registry.cpp`).

Both commands walk over the drivers of the registry and load each of them by its name.  What
is loaded for one driver stays loaded for the next ones, so that a load may find its plugin in
the table of libraries; and the name of a driver need not lead to that driver.  A search for a
library that throws ends the program, as nothing catches the exception.  Still, what is
reported of a driver, and whether the walk comes past it, depends on the driver alone
(`driverReports_alone`): its name has to lead to a driver which its plugin provides.
-/
import BenthosDc.Lib.Cursor
import BenthosDc.PluginLoad
import BenthosDc.PluginSearch

namespace BenthosDc

open CString Cursor Loop

/-! ### Plugins on disk -/

/-- A shared library: what `dlopen` and `dlsym` give for it, and what its functions return. -/
structure SharedLibrary (δ : Type*) where
  handle : Handle
  loadFn : Option Symbol
  unloadFn : Option Symbol
  driverFn : Option Symbol
  /-- `plugin_load` -/
  rv : Int
  /-- `plugin_load_driver`; a driver that it does not know is a null pointer. -/
  driver : Text → Option δ

/-- The files of the host, which stay as they are while the program runs, and the expressions
of the regex library. -/
structure PluginHost (δ : Type*) where
  /-- What a path leads to, if there is a directory. -/
  disk : Text → Option (List PluginNode)
  /-- The search for the expression that `find_plugin` makes of the name of a library.  A name
  may be such that there is no expression; then the construction throws. -/
  expression : Text → Option (Text → Bool)
  /-- A name without special characters stands for itself. -/
  plain : ∀ n : LibraryName, expression n.text = some (regexSearch (pluginPattern n))
  dlopen : Text → Option (SharedLibrary δ)

variable {δ : Type*} (H : PluginHost δ)

/-- `find_plugin`, which has no result if it throws; the text is empty if nothing is found. -/
def PluginHost.findPlugin (r : PluginRegistry) (libraryName : Text) : Option Text :=
  match H.expression libraryName with
  | none => none
  | some e => findPluginWith e r H.disk

/-- Where the library of a plugin is: a plugin that is loaded already is not searched for. -/
def PluginHost.libraryPath (r : PluginRegistry) (libraries : LibraryTable) (pi : PluginInfo) :
    Option Text :=
  match libraries[pi.pluginName]? with
  | some le => some le.libPath
  | none => H.findPlugin r pi.pluginLibrary

/-- What the host answers when a driver of the library at `path` is loaded. -/
def PluginHost.answers (path driverName : Text) : LoadAnswers :=
  match H.dlopen path with
  | none => ⟨path, none, none, none, none, 0, false⟩
  | some lib =>
    ⟨path, some lib.handle, lib.loadFn, lib.unloadFn, lib.driverFn, lib.rv,
      (lib.driver driverName).isSome⟩

/-- `benthos_dc_registry_load` on the host.  There is no result if the search throws: no
function on the way to `main` catches anything. -/
def PluginHost.load (r : PluginRegistry) (libraries : LibraryTable) (name : Text) :
    Option (LoadReturn × LibraryTable) :=
  match (benthosDcRegistryDriverInfo (some r) name none).2 with
  | none => some (benthosDcRegistryLoad libraries ⟨r, some name, true, H.answers [] name⟩)
  | some di => (H.libraryPath r libraries di.plugin).map fun path =>
      benthosDcRegistryLoad libraries ⟨r, some name, true, H.answers path di.driverName⟩

/-! ### The iterator -/

/-- `registry_drvit_info` -/
def registryDrvitInfo (g : GRegistry) (it : Nat) : Option DriverInfo :=
  match g with
  | none => none
  | some r => info r.drivers it

/-- `registry_drvit_next` -/
def registryDrvitNext (g : GRegistry) (it : Nat) : Int × Nat :=
  match g with
  | none => (0, it)
  | some r => (if (next r.drivers it).1 then 1 else 0, (next r.drivers it).2)

/-- `benthos_dc_registry_drivers` -/
def benthosDcRegistryDrivers (g : GRegistry) : Option Nat := g.map fun _ => 0

/-! ### The commands -/

/-- `%-ns` -/
def padRight (n : Nat) (t : Text) : Text := t ++ List.replicate (n - t.length) ' '

/-- The line of a driver, behind the mark that tells whether it can be loaded. -/
def listLine (mark : Char) (di : DriverInfo) : Text :=
  mark :: ' ' :: padRight 18 di.plugin.pluginName ++ ' ' :: padRight 12 di.driverName ++
    ' ' :: padRight 40 di.driverDesc ++ ['\n']

/-- What stands above the list. -/
def listHeader : Text :=
  "Registered Device Drivers\n\n".toList ++
    padRight 20 "Plugin".toList ++ ' ' :: padRight 12 "Driver".toList ++
    ' ' :: padRight 40 "Description".toList ++ '\n' :: (List.replicate 74 '-' ++ ['\n'])

/-- What stands below a list with a broken driver. -/
def listFooter : Text :=
  ("\nSome drivers (marked with !) failed to load.\n" ++
    "Run benthos-xfr --test to see detailed information\n").toList

/-- `benthos_dc_registry_strerror` -/
def benthosDcRegistryStrerror (c : Int) : Text :=
  if c = -1 then "Registry not initialized".toList
  else if c = -2 then "File or path not found".toList
  else if c = -3 then "Manifest or Plugin Path is not a directory".toList
  else if c = -4 then "Manifest or Plugin Path is not a file".toList
  else if c = -5 then "Plugin or driver already exists in registry".toList
  else if c = -6 then "Manifest file is invalid".toList
  else if c = -7 then "Ambigious driver name (use plugin.driver)".toList
  else if c = -8 then "Could not load shared library".toList
  else if c = -9 then "Plugin shared library does not export plugin_load()".toList
  else if c = -10 then "Plugin shared library does not export plugin_unload()".toList
  else if c = -11 then "Plugin shared library does not export plugin_load_driver()".toList
  else if c = -13 then "Driver not provided by plugin shared library".toList
  else "Unknown Error".toList

/-- The message for a driver that fails the test; `strerror` is that of C. -/
def testMessage (strerror : Int → Text) (rv : Int) (di : DriverInfo) : Text :=
  "Failed to load driver '".toList ++ di.driverName ++ "' from plugin '".toList ++
    di.plugin.pluginName ++ "\n  Plugin Library: ".toList ++ di.plugin.pluginLibrary ++
    "\n  benthos_dc_registry_load() returned ".toList ++ decimalInt rv ++ ": ".toList ++
    (if rv < 0 then benthosDcRegistryStrerror rv else strerror rv) ++ ['\n']

/-- The variables of the two commands, the two output streams, and the libraries that are
loaded. -/
structure DriverScan where
  err : Int
  count : Nat
  cout : Text
  cerr : Text
  libraries : LibraryTable
  events : List LoadEvent

/-- Before the first driver. -/
def DriverScan.start (libraries : LibraryTable) (cout : Text) : DriverScan :=
  ⟨0, 0, cout, [], libraries, []⟩

/-- The load of a driver by its name, in the body of either loop. -/
def DriverScan.load (s : DriverScan) (r : PluginRegistry) (di : DriverInfo) :
    Option (Int × DriverScan) :=
  match H.load r s.libraries di.driverName with
  | none => none
  | some (l, libraries) =>
    some (l.ret, { s with
      err := if l.ret ≠ 0 then 1 else s.err
      libraries := libraries
      events := s.events ++ l.events })

/-- The body of the loop of `list_drivers`; it fails where an exception ends the program. -/
def listDriver (r : PluginRegistry) (s : DriverScan) (di : DriverInfo) :
    Except DriverScan DriverScan :=
  match s.load H r di with
  | none => .error s
  | some (rv, s) => .ok { s with cout := s.cout ++ listLine (if rv ≠ 0 then '!' else ' ') di }

/-- The body of the loop of `test_drivers` -/
def testDriver (strerror : Int → Text) (r : PluginRegistry) (s : DriverScan) (di : DriverInfo) :
    Except DriverScan DriverScan :=
  let s := { s with count := s.count + 1 }
  match s.load H r di with
  | none => .error s
  | some (rv, s) =>
    .ok (if rv ≠ 0 then { s with cerr := s.cerr ++ testMessage strerror rv di } else s)

/-- `while ((di = benthos_dc_driver_iterator_info(it)) != 0)`, with the body `body` -/
def scanPass (r : PluginRegistry) (body : DriverScan → DriverInfo → Except DriverScan DriverScan) :
    Nat × DriverScan → Iter (Nat × DriverScan) (Except DriverScan DriverScan)
  | (it, s) =>
    match registryDrvitInfo (some r) it with
    | none => .stop (.ok s)
    | some di =>
      match body s di with
      | .error s => .stop (.error s)
      | .ok s => .next ((registryDrvitNext (some r) it).2, s)

/-- The loop, for at most `fuel` passes. -/
def scanDrivers (fuel : Nat) (r : PluginRegistry)
    (body : DriverScan → DriverInfo → Except DriverScan DriverScan) (s : DriverScan) :
    Option (Except DriverScan DriverScan) :=
  match benthosDcRegistryDrivers (some r) with
  | none => some (.ok s)
  | some it =>
    match iterate (scanPass r body) fuel (it, s) with
    | .stop x => some x
    | .next _ => none

/-- What follows the loop of `list_drivers` -/
def listEnd (s : DriverScan) : Int × DriverScan :=
  (s.err, if s.err ≠ 0 then { s with cout := s.cout ++ listFooter } else s)

/-- `list_drivers`, when the libraries are loaded already -/
def listDrivers (fuel : Nat) (r : PluginRegistry) (libraries : LibraryTable) :
    Option (Except DriverScan (Int × DriverScan)) :=
  (scanDrivers fuel r (listDriver H r) (.start libraries listHeader)).map (Except.map listEnd)

/-- What follows the loop of `test_drivers` -/
def testEnd (s : DriverScan) : Int × DriverScan :=
  if s.err ≠ 0 then (s.err, s)
  else if s.count = 0 then
    (2, { s with cerr := s.cerr ++ "No plugins are registered with Benthos\n".toList })
  else
    (0, { s with
      cout := s.cout ++ "Tested ".toList ++ decimal s.count ++ " drivers: passed\n".toList })

/-- `test_drivers` -/
def testDrivers (strerror : Int → Text) (fuel : Nat) (r : PluginRegistry)
    (libraries : LibraryTable) : Option (Except DriverScan (Int × DriverScan)) :=
  (scanDrivers fuel r (testDriver H strerror r) (.start libraries [])).map (Except.map testEnd)

/-! ### Invariants of the registry -/

section Invariants

variable {conv : Iconv}

/-- What holds of the new registry, is kept when a manifest is registered, and is about the
manifests and the drivers only. -/
structure KeptByCalls (conv : Iconv) (I : PluginRegistry → Prop) : Prop where
  empty : I ⟨[], [], [], [], ∅, []⟩
  register : ∀ {r}, I r → ∀ content, I (registerManifest conv r content).2
  congr : ∀ {r r' : PluginRegistry}, I r → r'.manifests = r.manifests → r'.drivers = r.drivers →
    I r'

variable {I : PluginRegistry → Prop}

mutual

/-- An entry of a directory. -/
theorem scanManifestEntry_keeps (hI : KeptByCalls conv I) {r : PluginRegistry} (h : I r) :
    ∀ e, I (scanManifestEntry conv r e)
  | .directory _ entries => by
      unfold scanManifestEntry
      exact scanManifestPath_keeps hI h entries
  | .file fn content => by
      unfold scanManifestEntry
      split
      · exact hI.register h content
      · exact h

/-- The entries of a directory, one after the other. -/
theorem scanManifestPath_keeps (hI : KeptByCalls conv I) {r : PluginRegistry} (h : I r) :
    ∀ entries, I (scanManifestPath conv r entries)
  | [] => by
      unfold scanManifestPath
      exact h
  | e :: entries => by
      unfold scanManifestPath
      exact scanManifestPath_keeps hI (scanManifestEntry_keeps hI h e) entries

end

/-- The registry, if there is one, has the property `I`. -/
abbrev GRegistry.All (g : GRegistry) (I : PluginRegistry → Prop) : Prop := ∀ r ∈ g, I r

variable {g : GRegistry}

/-- A directory of manifests. -/
theorem addManifestPath_keeps (hI : KeptByCalls conv I) (h : g.All I) (path : Option FsNode) :
    GRegistry.All (benthosDcRegistryAddManifestPath conv g path).2 I := by
  unfold benthosDcRegistryAddManifestPath
  split
  · exact h
  · exact h
  · exact h
  · rename_i r path entries
    split
    · exact h
    · rintro _ ⟨⟩
      refine scanManifestPath_keeps hI ?_ entries
      exact hI.congr (h r rfl) rfl rfl

/-- A directory of plugins. -/
theorem addPluginPath_keeps (hI : KeptByCalls conv I) (h : g.All I) (path : Option FsNode) :
    GRegistry.All (benthosDcRegistryAddPluginPath g path).2 I := by
  unfold benthosDcRegistryAddPluginPath
  split
  · exact h
  · exact h
  · exact h
  · rename_i r path entries
    split
    · exact h
    · rintro _ ⟨⟩
      exact hI.congr (h r rfl) rfl rfl

theorem addManifest_keeps (hI : KeptByCalls conv I) (h : g.All I) (file : Option FsNode) :
    GRegistry.All (benthosDcRegistryAddManifest conv g file).2 I := by
  unfold benthosDcRegistryAddManifest
  split
  · exact h
  · exact h
  · exact h
  · rename_i r path content
    split
    · exact h
    · split
      · exact h
      · rintro _ ⟨⟩
        refine hI.register ?_ content
        exact hI.congr (h r rfl) rfl rfl

theorem addPlugin_keeps (hI : KeptByCalls conv I) (h : g.All I) (file : Option FsNode) :
    GRegistry.All (benthosDcRegistryAddPlugin g file).2 I := by
  unfold benthosDcRegistryAddPlugin
  split
  · exact h
  · exact h
  · exact h
  · rename_i r path content
    split
    · exact h
    · split
      · exact h
      · rintro _ ⟨⟩
        exact hI.congr (h r rfl) rfl rfl

/-- The making of the registry, with the directories that it begins with. -/
theorem init_keeps (hI : KeptByCalls conv I) (h : g.All I) (manifestDir pluginDir : Option FsNode) :
    GRegistry.All (benthosDcRegistryInit conv manifestDir pluginDir g).2 I := by
  unfold benthosDcRegistryInit
  split
  · exact h
  · apply addPluginPath_keeps hI
    apply addManifestPath_keeps hI
    rintro _ ⟨⟩
    exact hI.empty

/-- **Every call keeps the invariant.** -/
theorem RegistryCall.run_keeps (hI : KeptByCalls conv I) (h : g.All I) (call : RegistryCall) :
    GRegistry.All (call.run conv g) I := by
  cases call with
  | init manifestDir pluginDir => exact init_keeps hI h manifestDir pluginDir
  | addManifest file => exact addManifest_keeps hI h file
  | addPlugin file => exact addPlugin_keeps hI h file
  | addManifestPath path => exact addManifestPath_keeps hI h path
  | addPluginPath path => exact addPluginPath_keeps hI h path
  | cleanup => rintro _ ⟨⟩

/-- **The invariant rule for the registry.** -/
theorem runCalls_invariant (hI : KeptByCalls conv I) (calls : List RegistryCall) :
    GRegistry.All (runCalls conv calls) I := by
  have hrun : ∀ (cs : List RegistryCall) (g : GRegistry), g.All I →
      GRegistry.All (cs.foldl (RegistryCall.run conv) g) I := by
    intro cs
    induction cs with
    | nil => exact fun _ h => h
    | cons call cs ih => exact fun g h => ih (call.run conv g) (call.run_keeps hI h)
  apply hrun calls none
  rintro _ ⟨⟩

/-! ### Plugins of drivers -/

/-- The drivers of every manifest in the table point to its plugin. -/
def PluginRegistry.Pointed (r : PluginRegistry) : Prop :=
  ∀ (k : Text) (m : PluginManifest), r.manifests[k]? = some m →
    ∀ d ∈ m.drivers, d.plugin = m.pluginInfo

/-- The drivers of a manifest point to its plugin. -/
theorem benthosDcManifestParse_plugin {content : ManifestFile} {m : PluginManifest}
    (hok : benthosDcManifestParse conv content = .ok m) : ∀ d ∈ m.drivers, d.plugin = m.pluginInfo := by
  rcases content with _ | _ | _ | _ | ⟨name, properties, children⟩ | _ | _
  case document.element =>
    obtain ⟨-, hok⟩ := Checked.require_bind_eq_ok_iff.mp hok
    obtain ⟨m, rfl, -, -, -⟩ := parseManifest_eq_ok hok
    intro d hd
    obtain ⟨w, -, rfl⟩ := List.mem_map.mp hd
    rfl
  all_goals cases hok

/-- Every call keeps the drivers pointing to their plugins. -/
theorem pointed_kept (conv : Iconv) : KeptByCalls conv PluginRegistry.Pointed where
  empty k m hm := by simp at hm
  register := by
    intro r h content
    unfold registerManifest
    split
    · exact h
    · rename_i m hparse
      split
      · exact h
      · intro k m' hm'
        have hm' : (r.manifests.insertIfNew m.pluginName m)[k]? = some m' := hm'
        rw [Std.TreeMap.getElem?_insertIfNew] at hm'
        split at hm'
        · cases hm'
          exact benthosDcManifestParse_plugin hparse
        · exact h k m' hm'
  congr := by
    intro r r' h hmanifests _ k m hm
    exact h k m (hmanifests ▸ hm)

/-- Drivers whose plugins have one name, in any case, point to one plugin. -/
def PluginRegistry.OnePlugin (r : PluginRegistry) : Prop :=
  ∀ d ∈ r.drivers, ∀ d' ∈ r.drivers,
    strcaseEq d.plugin.pluginName d'.plugin.pluginName = true → d.plugin = d'.plugin

/-- In every state that is reached, drivers with the same plugin name have the same plugin. -/
theorem runCalls_onePlugin {calls : List RegistryCall} {r : PluginRegistry}
    (hr : runCalls conv calls = some r) : r.OnePlugin := by
  obtain ⟨ms, h⟩ := runCalls_consistent calls r hr
  have hpoint := runCalls_invariant (pointed_kept conv) calls r hr
  -- the plugin of a driver is that of the manifest under its name
  have hof : ∀ d ∈ r.drivers,
      r.manifests[d.plugin.pluginName]?.map (·.pluginInfo) = some d.plugin := by
    intro d hd
    rw [h.drivers] at hd
    obtain ⟨m, hm, hd⟩ := List.mem_flatMap.mp hd
    have htable := (h.table m.pluginName m).mpr ⟨hm, strcaseEq_iff.mpr rfl⟩
    rw [(h.sound m hm).plugin d hd, htable, hpoint _ _ htable d hd]
    rfl
  intro d hd d' hd' hname
  have hsame : r.manifests[d.plugin.pluginName]? = r.manifests[d'.plugin.pluginName]? :=
    Std.TreeMap.getElem?_congr (ciCmp_eq_iff.mpr hname)
  have heq := hof d hd
  rw [hsame, hof d' hd'] at heq
  exact (Option.some.inj heq).symm

end Invariants

/-! ### One load -/

section Loads

variable {H} {r : PluginRegistry} {libraries : LibraryTable}

/-- `load_plugin` gets the plugin from the library `lib` at `path`. -/
structure PluginHost.Loads (H : PluginHost δ) (r : PluginRegistry) (pi : PluginInfo) (path : Text)
    (lib : SharedLibrary δ) : Prop where
  found : H.findPlugin r pi.pluginLibrary = some path
  named : path ≠ []
  opens : H.dlopen path = some lib
  loadFn : lib.loadFn.isSome
  unloadFn : lib.unloadFn.isSome
  driverFn : lib.driverFn.isSome
  rv : lib.rv = 0

/-- The plugin of the driver can be loaded, and knows the driver. -/
def PluginHost.Provides (H : PluginHost δ) (r : PluginRegistry) (di : DriverInfo) (drv : δ) :
    Prop :=
  ∃ path lib, H.Loads r di.plugin path lib ∧ lib.driver di.driverName = some drv

/-- The plugins in the table of libraries can be loaded, from where the table has them. -/
def PluginHost.Held (H : PluginHost δ) (r : PluginRegistry) (libraries : LibraryTable) : Prop :=
  ∀ d ∈ r.drivers, ∀ le, libraries[d.plugin.pluginName]? = some le →
    ∃ lib, H.Loads r d.plugin le.libPath lib

/-- Nothing is loaded at the beginning. -/
theorem PluginHost.held_empty : H.Held r ∅ := by
  intro d _ le hle
  simp at hle

/-- **When the search for a library with a plain name throws**: the first path it looks at that
has the name leads nowhere. -/
theorem PluginHost.findPlugin_eq_none_iff (n : LibraryName) : H.findPlugin r n.text = none ↔
    ∃ pre x post, searched r H.disk = pre ++ x :: post ∧ (∀ y ∈ pre, ¬HasLibraryName n y.fn) ∧
      HasLibraryName n x.fn ∧ x.path = none := by
  have hfind : H.findPlugin r n.text = findPluginWith (regexSearch (pluginPattern n)) r H.disk := by
    simp only [PluginHost.findPlugin, H.plain n]
  rw [hfind, findPluginWith_eq_none_iff]
  simp only [← regexSearch_pluginPattern, Bool.not_eq_true]

/-- What the host answers for the functions of the library. -/
theorem PluginHost.answers_of_dlopen {path driverName : Text} {lib : SharedLibrary δ}
    (h : H.dlopen path = some lib) :
    H.answers path driverName = ⟨path, some lib.handle, lib.loadFn, lib.unloadFn, lib.driverFn,
      lib.rv, (lib.driver driverName).isSome⟩ := by
  simp only [PluginHost.answers, h]

/-- The plugin is asked for the driver by its name. -/
theorem PluginHost.Loads.hasDriver {pi : PluginInfo} {path driverName : Text}
    {lib : SharedLibrary δ} (h : H.Loads r pi path lib) :
    (H.answers path driverName).hasDriver = (lib.driver driverName).isSome := by
  rw [H.answers_of_dlopen h.opens]

/-- The path is the one that has been found. -/
theorem PluginHost.answers_found (path driverName : Text) :
    (H.answers path driverName).found = path := by
  unfold PluginHost.answers
  split <;> rfl

/-- A plugin that is in the table already is not loaded again. -/
theorem loadPlugin_of_some {pi : PluginInfo} (a : LoadAnswers) {le : LibraryEntry}
    (h : libraries[pi.pluginName]? = some le) :
    loadPlugin libraries pi a = ⟨.ok le, libraries, []⟩ := by
  rw [loadPlugin, h]

/-- A plugin that is not in the table is loaded from the library of the host. -/
theorem PluginHost.loadPlugin_ok_iff {pi : PluginInfo} {path : Text} (driverName : Text)
    (hnone : libraries[pi.pluginName]? = none)
    (hfound : H.findPlugin r pi.pluginLibrary = some path) :
    (∃ le, (loadPlugin libraries pi (H.answers path driverName)).result = .ok le) ↔
      ∃ lib, H.Loads r pi path lib := by
  constructor
  · rintro ⟨le, hok⟩
    rw [loadPlugin, hnone] at hok
    rcases hopen : H.dlopen path with _ | lib
    · simp only [PluginHost.answers, hopen] at hok
      split at hok <;> cases hok
    rw [H.answers_of_dlopen hopen] at hok
    -- every exit but the last one is an error
    by_cases hpath : path = []
    · simp [hpath] at hok
    cases hload : lib.loadFn with
    | none => simp [hpath, hload] at hok
    | some loadFn =>
      cases hunload : lib.unloadFn with
      | none => simp [hpath, hload, hunload] at hok
      | some unloadFn =>
        cases hdriver : lib.driverFn with
        | none => simp [hpath, hload, hunload, hdriver] at hok
        | some driverFn =>
          by_cases hrv : lib.rv = 0
          · exact ⟨lib, hfound, hpath, hopen, by simp [hload], by simp [hunload],
              by simp [hdriver], hrv⟩
          · simp [hpath, hload, hunload, hdriver, hrv] at hok
  · rintro ⟨lib, hlib⟩
    obtain ⟨loadFn, hload⟩ := Option.isSome_iff_exists.mp hlib.loadFn
    obtain ⟨unloadFn, hunload⟩ := Option.isSome_iff_exists.mp hlib.unloadFn
    obtain ⟨driverFn, hdriver⟩ := Option.isSome_iff_exists.mp hlib.driverFn
    rw [H.answers_of_dlopen hlib.opens, loadPlugin, hnone]
    simp [hlib.named, hload, hunload, hdriver, hlib.rv]

/-- A plugin that is loaded has an entry with the path at which its library has been found. -/
theorem loadPlugin_of_ok {pi : PluginInfo} {a : LoadAnswers} {le : LibraryEntry}
    (hnone : libraries[pi.pluginName]? = none) (hok : (loadPlugin libraries pi a).result = .ok le) :
    le.libPath = a.found ∧
      (loadPlugin libraries pi a).libraries = libraries.insertIfNew pi.pluginName le := by
  unfold loadPlugin at hok ⊢
  rw [hnone] at hok ⊢
  dsimp only at hok ⊢
  split at hok
  · cases hok
  next hfound =>
  rw [if_neg hfound]
  split at hok
  · cases hok
  split at hok <;> try cases hok
  split at hok
  · cases hok
  · next hrv =>
    cases hok
    rw [if_neg hrv]
    exact ⟨rfl, rfl⟩

/-- A plugin that cannot be loaded leaves the table as it is. -/
theorem loadPlugin_of_error {pi : PluginInfo} {a : LoadAnswers} {e : LoadErr}
    (herr : (loadPlugin libraries pi a).result = .error e) :
    (loadPlugin libraries pi a).libraries = libraries := by
  have hout := loadPlugin_outcome libraries pi a
  generalize loadPlugin libraries pi a = p at hout herr
  cases hout with
  | present le => rfl
  | fails e events _ _ _ => rfl
  | loads le events _ _ _ _ _ => cases herr

/-- Without an entry for the plugin the result does not depend on the table. -/
theorem loadPlugin_result_congr {libraries' : LibraryTable} {pi : PluginInfo} (a : LoadAnswers)
    (hnone : libraries[pi.pluginName]? = none) (hnone' : libraries'[pi.pluginName]? = none) :
    (loadPlugin libraries pi a).result = (loadPlugin libraries' pi a).result := by
  unfold loadPlugin
  rw [hnone, hnone']
  rcases a with ⟨found, _ | handle, loadFn, unloadFn, driverFn, rv, hasDriver⟩
  · simp only
    split <;> rfl
  · simp only
    split
    · rfl
    · split <;> try rfl
      split <;> rfl

/-- A lookup finds a driver of the registry, or fails. -/
theorem driverInfo_cases (r : PluginRegistry) (name : Text) :
    (∃ di ∈ r.drivers, benthosDcRegistryDriverInfo (some r) name none = (0, some di)) ∨
      ∃ rv, rv ≠ 0 ∧ benthosDcRegistryDriverInfo (some r) name none = (rv, none) := by
  rw [driverInfo_eq]
  split
  · exact .inr ⟨_, by decide, rfl⟩
  · next d hfilter =>
    have hd : d ∈ r.drivers.filter _ := hfilter ▸ List.mem_singleton_self d
    exact .inl ⟨d, List.mem_of_mem_filter hd, rfl⟩
  · exact .inr ⟨_, by decide, rfl⟩

/-- What a load returns that has found the driver. -/
def loadedRet (result : Except LoadErr LibraryEntry) (hasDriver : Bool) : Int :=
  match result with
  | .error e => e.code
  | .ok _ => if hasDriver then 0 else LoadErr.notInPlugin.code

/-- A load of a name that leads to a driver is one of its plugin. -/
theorem registryLoad_of_found {name : Text} {di : DriverInfo} (libraries : LibraryTable)
    (a : LoadAnswers)
    (h : benthosDcRegistryDriverInfo (some r) name none = (0, some di)) :
    (benthosDcRegistryLoad libraries ⟨r, some name, true, a⟩).1.ret =
        loadedRet (loadPlugin libraries di.plugin a).result a.hasDriver ∧
      (benthosDcRegistryLoad libraries ⟨r, some name, true, a⟩).2 =
        (loadPlugin libraries di.plugin a).libraries := by
  unfold benthosDcRegistryLoad
  simp only [h]
  cases hresult : (loadPlugin libraries di.plugin a).result with
  | error e => simp [loadedRet]
  | ok le => simp [loadedRet]

/-- A name that leads to a driver is a call of the registry, if the search does not throw. -/
theorem PluginHost.load_of_found {name : Text} {di : DriverInfo}
    (h : benthosDcRegistryDriverInfo (some r) name none = (0, some di)) :
    H.load r libraries name = (H.libraryPath r libraries di.plugin).map fun path =>
      benthosDcRegistryLoad libraries ⟨r, some name, true, H.answers path di.driverName⟩ := by
  simp only [PluginHost.load, h]

/-- A load of any other name does nothing. -/
theorem PluginHost.load_of_notFound {name : Text} {rv : Int}
    (h : benthosDcRegistryDriverInfo (some r) name none = (rv, none)) :
    H.load r libraries name = some (⟨rv, []⟩, libraries) := by
  simp [PluginHost.load, benthosDcRegistryLoad, h]

/-- What a load returns if nothing has been loaded before, and does not throw. -/
def PluginHost.nameRet (H : PluginHost δ) (r : PluginRegistry) (name : Text) : Option Int :=
  (H.load r ∅ name).map (·.1.ret)

/-- When nothing is loaded the library is searched for. -/
theorem PluginHost.libraryPath_empty (pi : PluginInfo) :
    H.libraryPath r ∅ pi = H.findPlugin r pi.pluginLibrary := by
  simp [PluginHost.libraryPath]

/-- What the load of a driver returns that nothing has been loaded before. -/
theorem PluginHost.nameRet_of_found {name path : Text} {di : DriverInfo}
    (h : benthosDcRegistryDriverInfo (some r) name none = (0, some di))
    (hpath : H.findPlugin r di.plugin.pluginLibrary = some path) :
    H.nameRet r name = some (loadedRet
      (loadPlugin ∅ di.plugin (H.answers path di.driverName)).result
      (H.answers path di.driverName).hasDriver) := by
  rw [PluginHost.nameRet, H.load_of_found h, H.libraryPath_empty, hpath]
  exact congrArg some (registryLoad_of_found _ _ h).1

/-- **A load keeps the plugins in the table loadable**, and **returns what it would return if
nothing had been loaded before**. -/
theorem PluginHost.load_spec (hone : r.OnePlugin) (h : H.Held r libraries) (name : Text) :
    (H.load r libraries name).map (·.1.ret) = H.nameRet r name ∧
      ∀ l, H.load r libraries name = some l → H.Held r l.2 := by
  rcases driverInfo_cases r name with ⟨di, hdi, hfound⟩ | ⟨rv, -, hfail⟩
  · have hempty : (∅ : LibraryTable)[di.plugin.pluginName]? = none := by simp
    rw [H.load_of_found hfound, PluginHost.libraryPath]
    cases hle : libraries[di.plugin.pluginName]? with
    | some le =>
      -- the plugin is there, and alone it would be loaded now
      obtain ⟨lib, hlib⟩ := h di hdi le hle
      obtain ⟨le', halone⟩ := (H.loadPlugin_ok_iff di.driverName hempty hlib.found).mpr ⟨lib, hlib⟩
      have hload := registryLoad_of_found libraries (H.answers le.libPath di.driverName) hfound
      rw [loadPlugin_of_some _ hle] at hload
      refine ⟨?_, ?_⟩
      · rw [H.nameRet_of_found hfound hlib.found, halone]
        exact congrArg some hload.1
      · rintro l ⟨⟩
        show H.Held r (benthosDcRegistryLoad libraries _).2
        rw [hload.2]
        exact h
    | none =>
      cases hpath : H.findPlugin r di.plugin.pluginLibrary with
      | none =>
        refine ⟨?_, ?_⟩
        · rw [PluginHost.nameRet, H.load_of_found hfound, H.libraryPath_empty, hpath]
          rfl
        · rintro l ⟨⟩
      | some path =>
        obtain ⟨hret, hlibs⟩ := registryLoad_of_found libraries (H.answers path di.driverName)
          hfound
        refine ⟨?_, ?_⟩
        · rw [H.nameRet_of_found hfound hpath, ← loadPlugin_result_congr _ hle hempty]
          exact congrArg some hret
        · rintro l ⟨⟩
          show H.Held r (benthosDcRegistryLoad libraries _).2
          rw [hlibs]
          cases hresult : (loadPlugin libraries di.plugin (H.answers path di.driverName)).result with
          | error e =>
            rw [loadPlugin_of_error hresult]
            exact h
          | ok le =>
            obtain ⟨lib, hlib⟩ :=
              (H.loadPlugin_ok_iff di.driverName hle hpath).mp ⟨le, hresult⟩
            obtain ⟨hplace, hlibs⟩ := loadPlugin_of_ok hle hresult
            rw [hlibs]
            intro d hd le' hle'
            rw [Std.TreeMap.getElem?_insertIfNew] at hle'
            split at hle'
            case isTrue hsame =>
              cases hle'
              rw [← hone di hdi d hd (ciCmp_eq_iff.mp hsame.1), hplace, H.answers_found]
              exact ⟨lib, hlib⟩
            case isFalse => exact h d hd le' hle'
  · rw [H.load_of_notFound hfail, PluginHost.nameRet, H.load_of_notFound hfail]
    refine ⟨rfl, ?_⟩
    rintro l ⟨⟩
    exact h

/-- **When a load throws**: if the name leads to a driver for whose library the search throws. -/
theorem PluginHost.nameRet_eq_none_iff (name : Text) : H.nameRet r name = none ↔
    ∃ di ∈ r.drivers, benthosDcRegistryDriverInfo (some r) name none = (0, some di) ∧
      H.findPlugin r di.plugin.pluginLibrary = none := by
  rcases driverInfo_cases r name with ⟨di, hdi, hfound⟩ | ⟨rv, -, hfail⟩
  · rw [PluginHost.nameRet, H.load_of_found hfound, H.libraryPath_empty, Option.map_eq_none_iff,
      Option.map_eq_none_iff]
    constructor
    · exact fun hnone => ⟨di, hdi, hfound, hnone⟩
    · rintro ⟨di', -, hfound', hnone⟩
      rw [hfound] at hfound'
      cases hfound'
      exact hnone
  · rw [PluginHost.nameRet, H.load_of_notFound hfail]
    constructor
    · rintro ⟨⟩
    · rintro ⟨di, -, hfound, -⟩
      rw [hfail] at hfound
      cases hfound

/-- **When a driver is loaded**: if its name leads to a driver that its plugin provides. -/
theorem PluginHost.nameRet_eq_zero_iff (name : Text) : H.nameRet r name = some 0 ↔
    ∃ di ∈ r.drivers, benthosDcRegistryDriverInfo (some r) name none = (0, some di) ∧
      ∃ drv, H.Provides r di drv := by
  rcases driverInfo_cases r name with ⟨di, hdi, hfound⟩ | ⟨rv, hrv, hfail⟩
  · have hempty : (∅ : LibraryTable)[di.plugin.pluginName]? = none := by simp
    cases hpath : H.findPlugin r di.plugin.pluginLibrary with
    | none =>
      rw [(H.nameRet_eq_none_iff name).mpr ⟨di, hdi, hfound, hpath⟩]
      constructor
      · rintro ⟨⟩
      · rintro ⟨di', -, hfound', drv, path, lib, hlib, -⟩
        rw [hfound] at hfound'
        cases hfound'
        cases hpath.symm.trans hlib.found
    | some path =>
      rw [H.nameRet_of_found hfound hpath]
      have hok := H.loadPlugin_ok_iff di.driverName hempty hpath
      constructor
      · intro hret
        have hret := Option.some.inj hret
        cases hresult : (loadPlugin ∅ di.plugin (H.answers path di.driverName)).result with
        | error e =>
          rw [hresult] at hret
          cases e <;> cases hret
        | ok le =>
          obtain ⟨lib, hlib⟩ := hok.mp ⟨le, hresult⟩
          rw [hresult, hlib.hasDriver] at hret
          cases hdriver : lib.driver di.driverName with
          | none =>
            rw [hdriver] at hret
            cases hret
          | some drv => exact ⟨di, hdi, hfound, drv, path, lib, hlib, hdriver⟩
      · rintro ⟨di', -, hfound', drv, path', lib, hlib, hdriver⟩
        rw [hfound] at hfound'
        cases hfound'
        cases hpath.symm.trans hlib.found
        obtain ⟨le, hresult⟩ := hok.mpr ⟨lib, hlib⟩
        rw [hresult, hlib.hasDriver, hdriver]
        rfl
  · rw [PluginHost.nameRet, H.load_of_notFound hfail]
    constructor
    · exact fun h => absurd (Option.some.inj h) hrv
    · rintro ⟨di, -, hfound, -⟩
      rw [hfail] at hfound
      cases hfound

/-- A name without a dot that is the name of the driver leads to it alone, or nowhere. -/
theorem PluginHost.nameRet_plain_iff {d : DriverInfo} (hd : d ∈ r.drivers)
    (hdot : '.' ∉ d.driverName) : H.nameRet r d.driverName = some 0 ↔
      r.driversNamed d.driverName = [d] ∧ ∃ drv, H.Provides r d drv := by
  have hresolves := resolves_of_no_dot r hdot none
  have hmem : d ∈ r.driversNamed d.driverName :=
    List.mem_filter.mpr ⟨hd, strcaseEq_iff.mpr rfl⟩
  rw [H.nameRet_eq_zero_iff]
  constructor
  · rintro ⟨di, -, hfound, hprovides⟩
    have hnamed := (hresolves.found di).mp hfound
    rw [hnamed] at hmem
    obtain rfl := List.mem_singleton.mp hmem
    exact ⟨hnamed, hprovides⟩
  · rintro ⟨hnamed, hprovides⟩
    exact ⟨d, hd, (hresolves.found d).mpr hnamed, hprovides⟩

end Loads

/-! ### The walk over the drivers -/

section Walk

variable {r : PluginRegistry}

/-- **The iterator visits the drivers of the registry**, each of them once and in order, up to
the first one at which the body fails. -/
theorem scanDrivers_eq {fuel : Nat} (hfuel : r.drivers.length < fuel)
    (body : DriverScan → DriverInfo → Except DriverScan DriverScan) (s : DriverScan) :
    scanDrivers fuel r body s = some (r.drivers.foldlM body s) := by
  have hwalk : scanPass r body = walk r.drivers body := by
    funext ⟨it, s⟩
    cases h : info r.drivers it with
    | none => simp only [scanPass, walk, registryDrvitInfo, h]
    | some di => cases hbody : body s di <;>
        simp only [scanPass, walk, registryDrvitInfo, registryDrvitNext, h, hbody]
  have hrun : iterate (walk r.drivers body) fuel (0, s) = .stop (r.drivers.foldlM body s) :=
    iterate_walk hfuel
  rw [← hwalk] at hrun
  show (match iterate (scanPass r body) fuel (0, s) with
    | .stop x => some x
    | .next _ => none) = _
  rw [hrun]

/-- What loading the driver by its name returns if nothing has been loaded; nothing if an
exception ends the program. -/
def PluginHost.loadRet (r : PluginRegistry) (d : DriverInfo) : Option Int :=
  H.nameRet r d.driverName

/-- No driver of the list is broken. -/
def PluginHost.AllLoad (r : PluginRegistry) (ds : List DriverInfo) : Prop :=
  ∀ d ∈ ds, H.loadRet r d = some 0

instance (ds : List DriverInfo) : Decidable (H.AllLoad r ds) :=
  inferInstanceAs (Decidable (∀ d ∈ ds, H.loadRet r d = some 0))

/-- The walk comes past the drivers of the list. -/
def PluginHost.Passes (r : PluginRegistry) (ds : List DriverInfo) : Prop :=
  ∀ d ∈ ds, H.loadRet r d ≠ none

instance (ds : List DriverInfo) : Decidable (H.Passes r ds) :=
  inferInstanceAs (Decidable (∀ d ∈ ds, H.loadRet r d ≠ none))

/-- The line of the list for a driver. -/
def PluginHost.line (r : PluginRegistry) (d : DriverInfo) : Text :=
  listLine (if H.loadRet r d = some 0 then ' ' else '!') d

/-- The message of the test for a driver. -/
def PluginHost.message (strerror : Int → Text) (r : PluginRegistry) (d : DriverInfo) : Text :=
  match H.loadRet r d with
  | none => []
  | some rv => if rv = 0 then [] else testMessage strerror rv d

variable {H}

/-- A load in the body of a loop, wherever the loop is. -/
theorem DriverScan.load_spec (hone : r.OnePlugin) {s : DriverScan} (h : H.Held r s.libraries)
    (d : DriverInfo) :
    (H.loadRet r d = none ∧ s.load H r d = none) ∨
      ∃ rv s', H.loadRet r d = some rv ∧ s.load H r d = some (rv, s') ∧
        s'.err = (if rv = 0 then s.err else 1) ∧ s'.count = s.count ∧ s'.cout = s.cout ∧
        s'.cerr = s.cerr ∧ H.Held r s'.libraries := by
  obtain ⟨hret, hheld⟩ := H.load_spec hone h d.driverName
  unfold DriverScan.load PluginHost.loadRet
  rw [← hret]
  cases hload : H.load r s.libraries d.driverName with
  | none => exact .inl ⟨rfl, rfl⟩
  | some l => exact .inr ⟨l.1.ret, _, rfl, rfl, ite_not .., rfl, rfl, rfl, hheld l hload⟩

/-- The flag behind the loop. -/
theorem err_concat {ds : List DriverInfo} {d : DriverInfo} {rv : Int}
    (hret : H.loadRet r d = some rv) :
    (if rv = 0 then (if H.AllLoad r ds then (0 : Int) else 1) else 1) =
      if H.AllLoad r (ds ++ [d]) then 0 else 1 := by
  have hconcat : H.AllLoad r (ds ++ [d]) ↔ H.AllLoad r ds ∧ rv = 0 := by
    simp [PluginHost.AllLoad, hret, or_imp, forall_and]
  by_cases hrv : rv = 0 <;> simp [hconcat, hrv]

/-- One more driver whose load does not throw. -/
theorem passes_concat {ds : List DriverInfo} {d : DriverInfo} {rv : Int} (h : H.Passes r ds)
    (hret : H.loadRet r d = some rv) : H.Passes r (ds ++ [d]) := by
  intro d' hd'
  rcases List.mem_append.mp hd' with hd' | hd'
  · exact h d' hd'
  · obtain rfl := List.mem_singleton.mp hd'
    rw [hret]
    exact Option.some_ne_none rv

/-- The loop of `list_drivers` is behind the drivers `ds`. -/
structure ListedTo (H : PluginHost δ) (r : PluginRegistry) (ds : List DriverInfo)
    (s : DriverScan) : Prop where
  held : H.Held r s.libraries
  passes : H.Passes r ds
  err : s.err = if H.AllLoad r ds then 0 else 1
  cout : s.cout = listHeader ++ ds.flatMap (H.line r)

/-- One pass of the loop of `list_drivers`. -/
theorem listDriver_spec (hone : r.OnePlugin) (ds : List DriverInfo) (d : DriverInfo)
    (s : DriverScan) (h : ListedTo H r ds s) :
    Ends (ListedTo H r (ds ++ [d])) (fun s' => ListedTo H r ds s' ∧ H.loadRet r d = none)
      (listDriver H r s d) := by
  rcases DriverScan.load_spec hone h.held d with
    ⟨hnone, hload⟩ | ⟨rv, s', hret, hload, herr, -, hcout, -, hheld⟩
  · simp only [listDriver, hload]
    exact ⟨h, hnone⟩
  · simp only [listDriver, hload]
    refine ⟨hheld, passes_concat h.passes hret, ?_, ?_⟩
    · rw [← err_concat hret, ← h.err]
      exact herr
    · show s'.cout ++ _ = _
      rw [hcout, h.cout, List.flatMap_append, ← List.append_assoc]
      simp only [PluginHost.line, hret, Option.some.injEq, ite_not, List.flatMap_singleton]

/-- The loop of `test_drivers` is behind the drivers `ds`. -/
structure TestedTo (H : PluginHost δ) (strerror : Int → Text) (r : PluginRegistry)
    (ds : List DriverInfo) (s : DriverScan) : Prop where
  held : H.Held r s.libraries
  passes : H.Passes r ds
  err : s.err = if H.AllLoad r ds then 0 else 1
  count : s.count = ds.length
  cout : s.cout = []
  cerr : s.cerr = ds.flatMap (H.message strerror r)

/-- One pass of the loop of `test_drivers`. -/
theorem testDriver_spec (hone : r.OnePlugin) (strerror : Int → Text) (ds : List DriverInfo)
    (d : DriverInfo) (s : DriverScan) (h : TestedTo H strerror r ds s) :
    Ends (TestedTo H strerror r (ds ++ [d]))
      (fun s' => s'.cout = [] ∧ s'.cerr = ds.flatMap (H.message strerror r) ∧
        H.Passes r ds ∧ H.loadRet r d = none)
      (testDriver H strerror r s d) := by
  have hspec := DriverScan.load_spec hone (s := { s with count := s.count + 1 }) h.held d
  rcases hspec with ⟨hnone, hload⟩ | ⟨rv, s', hret, hload, herr, hcount, hcout, hcerr, hheld⟩
  · simp only [testDriver, hload]
    exact ⟨h.cout, h.cerr, h.passes, hnone⟩
  · have hrest : ∀ cerr, cerr = s.cerr ++ H.message strerror r d →
        TestedTo H strerror r (ds ++ [d]) { s' with cerr := cerr } := by
      rintro cerr rfl
      refine ⟨hheld, passes_concat h.passes hret, ?_, ?_, hcout.trans h.cout, ?_⟩
      · rw [← err_concat hret, ← h.err]
        exact herr
      · show s'.count = _
        rw [hcount, List.length_append]
        exact congrArg (· + 1) h.count
      · show s.cerr ++ _ = _
        rw [h.cerr, List.flatMap_append, List.flatMap_singleton]
    have hmessage : H.message strerror r d = if rv = 0 then [] else testMessage strerror rv d := by
      simp only [PluginHost.message, hret]
    simp only [testDriver, hload]
    by_cases hrv : rv = 0
    · rw [if_neg (not_not.mpr hrv)]
      apply hrest s'.cerr
      rw [hmessage, if_pos hrv, List.append_nil]
      exact hcerr
    · rw [if_pos hrv]
      apply hrest _
      rw [hmessage, if_neg hrv]
      exact congrArg (· ++ testMessage strerror rv d) hcerr

end Walk

/-! ### The reports -/

/-- What `list_drivers` leaves: the list has a line for each driver, with a mark if the driver
cannot be loaded.  At the first driver whose load throws the program ends, with the lines that
are written by then. -/
inductive Lists (r : PluginRegistry) : Except DriverScan (Int × DriverScan) → Prop
  | ends {rv : Int} {s : DriverScan} : H.Passes r r.drivers →
      rv = (if H.AllLoad r r.drivers then 0 else 1) →
      s.cout = listHeader ++ r.drivers.flatMap (H.line r) ++
        (if H.AllLoad r r.drivers then [] else listFooter) →
      Lists r (.ok (rv, s))
  | throws {pre : List DriverInfo} {d : DriverInfo} {post : List DriverInfo} {s : DriverScan} :
      r.drivers = pre ++ d :: post → H.Passes r pre → H.loadRet r d = none →
      s.cout = listHeader ++ pre.flatMap (H.line r) → Lists r (.error s)

/-- What `test_drivers` leaves: the test has a message for each driver that cannot be loaded,
with what the load returns.  At the first driver whose load throws the program ends. -/
inductive Tests (strerror : Int → Text) (r : PluginRegistry) :
    Except DriverScan (Int × DriverScan) → Prop
  | ends {rv : Int} {s : DriverScan} : H.Passes r r.drivers →
      rv = (if r.drivers = [] then 2 else if H.AllLoad r r.drivers then 0 else 1) →
      s.cout = (if r.drivers ≠ [] ∧ H.AllLoad r r.drivers then
        "Tested ".toList ++ decimal r.drivers.length ++ " drivers: passed\n".toList else []) →
      s.cerr = (if r.drivers = [] then "No plugins are registered with Benthos\n".toList
        else r.drivers.flatMap (H.message strerror r)) →
      Tests strerror r (.ok (rv, s))
  | throws {pre : List DriverInfo} {d : DriverInfo} {post : List DriverInfo} {s : DriverScan} :
      r.drivers = pre ++ d :: post → H.Passes r pre → H.loadRet r d = none → s.cout = [] →
      s.cerr = pre.flatMap (H.message strerror r) → Tests strerror r (.error s)

/-- **The list**, with the drivers one after the other. -/
theorem listDrivers_lists {r : PluginRegistry} (hone : r.OnePlugin) {fuel : Nat}
    (hfuel : r.drivers.length < fuel) :
    ∃ x, listDrivers H fuel r ∅ = some x ∧ Lists H r x := by
  have hstart : ListedTo H r [] (.start ∅ listHeader) := by
    refine ⟨H.held_empty, ?_, ?_, (List.append_nil _).symm⟩
    · intro d hd
      cases hd
    · simp [PluginHost.AllLoad, DriverScan.start]
  have hwalk := foldlM_rule (listDriver_spec hone) r.drivers hstart
  rw [listDrivers, scanDrivers_eq hfuel]
  refine ⟨_, rfl, ?_⟩
  cases hrun : r.drivers.foldlM (listDriver H r) (.start ∅ listHeader) with
  | error s =>
    rw [hrun] at hwalk
    obtain ⟨pre, d, post, hsplit, hlisted, hnone⟩ := hwalk
    exact .throws hsplit hlisted.passes hnone hlisted.cout
  | ok s =>
    rw [hrun] at hwalk
    have hlisted : ListedTo H r r.drivers s := hwalk
    refine .ends hlisted.passes hlisted.err ?_
    by_cases hall : H.AllLoad r r.drivers
    · have herr : s.err = 0 := by rw [hlisted.err, if_pos hall]
      rw [if_pos hall, List.append_nil, herr]
      exact hlisted.cout
    · have herr : s.err = 1 := by rw [hlisted.err, if_neg hall]
      rw [if_neg hall, herr]
      exact congrArg (· ++ listFooter) hlisted.cout

/-- **The test**, with the drivers one after the other. -/
theorem testDrivers_tests {r : PluginRegistry} (hone : r.OnePlugin) (strerror : Int → Text)
    {fuel : Nat} (hfuel : r.drivers.length < fuel) :
    ∃ x, testDrivers H strerror fuel r ∅ = some x ∧ Tests H strerror r x := by
  have hstart : TestedTo H strerror r [] (.start ∅ []) := by
    refine ⟨H.held_empty, ?_, ?_, rfl, rfl, rfl⟩
    · intro d hd
      cases hd
    · simp [PluginHost.AllLoad, DriverScan.start]
  have hwalk := foldlM_rule (testDriver_spec hone strerror) r.drivers hstart
  rw [testDrivers, scanDrivers_eq hfuel]
  refine ⟨_, rfl, ?_⟩
  cases hrun : r.drivers.foldlM (testDriver H strerror r) (.start ∅ []) with
  | error s =>
    rw [hrun] at hwalk
    obtain ⟨pre, d, post, hsplit, hcout, hcerr, hpasses, hnone⟩ := hwalk
    exact .throws hsplit hpasses hnone hcout hcerr
  | ok s =>
    rw [hrun] at hwalk
    have htested : TestedTo H strerror r r.drivers s := hwalk
    obtain ⟨-, hpasses, herr, hcount, hcout, hcerr⟩ := htested
    show Tests H strerror r (.ok ((testEnd s).1, (testEnd s).2))
    by_cases hnil : r.drivers = []
    · -- nothing to load, and nothing that fails
      have hall : H.AllLoad r r.drivers := by
        intro d hd
        rw [hnil] at hd
        cases hd
      rw [if_pos hall] at herr
      rw [hnil] at hcount hcerr
      constructor <;> simp [testEnd, herr, hcount, hcout, hcerr, hnil, PluginHost.Passes]
    · by_cases hall : H.AllLoad r r.drivers
      · rw [if_pos hall] at herr
        constructor
        · exact hpasses
        all_goals simp [testEnd, herr, hcount, hcout, hcerr, hnil, hall]
      · rw [if_neg hall] at herr
        constructor
        · exact hpasses
        all_goals simp [testEnd, herr, hcout, hcerr, hnil, hall]

/-- A character that stands for itself in an expression. -/
def isPlainChar (c : Char) : Bool := c.isAlphanum || c == '-' || c == '_'

/-- The test of all characters. -/
theorem all_isPlainChar_iff {name : Text} :
    name.all isPlainChar = true ↔ ∀ c ∈ name, c.isAlphanum ∨ c = '-' ∨ c = '_' := by
  simp [isPlainChar, or_assoc]

/-- The expressions of plain names; there are no others. -/
def plainExpression (name : Text) : Option (Text → Bool) :=
  if h : name.all isPlainChar = true then
    some (regexSearch (pluginPattern ⟨name, all_isPlainChar_iff.mp h⟩))
  else none

/-- A directory with the libraries of two plugins, which know all drivers. -/
def twoPluginHost (drv : δ) : PluginHost δ where
  disk _ := some [.file "libsmart.so".toList ⟨"/p/libsmart.so".toList, rfl⟩,
    .file "libsmarti.so".toList ⟨"/p/libsmarti.so".toList, rfl⟩]
  expression := plainExpression
  plain n := dif_pos (all_isPlainChar_iff.mpr n.plain)
  dlopen path := some ⟨path.length, some 1, some 2, some 3, 0, fun _ => some drv⟩

/-- The attributes and the driver of the second manifest. -/
def smartiProperties : List (Text × Text) :=
  [("name".toList, "benthosdc-smarti".toList), ("library".toList, "smarti".toList),
    ("version".toList, "1.0".toList)]

/-- Its one driver, which needs a network. -/
def smartiChildren : List XmlTree :=
  [.element "driver".toList [("name".toList, "smarti".toList)]
    [.element "interface".toList [] [.text "net".toList]]]

/-- A directory with both manifests. -/
def twoManifests : FsNode :=
  .directory "/m".toList [
    .file "/m/smart.xml".toList
      (.document (.element "plugin".toList smartProperties smartChildren)),
    .file "/m/smarti.xml".toList
      (.document (.element "plugin".toList smartiProperties smartiChildren))]

/-- Two plugins are installed. -/
def twoPluginCalls : List RegistryCall :=
  [.init (some twoManifests) (some (.directory "/p".toList []))]

/-- The name is plain. -/
theorem all_isAlphanum_smarti : "smarti".toList.all Char.isAlphanum = true := by decide

/-- The library of the second plugin. -/
def smartiLibrary : LibraryName where
  text := "smarti".toList
  plain c hc := .inl (List.all_eq_true.mp all_isAlphanum_smarti c hc)

/-- **The search of the two plugins.** -/
theorem twoPluginHost_findPlugin {r : PluginRegistry} (hfiles : r.pluginFiles = [])
    (hpaths : r.pluginPaths = ["/p".toList]) (drv : δ) :
    (twoPluginHost drv).findPlugin r smartLibrary.text = some "/p/libsmart.so".toList ∧
      (twoPluginHost drv).findPlugin r smartiLibrary.text = some "/p/libsmarti.so".toList := by
  have hfind : ∀ n : LibraryName, (twoPluginHost drv).findPlugin r n.text =
      scanPluginPaths (regexSearch (pluginPattern n)) (twoPluginHost drv).disk ["/p".toList] := by
    intro n
    simp only [PluginHost.findPlugin, (twoPluginHost drv).plain n, findPluginWith, hfiles, hpaths,
      List.find?_nil]
  rw [hfind, hfind]
  exact ⟨rfl, rfl⟩

end BenthosDc

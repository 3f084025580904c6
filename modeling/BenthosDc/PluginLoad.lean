/-
BenthosDc/PluginLoad.lean

Loading and unloading the libraries of plugins (`registry.cpp`).

What the dynamic linker and the plugins answer is given with each call, and what they are
asked to do is told by events.  The table of libraries is searched without regard to case, and
only a plugin that is not in it is loaded, so that the table holds exactly the plugins whose
`plugin_load` has succeeded (`Loaded`).  From it come the two halves of the balance: a load
that fails closes what it has opened, and the cleanup closes all others
(`pluginLoads_balanced`).
-/
import BenthosDc.RegistryLookup

namespace BenthosDc

open CString

/-! ### Libraries

A library entry is made for a plugin that has been loaded.  Its key is the name of the plugin,
compared without case as the map of the registry does.
-/

/-- What `dlopen` returns -/
abbrev Handle := Nat

/-- What `dlsym` returns -/
abbrev Symbol := Nat

/-- `library_entry_t` -/
structure LibraryEntry where
  libName : Text
  libPath : Text
  libHandle : Handle
  libLoadFn : Symbol
  libUnloadFn : Symbol
  libDriverFn : Symbol
  deriving DecidableEq

/-- `library_table` -/
abbrev LibraryTable := Std.TreeMap Text LibraryEntry ciCmp

/-- What the linker and a plugin are asked to do; the name of the plugin that a library
belongs to is told with it. -/
inductive LoadEvent
  | dlopen (path : Text) (plugin : Text) (handle : Option Handle)
  | dlsym (handle : Handle) (symbol : String) (fn : Option Symbol)
  | pluginLoad (fn : Symbol) (plugin : Text) (handle : Handle) (rv : Int)
  | pluginLoadDriver (fn : Symbol) (driver : Text) (found : Bool)
  | pluginUnload (fn : Symbol) (plugin : Text) (handle : Handle)
  | dlclose (plugin : Text) (handle : Handle)
  deriving DecidableEq

/-- What is answered in the course of a call: the library that is found, if there is one,
the handle, the three functions, what `plugin_load` returns, and if `plugin_load_driver`
knows the driver. -/
structure LoadAnswers where
  found : Text
  handle : Option Handle
  loadFn : Option Symbol
  unloadFn : Option Symbol
  driverFn : Option Symbol
  rv : Int
  hasDriver : Bool

/-- `REGISTRY_ERR_*` of a load -/
inductive LoadErr
  | notFound
  | dlopen
  | dlsymLoad
  | dlsymUnload
  | dlsymDriver
  | pluginLoad
  | notInPlugin
  deriving DecidableEq

/-- The code that `benthos_dc_registry_load` returns for an error. -/
def LoadErr.code : LoadErr → Int
  | notFound => -2
  | dlopen => -8
  | dlsymLoad => -9
  | dlsymUnload => -10
  | dlsymDriver => -11
  | pluginLoad => -12
  | notInPlugin => -13

/-! ### The calls

A call asks the linker at most once for the library and for each of its three symbols.  What
has been opened before an error is closed on the way out.
-/

/-- What `load_plugin` leaves: its result, the table, and what has been asked for. -/
structure LoadPlugin where
  result : Except LoadErr LibraryEntry
  libraries : LibraryTable
  events : List LoadEvent

/-- `load_plugin`. -/
def loadPlugin (libraries : LibraryTable) (pi : PluginInfo) (a : LoadAnswers) : LoadPlugin :=
  match libraries[pi.pluginName]? with
  | some le => ⟨.ok le, libraries, []⟩
  | none =>
    if a.found = [] then ⟨.error .notFound, libraries, []⟩
    else
      let opening := LoadEvent.dlopen a.found pi.pluginName a.handle
      match a.handle with
      | none => ⟨.error .dlopen, libraries, [opening]⟩
      | some handle =>
        let load := LoadEvent.dlsym handle "plugin_load" a.loadFn
        let unload := LoadEvent.dlsym handle "plugin_unload" a.unloadFn
        let driver := LoadEvent.dlsym handle "plugin_load_driver" a.driverFn
        let closing := LoadEvent.dlclose pi.pluginName handle
        match a.loadFn, a.unloadFn, a.driverFn with
        | none, _, _ => ⟨.error .dlsymLoad, libraries, [opening, load, closing]⟩
        | some _, none, _ => ⟨.error .dlsymUnload, libraries, [opening, load, unload, closing]⟩
        | some _, some _, none =>
            ⟨.error .dlsymDriver, libraries, [opening, load, unload, driver, closing]⟩
        | some loadFn, some unloadFn, some driverFn =>
          let call := LoadEvent.pluginLoad loadFn pi.pluginName handle a.rv
          if a.rv ≠ 0 then
            ⟨.error .pluginLoad, libraries, [opening, load, unload, driver, call, closing]⟩
          else
            let le := ⟨pi.pluginLibrary, a.found, handle, loadFn, unloadFn, driverFn⟩
            ⟨.ok le, libraries.insertIfNew pi.pluginName le, [opening, load, unload, driver, call]⟩

/-- A call of `benthos_dc_registry_load` in the registry as it is by then. -/
structure LoadCall where
  registry : PluginRegistry
  name : Option Text
  hasIntf : Bool
  answers : LoadAnswers

/-- What the call returns, and what has been asked for. -/
structure LoadReturn where
  ret : Int
  events : List LoadEvent

/-- `EINVAL` of errno.h. -/
def EINVAL : Int := 22

/-- `benthos_dc_registry_load`. -/
def benthosDcRegistryLoad (libraries : LibraryTable) (c : LoadCall) : LoadReturn × LibraryTable :=
  match c.name with
  | none => (⟨EINVAL, []⟩, libraries)
  | some name =>
    if c.hasIntf = false then (⟨EINVAL, []⟩, libraries)
    else
      match benthosDcRegistryDriverInfo (some c.registry) name none with
      | (rv, none) => (⟨rv, []⟩, libraries)
      | (_, some di) =>
        let p := loadPlugin libraries di.plugin c.answers
        match p.result with
        | .error e => (⟨e.code, p.events⟩, p.libraries)
        | .ok li =>
          let call := LoadEvent.pluginLoadDriver li.libDriverFn di.driverName c.answers.hasDriver
          (⟨if c.answers.hasDriver then 0 else LoadErr.notInPlugin.code, p.events ++ [call]⟩,
            p.libraries)

/-- The loop of `benthos_dc_registry_cleanup` over the libraries. -/
def cleanupLibraries (libraries : LibraryTable) : List LoadEvent :=
  libraries.toList.flatMap fun lib =>
    [.pluginUnload lib.2.libUnloadFn lib.1 lib.2.libHandle, .dlclose lib.1 lib.2.libHandle]

/-- The calls in turn: what each of them returns, and the table behind them. -/
def runLoads (libraries : LibraryTable) : List LoadCall → List LoadReturn × LibraryTable
  | [] => ([], libraries)
  | c :: calls =>
      let r := benthosDcRegistryLoad libraries c
      let rest := runLoads r.2 calls
      (r.1 :: rest.1, rest.2)

/-! ### The balance

Opening and closing of libraries are events, and so are loading and unloading of plugins.  A
run is balanced if both pairs match, handle by handle and plugin by plugin.
-/

/-- The plugin whose library is opened, and its handle. -/
def LoadEvent.opened : LoadEvent → Option (Text × Handle)
  | .dlopen _ plugin (some handle) => some (plugin, handle)
  | _ => none

/-- The handle that is closed. -/
def LoadEvent.closed : LoadEvent → Option (Text × Handle)
  | .dlclose plugin handle => some (plugin, handle)
  | _ => none

/-- `plugin_load` succeeds. -/
def LoadEvent.loaded : LoadEvent → Option (Text × Handle)
  | .pluginLoad _ plugin handle 0 => some (plugin, handle)
  | _ => none

/-- The plugin that is unloaded. -/
def LoadEvent.unloaded : LoadEvent → Option (Text × Handle)
  | .pluginUnload _ plugin handle => some (plugin, handle)
  | _ => none

/-- The handles of a plugin, whose name is given in any case. -/
def handlesOf (plugin : Text) (libs : List (Text × Handle)) : List Handle :=
  (libs.filter fun lib => strcaseEq lib.1 plugin).map (·.2)

/-- `load_plugin` returns an error in the call, or is not reached. -/
def LoadReturn.Fails (r : LoadReturn) : Prop := r.ret ≠ 0 ∧ r.ret ≠ LoadErr.notInPlugin.code

/-- What is opened is closed if the load fails, and belongs to a plugin that is loaded if
it does not. -/
structure LoadReturn.Balanced (r : LoadReturn) : Prop where
  failing : r.Fails → r.events.filterMap (·.loaded) = [] ∧
    r.events.filterMap (·.closed) = r.events.filterMap (·.opened)
  succeeding : ¬r.Fails → r.events.filterMap (·.loaded) = r.events.filterMap (·.opened) ∧
    r.events.filterMap (·.closed) = []

/-- All that has been asked for in the calls of a run. -/
def runEvents (returns : List LoadReturn) : List LoadEvent := returns.flatMap (·.events)

/-- The balance of the calls between `benthos_dc_registry_init` and
`benthos_dc_registry_cleanup`. -/
structure LoadsBalanced (calls : List LoadCall) : Prop where
  once : ∀ plugin : Text,
    (handlesOf plugin ((runEvents (runLoads ∅ calls).1).filterMap (·.loaded))).length ≤ 1
  returns : ∀ r ∈ (runLoads ∅ calls).1, r.Balanced
  unload : ∀ plugin : Text,
    handlesOf plugin ((cleanupLibraries (runLoads ∅ calls).2).filterMap (·.unloaded)) =
      handlesOf plugin ((runEvents (runLoads ∅ calls).1).filterMap (·.loaded))
  close : ∀ plugin : Text,
    handlesOf plugin ((cleanupLibraries (runLoads ∅ calls).2).filterMap (·.closed)) =
      handlesOf plugin ((runEvents (runLoads ∅ calls).1).filterMap (·.loaded))
  /-- The function is the `plugin_unload` of the library. -/
  symbols : ∀ fn plugin handle,
    .pluginUnload fn plugin handle ∈ cleanupLibraries (runLoads ∅ calls).2 →
      .dlsym handle "plugin_unload" (some fn) ∈ runEvents (runLoads ∅ calls).1

/-! ### One call

A call has one of five outcomes.  What it adds to the events and to the table is said once for
each of them, and the run uses nothing else of the code.
-/

@[simp] theorem handlesOf_append (plugin : Text) (xs ys : List (Text × Handle)) :
    handlesOf plugin (xs ++ ys) = handlesOf plugin xs ++ handlesOf plugin ys := by
  simp [handlesOf]

@[simp] theorem handlesOf_nil (plugin : Text) : handlesOf plugin [] = [] := rfl

/-- Plugins are told apart as the table tells them apart. -/
theorem handlesOf_singleton (plugin name : Text) (handle : Handle) :
    handlesOf plugin [(name, handle)] = if strcaseEq name plugin then [handle] else [] := by
  unfold handlesOf
  split <;> simp_all

variable {libraries : LibraryTable} {pi : PluginInfo} {a : LoadAnswers}

/-- The ways in which `load_plugin` ends. -/
inductive LoadPlugin.Outcome (libraries : LibraryTable) (pi : PluginInfo) : LoadPlugin → Prop
  | present (le : LibraryEntry) : Outcome libraries pi ⟨.ok le, libraries, []⟩
  | fails (e : LoadErr) (events : List LoadEvent) : e ≠ .notInPlugin →
      events.filterMap (·.loaded) = [] →
      events.filterMap (·.closed) = events.filterMap (·.opened) →
      Outcome libraries pi ⟨.error e, libraries, events⟩
  | loads (le : LibraryEntry) (events : List LoadEvent) : libraries[pi.pluginName]? = none →
      events.filterMap (·.opened) = [(pi.pluginName, le.libHandle)] →
      events.filterMap (·.loaded) = [(pi.pluginName, le.libHandle)] →
      events.filterMap (·.closed) = [] →
      .dlsym le.libHandle "plugin_unload" (some le.libUnloadFn) ∈ events →
      Outcome libraries pi ⟨.ok le, libraries.insertIfNew pi.pluginName le, events⟩

/-- **Every call has one of these outcomes.** -/
theorem loadPlugin_outcome (libraries : LibraryTable) (pi : PluginInfo) (a : LoadAnswers) :
    LoadPlugin.Outcome libraries pi (loadPlugin libraries pi a) := by
  unfold loadPlugin
  split
  · exact .present _
  · rename_i hnone
    by_cases hfound : a.found = []
    · rw [if_pos hfound]
      exact .fails _ _ (by simp) rfl rfl
    rw [if_neg hfound]
    cases hhandle : a.handle with
    | none => exact .fails _ _ (by simp) rfl rfl
    | some handle =>
      cases hload : a.loadFn with
      | none => exact .fails _ _ (by simp) rfl rfl
      | some loadFn =>
        cases hunload : a.unloadFn with
        | none => exact .fails _ _ (by simp) rfl rfl
        | some unloadFn =>
          cases hdriver : a.driverFn with
          | none => exact .fails _ _ (by simp) rfl rfl
          | some driverFn =>
            show LoadPlugin.Outcome libraries pi (if a.rv ≠ 0 then _ else _)
            by_cases hrv : a.rv = 0
            · rw [if_neg (not_not.mpr hrv)]
              refine .loads _ _ hnone rfl ?_ rfl (by simp)
              rw [hrv]
              rfl
            · rw [if_pos hrv]
              have hnot :
                  (LoadEvent.pluginLoad loadFn pi.pluginName handle a.rv).loaded = none := by
                unfold LoadEvent.loaded
                split <;> simp_all
              refine .fails _ _ (by simp) ?_ rfl
              simp only [List.filterMap_cons, hnot]
              rfl

/-- The table holds the plugins that are loaded, each of them once. -/
structure Loaded (libraries : LibraryTable) (events : List LoadEvent) : Prop where
  handles : ∀ plugin : Text,
    handlesOf plugin (events.filterMap (·.loaded)) = (libraries[plugin]?.map (·.libHandle)).toList
  symbols : ∀ (plugin : Text) le, libraries[plugin]? = some le →
    .dlsym le.libHandle "plugin_unload" (some le.libUnloadFn) ∈ events

/-- Nothing is loaded at the start. -/
theorem loaded_empty : Loaded ∅ [] where
  handles plugin := by simp
  symbols plugin le h := by simp at h

/-- An event more that loads nothing does not matter. -/
theorem Loaded.append {events : List LoadEvent} (h : Loaded libraries events)
    {more : List LoadEvent} (hmore : more.filterMap (·.loaded) = []) :
    Loaded libraries (events ++ more) where
  handles plugin := by simp [hmore, h.handles plugin]
  symbols plugin le hle := List.mem_append_left _ (h.symbols plugin le hle)

/-- A plugin that was not in the table comes into it. -/
theorem Loaded.insert {events more : List LoadEvent} (h : Loaded libraries events)
    {name : Text} {le : LibraryEntry} (hnone : libraries[name]? = none)
    (hloaded : more.filterMap (·.loaded) = [(name, le.libHandle)])
    (hsymbol : .dlsym le.libHandle "plugin_unload" (some le.libUnloadFn) ∈ more) :
    Loaded (libraries.insertIfNew name le) (events ++ more) := by
  have hnew : name ∉ libraries := by simpa using hnone
  constructor
  · intro plugin
    rw [List.filterMap_append, handlesOf_append, h.handles, hloaded, handlesOf_singleton,
      Std.TreeMap.getElem?_insertIfNew]
    by_cases hsame : ciCmp name plugin = .eq
    · have hplugin : libraries[plugin]? = none := by
        rw [← Std.TreeMap.getElem?_congr hsame, hnone]
      rw [if_pos (ciCmp_eq_iff.mp hsame), if_pos ⟨hsame, hnew⟩, hplugin]
      rfl
    · rw [if_neg fun hc => hsame (ciCmp_eq_iff.mpr hc), if_neg fun hc => hsame hc.1,
        List.append_nil]
  · intro plugin le' hle'
    rw [Std.TreeMap.getElem?_insertIfNew] at hle'
    split at hle'
    · cases hle'
      exact List.mem_append_right _ hsymbol
    · exact List.mem_append_left _ (h.symbols plugin le' hle')

theorem LoadReturn.balanced_nil (rv : Int) : (⟨rv, []⟩ : LoadReturn).Balanced where
  failing _ := ⟨rfl, rfl⟩
  succeeding _ := ⟨rfl, rfl⟩

/-- What one call does to the table, and to the balance. -/
theorem benthosDcRegistryLoad_step {events : List LoadEvent} (h : Loaded libraries events)
    (c : LoadCall) :
    Loaded (benthosDcRegistryLoad libraries c).2
        (events ++ (benthosDcRegistryLoad libraries c).1.events) ∧
      (benthosDcRegistryLoad libraries c).1.Balanced := by
  have hidle : ∀ rv, Loaded libraries (events ++ (⟨rv, []⟩ : LoadReturn).events) ∧
      (⟨rv, []⟩ : LoadReturn).Balanced := fun rv => ⟨h.append rfl, LoadReturn.balanced_nil rv⟩
  unfold benthosDcRegistryLoad
  split
  · exact hidle _
  by_cases hintf : c.hasIntf = false
  · rw [if_pos hintf]
    exact hidle _
  rw [if_neg hintf]
  split
  · exact hidle _
  · rename_i di _
    have hout := loadPlugin_outcome libraries di.plugin c.answers
    dsimp only
    generalize loadPlugin libraries di.plugin c.answers = p at hout
    cases hout with
    | present le =>
      refine ⟨h.append rfl, ?_, ?_⟩
      · exact fun _ => ⟨rfl, rfl⟩
      · exact fun _ => ⟨rfl, rfl⟩
    | fails e more hcode hloaded hclosed =>
      refine ⟨h.append hloaded, fun _ => ⟨hloaded, hclosed⟩, fun hnot => absurd ?_ hnot⟩
      cases e <;> simp_all [LoadReturn.Fails, LoadErr.code]
    | loads le more hnone hopened hloaded hclosed hsymbol =>
      refine ⟨?_, fun hfails => absurd hfails ?_, fun _ => ⟨?_, ?_⟩⟩
      · refine h.insert hnone ?_ (List.mem_append_left _ hsymbol)
        rw [List.filterMap_append, hloaded]
        rfl
      · rintro ⟨hret, hdriver⟩
        cases hhas : c.answers.hasDriver <;> simp [hhas] at hret hdriver
      · rw [List.filterMap_append, List.filterMap_append, hloaded, hopened]
        rfl
      · rw [List.filterMap_append, hclosed]
        rfl

/-! ### The calls of a run

What one call preserves is carried over to the run by induction over its calls.
-/

/-- Every call of a run keeps the invariant, and one that fails leaves nothing open. -/
theorem runLoads_loaded {events : List LoadEvent} (h : Loaded libraries events)
    (calls : List LoadCall) :
    Loaded (runLoads libraries calls).2 (events ++ runEvents (runLoads libraries calls).1) ∧
      ∀ r ∈ (runLoads libraries calls).1, r.Balanced := by
  induction calls generalizing libraries events with
  | nil => exact ⟨h.append rfl, fun r hr => by cases hr⟩
  | cons c calls ih =>
    obtain ⟨hstep, hbalanced⟩ := benthosDcRegistryLoad_step h c
    obtain ⟨hrest, hall⟩ := ih hstep
    constructor
    · show Loaded _ (events ++ (_ ++ runEvents _))
      rw [← List.append_assoc]
      exact hrest
    · intro r hr
      rcases List.mem_cons.mp hr with rfl | hr
      · exact hbalanced
      · exact hall r hr

/-! ### Cleanup

The cleanup goes through the table, which holds each plugin once, and unloads and closes what
it finds there.
-/

/-- An entry of the list is the entry of the table under its name. -/
theorem getElem?_of_mem_toList {plugin : Text} {lib : Text × LibraryEntry}
    (hlib : lib ∈ libraries.toList) (hname : strcaseEq lib.1 plugin = true) :
    libraries[plugin]? = some lib.2 :=
  Std.TreeMap.getElem?_eq_some_iff_exists_compare_eq_eq_and_mem_toList.mpr
    ⟨lib.1, Std.OrientedCmp.eq_symm (ciCmp_eq_iff.mpr hname), hlib⟩

/-- Under a name, in any case, stands at most one library. -/
theorem handlesOf_toList (libraries : LibraryTable) (plugin : Text) :
    handlesOf plugin (libraries.toList.map fun lib => (lib.1, lib.2.libHandle)) =
      (libraries[plugin]?.map (·.libHandle)).toList := by
  unfold handlesOf
  rw [List.filter_map, List.map_map]
  show (libraries.toList.filter fun lib => strcaseEq lib.1 plugin).map (·.2.libHandle) = _
  cases hfound : libraries[plugin]? with
  | none =>
    have hnil : libraries.toList.filter (fun lib => strcaseEq lib.1 plugin) = [] := by
      apply List.filter_eq_nil_iff.mpr
      intro lib hlib hname
      rw [getElem?_of_mem_toList hlib hname] at hfound
      cases hfound
    rw [hnil]
    rfl
  | some le =>
    obtain ⟨name, hname, hmem⟩ :=
      Std.TreeMap.getElem?_eq_some_iff_exists_compare_eq_eq_and_mem_toList.mp hfound
    have hone : libraries.toList.filter (fun lib => strcaseEq lib.1 plugin) = [(name, le)] := by
      refine filter_eq_singleton (Std.TreeMap.distinct_keys_toList.imp ?_) hmem ?_
      · intro a b hab hboth
        exact hab (Std.TransCmp.eq_trans (ciCmp_eq_iff.mpr hboth.1)
          (Std.OrientedCmp.eq_symm (ciCmp_eq_iff.mpr hboth.2)))
      · exact ciCmp_eq_iff.mp (Std.OrientedCmp.eq_symm hname)
    rw [hone]
    rfl

/-- What is told once for each library of the cleanup. -/
theorem cleanupLibraries_filterMap {f : LoadEvent → Option (Text × Handle)}
    (hf : ∀ lib : Text × LibraryEntry, [.pluginUnload lib.2.libUnloadFn lib.1 lib.2.libHandle,
      .dlclose lib.1 lib.2.libHandle].filterMap f = [(lib.1, lib.2.libHandle)])
    (libraries : LibraryTable) :
    (cleanupLibraries libraries).filterMap f =
      libraries.toList.map fun lib => (lib.1, lib.2.libHandle) := by
  unfold cleanupLibraries
  rw [List.filterMap_flatMap]
  simp only [hf]
  exact List.map_eq_flatMap.symm

/-- A library is opened and closed as often as its plugin is loaded and unloaded, and no
plugin is loaded twice. -/
theorem pluginLoads_balanced (calls : List LoadCall) : LoadsBalanced calls := by
  obtain ⟨hloaded, hbalanced⟩ := runLoads_loaded loaded_empty calls
  rw [List.nil_append] at hloaded
  constructor
  · intro plugin
    rw [hloaded.handles plugin]
    cases (runLoads ∅ calls).2[plugin]? <;> simp
  · exact hbalanced
  · intro plugin
    rw [cleanupLibraries_filterMap fun _ => rfl, handlesOf_toList, hloaded.handles plugin]
  · intro plugin
    rw [cleanupLibraries_filterMap fun _ => rfl, handlesOf_toList, hloaded.handles plugin]
  · intro fn plugin handle hmem
    obtain ⟨lib, hlib, hevent⟩ := List.mem_flatMap.mp hmem
    have hentry := getElem?_of_mem_toList hlib (ciCmp_eq_iff.mp Std.ReflCmp.compare_self)
    simp only [List.mem_cons, LoadEvent.pluginUnload.injEq, reduceCtorEq, List.not_mem_nil,
      or_false] at hevent
    obtain ⟨rfl, rfl, rfl⟩ := hevent
    exact hloaded.symbols _ _ hentry

end BenthosDc

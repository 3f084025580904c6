/-
BenthosDc/Registry.lean

The registry of plugins and drivers (`registry.cpp`), without the loading of libraries.

A call that takes a path is given what the path names when it is made: nothing, or a node
of the file system under its canonical path.  A manifest is given by its fields, and a
pointer to the information of a driver by that information.

Manifests and drivers are kept twice: the table of manifests is searched by the name of the
plugin without regard to case, and the list of drivers is in the order of registration, which
the lookup of a driver goes through from the front.
-/
import Std.Data.TreeMap.Lemmas
import BenthosDc.Manifest

namespace BenthosDc

open CString

/-! ### Errors

The codes are negative, as those of the manifests are.
-/

/-- `REGISTRY_ERR_*` -/
inductive RegistryErr
  | notInit
  | notFound
  | notDir
  | notFile
  | exists
  | ambiguous
  deriving DecidableEq

/-- The number of an error. -/
def RegistryErr.code : RegistryErr → Int
  | notInit => -1
  | notFound => -2
  | notDir => -3
  | notFile => -4
  | .exists => -5
  | ambiguous => -7

/-! ### Files

A path is looked up once in a call.  What is found is a node with its canonical path, and a
directory comes with what its iterator gives.
-/

/-- What is found in the file system; a directory lists its nodes in the order of the
iterator. -/
inductive FsNode
  | file (path : Text) (content : ManifestFile)
  | directory (path : Text) (entries : List FsNode)

/-- `is_regular` -/
def ManifestFile.isRegular : ManifestFile → Bool
  | .absent _ => false
  | .notRegular _ => false
  | _ => true

/-! ### The registry

There is one registry.  It starts empty and is filled with manifests; the drivers of a manifest
are appended to the list of all drivers.
-/

/-- `ci_cmp` -/
def ciCmp (lhs rhs : Text) : Ordering := compare (lhs.map Char.toUpper) (rhs.map Char.toUpper)

instance : Std.TransCmp ciCmp :=
  inferInstanceAs (Std.TransCmp (compareOn fun s : Text => s.map Char.toUpper))

/-- The order of the table and `strcasecmp` take the same names for equal. -/
theorem ciCmp_eq_iff {s t : Text} : ciCmp s t = .eq ↔ strcaseEq s t = true := by
  show compare (s.map Char.toUpper) (t.map Char.toUpper) = .eq ↔ _
  rw [Std.LawfulEqCmp.compare_eq_iff_eq, map_toUpper_eq_iff]

/-- `manifest_table` -/
abbrev ManifestTable := Std.TreeMap Text PluginManifest ciCmp

/-- `plugin_registry_t` -/
structure PluginRegistry where
  manifestPaths : List Text
  manifestFiles : List Text
  pluginPaths : List Text
  pluginFiles : List Text
  manifests : ManifestTable
  drivers : List DriverInfo

variable (conv : Iconv)

/-- The loop over the drivers of a manifest. -/
def pushDrivers (drivers : List DriverInfo) (m : PluginManifest) : List DriverInfo :=
  m.drivers.foldl (fun drivers di => drivers ++ [di]) drivers

/-- Parse a manifest and add it, unless its plugin is there already. -/
def registerManifest (r : PluginRegistry) (content : ManifestFile) : Int × PluginRegistry :=
  match benthosDcManifestParse conv content with
  | .error e => (e.code, r)
  | .ok m =>
      if r.manifests.contains m.pluginName then (RegistryErr.exists.code, r)
      else
        (0, { r with
          manifests := r.manifests.insertIfNew m.pluginName m
          drivers := pushDrivers r.drivers m })

/-- The name ends in `.xml`. -/
def isXmlName (fn : Text) : Bool := ".xml".toList.isSuffixOf fn

mutual

/-- One pass of the loop of `scan_manifest_path`. -/
def scanManifestEntry (r : PluginRegistry) : FsNode → PluginRegistry
  | .directory _ entries => scanManifestPath r entries
  | .file fn content => if isXmlName fn then (registerManifest conv r content).2 else r

/-- Errors of a manifest are ignored here. -/
def scanManifestPath (r : PluginRegistry) : List FsNode → PluginRegistry
  | [] => r
  | e :: entries => scanManifestPath (scanManifestEntry r e) entries

end

/-! ### The calls

Each call checks for the registry first, then for the file, and then for what it is about.  The
result is the code and the registry.
-/

/-- `g_registry` -/
abbrev GRegistry := Option PluginRegistry

/-- The path is listed before the manifest is read. -/
def benthosDcRegistryAddManifest : GRegistry → Option FsNode → Int × GRegistry
  | none, _ => (RegistryErr.notInit.code, none)
  | some r, none => (RegistryErr.notFound.code, some r)
  | some r, some (.directory _ _) => (RegistryErr.notFile.code, some r)
  | some r, some (.file path content) =>
      if content.isRegular = false then (RegistryErr.notFile.code, some r)
      else if path ∈ r.manifestFiles then (RegistryErr.exists.code, some r)
      else
        let result := registerManifest conv { r with manifestFiles := r.manifestFiles ++ [path] } content
        (result.1, some result.2)

/-- The library itself is not opened here. -/
def benthosDcRegistryAddPlugin : GRegistry → Option FsNode → Int × GRegistry
  | none, _ => (RegistryErr.notInit.code, none)
  | some r, none => (RegistryErr.notFound.code, some r)
  | some r, some (.directory _ _) => (RegistryErr.notFile.code, some r)
  | some r, some (.file path content) =>
      if content.isRegular = false then (RegistryErr.notFile.code, some r)
      else if path ∈ r.pluginFiles then (RegistryErr.exists.code, some r)
      else (0, some { r with pluginFiles := r.pluginFiles ++ [path] })

/-- The directory is listed and all manifests below it are added. -/
def benthosDcRegistryAddManifestPath : GRegistry → Option FsNode → Int × GRegistry
  | none, _ => (RegistryErr.notInit.code, none)
  | some r, none => (RegistryErr.notFound.code, some r)
  | some r, some (.file _ _) => (RegistryErr.notDir.code, some r)
  | some r, some (.directory path entries) =>
      if path ∈ r.manifestPaths then (RegistryErr.exists.code, some r)
      else
        (0, some (scanManifestPath conv
          { r with manifestPaths := r.manifestPaths ++ [path] } entries))

/-- The directory is listed only, and searched when a plugin is loaded. -/
def benthosDcRegistryAddPluginPath : GRegistry → Option FsNode → Int × GRegistry
  | none, _ => (RegistryErr.notInit.code, none)
  | some r, none => (RegistryErr.notFound.code, some r)
  | some r, some (.file _ _) => (RegistryErr.notDir.code, some r)
  | some r, some (.directory path _) =>
      if path ∈ r.pluginPaths then (RegistryErr.exists.code, some r)
      else (0, some { r with pluginPaths := r.pluginPaths ++ [path] })

/-- `benthos_dc_registry_init`, with what the directories of manifests and of plugins are. -/
def benthosDcRegistryInit (manifestDir pluginDir : Option FsNode) : GRegistry → Int × GRegistry
  | some r => (0, some r)
  | none =>
      let g := (benthosDcRegistryAddManifestPath conv (some ⟨[], [], [], [], ∅, []⟩) manifestDir).2
      (0, (benthosDcRegistryAddPluginPath g pluginDir).2)

/-- The registry is deleted; the libraries are no part of it here. -/
def benthosDcRegistryCleanup (_ : GRegistry) : GRegistry := none

/-- The loop of `benthos_dc_registry_driver_info`. -/
def lookupDriver (plugin driver : Text) :
    List DriverInfo → Option DriverInfo → Except RegistryErr (Option DriverInfo)
  | [], ret => .ok ret
  | d :: drivers, ret =>
      if plugin ≠ [] ∧ strcaseEq d.plugin.pluginName plugin = false then
        lookupDriver plugin driver drivers ret
      else
        let found := if strcaseEq d.driverName driver then some d else none
        if found.isSome ∧ ret.isSome then .error .ambiguous
        else lookupDriver plugin driver drivers (if ret.isNone then found else ret)

/-- The name in front of the first dot, if there is one, and the name behind it. -/
def splitDriver (name : Text) : Text × Text :=
  if '.' ∈ name then (name.takeWhile (· ≠ '.'), (name.dropWhile (· ≠ '.')).tail) else ([], name)

/-- `benthos_dc_registry_driver_info`; `info` is what the pointer points to. -/
def benthosDcRegistryDriverInfo (g : GRegistry) (name : Text) (info : Option DriverInfo) :
    Int × Option DriverInfo :=
  match g with
  | none => (RegistryErr.notInit.code, info)
  | some r =>
      match lookupDriver (splitDriver name).1 (splitDriver name).2 r.drivers none with
      | .error e => (e.code, info)
      | .ok none => (RegistryErr.notFound.code, info)
      | .ok (some d) => (0, some d)

/-! ### Runs

An application calls in any order and any number of times.  The registry starts as a null
pointer.
-/

/-- A call that changes the registry. -/
inductive RegistryCall
  | init (manifestDir pluginDir : Option FsNode)
  | addManifest (file : Option FsNode)
  | addPlugin (file : Option FsNode)
  | addManifestPath (path : Option FsNode)
  | addPluginPath (path : Option FsNode)
  | cleanup

/-- The registry behind a call. -/
def RegistryCall.run (g : GRegistry) : RegistryCall → GRegistry
  | init manifestDir pluginDir => (benthosDcRegistryInit conv manifestDir pluginDir g).2
  | addManifest file => (benthosDcRegistryAddManifest conv g file).2
  | addPlugin file => (benthosDcRegistryAddPlugin g file).2
  | addManifestPath path => (benthosDcRegistryAddManifestPath conv g path).2
  | addPluginPath path => (benthosDcRegistryAddPluginPath g path).2
  | cleanup => benthosDcRegistryCleanup g

/-- The registry after a sequence of calls. -/
def runCalls (calls : List RegistryCall) : GRegistry := calls.foldl (RegistryCall.run conv) none

end BenthosDc

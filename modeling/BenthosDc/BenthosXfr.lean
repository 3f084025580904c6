/-
BenthosDc/BenthosXfr.lean

The program `benthos-xfr` around a transfer (`main` and `run_transfer` of `main.cpp`).

The registry is made, the manifests and plugins of the command line are added to it, and the
drivers are listed, tested, or one of them is loaded for a transfer; then the registry is
cleaned up.  The program need not come to that: the search for a library may throw, which
nothing catches, and the driver of the transfer may come to a halt.  What is asked of the
dynamic linker is accounted for by an invariant of the runs (`Accounted`): what has been opened
has been closed or belongs to a plugin in the table of libraries.

* `benthosXfr_ends`: how the program ends, and what it leaves behind.

The invariant is threaded through every call that may load a plugin.  It has to hold where the
program is ended by an exception, too, because the libraries are open then and nothing closes
them.  The output is kept as far as the commands write it; what a transfer writes on its way is
left out.
-/
import BenthosDc.DriverList
import BenthosDc.OutputCsv
import BenthosDc.OutputUddf
import BenthosDc.TransferHandles
import BenthosDc.TransferTokens

namespace BenthosDc

open CString Cursor

/-! ### The program -/

/-- The options of the command line, with what is found at the paths in them. -/
structure XfrCommand where
  help : Bool
  version : Bool
  list : Bool
  test : Bool
  quiet : Bool
  manifestFiles : List (Text × Option FsNode)
  manifestPaths : List (Text × Option FsNode)
  pluginFiles : List (Text × Option FsNode)
  pluginPaths : List (Text × Option FsNode)
  driver : Option Text
  dargs : Option Text
  device : Option Text
  token : Option Text
  tokenPath : Option Text
  noStoreToken : Bool
  headerOnly : Bool
  outputFile : Option Text
  outputFormat : Option Text

/-- A driver that a library gives out: its table, whose loops are granted so many passes each,
and the state of the world that it drives. -/
structure LoadedDriver where
  State : Type
  interface : Nat → DriverInterface State
  start : State

/-- The host, and what the program has been compiled with. -/
structure XfrHost extends PluginHost LoadedDriver where
  conv : Iconv
  /-- `BENTHOS_DC_MANIFESTDIR` -/
  manifestDir : Option FsNode
  /-- `BENTHOS_DC_PLUGINDIR` -/
  pluginDir : Option FsNode
  usage : Text
  versionText : Text
  strerror : Int → Text
  /-- `HOME`, which is set. -/
  home : Text
  files : Files
  /-- The error of `fopen` for writing, if there is one. -/
  fopen : Text → Option Int
  /-- `BENTHOS_DC_VERSION_STRING` -/
  version : Text
  /-- The date and the time when the formatter is made. -/
  date : Text
  stamp : Text
  /-- What the data of the CSV formatter holds when it is allocated. -/
  csvData : CsvFmtData
  /-- What is behind the transferred data in memory, and in `buffer_len` before it is set. -/
  behind : Memory
  bufferLen : Nat

/-- How the program ends. -/
inductive XfrEnd
  /-- `main` returns. -/
  | exits (rv : Int)
  /-- By an exception that nothing catches. -/
  | aborts
  /-- In the driver, which comes to a halt. -/
  | halts (e : Halt)
  deriving DecidableEq

/-- The global registry with its libraries, what has been asked of the linker, the token that
has been stored, and the output, but for what a transfer writes. -/
structure XfrRun where
  registry : GRegistry
  libraries : LibraryTable
  events : List LoadEvent
  token : Option Text
  cout : Text
  cerr : Text

namespace XfrRun

/-- Before the registry is made. -/
def start : XfrRun := ⟨none, ∅, [], none, [], []⟩

/-- A line on `cerr`. -/
def message (s : XfrRun) (t : Text) : XfrRun := { s with cerr := s.cerr ++ t ++ ['\n'] }

/-- `benthos_dc_registry_cleanup` -/
def cleanup (s : XfrRun) : XfrRun :=
  { s with
    registry := benthosDcRegistryCleanup s.registry
    libraries := ∅
    events := s.events ++ cleanupLibraries s.libraries }

/-- What a walk over the drivers leaves. -/
def scanned (s : XfrRun) (d : DriverScan) : XfrRun :=
  { s with
    libraries := d.libraries
    events := s.events ++ d.events
    cout := s.cout ++ d.cout
    cerr := s.cerr ++ d.cerr }

end XfrRun

/-- One of the loops of `register_paths`; it is left at the first error. -/
def addAll (what : Text) (add : GRegistry → Option FsNode → Int × GRegistry) :
    List (Text × Option FsNode) → XfrRun → Int × XfrRun
  | [], s => (0, s)
  | (path, node) :: paths, s =>
    let r := add s.registry node
    let s := { s with registry := r.2 }
    if r.1 ≠ 0 then
      (r.1, s.message ("Failed to add ".toList ++ what ++ " '".toList ++ path ++ "': ".toList ++
        benthosDcRegistryStrerror r.1))
    else addAll what add paths s

/-- The next loop, if there has been no error. -/
def thenAdd (r : Int × XfrRun) (next : XfrRun → Int × XfrRun) : Int × XfrRun :=
  if r.1 ≠ 0 then r else next r.2

section Program

variable (host : XfrHost) (c : XfrCommand)

/-- `register_paths` -/
def registerPaths (s : XfrRun) : Int × XfrRun :=
  let files := addAll "manifest".toList (benthosDcRegistryAddManifest host.conv) c.manifestFiles s
  let paths := thenAdd files
    (addAll "manifest path".toList (benthosDcRegistryAddManifestPath host.conv) c.manifestPaths)
  let plugins := thenAdd paths
    (addAll "plugin".toList benthosDcRegistryAddPlugin c.pluginFiles)
  thenAdd plugins (addAll "plugin path".toList benthosDcRegistryAddPluginPath c.pluginPaths)

/-- What the options mean for a transfer with the driver `di`. -/
def xfrOptions (di : DriverInfo) : TransferOptions where
  device := c.device.getD []
  dargs := c.dargs.getD []
  token := c.token.getD []
  noStoreToken := c.noStoreToken
  tokenFile serial :=
    readWord (host.files (tokenPath ⟨host.home, c.tokenPath.getD []⟩ di.driverName serial))
  behind := host.behind
  bufferLen := host.bufferLen

/-- `csv_init_formatter`; without an output file the path is empty, and not a null pointer. -/
def csvInit : Except Int CsvFmtData :=
  match host.fopen (c.outputFile.getD []) with
  | some errno => .error errno
  | none => .ok { host.csvData with fp := [] }

/-- The transfer with a formatter: how it ends, and the token that it stores.  The token is
stored before the device is closed, so that a halt may follow. -/
def LoadedDriver.transfer {D : Type} (drv : LoadedDriver) (fuel : Nat) (F : Formatter D)
    (init : Except Int D) (o : TransferOptions) : Except Halt Int × Option Text :=
  (((runTransfer (drv.interface fuel) F init o).run (Desk.start drv.start)).map (·.1.ret),
    match (beforeClose (drv.interface fuel) F init o).run (Desk.start drv.start) with
    | .ok (some (_, result), _) => result.token
    | _ => none)

/-- The rest of `run_transfer`, from the interface of the driver on.  A format that is not known
is an error before any formatter is used. -/
def transferWith (fuel : Nat) (di : DriverInfo) (drv : LoadedDriver) :
    Except Halt Int × Option Text :=
  let s : OutputFmtData := ⟨true, !c.headerOnly⟩
  let o := xfrOptions host c di
  let format := c.outputFormat.getD "uddf".toList
  if format = "uddf".toList then
    drv.transfer fuel (uddfFormatter s) (.ok (uddfInit host.version host.date host.stamp)) o
  else if format = "csv".toList then drv.transfer fuel (csvFormatter s) (csvInit host c) o
  else drv.transfer fuel (uddfFormatter s) (.error EINVAL) o

/-- How the program ends with a transfer. -/
def XfrEnd.ofTransfer : Except Halt Int → XfrEnd
  | .error e => .halts e
  | .ok rv => .exits rv

/-- `li->lib_driver_fn(di->driver_name)` for a plugin in the table. -/
def PluginHost.driverOf {δ : Type*} (H : PluginHost δ) (libraries : LibraryTable)
    (di : DriverInfo) : Option δ :=
  libraries[di.plugin.pluginName]?.bind fun le =>
    (H.dlopen le.libPath).bind fun lib => lib.driver di.driverName

/-- The load of the driver in `run_transfer`, and the transfer. -/
def loadAndTransfer (fuel : Nat) (r : PluginRegistry) (name : Text) (di : DriverInfo)
    (s : XfrRun) : XfrEnd × XfrRun :=
  match host.load r s.libraries name with
  | none => (.aborts, s)
  | some (l, libraries) =>
    let s := { s with libraries := libraries, events := s.events ++ l.events }
    if l.ret ≠ 0 then
      (.exits 1, s.message ("Failed to load driver '".toList ++ name ++ "': ".toList ++
        benthosDcRegistryStrerror l.ret))
    else
      let loaded := "Loaded driver '".toList ++ di.driverName ++ "' from plugin '".toList ++
        di.plugin.pluginName ++ "'\n".toList
      let s := if c.quiet then s else { s with cout := s.cout ++ loaded }
      match host.driverOf libraries di with
      | none => (.halts .dangling, s)
      | some drv =>
        let t := transferWith host c fuel di drv
        (.ofTransfer t.1, { s with token := t.2 })

/-- `run_transfer` -/
def xfrTransfer (fuel : Nat) (r : PluginRegistry) (s : XfrRun) : XfrEnd × XfrRun :=
  match c.driver with
  | none => (.exits 1, s.message "No device driver specified".toList)
  | some name =>
    match benthosDcRegistryDriverInfo (some r) name none with
    | (rv, none) =>
        (.exits 1, s.message ("Failed to load driver '".toList ++ name ++ "': ".toList ++
          benthosDcRegistryStrerror rv))
    | (_, some di) =>
        if di.driverIntf ≠ .irda ∧ c.device = none then
          (.exits 1, s.message "No device specified".toList)
        else loadAndTransfer host c fuel r name di s

/-- What `main` makes of a walk over the drivers, with `exit` for the return value. -/
def XfrRun.walked (s : XfrRun) (exit : Int → Int) :
    Except DriverScan (Int × DriverScan) → XfrEnd × XfrRun
  | .error d => (.aborts, s.scanned d)
  | .ok (rv, d) => (.exits (exit rv), s.scanned d)

/-- The part of `main` behind the registration, in the registry `r`. -/
def xfrCommands (fuel : Nat) (r : PluginRegistry) (s : XfrRun) : Option (XfrEnd × XfrRun) :=
  if c.list then
    (listDrivers host.toPluginHost fuel r s.libraries).map (s.walked fun _ => 0)
  else if c.test then
    (testDrivers host.toPluginHost host.strerror fuel r s.libraries).map (s.walked id)
  else some (xfrTransfer host c fuel r s)

/-- The end of `main`: the registry is cleaned up if the program comes to it. -/
def xfrFinish : XfrEnd × XfrRun → XfrEnd × XfrRun
  | (.exits rv, s) => (.exits rv, s.cleanup)
  | x => x

/-- The registry when `register_paths` is done, and its result. -/
def xfrPrepare : Int × XfrRun :=
  registerPaths host c
    { XfrRun.start with
      registry := (benthosDcRegistryInit host.conv host.manifestDir host.pluginDir none).2 }

/-- `main`; `benthos_dc_registry_init` cannot fail. -/
def benthosXfr (fuel : Nat) : Option (XfrEnd × XfrRun) :=
  if c.help then some (.exits 0, { XfrRun.start with cout := host.usage })
  else if c.version then some (.exits 0, { XfrRun.start with cout := host.versionText })
  else
    let (rv, s) := xfrPrepare host c
    if rv ≠ 0 then some (.exits 1, s.cleanup)
    else
      match s.registry with
      | none => none
      | some r => (xfrCommands host c fuel r s).map xfrFinish

end Program

/-! ### Accounts -/

/-- What has been opened has been closed or belongs to a plugin that is loaded, and no plugin
has been unloaded. -/
structure Accounted (libraries : LibraryTable) (events : List LoadEvent) : Prop where
  loaded : Loaded libraries events
  closed : (events.filterMap (·.closed) ++ events.filterMap (·.loaded)).Perm
    (events.filterMap (·.opened))
  idle : events.filterMap (·.unloaded) = []

/-- Everything has been given back: a plugin is loaded at most once, it is unloaded if it has been
loaded, after all loads, and a library is closed as often as it is opened. -/
structure LoadsReleased (events : List LoadEvent) : Prop where
  once : ∀ plugin : Text, (handlesOf plugin (events.filterMap (·.loaded))).length ≤ 1
  unloaded : ∀ plugin : Text, handlesOf plugin (events.filterMap (·.unloaded)) =
    handlesOf plugin (events.filterMap (·.loaded))
  closed : ∀ plugin : Text, (handlesOf plugin (events.filterMap (·.closed))).Perm
    (handlesOf plugin (events.filterMap (·.opened)))
  last : ∃ front back, events = front ++ back ∧ front.filterMap (·.unloaded) = [] ∧
    back.filterMap (·.opened) = [] ∧ back.filterMap (·.loaded) = []

/-- Nothing has been opened. -/
theorem accounted_empty : Accounted ∅ [] := ⟨loaded_empty, .nil, rfl⟩

/-- `load_plugin` unloads nothing. -/
theorem loadPlugin_unloaded (libraries : LibraryTable) (pi : PluginInfo) (a : LoadAnswers) :
    (loadPlugin libraries pi a).events.filterMap (·.unloaded) = [] := by
  unfold loadPlugin
  split
  · rfl
  split
  · rfl
  dsimp only
  split
  · rfl
  split <;> try rfl
  split <;> rfl

/-- A load unloads no plugin. -/
theorem benthosDcRegistryLoad_unloaded (libraries : LibraryTable) (c : LoadCall) :
    (benthosDcRegistryLoad libraries c).1.events.filterMap (·.unloaded) = [] := by
  unfold benthosDcRegistryLoad
  split
  · rfl
  split
  · rfl
  split
  · rfl
  · next di _ =>
    have hload := loadPlugin_unloaded libraries di.plugin c.answers
    dsimp only
    split
    · exact hload
    · rw [List.filterMap_append, hload]
      rfl

/-- **A load keeps the accounts.** -/
theorem Accounted.load {libraries : LibraryTable} {events : List LoadEvent}
    (h : Accounted libraries events) (c : LoadCall) :
    Accounted (benthosDcRegistryLoad libraries c).2
      (events ++ (benthosDcRegistryLoad libraries c).1.events) := by
  obtain ⟨hloaded, hbalanced⟩ := benthosDcRegistryLoad_step h.loaded c
  have hidle := benthosDcRegistryLoad_unloaded libraries c
  generalize benthosDcRegistryLoad libraries c = r at hloaded hbalanced hidle
  refine ⟨hloaded, ?_, by rw [List.filterMap_append, h.idle, hidle]; rfl⟩
  -- the call opens what it closes, or what it loads
  have hcall : r.1.events.filterMap (·.closed) ++ r.1.events.filterMap (·.loaded) =
      r.1.events.filterMap (·.opened) := by
    by_cases hfails : r.1.Fails
    · rw [(hbalanced.failing hfails).1, (hbalanced.failing hfails).2, List.append_nil]
    · rw [(hbalanced.succeeding hfails).1, (hbalanced.succeeding hfails).2, List.nil_append]
  simp only [List.filterMap_append]
  rw [← hcall, List.append_assoc]
  refine List.Perm.trans ?_ (h.closed.append_right _)
  rw [List.append_assoc]
  exact (List.perm_append_comm_assoc ..).append_left _

/-- **The cleanup settles the accounts.** -/
theorem Accounted.cleanup {libraries : LibraryTable} {events : List LoadEvent}
    (h : Accounted libraries events) : LoadsReleased (events ++ cleanupLibraries libraries) := by
  have hunloaded := cleanupLibraries_filterMap (f := (·.unloaded)) (fun _ => rfl) libraries
  have hclosed := cleanupLibraries_filterMap (f := (·.closed)) (fun _ => rfl) libraries
  have hnone : ∀ f : LoadEvent → Option (Text × Handle),
      (∀ fn plugin handle, f (.pluginUnload fn plugin handle) = none) →
      (∀ plugin handle, f (.dlclose plugin handle) = none) →
      (cleanupLibraries libraries).filterMap f = [] := by
    intro f hunload hclose
    unfold cleanupLibraries
    rw [List.filterMap_flatMap, List.flatMap_eq_nil_iff]
    intro lib _
    simp [hunload, hclose]
  have hloaded := hnone (·.loaded) (fun _ _ _ => rfl) (fun _ _ => rfl)
  have hopened := hnone (·.opened) (fun _ _ _ => rfl) (fun _ _ => rfl)
  constructor
  · intro plugin
    rw [List.filterMap_append, hloaded, List.append_nil, h.loaded.handles]
    cases libraries[plugin]? <;> simp
  · intro plugin
    rw [List.filterMap_append, List.filterMap_append, h.idle, hunloaded, hloaded, List.nil_append,
      List.append_nil, handlesOf_toList, h.loaded.handles]
  · intro plugin
    rw [List.filterMap_append, List.filterMap_append, hclosed, hopened, List.append_nil,
      handlesOf_append, handlesOf_toList, ← h.loaded.handles, ← handlesOf_append]
    exact (h.closed.filter _).map _
  · exact ⟨events, cleanupLibraries libraries, rfl, h.idle, hopened, hloaded⟩

/-! ### Runs of the program -/

section Runs

variable {host : XfrHost} {c : XfrCommand}

/-- The registry is one that its calls can reach, and the accounts are in order. -/
structure XfrRun.InOrder (host : XfrHost) (s : XfrRun) : Prop where
  accounted : Accounted s.libraries s.events
  reached : ∃ calls r, runCalls host.conv calls = some r ∧ s.registry = some r

section Calls

variable {conv : Iconv} (r : PluginRegistry) (node : Option FsNode)

/-- The registry is there after the call. -/
theorem addManifest_isSome : (benthosDcRegistryAddManifest conv (some r) node).2.isSome := by
  rcases node with _ | ⟨path, content⟩ | _
  · rfl
  · unfold benthosDcRegistryAddManifest
    dsimp only
    split
    · rfl
    · split <;> rfl
  · rfl

/-- The registry is there after the call. -/
theorem addPlugin_isSome : (benthosDcRegistryAddPlugin (some r) node).2.isSome := by
  rcases node with _ | ⟨path, content⟩ | _
  · rfl
  · unfold benthosDcRegistryAddPlugin
    dsimp only
    split
    · rfl
    · split <;> rfl
  · rfl

/-- The registry is there after the call. -/
theorem addManifestPath_isSome : (benthosDcRegistryAddManifestPath conv (some r) node).2.isSome := by
  rcases node with _ | _ | ⟨path, entries⟩
  · rfl
  · rfl
  · unfold benthosDcRegistryAddManifestPath
    dsimp only
    split <;> rfl

/-- The registry is there after the call. -/
theorem addPluginPath_isSome : (benthosDcRegistryAddPluginPath (some r) node).2.isSome := by
  rcases node with _ | _ | ⟨path, entries⟩
  · rfl
  · rfl
  · unfold benthosDcRegistryAddPluginPath
    dsimp only
    split <;> rfl

/-- The registry is there once it is initialized. -/
theorem init_isSome (manifestDir pluginDir : Option FsNode) :
    (benthosDcRegistryInit conv manifestDir pluginDir none).2.isSome := by
  obtain ⟨r, hr⟩ : ∃ r, (benthosDcRegistryAddManifestPath conv
      (some ⟨[], [], [], [], ∅, []⟩) manifestDir).2 = some r :=
    Option.isSome_iff_exists.mp (addManifestPath_isSome _ manifestDir)
  show (benthosDcRegistryAddPluginPath (benthosDcRegistryAddManifestPath conv _ manifestDir).2
    pluginDir).2.isSome
  rw [hr]
  exact addPluginPath_isSome r pluginDir

/-- A call of the registry that is there leaves it there. -/
theorem RegistryCall.run_isSome {call : RegistryCall} (hcall : call ≠ .cleanup) :
    (call.run conv (some r)).isSome := by
  cases call with
  | init manifestDir pluginDir => rfl
  | addManifest file => exact addManifest_isSome r file
  | addPlugin file => exact addPlugin_isSome r file
  | addManifestPath path => exact addManifestPath_isSome r path
  | addPluginPath path => exact addPluginPath_isSome r path
  | cleanup => exact absurd rfl hcall

end Calls

theorem runCalls_concat {conv : Iconv} (calls : List RegistryCall) (call : RegistryCall) :
    runCalls conv (calls ++ [call]) = call.run conv (runCalls conv calls) :=
  List.foldl_concat ..

/-- The registry behind a call that is made of it. -/
theorem XfrRun.InOrder.call {s : XfrRun} (h : s.InOrder host) {call : RegistryCall}
    (hcall : call ≠ .cleanup) :
    XfrRun.InOrder host { s with registry := call.run host.conv s.registry } := by
  obtain ⟨calls, r, hr, hs⟩ := h.reached
  obtain ⟨r', hr'⟩ := Option.isSome_iff_exists.mp (RegistryCall.run_isSome r hcall)
  refine ⟨h.accounted, calls ++ [call], r', ?_, ?_⟩
  · rw [runCalls_concat, hr, hr']
  · show call.run host.conv s.registry = some r'
    rw [hs, hr']

/-- Nothing but the registry has changed, and it is one that its calls can reach. -/
structure XfrRun.Adds (host : XfrHost) (s s' : XfrRun) : Prop where
  inOrder : s'.InOrder host
  libraries : s'.libraries = s.libraries
  events : s'.events = s.events
  token : s'.token = s.token

/-- The options of one kind are calls of one kind. -/
theorem addAll_adds {what : Text} {add : GRegistry → Option FsNode → Int × GRegistry}
    (call : Option FsNode → RegistryCall) (hcall : ∀ node, call node ≠ .cleanup)
    (hadd : ∀ g node, (add g node).2 = (call node).run host.conv g)
    (paths : List (Text × Option FsNode)) {s : XfrRun} (h : s.InOrder host) :
    s.Adds host (addAll what add paths s).2 := by
  induction paths generalizing s with
  | nil => exact ⟨h, rfl, rfl, rfl⟩
  | cons p paths ih =>
    obtain ⟨path, node⟩ := p
    have hstep := h.call (hcall node)
    rw [← hadd] at hstep
    unfold addAll
    dsimp only
    split
    · exact ⟨⟨hstep.accounted, hstep.reached⟩, rfl, rfl, rfl⟩
    · obtain ⟨horder, hlibraries, hevents, htoken⟩ := ih hstep
      exact ⟨horder, hlibraries, hevents, htoken⟩

/-- One kind of options after the other. -/
theorem thenAdd_adds {s : XfrRun} {r : Int × XfrRun} {next : XfrRun → Int × XfrRun}
    (h : s.Adds host r.2)
    (hnext : ∀ s' : XfrRun, s'.InOrder host → s'.Adds host (next s').2) :
    s.Adds host (thenAdd r next).2 := by
  unfold thenAdd
  split
  · exact h
  · obtain ⟨horder, hlibraries, hevents, htoken⟩ := hnext r.2 h.inOrder
    exact ⟨horder, hlibraries.trans h.libraries, hevents.trans h.events, htoken.trans h.token⟩

/-- **The registration** loads nothing. -/
theorem registerPaths_adds {s : XfrRun} (h : s.InOrder host) :
    s.Adds host (registerPaths host c s).2 := by
  unfold registerPaths
  refine thenAdd_adds (thenAdd_adds (thenAdd_adds ?_ ?_) ?_) ?_
  · exact addAll_adds .addManifest (fun _ => by rintro ⟨⟩) (fun _ _ => rfl) _ h
  · exact fun s hs =>
      addAll_adds .addManifestPath (fun _ => by rintro ⟨⟩) (fun _ _ => rfl) _ hs
  · exact fun s hs =>
      addAll_adds .addPlugin (fun _ => by rintro ⟨⟩) (fun _ _ => rfl) _ hs
  · exact fun s hs =>
      addAll_adds .addPluginPath (fun _ => by rintro ⟨⟩) (fun _ _ => rfl) _ hs

/-- The registry in which the commands run is one that its calls can reach. -/
theorem xfrPrepare_inOrder : XfrRun.InOrder host (xfrPrepare host c).2 ∧
    (xfrPrepare host c).2.libraries = ∅ ∧ (xfrPrepare host c).2.events = [] ∧
    (xfrPrepare host c).2.token = none := by
  obtain ⟨r, hr⟩ : ∃ r,
      (benthosDcRegistryInit host.conv host.manifestDir host.pluginDir none).2 = some r :=
    Option.isSome_iff_exists.mp (init_isSome host.manifestDir host.pluginDir)
  have hinit : XfrRun.InOrder host { XfrRun.start with
      registry := (benthosDcRegistryInit host.conv host.manifestDir host.pluginDir none).2 } :=
    ⟨accounted_empty, [.init host.manifestDir host.pluginDir], r, hr, hr⟩
  obtain ⟨horder, hlibraries, hevents, htoken⟩ := @registerPaths_adds host c _ hinit
  exact ⟨horder, hlibraries, hevents, htoken⟩

/-! ### The commands -/

/-- The driver is asked for by a name that leads to it, and the device that it needs is
given. -/
structure XfrCommand.Asks (c : XfrCommand) (r : PluginRegistry) (di : DriverInfo) : Prop where
  named : ∃ name, c.driver = some name ∧
    benthosDcRegistryDriverInfo (some r) name none = (0, some di)
  device : di.driverIntf = .irda ∨ c.device ≠ none

/-- What the program has come to, and the token that has been stored. -/
def xfrOutcome (x : XfrEnd × XfrRun) : XfrEnd × Option Text := (x.1, x.2.token)

/-- How the program ends in the registry `r` if a transfer is asked for: with the transfer if
the plugin of the driver provides it, with an exception if the search for the library throws,
and with an error if neither is so. -/
structure XfrTransfers (host : XfrHost) (c : XfrCommand) (fuel : Nat) (r : PluginRegistry)
    (x : XfrEnd × Option Text) : Prop where
  transfers : ∀ di drv, c.Asks r di → host.Provides r di drv →
    x = (.ofTransfer (transferWith host c fuel di drv).1, (transferWith host c fuel di drv).2)
  throws : ∀ di, c.Asks r di → host.findPlugin r di.plugin.pluginLibrary = none →
    x = (.aborts, none)
  refused : (∀ di, c.Asks r di → host.findPlugin r di.plugin.pluginLibrary ≠ none ∧
    ∀ drv, ¬host.Provides r di drv) → x = (.exits 1, none)

/-- How the program ends in the registry `r`, and the token that it stores. -/
structure XfrExits (host : XfrHost) (c : XfrCommand) (fuel : Nat) (r : PluginRegistry)
    (x : XfrEnd × Option Text) : Prop where
  list : c.list = true → x = (if host.Passes r r.drivers then .exits 0 else .aborts, none)
  test : c.list = false → c.test = true → x = (if host.Passes r r.drivers then
    .exits (if r.drivers = [] then 2 else if host.AllLoad r r.drivers then 0 else 1)
    else .aborts, none)
  transfer : c.list = false → c.test = false → XfrTransfers host c fuel r x

variable {fuel : Nat} {r : PluginRegistry}

/-- The table of the driver, when its plugin has been loaded. -/
theorem PluginHost.driverOf_load {δ : Type*} {H : PluginHost δ} {name : Text} {di : DriverInfo}
    {drv : δ} {l : LoadReturn} {libraries : LibraryTable}
    (hfound : benthosDcRegistryDriverInfo (some r) name none = (0, some di))
    (hprovides : H.Provides r di drv) (hload : H.load r ∅ name = some (l, libraries)) :
    H.driverOf libraries di = some drv := by
  obtain ⟨path, lib, hlib, hdriver⟩ := hprovides
  have hempty : (∅ : LibraryTable)[di.plugin.pluginName]? = none := by simp
  obtain ⟨le, hok⟩ := (H.loadPlugin_ok_iff di.driverName hempty hlib.found).mpr ⟨lib, hlib⟩
  obtain ⟨hplace, hlibs⟩ := loadPlugin_of_ok hempty hok
  have hcall := (registryLoad_of_found ∅ (H.answers path di.driverName) hfound).2
  rw [H.load_of_found hfound, H.libraryPath_empty, hlib.found, Option.map_some,
    Option.some.injEq] at hload
  rw [hload, hlibs] at hcall
  have hcall : libraries = _ := hcall
  have hself : ciCmp di.plugin.pluginName di.plugin.pluginName = .eq :=
    ciCmp_eq_iff.mpr (strcaseEq_iff.mpr rfl)
  rw [PluginHost.driverOf, hcall, Std.TreeMap.getElem?_insertIfNew, if_pos ⟨hself, by simp⟩,
    Option.bind_some, hplace, H.answers_found, hlib.opens, Option.bind_some, hdriver]

/-- Nothing is asked for that could be loaded. -/
theorem XfrTransfers.of_no_asks {x : XfrEnd × Option Text} (hno : ∀ di, ¬c.Asks r di)
    (hx : x = (.exits 1, none)) : XfrTransfers host c fuel r x where
  transfers di _ h := absurd h (hno di)
  throws di h := absurd h (hno di)
  refused _ := hx

/-- **The load and the transfer**, with nothing loaded before. -/
theorem loadAndTransfer_spec {name : Text} {di : DriverInfo} {s : XfrRun}
    (hlibraries : s.libraries = ∅) (htoken : s.token = none) (hdi : di ∈ r.drivers)
    (hfound : benthosDcRegistryDriverInfo (some r) name none = (0, some di))
    (hasks : ∀ di', c.Asks r di' → di' = di) (hask : c.Asks r di) :
    XfrTransfers host c fuel r (xfrOutcome (loadAndTransfer host c fuel r name di s)) := by
  have hthis : ∀ {P : DriverInfo → Prop}, (∃ di' ∈ r.drivers,
      benthosDcRegistryDriverInfo (some r) name none = (0, some di') ∧ P di') ↔ P di := by
    intro P
    constructor
    · rintro ⟨di', -, hfound', h⟩
      cases hfound.symm.trans hfound'
      exact h
    · exact fun h => ⟨di, hdi, hfound, h⟩
  have hthrows := (host.nameRet_eq_none_iff (r := r) name).trans hthis
  have hloads := (host.nameRet_eq_zero_iff (r := r) name).trans hthis
  rw [PluginHost.nameRet] at hthrows hloads
  unfold loadAndTransfer
  rw [hlibraries]
  cases hload : host.load r ∅ name with
  | none =>
    rw [hload] at hthrows
    have hnone := hthrows.mp rfl
    refine ⟨?_, fun _ _ _ => congrArg (Prod.mk _) htoken, fun hno => ?_⟩
    · rintro di' drv hdi' ⟨path, lib, hlib, -⟩
      obtain rfl := hasks di' hdi'
      cases hnone.symm.trans hlib.found
    · exact absurd hnone (hno di hask).1
  | some l =>
    obtain ⟨l, libraries⟩ := l
    rw [hload] at hthrows hloads
    have hsome : ∀ di', c.Asks r di' → host.findPlugin r di'.plugin.pluginLibrary ≠ none := by
      intro di' hdi' hnone
      obtain rfl := hasks di' hdi'
      cases hthrows.mpr hnone
    by_cases hret : l.ret = 0
    · obtain ⟨drv, hprovides⟩ := hloads.mp (congrArg some hret)
      have hdriver := PluginHost.driverOf_load hfound hprovides hload
      simp only [if_neg (not_not.mpr hret), hdriver]
      refine ⟨?_, fun di' hdi' hnone => absurd hnone (hsome di' hdi'), fun hno => ?_⟩
      · intro di' drv' hdi' hprovides'
        obtain rfl := hasks di' hdi'
        cases hdriver.symm.trans (PluginHost.driverOf_load hfound hprovides' hload)
        rfl
      · exact absurd hprovides ((hno di hask).2 drv)
    · simp only [if_pos hret]
      refine ⟨?_, fun di' hdi' hnone => absurd hnone (hsome di' hdi'),
        fun _ => congrArg (Prod.mk _) htoken⟩
      intro di' drv hdi' hprovides
      obtain rfl := hasks di' hdi'
      exact absurd (Option.some.inj (hloads.mpr ⟨drv, hprovides⟩)) hret

/-- **The transfer**, in a registry in which nothing has been loaded. -/
theorem xfrTransfer_spec {s : XfrRun} (hlibraries : s.libraries = ∅) (htoken : s.token = none) :
    XfrTransfers host c fuel r (xfrOutcome (xfrTransfer host c fuel r s)) := by
  have herror : ∀ text, xfrOutcome (.exits 1, s.message text) = (.exits 1, none) :=
    fun _ => congrArg (Prod.mk _) htoken
  unfold xfrTransfer
  cases hdriver : c.driver with
  | none =>
    refine .of_no_asks ?_ (herror _)
    rintro di ⟨⟨name, hname, -⟩, -⟩
    cases hdriver.symm.trans hname
  | some name =>
    -- the name that is asked for is this one
    have hnamed : ∀ di, c.Asks r di →
        benthosDcRegistryDriverInfo (some r) name none = (0, some di) := by
      rintro di ⟨⟨name', hname, hfound⟩, -⟩
      cases hdriver.symm.trans hname
      exact hfound
    rcases driverInfo_cases r name with ⟨di, hdi, hfound⟩ | ⟨rv, -, hfail⟩
    · have hone : ∀ di', c.Asks r di' → di' = di := by
        intro di' hask
        cases hfound.symm.trans (hnamed di' hask)
        rfl
      simp only [hfound]
      by_cases hdevice : di.driverIntf ≠ .irda ∧ c.device = none
      · rw [if_pos hdevice]
        refine .of_no_asks ?_ (herror _)
        intro di' hask
        obtain rfl := hone di' hask
        rcases hask.device with hirda | hgiven
        · exact hdevice.1 hirda
        · exact hgiven hdevice.2
      · rw [if_neg hdevice]
        refine loadAndTransfer_spec hlibraries htoken hdi hfound hone ⟨⟨name, hdriver, hfound⟩, ?_⟩
        by_cases hirda : di.driverIntf = .irda
        · exact .inl hirda
        · exact .inr fun hnone => hdevice ⟨hirda, hnone⟩
    · simp only [hfail]
      refine .of_no_asks ?_ (herror _)
      intro di hask
      cases hfail.symm.trans (hnamed di hask)

/-! ### The accounts of the commands -/

/-- A load keeps the accounts. -/
theorem PluginHost.load_accounted {δ : Type*} {H : PluginHost δ} {libraries : LibraryTable}
    {events : List LoadEvent} (h : Accounted libraries events) {name : Text}
    {l : LoadReturn × LibraryTable} (hload : H.load r libraries name = some l) :
    Accounted l.2 (events ++ l.1.events) := by
  unfold PluginHost.load at hload
  split at hload
  · cases hload
    exact h.load _
  · obtain ⟨path, -, rfl⟩ := Option.map_eq_some_iff.mp hload
    exact h.load _

/-- The transfer keeps the accounts. -/
theorem xfrTransfer_accounted {s : XfrRun} (h : Accounted s.libraries s.events) :
    Accounted (xfrTransfer host c fuel r s).2.libraries
      (xfrTransfer host c fuel r s).2.events := by
  unfold xfrTransfer
  split
  · exact h
  · split
    · exact h
    · split
      · exact h
      · unfold loadAndTransfer
        split
        · exact h
        · next l libraries hload =>
          have hl : Accounted libraries (s.events ++ l.events) :=
            PluginHost.load_accounted h hload
          dsimp only
          split
          · exact hl
          · split
            · split <;> exact hl
            · split <;> exact hl

section Walks

variable {δ : Type*} {H : PluginHost δ}

/-- The accounts of a walk over the drivers are in order. -/
def DriverScan.InOrder (s : DriverScan) : Prop := Accounted s.libraries s.events

/-- Before the first driver. -/
theorem inOrder_start (cout : Text) : (DriverScan.start ∅ cout).InOrder := accounted_empty

/-- Each load keeps the accounts. -/
theorem DriverScan.load_inOrder {s s' : DriverScan} {d : DriverInfo} {rv : Int} (h : s.InOrder)
    (hload : s.load H r d = some (rv, s')) : s'.InOrder := by
  unfold DriverScan.load at hload
  split at hload
  · cases hload
  · next l libraries hl =>
    cases hload
    exact PluginHost.load_accounted h hl

/-- A driver that is listed. -/
theorem listDriver_inOrder {s : DriverScan} (d : DriverInfo) (h : s.InOrder) :
    Ends DriverScan.InOrder DriverScan.InOrder (listDriver H r s d) := by
  cases hload : s.load H r d with
  | none =>
    simp only [listDriver, hload]
    exact h
  | some l =>
    have hl : l.2.InOrder := DriverScan.load_inOrder h hload
    simp only [listDriver, hload]
    exact hl

/-- A driver that is tested. -/
theorem testDriver_inOrder {s : DriverScan} (strerror : Int → Text) (d : DriverInfo)
    (h : s.InOrder) : Ends DriverScan.InOrder DriverScan.InOrder (testDriver H strerror r s d) := by
  have hs : DriverScan.InOrder { s with count := s.count + 1 } := h
  cases hload : DriverScan.load H { s with count := s.count + 1 } r d with
  | none =>
    simp only [testDriver, hload]
    exact hs
  | some l =>
    have hl : l.2.InOrder := DriverScan.load_inOrder hs hload
    simp only [testDriver, hload]
    by_cases hrv : l.1 ≠ 0
    · rw [if_pos hrv]
      exact hl
    · rw [if_neg hrv]
      exact hl

/-- **A walk over the drivers keeps the accounts**, also if an exception ends it. -/
theorem scanDrivers_inOrder {body : DriverScan → DriverInfo → Except DriverScan DriverScan}
    (hbody : ∀ s d, s.InOrder → Ends DriverScan.InOrder DriverScan.InOrder (body s d))
    {finish : DriverScan → Int × DriverScan} (hfinish : ∀ s, s.InOrder → (finish s).2.InOrder)
    (hfuel : r.drivers.length < fuel) {s : DriverScan} (h : s.InOrder)
    {x : Except DriverScan (Int × DriverScan)}
    (hx : (scanDrivers fuel r body s).map (Except.map finish) = some x) :
    Ends (fun l => l.2.InOrder) DriverScan.InOrder x := by
  have hwalk := foldlM_rule (P := fun _ => DriverScan.InOrder) (Q := fun _ _ => DriverScan.InOrder)
    (fun _ d s => hbody s d) r.drivers h
  rw [scanDrivers_eq hfuel, Option.map_some, Option.some.injEq] at hx
  rw [← hx]
  cases hrun : r.drivers.foldlM body s with
  | error s' =>
    rw [hrun] at hwalk
    obtain ⟨-, -, -, -, hs'⟩ := hwalk
    exact hs'
  | ok s' =>
    rw [hrun] at hwalk
    exact hfinish s' hwalk

/-- Nothing is loaded behind the last driver. -/
theorem listEnd_inOrder (s : DriverScan) (h : s.InOrder) : (listEnd s).2.InOrder := by
  unfold listEnd
  dsimp only
  split
  · exact h
  · exact h

/-- Nothing is loaded behind the last driver. -/
theorem testEnd_inOrder (s : DriverScan) (h : s.InOrder) : (testEnd s).2.InOrder := by
  unfold testEnd
  split
  · exact h
  · split
    · exact h
    · exact h

end Walks

/-- What `main` makes of a walk. -/
theorem XfrRun.walked_accounted {s : XfrRun} (hevents : s.events = []) {exit : Int → Int}
    {x : Except DriverScan (Int × DriverScan)}
    (hx : Ends (fun l => l.2.InOrder) DriverScan.InOrder x) :
    Accounted (s.walked exit x).2.libraries (s.walked exit x).2.events := by
  have hscanned : ∀ d : DriverScan, d.InOrder →
      Accounted (s.scanned d).libraries (s.scanned d).events := by
    intro d hd
    show Accounted d.libraries (s.events ++ d.events)
    rw [hevents]
    exact hd
  cases x with
  | error d => exact hscanned d hx
  | ok l => exact hscanned l.2 hx

/-- A driver at which a walk ends is one that it does not come past. -/
theorem not_passes {δ : Type*} {H : PluginHost δ} {pre post : List DriverInfo} {d : DriverInfo}
    (hsplit : r.drivers = pre ++ d :: post) (hnone : H.loadRet r d = none) :
    ¬H.Passes r r.drivers := by
  intro hpasses
  refine hpasses d ?_ hnone
  rw [hsplit]
  exact List.mem_append_right _ List.mem_cons_self

end Runs

/-! ### The program as a whole -/

/-- How the program ends, and what it leaves behind.  If `main` returns the registry has been
cleaned up, and everything has been given back; if not, the accounts are in order where the
program has been ended. -/
structure XfrEnds (host : XfrHost) (c : XfrCommand) (fuel : Nat) (x : XfrEnd × XfrRun) :
    Prop where
  returns : ∀ rv, x.1 = .exits rv → x.2.registry = none ∧ LoadsReleased x.2.events
  breaks : (∀ rv, x.1 ≠ .exits rv) → Accounted x.2.libraries x.2.events
  info : c.help = true ∨ c.version = true → x.1 = .exits 0 ∧ x.2.events = []
  refused : c.help = false → c.version = false → (xfrPrepare host c).1 ≠ 0 →
    x.1 = .exits 1 ∧ x.2.events = []
  commands : c.help = false → c.version = false → (xfrPrepare host c).1 = 0 →
    ∃ r, (xfrPrepare host c).2.registry = some r ∧ XfrExits host c fuel r (xfrOutcome x)

/-- **The commands** exit as they should, with the accounts in order. -/
theorem xfrCommands_spec {host : XfrHost} {c : XfrCommand} {calls : List RegistryCall}
    {r : PluginRegistry} (hr : runCalls host.conv calls = some r) {fuel : Nat}
    (hfuel : r.drivers.length < fuel) {s : XfrRun} (hlibraries : s.libraries = ∅)
    (hevents : s.events = []) (htoken : s.token = none) :
    ∃ x, xfrCommands host c fuel r s = some x ∧ Accounted x.2.libraries x.2.events ∧
      XfrExits host c fuel r (xfrOutcome x) := by
  have hone := runCalls_onePlugin hr
  have hpair : ∀ e : XfrEnd, (e, s.token) = (e, none) := fun _ => congrArg (Prod.mk _) htoken
  unfold xfrCommands
  rw [hlibraries]
  cases hlist : c.list with
  | true =>
    obtain ⟨x, hrun, hlists⟩ := listDrivers_lists host.toPluginHost hone hfuel
    have hx := scanDrivers_inOrder (fun _ d => listDriver_inOrder d) listEnd_inOrder hfuel
      (inOrder_start listHeader) hrun
    rw [if_pos rfl, hrun]
    refine ⟨_, rfl, XfrRun.walked_accounted hevents hx, fun _ => ?_, ?_, ?_⟩
    · cases hlists with
      | ends hpasses _ _ =>
        rw [if_pos hpasses]
        exact hpair _
      | throws hsplit _ hnone _ =>
        rw [if_neg (not_passes hsplit hnone)]
        exact hpair _
    · intro hno
      cases hlist.symm.trans hno
    · intro hno
      cases hlist.symm.trans hno
  | false =>
  cases htest : c.test with
  | true =>
    obtain ⟨x, hrun, htests⟩ := testDrivers_tests host.toPluginHost hone host.strerror hfuel
    have hx := scanDrivers_inOrder (fun _ d => testDriver_inOrder host.strerror d) testEnd_inOrder
      hfuel (inOrder_start []) hrun
    rw [if_neg Bool.false_ne_true, if_pos rfl, hrun]
    refine ⟨_, rfl, XfrRun.walked_accounted hevents hx, ?_, fun _ _ => ?_, ?_⟩
    · intro hyes
      cases hlist.symm.trans hyes
    · cases htests with
      | ends hpasses hrv _ _ =>
        rw [if_pos hpasses, ← hrv]
        exact hpair _
      | throws hsplit _ hnone _ _ =>
        rw [if_neg (not_passes hsplit hnone)]
        exact hpair _
    · intro _ hno
      cases htest.symm.trans hno
  | false =>
    have hstart : Accounted s.libraries s.events := by
      rw [hlibraries, hevents]
      exact accounted_empty
    rw [if_neg Bool.false_ne_true, if_neg Bool.false_ne_true]
    refine ⟨_, rfl, xfrTransfer_accounted hstart, ?_, ?_,
      fun _ _ => xfrTransfer_spec hlibraries htoken⟩
    · intro hyes
      cases hlist.symm.trans hyes
    · intro _ hyes
      cases htest.symm.trans hyes

/-- The end of `main`. -/
theorem xfrFinish_spec {x : XfrEnd × XfrRun} (h : Accounted x.2.libraries x.2.events) :
    (∀ rv, (xfrFinish x).1 = .exits rv →
        (xfrFinish x).2.registry = none ∧ LoadsReleased (xfrFinish x).2.events) ∧
      ((∀ rv, (xfrFinish x).1 ≠ .exits rv) →
        Accounted (xfrFinish x).2.libraries (xfrFinish x).2.events) ∧
      xfrOutcome (xfrFinish x) = xfrOutcome x := by
  obtain ⟨e, s⟩ := x
  cases e with
  | exits rv => exact ⟨fun _ _ => ⟨rfl, h.cleanup⟩, fun hno => absurd rfl (hno rv), rfl⟩
  | aborts =>
    refine ⟨?_, fun _ => h, rfl⟩
    rintro rv ⟨⟩
  | halts e =>
    refine ⟨?_, fun _ => h, rfl⟩
    rintro rv ⟨⟩

/-- Nothing is loaded, nothing is to be released. -/
theorem loadsReleased_nil : LoadsReleased [] := accounted_empty.cleanup

/-- The local driver, with a device that answers ones. -/
def localDriver : LoadedDriver where
  State := Parsing (SmartProc Unit)
  interface := smartDriverInterface onesHost
  start := localMemory

/-- A host with two plugins. -/
def twoPluginXfrHost : XfrHost where
  toPluginHost := twoPluginHost localDriver
  conv := some
  manifestDir := some twoManifests
  pluginDir := some (.directory "/p".toList [])
  usage := []
  versionText := []
  strerror _ := []
  home := "/home".toList
  files _ := none
  fopen _ := none
  version := []
  date := []
  stamp := []
  csvData := ⟨[], ∅, .cleared, false⟩
  behind _ := 0
  bufferLen := 0

/-- The test of the drivers, or else a transfer with one of them. -/
def twoPluginCommand (test : Bool) : XfrCommand where
  help := false
  version := false
  list := false
  test := test
  quiet := true
  manifestFiles := []
  manifestPaths := []
  pluginFiles := []
  pluginPaths := []
  driver := some "smarti".toList
  dargs := none
  device := some "Smart".toList
  token := none
  tokenPath := none
  noStoreToken := false
  headerOnly := false
  outputFile := none
  outputFormat := none

/-- Two drivers are registered on that host. -/
theorem twoPluginXfrHost_drivers (test : Bool) (r : PluginRegistry)
    (hr : (xfrPrepare twoPluginXfrHost (twoPluginCommand test)).2.registry = some r) :
    r.drivers.length < 3 := by
  obtain ⟨r', hr', hdrivers⟩ : ∃ r',
      (xfrPrepare twoPluginXfrHost (twoPluginCommand test)).2.registry = some r' ∧
        r'.drivers.length = 2 := ⟨_, rfl, rfl⟩
  cases hr.symm.trans hr'
  omega

end BenthosDc

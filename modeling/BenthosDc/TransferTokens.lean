/-
BenthosDc/TransferTokens.lean

The tokens that runs of the application leave for later runs (`main.cpp`).

A run that has parsed its dives writes the token of the last one to the file of its device,
and closes the device only then.  The next run for the device reads the file, and puts the token
to the device with the size command and with the transfer command.  The device is listened to
for these commands, behind the daemon as well.
-/
import BenthosDc.Lib.Journal
import BenthosDc.Lib.Lines
import BenthosDc.SmartPluginOwned
import BenthosDc.SmartiHeard
import BenthosDc.SmartiOwned
import BenthosDc.TransferApp

namespace BenthosDc

open CString Hoare Journal Lifetime Loop

variable {S D σ : Type}

/-! ### Token files

A file has a name made of the driver and the serial number, and holds one number in decimals.
-/

/-- `p /= name`, for a name that does not begin with a slash. -/
def pathAppend (p name : Text) : Text :=
  if p = [] ∨ p.getLast? = some '/' then p ++ name else p ++ '/' :: name

/-- Where tokens are kept: the value of `HOME`, and that of `--token-path`, which is empty if
the option is not given. -/
structure TokenDir where
  home : Text
  path : Text

/-- `token_path` -/
def tokenPath (t : TokenDir) (driver : Text) (serial : Nat) : Text :=
  let filename := driver ++ '-' :: decimal serial
  let tokenpath :=
    if t.path = [] then pathAppend (pathAppend t.home ".benthos-dc".toList) "tokens".toList
    else t.path
  pathAppend tokenpath filename

/-- What is in the files. -/
abbrev Files := Text → Option Text

/-- `f >> token`: a file that cannot be opened has no words. -/
def readWord (file : Option Text) : Text :=
  ((file.getD []).dropWhile isSpace).takeWhile fun c => !isSpace c

/-- `f << token << std::endl` -/
def tokenFile (token : Text) : Text := token ++ ['\n']

/-- Different names, different paths. -/
theorem pathAppend_injective (p : Text) : Function.Injective (pathAppend p) := by
  intro name name' h
  rw [pathAppend, pathAppend] at h
  split at h
  · exact List.append_cancel_left h
  · exact (List.cons.inj (List.append_cancel_left h)).2

/-- **Each device has a file of its own.**  The last dash ends the name of the driver. -/
theorem tokenPath_injective (t : TokenDir) :
    Function.Injective fun key : Text × Nat => tokenPath t key.1 key.2 := by
  intro ⟨driver, serial⟩ ⟨driver', serial'⟩ h
  have hname : driver ++ '-' :: decimal serial = driver' ++ '-' :: decimal serial' :=
    pathAppend_injective _ h
  have hdash : ∀ n, '-' ∉ (decimal n).reverse := by
    intro n hmem
    exact not_mem_decimal (by decide) n (List.mem_reverse.mp hmem)
  have hback : (decimal serial).reverse ++ '-' :: driver.reverse =
      (decimal serial').reverse ++ '-' :: driver'.reverse := by
    have hreverse := congrArg List.reverse hname
    simpa using hreverse
  obtain ⟨hserial, hdriver⟩ := Lines.append_cons_inj (hdash serial) (hdash serial') hback
  rw [List.reverse_injective hdriver, decimal_injective (List.reverse_injective hserial)]

/-- A number is one word. -/
theorem isSpace_of_mem_decimal {n : Nat} {c : Char} (h : c ∈ decimal n) : isSpace c = false := by
  have hdigit := isDigit_of_mem_decimal h
  rw [isSpace, decide_eq_false_iff_not]
  rintro (rfl | rfl | rfl | rfl | rfl | rfl) <;> exact absurd hdigit (by decide)

/-- A number is read from its file as it has been written. -/
theorem readWord_tokenFile (n : Nat) : readWord (some (tokenFile (decimal n))) = decimal n := by
  obtain ⟨c, cs, hcs⟩ := List.exists_cons_of_ne_nil (decimal_ne_nil n)
  have hc : isSpace c = false := isSpace_of_mem_decimal (by rw [hcs]; exact List.mem_cons_self)
  have hskip : (decimal n ++ ['\n']).dropWhile isSpace = decimal n ++ ['\n'] := by
    rw [hcs, List.cons_append, List.dropWhile_cons_of_neg]
    rw [hc]
    decide
  show ((decimal n ++ ['\n']).dropWhile isSpace).takeWhile (fun c => !isSpace c) = decimal n
  rw [hskip, List.takeWhile_append_of_pos]
  · exact List.append_nil _
  · intro d hd
    rw [isSpace_of_mem_decimal hd]
    rfl

/-- The callback passes on what the file of the device holds. -/
theorem transferToken_file {o : TransferOptions} {base : SmartBase} {file : Option Text}
    (ho : o.token = []) (hfile : o.tokenFile base.serial = readWord file) {w : Option Nat}
    (hw : file = w.map fun n => tokenFile (decimal n)) (hlt : ∀ n, w = some n → n < 2 ^ 32) :
    (transferToken (some (deviceCb o)) base).2 = .ok (w.getD 0) := by
  have hcb : deviceCb o base.model base.serial base.ticks =
      (0, if readWord file = [] then none else some (readWord file)) := by
    rw [deviceCb, ho, if_pos rfl, hfile]
  rw [transferToken, hcb]
  cases w with
  | none =>
    rw [show file = none from hw]
    rfl
  | some n =>
    rw [show file = some (tokenFile (decimal n)) from hw, readWord_tokenFile,
      if_neg (decimal_ne_nil n)]
    have hn := hlt n rfl
    have hcstr : cstr (decimal n) = decimal n :=
      cstr_eq fun h => not_mem_decimal (by decide) n h
    have hread : strtoul (cstr (decimal n)) = some (n, []) := by
      have hdec : strtoul (decimal n ++ []) = some (n, []) :=
        strtoul_decimal (show n < 2 ^ 64 by omega) rfl
      rwa [List.append_nil, ← hcstr] at hdec
    dsimp only
    rw [hread]
    exact congrArg Except.ok (u32_of_lt hn)

/-! ### Runs

A run has a driver with its world, the options of the application, and a formatter.
-/

/-- The two drivers for Smart devices. -/
inductive SmartTable (S : Type)
  | smart (H : SmartHost S)
  | smarti (H : SmartiHost S)

namespace SmartTable

/-- What the driver keeps. -/
def Proc : SmartTable S → Type
  | .smart _ => SmartProc S
  | .smarti _ => SmartiProc S

instance : (p : SmartTable S) → HasBase p.Proc
  | .smart _ => inferInstanceAs (HasBase (SmartProc S))
  | .smarti _ => inferInstanceAs (HasBase (SmartiProc S))

/-- The table of the plugin. -/
def interface : (p : SmartTable S) → Nat → DriverInterface (Parsing p.Proc)
  | .smart H, fuel => smartDriverInterface H fuel
  | .smarti H, fuel => smartiDriverInterface H fuel

/-- The network driver. -/
def isSmarti : SmartTable S → Prop
  | .smart _ => False
  | .smarti _ => True

/-- The memory of a driver whose device is listened to. -/
def Listened : SmartTable S → Type
  | .smart _ => SmartProc (Logged S)
  | .smarti _ => SmartiProc (Logged S)

instance : (p : SmartTable S) → HasBase p.Listened
  | .smart _ => inferInstanceAs (HasBase (SmartProc (Logged S)))
  | .smarti _ => inferInstanceAs (HasBase (SmartiProc (Logged S)))

/-- The driver, with a device that falls silent behind `limit` commands. -/
def listening : (p : SmartTable S) → Option Nat → Nat → DriverInterface (Parsing p.Listened)
  | .smart H, limit, fuel => smartDriverInterface (H.listening limit) fuel
  | .smarti G, limit, fuel => smartiDriverInterface (G.listening limit) fuel

/-- The commands that have been put to the device; `none` if the daemon has halted. -/
def heard : (p : SmartTable S) → p.Listened → Option (List (List UInt8))
  | .smart _, s => some s.world.heard
  | .smarti _, s => s.link.server.conn.map fun c => c.world.heard

/-- No command has been put to the device.  The network driver talks to a daemon that has just
accepted its connection. -/
def Starts : (p : SmartTable S) → p.Listened → Prop
  | .smart _, s => s.world.heard = []
  | .smarti _, s => ∃ w schedule junk, s.link = Link.dialed ⟨w, []⟩ schedule junk

/-- With the network driver, the line of TOKEN reaches the daemon as a whole. -/
def SendsToken : (p : SmartTable S) → Nat → p.Listened → Prop
  | .smart _, _, _ => True
  | .smarti _, token, s => TokenSent (UInt32.ofNat token) s.link

end SmartTable

/-- The base of the device structure. -/
def Desk.base [HasBase σ] (d : Desk (Parsing σ)) : SmartBase := HasBase.base d.state.driver

/-- A run of the application for a Smart device, without `--token` and `--no-store-token`.  The
loops of its driver are granted `fuel` passes each. -/
structure SmartRun (S D : Type) where
  table : SmartTable S
  fuel : Nat
  driver : Text
  noSlash : '/' ∉ driver
  device : Text
  dargs : Text
  behind : Memory
  bufferLen : Nat
  formatter : Formatter D
  init : Except Int D
  state : Parsing table.Listened
  starts : table.Starts state.driver

/-- The dives that a transfer hands to the application. -/
def extractDives (drv : DriverInterface σ) (o : TransferOptions) (dev : Nat) :
    Driver σ (List DiveData) := do
  match ← drv.driverTransfer dev (deviceCb o) transferCb o.bufferLen with
  | .error _ => return []
  | .ok (bufferLen, buffer) =>
    if bufferLen > 0 then return (← drv.driverExtract dev (o.bufferPtr buffer) bufferLen).2
    else return []

namespace SmartRun

/-- The driver, with its device listened to. -/
def drv (r : SmartRun S D) : DriverInterface (Parsing r.table.Listened) :=
  r.table.listening none r.fuel

/-- The options that matter for the token. -/
def options (r : SmartRun S D) (t : TokenDir) (files : Files) : TransferOptions where
  device := r.device
  dargs := r.dargs
  token := []
  noStoreToken := false
  tokenFile serial := readWord (files (tokenPath t r.driver serial))
  behind := r.behind
  bufferLen := r.bufferLen

variable (r : SmartRun S D) (t : TokenDir) (files : Files)

/-- The device that the run opens. -/
def opened : Option (Nat × Desk (Parsing r.table.Listened)) :=
  match (openDevice r.drv (r.options t files)).run (Desk.start r.state) with
  | .ok (some dev, d) => some (dev, d)
  | _ => none

/-- The serial number of the device, and the commands that have been put to it by the end of the
transfer, if the device falls silent behind `limit` commands.  A transfer that hangs, or that
aborts the daemon, is thus heard up to each of its commands. -/
def heard (limit : Option Nat) : Option (Nat × List (List UInt8)) :=
  match r.opened t files with
  | none => none
  | some (dev, d) =>
    let o := r.options t files
    let drv := r.table.listening limit r.fuel
    match (drv.driverTransfer dev (deviceCb o) transferCb o.bufferLen).run d with
    | .error _ => none
    | .ok (_, d') => (r.table.heard d'.state.driver).map fun cmds => (d.base.serial, cmds)

/-- The serial number of the device, and the token that is written to its file. -/
def stored : Option (Nat × Text) :=
  match r.opened t files with
  | none => none
  | some (dev, d) =>
    match (transferDives r.drv r.formatter r.init (r.options t files) dev).run d with
    | .error _ => none
    | .ok (res, _) => res.token.map fun token => (d.base.serial, token)

/-- The value that the run returns, if it returns. -/
def returned : Option Int :=
  match (runTransfer r.drv r.formatter r.init (r.options t files)).run (Desk.start r.state) with
  | .error _ => none
  | .ok (res, _) => some res.ret

/-- The dives that the run extracts from the device `dev`. -/
def extracted (dev : Nat) (d : Desk (Parsing r.table.Listened)) : List (List UInt8) :=
  match (extractDives r.drv (r.options t files) dev).run d with
  | .error _ => []
  | .ok (data, _) => data.map (·.1)

end SmartRun

/-! ### Histories

What has been left by the runs so far: the files, and the journal of what has been completed.
-/

/-- What is known of a run that has opened a device. -/
structure Download where
  driver : Text
  serial : Nat
  ret : Option Int
  dives : List (List UInt8)

/-- What a run has downloaded, if it has opened its device. -/
def SmartRun.download (r : SmartRun S D) (t : TokenDir) (files : Files) : Option Download :=
  (r.opened t files).map fun p =>
    ⟨r.driver, p.2.base.serial, r.returned t files, r.extracted t files p.1 p.2⟩

/-- The device of a run that returned 0 and extracted dives, with the word at offset 8 of the
last dive. -/
def Download.completed (c : Download) : Option ((Text × Nat) × Nat) :=
  if c.ret = some 0 then c.dives.getLast?.map fun dive => ((c.driver, c.serial), uint32Le dive 8)
  else none

/-- The token that a run for the device ought to use. -/
def resumeToken (past : List Download) (driver : Text) (serial : Nat) : Nat :=
  (latest (past.filterMap Download.completed) (driver, serial)).getD 0

/-- The files, and the runs so far. -/
structure Past where
  files : Files
  downloads : List Download

/-- There are no files yet. -/
def Past.start : Past := ⟨fun _ => none, []⟩

/-- One more run. -/
def Past.step (t : TokenDir) (p : Past) (r : SmartRun S D) : Past where
  files :=
    match r.stored t p.files with
    | none => p.files
    | some (serial, token) =>
      Function.update p.files (tokenPath t r.driver serial) (some (tokenFile token))
  downloads := p.downloads ++ (r.download t p.files).toList

/-- What a list of runs leaves. -/
def pastOf (t : TokenDir) (runs : List (SmartRun S D)) : Past := runs.foldl (Past.step t) Past.start

/-- Every run of a history downloads what is behind the last dive of the runs before it: the
commands that the device hears in it have no other token. -/
def TokensResume (t : TokenDir) (runs : List (SmartRun S D)) : Prop :=
  ∀ before r after, runs = before ++ r :: after → ∀ limit serial cmds,
    r.heard t (pastOf t before).files limit = some (serial, cmds) →
      ∀ cmd ∈ cmds, Carries (resumeToken (pastOf t before).downloads r.driver serial) cmd

end BenthosDc

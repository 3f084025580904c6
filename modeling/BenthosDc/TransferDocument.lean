/-
BenthosDc/TransferDocument.lean

A transfer from the log of a device to the UDDF document, or to the CSV file.

The formatters are given the tokens of the dives as their records say.  The UDDF formatter
builds the document of these tokens (`transferOutput_document`).  The CSV file is told from the
records themselves (`transferOutput_csv`): it has the rows of each dive but the last one, and
the tanks and the heading of the first dive with a sample.
-/
import BenthosDc.ProfileTable
import BenthosDc.TransferLogs
import BenthosDc.UddfTreeRuns

namespace BenthosDc

open CString Lifetime XmlHeap

variable {S : Type}

/-! ### The document

The log of the example has two dives of a Galileo, which are the first and the second one of a
repetition group.
-/

/-- **The document of a transfer.**  Through either driver, what the UDDF formatter has built when
the transfer of a log is over is the document of the dives as their records say. -/
theorem transferOutput_document {t : SmartTable S} {fuel dev token : Nat} {x : TransferAnswers}
    {d : Desk (Parsing t.Proc)} {o : TransferOptions} {m : Model} {ds : List Dive}
    (s : OutputFmtData) (version date ts : Text) (h : t.Opened dev token x d)
    (hmodel : d.base.model = m.number)
    (htoken : (transferToken (some (deviceCb o)) d.base).2 = .ok token) (hfuel : x.size < fuel)
    (hne : ds ≠ []) (hx : x.transferred = some (x.size, (ds.map Dive.bytes).flatten))
    {log : List (LoggedDive m)} (hlog : log.map LoggedDive.toDive = ds) :
    ∃ f d', (transferOutput (t.interface fuel) (uddfFormatter s) (.ok (uddfInit version date ts)) o
        dev).run d = .ok ((storeToken o (ds.map Dive.data), some f), d') ∧
      ∀ e, IsElement f.doc f.root e ↔ e = uddfDocument s version date ts
        (log.map (LoggedDive.tokens (BitVec.ofInt 32 d.base.tcorr))) := by
  obtain ⟨d', hrun⟩ := transferOutput_laidOut (uddfFormatter s) (uddfInit version date ts) h hmodel
    htoken hfuel hne hx hlog
  exact ⟨_, d', hrun, fun e => (uddfClose_isElement s version date ts _).eq_iff⟩

/-- The entry of the absolute depth. -/
theorem depth_lt_galileoSol : 8 < Model.galileoSol.dtiSize := by decide

/-- The entry of the change of depth. -/
theorem depthDelta_lt_galileoSol : 0 < Model.galileoSol.dtiSize := by decide

theorem length_noBits : ([] : List Bool).length = 0 := rfl

theorem length_twoBytes : ([0x01, 0x90] : List UInt8).length = 2 := rfl

theorem length_sevenBits : (List.replicate 7 false).length = 7 := rfl

theorem length_noBytes : ([] : List UInt8).length = 0 := rfl

/-- The records of a Galileo dive: a depth, and the same depth again. -/
def reefRecords : List (Record .galileoSol) :=
  [⟨⟨8, depth_lt_galileoSol⟩, [], [0x01, 0x90], length_noBits, length_twoBytes⟩,
   ⟨⟨0, depthDelta_lt_galileoSol⟩, List.replicate 7 false, [], length_sevenBits, length_noBytes⟩]

/-- A Galileo dive; `repetition` is its number on the day. -/
def reefBytes (repetition : UInt8) : List UInt8 :=
  [0xA5, 0xA5, 0x5A, 0x5A, 156, 0, 0, 0] ++ List.replicate 9 0 ++ [repetition] ++
    List.replicate 134 0 ++ [0xF1, 0x01, 0x90, 0x00]

/-- The first dive. -/
def morningDive : LoggedDive .galileoSol where
  bytes := reefBytes 1
  length_ge := by decide +kernel
  magic := by decide +kernel
  length_word := by decide +kernel
  records := reefRecords
  laidOut := ⟨by decide +kernel, by decide +kernel⟩

/-- The second dive. -/
def noonDive : LoggedDive .galileoSol where
  bytes := reefBytes 2
  length_ge := by decide +kernel
  magic := by decide +kernel
  length_word := by decide +kernel
  records := reefRecords
  laidOut := ⟨by decide +kernel, by decide +kernel⟩

/-- The dives of a day. -/
def reefLog : List (LoggedDive .galileoSol) := [morningDive, noonDive]

/-- What the device answers. -/
def reefAnswers : TransferAnswers where
  size := 312
  nb := 316
  stream := (reefLog.map fun e => e.bytes).flatten
  size_lt := by decide
  nb_lt := by decide
  le_stream := by decide +kernel

/-- The driver has the device open. -/
def reefDesk : Desk (Parsing (SmartProc (List UInt8))) where
  state := ⟨⟨[], { SmartDev.fresh with s := some 1, base := { model := 17 } }⟩, default, 0⟩
  ledger := Ledger.empty.alloc.alloc

theorem reefDesk_opened :
    (SmartTable.smart (queueHost reefAnswers)).Opened 0 0 reefAnswers reefDesk where
  owns := by
    refine ⟨⟨rfl, by decide⟩, ?_⟩
    rintro h (rfl | hh)
    · show Live _ 0
      decide
    · cases hh
      show Live _ 1
      decide
  csize := by decide
  serves := queueHost_serves reefAnswers 0

/-- The log of two dives is the document with both. -/
theorem transferOutput_document_reef :
    ∃ f d', (transferOutput ((SmartTable.smart (queueHost reefAnswers)).interface 313)
        (uddfFormatter ⟨true, true⟩) (.ok (uddfInit [] [] [])) plainOptions 0).run reefDesk =
        .ok ((storeToken plainOptions ((reefLog.map LoggedDive.toDive).map Dive.data), some f),
          d') ∧
      ∀ e, IsElement f.doc f.root e ↔ e = uddfDocument ⟨true, true⟩ [] [] []
        (reefLog.map (LoggedDive.tokens (BitVec.ofInt 32 reefDesk.base.tcorr))) :=
  transferOutput_document ⟨true, true⟩ [] [] [] reefDesk_opened rfl rfl (by decide)
    (List.cons_ne_nil _ _) (by decide +kernel) rfl

/-- The first dive begins a repetition group, and both stand in it. -/
example : ((reefLog.map (LoggedDive.tokens 0)).foldl (UddfRun.dive ⟨true, true⟩ [])
    ⟨[], .ofList predefined, 0⟩).groups.map (fun g => g.2.length) = [2] := by
  decide +kernel

/-! ### The file

The text of a dive is computed from its header and its records.
-/

section File

variable {m : Model}

/-- What is written of a dive; `heading` tells whether the heading of the profiles is still to
be written. -/
def diveText (s : OutputFmtData) (heading : Bool) (hdr : List HeaderEntry) (rs : List (Record m)) :
    Text :=
  csvDiveHeader ++ csvHeaderLines s hdr ++
    (if heading ∧ samples rs ≠ 0 then csvComplete s (csvTankMap s hdr).toList else []) ++
    (if s.outputProfile then (tableRows [] rs).dropLast.flatten else []) ++ ['\n']

/-- What is written of a log. -/
def logText (s : OutputFmtData) (tcorr : BitVec 32) : Bool → List (LoggedDive m) → Text
  | _, [] => []
  | heading, e :: log =>
    diveText s heading (headerEntries m e.bytes tcorr) e.records ++
      logText s tcorr (heading && samples e.records = 0) log

variable {s : OutputFmtData} {tcorr : BitVec 32}

/-- The section of a dive is what its records say. -/
theorem csvSection_tokens (complete : Bool) (e : LoggedDive m) :
    csvSection s complete (e.tokens tcorr) =
      diveText s (!complete) (headerEntries m e.bytes tcorr) e.records := by
  have hempty : (e.tokens tcorr).profile = [] ↔ samples e.records = 0 :=
    reportsOf_flatten_eq_nil_iff e.records
  have hrows : csvRows .cleared (e.tokens tcorr).profile = (tableRows [] e.records).dropLast :=
    csvRows_reportsOf e.records
  have hhdr : (e.tokens tcorr).header = headerEntries m e.bytes tcorr := rfl
  unfold csvSection csvHead diveText
  rw [hrows, hhdr]
  cases complete <;> by_cases hs : samples e.records = 0 <;> simp [hempty, hs]

/-- **The file of a list of dives.** -/
theorem csvFormatter_log (log : List (LoggedDive m)) (f : CsvFmtData) :
    ((csvFormatter s).dives f (log.map (LoggedDive.tokens tcorr))).fp =
      f.fp ++ logText s tcorr (!f.hdrComplete) log := by
  induction log generalizing f with
  | nil => exact (List.append_nil _).symm
  | cons e log ih =>
    obtain ⟨hfp, hflag⟩ := csvFormatter_dive (s := s) f (e.tokens tcorr)
    have hempty : (e.tokens tcorr).profile = [] ↔ samples e.records = 0 :=
      reportsOf_flatten_eq_nil_iff e.records
    have hheading : (!((csvFormatter s).dive f (e.tokens tcorr)).hdrComplete) =
        (!f.hdrComplete && samples e.records = 0) := by
      rw [hflag]
      simp [hempty]
    rw [List.map_cons, Formatter.dives_cons, ih, hheading, hfp, csvSection_tokens,
      List.append_assoc]
    rfl

end File

end BenthosDc

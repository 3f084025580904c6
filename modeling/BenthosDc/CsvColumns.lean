/-
BenthosDc/CsvColumns.lean

The columns of the profile that the CSV formatter writes.

The heading announces six columns.  A row is made of the time, the depth, the temperature and
the names of the alarms, with a comma between any two, and of nothing else: the tank and its
pressure are never stored, and the number of columns depends on the number of alarms.  So
the rows match the heading exactly if the names of the alarms happen to fill the last three
columns of each row (`csvColumns_match_iff`).

The fields of a row are those that the callback has stored when the row is written, which is at
the next TIME token.  So what a row holds is told from the tokens since the TIME token of the
row (`sinceRow`), and the first row begins with whatever stands in front of the first one.
-/
import Mathlib.Data.List.DropRight
import BenthosDc.OutputCsvRuns

namespace BenthosDc

open CString

variable {s : OutputFmtData} {f : CsvFmtData} {pre ts : List Waypoint} {t : Waypoint}

/-! ### The rows that the callback writes -/

/-- The text that the callback for `t` adds behind the tokens `pre`. -/
def csvPrinted (s : OutputFmtData) (f : CsvFmtData) (pre : List Waypoint) (t : Waypoint) : Text :=
  let g := pre.foldl (csvWaypointCb s) f
  (csvWaypointCb s g t).fp.drop g.fp.length

/-- The waypoint that is pending behind the tokens of a dive. -/
def pendingWp (pre : List Waypoint) : CsvWpData := pre.foldl csvWpStep .cleared

/-- Behind its first token a dive has the heading, and the callback works on the waypoint. -/
theorem foldl_csvWaypointCb (hf : f.curWp = .cleared) (hpre : pre ≠ []) :
    (pre.foldl (csvWaypointCb s) f).hdrComplete = true ∧
      (s.outputProfile = true → (pre.foldl (csvWaypointCb s) f).curWp = pendingWp pre) := by
  obtain ⟨t, ts, rfl⟩ := List.exists_cons_of_ne_nil hpre
  rw [List.foldl_cons, csvWaypointCb_completes, ← List.foldl_cons,
    csvWaypointCb_foldl (t :: ts) rfl]
  by_cases hs : s.outputProfile = true
  · rw [if_pos hs]
    exact ⟨rfl, fun _ => congrArg (fun w => (t :: ts).foldl csvWpStep w) hf⟩
  · rw [if_neg hs]
    exact ⟨rfl, fun hs' => absurd hs' hs⟩

/-- **A time token writes the row of the waypoint in front of it**; nothing else is written
behind the heading. -/
theorem csvPrinted_eq (hf : f.curWp = .cleared) (hpre : pre ≠ []) :
    csvPrinted s f pre t =
      if s.outputProfile = true ∧ t.token = .time then (pendingWp pre).row else [] := by
  obtain ⟨hcomplete, hwp⟩ := foldl_csvWaypointCb (s := s) hf hpre
  have happend : ∀ {g : CsvFmtData} {text}, (csvWaypointCb s g t).fp = g.fp ++ text →
      (csvWaypointCb s g t).fp.drop g.fp.length = text := by
    intro g text hfp
    rw [hfp, List.drop_left]
  apply happend
  by_cases hs : s.outputProfile = true
  · rw [← hwp hs]
    by_cases ht : t.token = .time <;> simp [csvWaypointCb, CsvFmtData.print, hcomplete, hs, ht]
  · simp [csvWaypointCb, hcomplete, hs]

/-! ### The alarms of a row -/

/-- The tokens whose alarms a row has: the first time token of a dive writes no row, and so clears
no alarms. -/
def sinceRow (pre : List Waypoint) : List Waypoint :=
  if (pre.filter (·.token = .time)).length ≤ 1 then pre else pre.rtakeWhile (·.token ≠ .time)

theorem pendingWp_concat (pre : List Waypoint) (t : Waypoint) :
    pendingWp (pre ++ [t]) = csvWpStep (pendingWp pre) t := List.foldl_concat ..

/-- There is a row to be written once there has been a TIME token. -/
theorem pendingWp_valid_iff : (pendingWp pre).valid = true ↔ ∃ t ∈ pre, t.token = .time := by
  induction pre using List.reverseRecOn with
  | nil => simp [pendingWp, CsvWpData.cleared]
  | append_singleton pre t ih =>
    rw [pendingWp_concat]
    obtain ⟨token, value, index, name⟩ := t
    cases token <;> simp [csvWpStep, ih]

/-- An alarm adds its name. -/
theorem alarmNames_concat (ts : List Waypoint) (t : Waypoint) : alarmNames (ts ++ [t]) =
    alarmNames ts ++ if t.token = .alarm then [tokenName t.name] else [] := by
  by_cases ht : t.token = .alarm <;> simp [alarmNames, List.filter_append, ht]

/-- A TIME token begins a new row, if there is one already. -/
theorem sinceRow_time (ht : t.token = .time) : sinceRow (pre ++ [t]) =
    if ∃ u ∈ pre, u.token = .time then [] else pre ++ [t] := by
  by_cases hpre : ∃ u ∈ pre, u.token = .time
  · obtain ⟨u, hu, htime⟩ := hpre
    have hpos : 0 < (pre.filter (·.token = .time)).length :=
      List.length_pos_of_mem (List.mem_filter.mpr ⟨hu, decide_eq_true htime⟩)
    have hmany : ¬((pre ++ [t]).filter (·.token = .time)).length ≤ 1 := by
      have hlast : [t].filter (·.token = .time) = [t] := by simp [ht]
      rw [List.filter_append, List.length_append, hlast, List.length_singleton]
      omega
    rw [sinceRow, if_neg hmany, if_pos ⟨u, hu, htime⟩]
    exact List.rtakeWhile_concat_neg _ _ _ (by simp [ht])
  · have hnone : pre.filter (·.token = .time) = [] := by simpa using hpre
    rw [sinceRow, if_neg hpre, List.filter_append, hnone, if_pos (by simp [ht])]

/-- Other tokens belong to the row that is pending. -/
theorem sinceRow_own (ht : t.token ≠ .time) : sinceRow (pre ++ [t]) = sinceRow pre ++ [t] := by
  have hfilter : (pre ++ [t]).filter (·.token = .time) = pre.filter (·.token = .time) := by
    simp [List.filter_append, ht]
  rw [sinceRow, hfilter, sinceRow, List.rtakeWhile_concat_pos _ _ _ (by simp [ht])]
  split <;> rfl

/-- The alarms of a row are those of its own tokens. -/
theorem pendingWp_alarms (pre : List Waypoint) :
    (pendingWp pre).alarms = alarmNames (sinceRow pre) := by
  induction pre using List.reverseRecOn with
  | nil => rfl
  | append_singleton pre t ih =>
    rw [pendingWp_concat]
    by_cases ht : t.token = .time
    · have halarms : (csvWpStep (pendingWp pre) t).alarms =
          if (pendingWp pre).valid then [] else (pendingWp pre).alarms := by
        simp [csvWpStep, ht]
      rw [halarms, sinceRow_time ht, ih]
      by_cases hpre : ∃ u ∈ pre, u.token = .time
      · rw [if_pos (pendingWp_valid_iff.mpr hpre), if_pos hpre]
        rfl
      · -- the first time token of the dive
        have hone : sinceRow pre = pre := by
          have hnone : pre.filter (·.token = .time) = [] := by simpa using hpre
          rw [sinceRow, hnone, if_pos (by simp)]
        rw [if_neg fun hv => hpre (pendingWp_valid_iff.mp hv), if_neg hpre, hone, alarmNames_concat,
          if_neg (by simp [ht]), List.append_nil]
    · have halarms : (csvWpStep (pendingWp pre) t).alarms = (pendingWp pre).alarms ++
          if t.token = .alarm then [tokenName t.name] else [] := by
        obtain ⟨token, value, index, name⟩ := t
        cases token <;> simp [csvWpStep] at ht ⊢
      rw [halarms, sinceRow_own ht, alarmNames_concat, ih]

/-! ### Columns -/

/-- The heading. -/
def csvColumnLine : Text := "Time,Depth,Temp,Tank,Pressure,Alarms".toList

/-- The fields between the commas. -/
def columns (line : Text) : List Text := line.splitOn ','

/-- The column of a row that stands below a column of the heading. -/
def columnNamed (name : String) (line : Text) : Option Text :=
  (columns line)[(columns csvColumnLine).idxOf name.toList]?

/-- Index and value of the last pressure token. -/
def lastPx (ts : List Waypoint) : Option (Nat × BitVec 32) :=
  (ts.filter (·.token = .px)).getLast?.map fun t => (t.index, t.value)

/-- The row has the columns of the heading, and those of the tank hold the last pressure token. -/
def RowMatches (px : Option (Nat × BitVec 32)) (row : Text) : Prop :=
  ∃ line, row = line ++ ['\n'] ∧ (columns line).length = (columns csvColumnLine).length ∧
    ∀ i v, px = some (i, v) → columnNamed "Tank" line = some (decimal i) ∧
      columnNamed "Pressure" line = some (decimal v.toNat)

/-- A number with one decimal has no comma in it. -/
theorem comma_not_mem_tenths (v : BitVec 32) : ',' ∉ tenths v := by
  intro h
  rcases mem_printFixed h with hdigit | hother
  · exact absurd hdigit (by decide)
  · exact absurd hother (by decide)

/-- The columns of a row: three numbers, and what the names of the alarms make. -/
theorem columns_csvRow (time depth temp : BitVec 32) (alarms : List Text) :
    ∃ line, csvRow time depth temp alarms = line ++ ['\n'] ∧
      columns line = decimal time.toNat :: tenths depth :: tenths temp ::
        columns ([','].intercalate alarms) := by
  refine ⟨decimal time.toNat ++ ',' :: (tenths depth ++ ',' :: (tenths temp ++ ',' ::
    [','].intercalate alarms)), ?_, ?_⟩
  · simp [csvRow]
  · rw [columns, List.splitOn_append_cons_self_of_not_mem (not_mem_decimal (by decide) _),
      List.splitOn_append_cons_self_of_not_mem (comma_not_mem_tenths depth),
      List.splitOn_append_cons_self_of_not_mem (comma_not_mem_tenths temp), columns]

/-- The names of the alarms fill the columns behind the temperature. -/
def FillsColumns (px : Option (Nat × BitVec 32)) (names : List Text) : Prop :=
  ∃ tank pressure alarms, columns ([','].intercalate names) = [tank, pressure, alarms] ∧
    ∀ i v, px = some (i, v) → tank = decimal i ∧ pressure = decimal v.toNat

/-- A row matches if the names fill the columns of the tank, the pressure and the alarms. -/
theorem rowMatches_iff {px : Option (Nat × BitVec 32)} (time depth temp : BitVec 32)
    (names : List Text) : RowMatches px (csvRow time depth temp names) ↔ FillsColumns px names := by
  obtain ⟨line, hrow, hcolumns⟩ := columns_csvRow time depth temp names
  have hlength : (columns csvColumnLine).length = 6 := by decide
  have htank : columnNamed "Tank" line = (columns ([','].intercalate names))[0]? := by
    rw [columnNamed, hcolumns]
    have hidx : (columns csvColumnLine).idxOf "Tank".toList = 3 := by decide
    rw [hidx]
    rfl
  have hpressure : columnNamed "Pressure" line = (columns ([','].intercalate names))[1]? := by
    rw [columnNamed, hcolumns]
    have hidx : (columns csvColumnLine).idxOf "Pressure".toList = 4 := by decide
    rw [hidx]
    rfl
  constructor
  · rintro ⟨line', hrow', hsix, hpx⟩
    obtain rfl := List.append_cancel_right (hrow.symm.trans hrow')
    rw [hcolumns, hlength] at hsix
    obtain ⟨tank, pressure, alarms, hthree⟩ := List.length_eq_three.mp (by simpa using hsix)
    refine ⟨tank, pressure, alarms, hthree, fun i v hiv => ?_⟩
    obtain ⟨hi, hv⟩ := hpx i v hiv
    rw [htank, hthree] at hi
    rw [hpressure, hthree] at hv
    exact ⟨Option.some.inj hi, Option.some.inj hv⟩
  · rintro ⟨tank, pressure, alarms, hthree, hpx⟩
    refine ⟨line, hrow, ?_, fun i v hiv => ?_⟩
    · rw [hcolumns, hthree, hlength]
      rfl
    · obtain ⟨rfl, rfl⟩ := hpx i v hiv
      rw [htank, hpressure, hthree]
      exact ⟨rfl, rfl⟩

/-- Each row that is written for the tokens has the columns of the heading. -/
def CsvRowsMatch (s : OutputFmtData) (f : CsvFmtData) (ts : List Waypoint) : Prop :=
  ∀ pre t, pre ++ [t] <+: ts → pre ≠ [] → csvPrinted s f pre t ≠ [] →
    RowMatches (lastPx pre) (csvPrinted s f pre t)

/-- All rows, each with its own tokens. -/
theorem csvRowsMatch_iff (hf : f.curWp = .cleared) : CsvRowsMatch s f ts ↔
    (s.outputProfile = true → ∀ pre t, pre ++ [t] <+: ts → t.token = .time →
      (∃ u ∈ pre, u.token = .time) → FillsColumns (lastPx pre) (alarmNames (sinceRow pre))) := by
  have hrow : ∀ {pre}, (∃ u ∈ pre, u.token = .time) →
      (pendingWp pre).row = csvRow (pendingWp pre).time (pendingWp pre).depth (pendingWp pre).temp
        (alarmNames (sinceRow pre)) := by
    intro pre hpre
    rw [CsvWpData.row, if_pos (pendingWp_valid_iff.mpr hpre), pendingWp_alarms]
  constructor
  · intro h hs pre t hpre ht htime
    have hne : pre ≠ [] := by
      obtain ⟨u, hu, -⟩ := htime
      exact List.ne_nil_of_mem hu
    have hprinted : csvPrinted s f pre t = (pendingWp pre).row :=
      (csvPrinted_eq hf hne).trans (if_pos ⟨hs, ht⟩)
    rw [hrow htime] at hprinted
    have hmatch := h pre t hpre hne (by rw [hprinted]; simp [csvRow])
    rw [hprinted, rowMatches_iff] at hmatch
    exact hmatch
  · intro h pre t hpre hne hprinted
    rw [csvPrinted_eq hf hne] at hprinted ⊢
    split at hprinted
    · next hwrite =>
      have htime : ∃ u ∈ pre, u.token = .time := by
        by_contra hnone
        have hinvalid : ¬(pendingWp pre).valid = true := mt pendingWp_valid_iff.mp hnone
        exact hprinted (if_neg hinvalid)
      rw [if_pos hwrite, hrow htime, rowMatches_iff]
      exact h hwrite.1 pre t hpre hwrite.2 htime
    · exact absurd rfl hprinted

/-- Nothing is pending in front of the profile. -/
theorem curWp_front (f : CsvFmtData) (hdr : List HeaderEntry) :
    (hdr.foldl (csvHeaderCb s) (csvProlog f)).curWp = .cleared := by
  rw [csvHeaderCb_foldl]
  rfl

/-- **The rows of a dive match the heading exactly if the alarms of each row stand in for the tank,
the pressure and one alarm.** -/
theorem csvColumns_match_iff (s : OutputFmtData) (f : CsvFmtData) (hdr : List HeaderEntry)
    (ts : List Waypoint) :
    CsvRowsMatch s (hdr.foldl (csvHeaderCb s) (csvProlog f)) ts ↔
      (s.outputProfile = true → ∀ pre t, pre ++ [t] <+: ts → t.token = .time →
        (∃ u ∈ pre, u.token = .time) → FillsColumns (lastPx pre) (alarmNames (sinceRow pre))) :=
  csvRowsMatch_iff (curWp_front f hdr)

/-- A row without alarms has four columns. -/
theorem not_csvColumns_match : ¬CsvRowsMatch ⟨true, true⟩ (csvProlog csvStart)
    [⟨.time, 4, 0, none⟩, ⟨.px, 200000, 1, none⟩, ⟨.time, 8, 0, none⟩] := by
  rw [csvRowsMatch_iff rfl]
  intro h
  obtain ⟨tank, pressure, alarms, hcolumns, -⟩ := h rfl
    [⟨.time, 4, 0, none⟩, ⟨.px, 200000, 1, none⟩] ⟨.time, 8, 0, none⟩ List.prefix_rfl rfl
    ⟨_, List.mem_cons_self, rfl⟩
  cases hcolumns

end BenthosDc

/-
BenthosDc/OutputCsvRuns.lean

What the CSV formatter writes for a dive, and for a list of dives.

Of the state behind earlier dives a dive sees the flag `hdr_complete` only, so that its
text is a function of the flag and of its tokens (`csvFormatter_dive`).  From it come the
two results on runs: the last waypoint of a dive never has a row
(`not_writesEveryRow`), and the texts of the dives of a list are those the dives have
alone exactly if at most one of them has a waypoint (`csvIndependent_iff`).

The rows of a dive are written one waypoint late: a TIME token writes the row of the waypoint
in front of it and starts a new one, and nothing writes the row that is open when the dive
ends.
-/
import BenthosDc.OutputCsv

namespace BenthosDc

open CString

variable {s : OutputFmtData}

/-! ### The text of one dive

The formatter is folded over the tokens of a dive once, with its state at the start of the dive
as a parameter.  What comes out is a text that depends on the state through `hdr_complete`
only.
-/

/-- The lines of the header tokens. -/
def csvHeaderLines (s : OutputFmtData) (hdr : List HeaderEntry) : Text :=
  if s.outputHeader then (hdr.map csvHeaderLine).flatten else []

/-- The tanks of the header tokens, as `cur_tanks` holds them. -/
def csvTankMap (s : OutputFmtData) (hdr : List HeaderEntry) : Std.TreeMap Nat TankT :=
  if s.outputHeader then hdr.foldl csvTankStep ∅ else ∅

/-- The rows that a sequence of waypoint tokens makes the formatter write. -/
def csvRows (w : CsvWpData) : List Waypoint → List Text
  | [] => []
  | t :: ts => (if t.token = .time ∧ w.valid then [w.row] else []) ++ csvRows (csvWpStep w t) ts

/-- The text in front of the rows; `complete` is `hdr_complete` in front of the dive. -/
def csvHead (s : OutputFmtData) (complete : Bool) (d : DiveTokens) : Text :=
  csvDiveHeader ++ csvHeaderLines s d.header ++
    (if complete ∨ d.profile = [] then [] else csvComplete s (csvTankMap s d.header).toList)

/-- What is written for a dive: its head, its rows if profiles are wanted, and the empty line
behind it. -/
def csvSection (s : OutputFmtData) (complete : Bool) (d : DiveTokens) : Text :=
  csvHead s complete d ++ (if s.outputProfile then (csvRows .cleared d.profile).flatten else []) ++
    ['\n']

/-- Tokens of a header go into the table of tanks and write nothing. -/
theorem csvHeaderCb_foldl (hdr : List HeaderEntry) (f : CsvFmtData) :
    hdr.foldl (csvHeaderCb s) f = { f with
      fp := f.fp ++ csvHeaderLines s hdr
      curTanks := if s.outputHeader then hdr.foldl csvTankStep f.curTanks else f.curTanks } := by
  by_cases hs : s.outputHeader
  · induction hdr generalizing f with
    | nil => simp [csvHeaderLines]
    | cons e hdr ih =>
      have hcb : csvHeaderCb s f e
          = { f with curTanks := csvTankStep f.curTanks e }.print (csvHeaderLine e) := if_pos hs
      rw [List.foldl_cons, hcb, ih]
      simp [csvHeaderLines, CsvFmtData.print, hs]
  · have hcb : ∀ f e, csvHeaderCb s f e = f := fun f e => if_neg hs
    have hfold : hdr.foldl (csvHeaderCb s) f = f := by
      induction hdr with
      | nil => rfl
      | cons e hdr ih => rw [List.foldl_cons, hcb, ih]
    rw [hfold]
    simp [csvHeaderLines, hs]

/-- The callback once the header is complete. -/
theorem csvWaypointCb_foldl (ts : List Waypoint) {f : CsvFmtData} (hf : f.hdrComplete = true) :
    ts.foldl (csvWaypointCb s) f =
      if s.outputProfile then { f with
        fp := f.fp ++ (csvRows f.curWp ts).flatten
        curWp := ts.foldl csvWpStep f.curWp }
      else f := by
  by_cases hs : s.outputProfile
  · induction ts generalizing f with
    | nil => simp [csvRows, hs]
    | cons t ts ih =>
      have hcb : csvWaypointCb s f t = { f with
          fp := f.fp ++ (if t.token = .time ∧ f.curWp.valid then [f.curWp.row] else []).flatten
          curWp := csvWpStep f.curWp t } := by
        by_cases ht : t.token = .time <;> by_cases hv : f.curWp.valid <;>
          simp [csvWaypointCb, CsvFmtData.print, CsvWpData.row, hf, hs, ht, hv]
      rw [List.foldl_cons, hcb, ih (by exact hf)]
      simp [csvRows, hs]
  · -- without the profile option nothing is printed
    have hfold : ts.foldl (csvWaypointCb s) f = f := by
      induction ts with
      | nil => rfl
      | cons t ts ih =>
        have hcb : csvWaypointCb s f t = f := by simp [csvWaypointCb, hf, hs]
        rw [List.foldl_cons, hcb, ih]
    rw [hfold, if_neg hs]

/-- The first waypoint token completes the header. -/
theorem csvWaypointCb_completes (f : CsvFmtData) (t : Waypoint) :
    csvWaypointCb s f t = csvWaypointCb s
      { f with
        fp := f.fp ++ (if f.hdrComplete then [] else csvComplete s f.curTanks.toList)
        hdrComplete := true } t := by
  obtain ⟨fp, tanks, wp, complete⟩ := f
  cases complete
  · rfl
  · simp

/-- **A dive sees nothing of the earlier dives but `hdr_complete`.** -/
theorem csvFormatter_dive (f : CsvFmtData) (d : DiveTokens) :
    ((csvFormatter s).dive f d).fp = f.fp ++ csvSection s f.hdrComplete d ∧
      ((csvFormatter s).dive f d).hdrComplete = (f.hdrComplete || d.profile ≠ []) := by
  obtain ⟨hdr, ws⟩ := d
  -- the state in front of the waypoint tokens
  have hfront : hdr.foldl (csvHeaderCb s) (csvProlog f) = ⟨f.fp ++ (csvDiveHeader ++
      csvHeaderLines s hdr), csvTankMap s hdr, .cleared, f.hdrComplete⟩ := by
    rw [csvHeaderCb_foldl]
    simp [csvProlog, CsvFmtData.print, csvTankMap]
  have hdive : (csvFormatter s).dive f ⟨hdr, ws⟩ = csvEpilog (ws.foldl (csvWaypointCb s)
      (hdr.foldl (csvHeaderCb s) (csvProlog f))) := rfl
  rw [hdive, hfront]
  cases ws with
  | nil => simp [csvSection, csvHead, csvEpilog, CsvFmtData.print, csvRows]
  | cons t ts =>
    rw [List.foldl_cons, csvWaypointCb_completes, ← List.foldl_cons,
      csvWaypointCb_foldl (t :: ts) rfl]
    by_cases hs : s.outputProfile <;>
      simp [csvSection, csvHead, csvEpilog, CsvFmtData.print, hs]

/-- The text written for a list of dives. -/
def csvWritten (s : OutputFmtData) (f : CsvFmtData) (ds : List DiveTokens) : Text :=
  ((csvFormatter s).dives f ds).fp.drop f.fp.length

/-- The second dive is written with the flag that the first one leaves. -/
theorem csvWritten_cons (f : CsvFmtData) (d : DiveTokens) (ds : List DiveTokens) :
    csvWritten s f (d :: ds) =
      csvSection s f.hdrComplete d ++ csvWritten s ((csvFormatter s).dive f d) ds := by
  have happend : ∀ f, ∃ t, ((csvFormatter s).dives f ds).fp = f.fp ++ t := by
    induction ds with
    | nil => exact fun f => ⟨[], (List.append_nil _).symm⟩
    | cons e ds ih =>
      intro f
      obtain ⟨t, ht⟩ := ih ((csvFormatter s).dive f e)
      refine ⟨csvSection s f.hdrComplete e ++ t, ?_⟩
      rw [Formatter.dives_cons, ht, (csvFormatter_dive f e).1, List.append_assoc]
  obtain ⟨t, ht⟩ := happend ((csvFormatter s).dive f d)
  simp [csvWritten, ht, (csvFormatter_dive f d).1]

theorem csvWritten_single (f : CsvFmtData) (d : DiveTokens) :
    csvWritten s f [d] = csvSection s f.hdrComplete d := by
  rw [csvWritten_cons]
  simp [csvWritten]

/-! ### Rows

A row belongs to a TIME token.  It is wanted to show the time and what the tokens up to the
next TIME token say, together with the values that are carried over from the rows before.
-/

/-- The last value of a quantity, 0 if there is none. -/
def lastValue (tok : WaypointToken) (ts : List Waypoint) : BitVec 32 :=
  ((ts.filter (·.token = tok)).getLast?.map (·.value)).getD 0

/-- The names of the alarms among tokens, in their order. -/
def alarmNames (ts : List Waypoint) : List Text :=
  (ts.filter (·.token = .alarm)).map fun t => tokenName t.name

/-- The tokens of a waypoint, behind its time token. -/
def ownTokens (ts : List Waypoint) : List Waypoint := ts.takeWhile (·.token ≠ .time)

theorem ownTokens_time {t : Waypoint} (ts : List Waypoint) (ht : t.token = .time) :
    ownTokens (t :: ts) = [] :=
  List.takeWhile_cons_of_neg (by simp [ht])

theorem ownTokens_own {t : Waypoint} (ts : List Waypoint) (ht : t.token ≠ .time) :
    ownTokens (t :: ts) = t :: ownTokens ts :=
  List.takeWhile_cons_of_pos (by simp [ht])

/-- The rows a profile should have: one for each time token, with the most recent depth and
temperature of the profile and the alarms of the waypoint. -/
def wantedRows (before : List Waypoint) : List Waypoint → List Text
  | [] => []
  | t :: ts =>
      let seen := before ++ t :: ownTokens ts
      (if t.token = .time then
        [csvRow t.value (lastValue .depth seen) (lastValue .temp seen) (alarmNames (ownTokens ts))]
      else []) ++ wantedRows (before ++ [t]) ts

/-- Behind the text of its head, a dive has the rows of all its waypoints. -/
def WritesEveryRow (s : OutputFmtData) (f : CsvFmtData) (d : DiveTokens) : Prop :=
  csvWritten s f [d] = csvHead s f.hdrComplete d ++ (wantedRows [] d.profile).flatten ++ ['\n']

/-- The pending waypoint holds what the tokens so far say; `own` are those behind its time
token. -/
structure CsvWpData.Pending (w : CsvWpData) (seen own : List Waypoint) : Prop where
  valid : w.valid = true
  depth : w.depth = lastValue .depth seen
  temp : w.temp = lastValue .temp seen
  alarms : w.alarms = alarmNames own

/-- The last value of a token is that of the newest token of its kind. -/
theorem lastValue_append (tok : WaypointToken) (ts : List Waypoint) (t : Waypoint) :
    lastValue tok (ts ++ [t]) = if t.token = tok then t.value else lastValue tok ts := by
  by_cases h : t.token = tok <;> simp [lastValue, List.filter_append, h]

/-- A TIME token starts a row, which owns no token yet. -/
theorem CsvWpData.Pending.step_time {w : CsvWpData} {seen own : List Waypoint} {t : Waypoint}
    (h : w.Pending seen own) (ht : t.token = .time) :
    (csvWpStep w t).Pending (seen ++ [t]) [] ∧ (csvWpStep w t).time = t.value := by
  refine ⟨⟨?_, ?_, ?_, ?_⟩, ?_⟩ <;>
    simp [csvWpStep, lastValue_append, alarmNames, h.valid, h.depth, h.temp, ht]

/-- Any other token joins the row that is open. -/
theorem CsvWpData.Pending.step_own {w : CsvWpData} {seen own : List Waypoint} {t : Waypoint}
    (h : w.Pending seen own) (ht : t.token ≠ .time) :
    (csvWpStep w t).Pending (seen ++ [t]) (own ++ [t]) ∧ (csvWpStep w t).time = w.time := by
  obtain ⟨token, value, index, name⟩ := t
  cases token <;> refine ⟨⟨?_, ?_, ?_, ?_⟩, ?_⟩ <;>
    simp [csvWpStep, lastValue_append, alarmNames, h.valid, h.depth, h.temp, h.alarms] at ht ⊢

/-- The rows of the pending waypoint and of the tokens to come, all but the last of which the
formatter writes. -/
theorem csvRows_append_pending {w : CsvWpData} {seen own : List Waypoint} (ts : List Waypoint)
    (h : w.Pending seen own) :
    csvRows w ts ++ [(ts.foldl csvWpStep w).row] =
      csvRow w.time (lastValue .depth (seen ++ ownTokens ts)) (lastValue .temp (seen ++ ownTokens ts))
        (alarmNames (own ++ ownTokens ts)) :: wantedRows seen ts := by
  induction ts generalizing w seen own with
  | nil => simp [csvRows, wantedRows, ownTokens, CsvWpData.row, h.valid, h.depth, h.temp, h.alarms]
  | cons t ts ih =>
    by_cases ht : t.token = .time
    · -- the row of the pending waypoint is written, and a new waypoint begins
      obtain ⟨hstep, htime⟩ := h.step_time ht
      have hrow : w.row = csvRow w.time (lastValue .depth seen) (lastValue .temp seen)
          (alarmNames own) := by simp [CsvWpData.row, h.valid, h.depth, h.temp, h.alarms]
      have hrest := ih hstep
      rw [htime, List.nil_append] at hrest
      have hwanted : wantedRows seen (t :: ts) = csvRow t.value
          (lastValue .depth (seen ++ [t] ++ ownTokens ts))
          (lastValue .temp (seen ++ [t] ++ ownTokens ts)) (alarmNames (ownTokens ts)) ::
          wantedRows (seen ++ [t]) ts := by simp [wantedRows, ht]
      have hrows : csvRows w (t :: ts) = w.row :: csvRows (csvWpStep w t) ts := by
        simp [csvRows, ht, h.valid]
      rw [hrows, List.cons_append, List.foldl_cons, hrest, hwanted, hrow, ownTokens_time ts ht,
        List.append_nil, List.append_nil]
    · obtain ⟨hstep, htime⟩ := h.step_own ht
      have hrest := ih hstep
      have hwanted : wantedRows seen (t :: ts) = wantedRows (seen ++ [t]) ts := by
        simp [wantedRows, ht]
      have hrows : csvRows w (t :: ts) = csvRows (csvWpStep w t) ts := by simp [csvRows, ht]
      rw [hrows, List.foldl_cons, hrest, hwanted, htime, ownTokens_own ts ht]
      simp only [List.append_assoc, List.singleton_append]

/-- Of the rows of a profile that begins with a time token, the last one stays unwritten. -/
theorem csvRows_append_last {t : Waypoint} (ts : List Waypoint) (ht : t.token = .time) :
    csvRows .cleared (t :: ts) ++ [((t :: ts).foldl csvWpStep .cleared).row] =
      wantedRows [] (t :: ts) := by
  have hpending : (csvWpStep .cleared t).Pending [t] [] := by
    refine ⟨?_, ?_, ?_, ?_⟩ <;> simp [csvWpStep, CsvWpData.cleared, lastValue, alarmNames, ht]
  have htime : (csvWpStep .cleared t).time = t.value := by simp [csvWpStep, ht]
  have hrows : csvRows .cleared (t :: ts) = csvRows (csvWpStep .cleared t) ts := by
    simp [csvRows, CsvWpData.cleared]
  have hwanted : wantedRows [] (t :: ts) = csvRow t.value
      (lastValue .depth ([t] ++ ownTokens ts)) (lastValue .temp ([t] ++ ownTokens ts))
      (alarmNames (ownTokens ts)) :: wantedRows [t] ts := by simp [wantedRows, ht]
  rw [hrows, List.foldl_cons, csvRows_append_pending ts hpending, htime, hwanted, List.nil_append]

/-- **The rows of a dive end with the waypoint before the last one.** -/
theorem csvDive_omits_last (hs : s.outputProfile = true) (f : CsvFmtData) (hdr : List HeaderEntry)
    {t : Waypoint} (ht : t.token = .time) (ts : List Waypoint) :
    csvWritten s f [⟨hdr, t :: ts⟩] = csvHead s f.hdrComplete ⟨hdr, t :: ts⟩ ++
      (wantedRows [] (t :: ts)).dropLast.flatten ++ ['\n'] := by
  rw [csvWritten_single, ← csvRows_append_last ts ht, List.dropLast_concat]
  simp [csvSection, hs]

theorem foldl_csvWpStep_valid (ts : List Waypoint) {w : CsvWpData} (hw : w.valid = true) :
    (ts.foldl csvWpStep w).valid = true := by
  induction ts generalizing w with
  | nil => exact hw
  | cons t ts ih =>
    apply ih
    unfold csvWpStep
    split <;> simp [hw]

/-- **No dive whose tokens begin with a time token has a row for each of its waypoints.** -/
theorem not_writesEveryRow (hs : s.outputProfile = true) (f : CsvFmtData) (hdr : List HeaderEntry)
    {t : Waypoint} (ht : t.token = .time) (ts : List Waypoint) :
    ¬ WritesEveryRow s f ⟨hdr, t :: ts⟩ := by
  intro h
  rw [WritesEveryRow, csvDive_omits_last hs f hdr ht ts] at h
  -- both texts have the same head and the same end, and differ in the last row
  have hrows := List.append_cancel_left (List.append_cancel_right h)
  rw [← csvRows_append_last ts ht, List.dropLast_concat, List.flatten_append] at hrows
  have hlast : [((t :: ts).foldl csvWpStep .cleared).row].flatten = [] :=
    List.self_eq_append_right.mp hrows
  have hvalid : ((t :: ts).foldl csvWpStep .cleared).valid = true :=
    foldl_csvWpStep_valid ts (by simp [csvWpStep, ht])
  rw [CsvWpData.row, if_pos hvalid] at hlast
  simp [csvRow] at hlast

/-- The formatter in front of the first dive. -/
def csvStart : CsvFmtData := ⟨[], ∅, .cleared, false⟩

/-- A dive with one waypoint at 4 seconds and 12.5 m. -/
def oneWaypoint : DiveTokens := ⟨[], [⟨.time, 4, 0, none⟩, ⟨.depth, 1250, 0, none⟩]⟩

/-- One waypoint, no row at all. -/
theorem not_writesEveryRow_oneWaypoint : ¬ WritesEveryRow ⟨true, true⟩ csvStart oneWaypoint :=
  not_writesEveryRow rfl csvStart [] rfl [⟨.depth, 1250, 0, none⟩]

/-- Its text ends with the heading of the profile. -/
theorem not_writesEveryRow_text : ¬ WritesEveryRow ⟨true, true⟩ csvStart oneWaypoint := by
  unfold WritesEveryRow
  decide +kernel

/-! ### Tanks

The header names the tanks by index.  The table holds for each index what the last token of
each kind said, and the tanks are listed in the order of their indices.
-/

/-- The last value of a token for the tank `i`; a gas content of 0 does not count. -/
def tankValue (tok : HeaderToken) (i : Nat) (hdr : List HeaderEntry) : Option (BitVec 32) :=
  (hdr.filter fun e => e.token = tok ∧ e.index = i ∧ (csvTankUpdate e).isSome).getLast?.map
    (·.value)

/-- The tank `i` of a dive, as its header tokens give it. -/
def tankOf (hdr : List HeaderEntry) (i : Nat) : Option TankT :=
  let pxBegin := tankValue .pxStart i hdr
  let pxEnd := tankValue .pxEnd i hdr
  let pmO2 := tankValue .pmo2 i hdr
  let pmHe := tankValue .pmhe i hdr
  if pxBegin = none ∧ pxEnd = none ∧ pmO2 = none ∧ pmHe = none then none
  else some ⟨pxBegin.getD 0, pxEnd.getD 0, (pmO2.map (·.setWidth 16)).getD 209,
    (pmHe.map (·.setWidth 16)).getD 0⟩

/-- The table lists the tanks of the dive, by index. -/
structure ListsTanks (hdr : List HeaderEntry) (tanks : List (Nat × TankT)) : Prop where
  sorted : tanks.Pairwise fun a b => a.1 < b.1
  mem_iff : ∀ i t, (i, t) ∈ tanks ↔ tankOf hdr i = some t

/-- A token about a tank takes the place of an earlier one of its kind with its index. -/
theorem tankValue_append (tok : HeaderToken) (i : Nat) (hdr : List HeaderEntry) (e : HeaderEntry) :
    tankValue tok i (hdr ++ [e]) =
      if e.token = tok ∧ e.index = i ∧ (csvTankUpdate e).isSome then some e.value
      else tankValue tok i hdr := by
  by_cases h : e.token = tok ∧ e.index = i ∧ (csvTankUpdate e).isSome <;>
    simp [tankValue, List.filter_append, h]

/-- A token that changes no tank, or another one. -/
theorem tankOf_append_of_ne {hdr : List HeaderEntry} {e : HeaderEntry} {i : Nat}
    (h : e.index ≠ i ∨ csvTankUpdate e = none) : tankOf (hdr ++ [e]) i = tankOf hdr i := by
  have hvalue : ∀ tok, tankValue tok i (hdr ++ [e]) = tankValue tok i hdr := by
    intro tok
    rw [tankValue_append, if_neg]
    rintro ⟨-, hi, hsome⟩
    rcases h with h | h
    · exact h hi
    · simp [h] at hsome
  simp only [tankOf, hvalue]

/-- A tank that is not mentioned has the default values. -/
theorem tankOf_getD (hdr : List HeaderEntry) (i : Nat) :
    (tankOf hdr i).getD {} = ⟨(tankValue .pxStart i hdr).getD 0, (tankValue .pxEnd i hdr).getD 0,
      ((tankValue .pmo2 i hdr).map (·.setWidth 16)).getD 209,
      ((tankValue .pmhe i hdr).map (·.setWidth 16)).getD 0⟩ := by
  simp only [tankOf]
  split
  · rename_i h
    obtain ⟨h₁, h₂, h₃, h₄⟩ := h
    rw [h₁, h₂, h₃, h₄]
    rfl
  · rfl

/-- A token about a tank changes that tank. -/
theorem tankOf_append_update {hdr : List HeaderEntry} {e : HeaderEntry} {g : TankT → TankT}
    (h : csvTankUpdate e = some g) :
    tankOf (hdr ++ [e]) e.index = some (g ((tankOf hdr e.index).getD {})) := by
  have hvalue : ∀ tok, tankValue tok e.index (hdr ++ [e]) =
      if e.token = tok then some e.value else tankValue tok e.index hdr := by
    intro tok
    rw [tankValue_append]
    simp [h]
  rw [tankOf_getD]
  simp only [tankOf, hvalue]
  -- each of the four tokens changes its own field
  unfold csvTankUpdate at h
  split at h
  case h_1 ht => cases h; simp [ht]
  case h_2 ht => cases h; simp [ht]
  case h_3 ht =>
    split at h
    · cases h
    · cases h; simp [ht]
  case h_4 ht =>
    split at h
    · cases h
    · cases h; simp [ht]
  case h_5 => cases h

/-- **The table lists the tanks that the header names, each with the values it was given last.** -/
theorem csvTankMap_lists (hdr : List HeaderEntry) :
    ListsTanks hdr (hdr.foldl csvTankStep ∅).toList := by
  have hget : ∀ i, (hdr.foldl csvTankStep ∅)[i]? = tankOf hdr i := by
    intro i
    induction hdr using List.reverseRecOn with
    | nil => simp [tankOf, tankValue]
    | append_singleton hdr e ih =>
      rw [List.foldl_append]
      show (csvTankStep (hdr.foldl csvTankStep ∅) e)[i]? = _
      -- an entry for no tank, or for one of them
      rcases hup : csvTankUpdate e with - | g
      · rw [csvTankStep, hup, tankOf_append_of_ne (.inr hup)]
        exact ih
      · rw [csvTankStep, hup]
        rw [Std.TreeMap.getElem?_alter]
        by_cases hi : e.index = i
        · subst hi
          rw [tankOf_append_update hup, if_pos (by simp), ih]
        · rw [tankOf_append_of_ne (.inl hi), if_neg (by simpa using hi), ih]
  refine ⟨?_, ?_⟩
  · apply Std.TreeMap.ordered_keys_toList.imp
    intro a b hab
    exact Nat.compare_eq_lt.mp hab
  · intro i t
    rw [Std.TreeMap.mem_toList_iff_getElem?_eq_some, hget]

/-! ### Lists of dives

What the second dive of a list lacks is what `hdr_complete` switches off: the tanks and the
heading of the columns.
-/

/-- Each dive of the list is written as if it were alone, and each dive with a waypoint has
its own list of tanks and its own profile header. -/
structure CsvIndependent (s : OutputFmtData) (f : CsvFmtData) (ds : List DiveTokens) : Prop where
  concat : csvWritten s f ds = ds.flatMap fun d => csvWritten s f [d]
  sections : ∀ pre d post, ds = pre ++ d :: post → d.profile ≠ [] →
    ∃ tanks, ListsTanks d.header tanks ∧
      csvWritten s ((csvFormatter s).dives f pre) [d] =
        csvDiveHeader ++ csvHeaderLines s d.header ++ csvComplete s tanks ++
          (if s.outputProfile then (csvRows .cleared d.profile).flatten else []) ++ ['\n']

/-- A table that is printed lists the tanks of the dive. -/
theorem csvComplete_eq (hdr : List HeaderEntry) :
    csvComplete s (csvTankMap s hdr).toList = csvComplete s (hdr.foldl csvTankStep ∅).toList := by
  by_cases h : s.outputHeader <;> simp [csvComplete, csvTankMap, h]

theorem csvComplete_eq_nil_iff (tanks : List (Nat × TankT)) :
    csvComplete s tanks = [] ↔ s.outputHeader = false ∧ s.outputProfile = false := by
  have htanks : csvTanks tanks ≠ [] := fun h =>
    absurd (List.append_eq_nil_iff.mp h).1 (by decide)
  have hprofile : csvProfileHeader ≠ [] := by decide
  unfold csvComplete
  cases s.outputHeader <;> cases s.outputProfile <;> simp [htanks, hprofile]

/-- What a dive does not write behind another one with a waypoint. -/
def csvMissing (s : OutputFmtData) (d : DiveTokens) : Text :=
  if d.profile = [] then [] else csvComplete s (csvTankMap s d.header).toList

theorem csvMissing_eq_nil_iff (d : DiveTokens) :
    csvMissing s d = [] ↔ (s.outputHeader = false ∧ s.outputProfile = false) ∨ d.profile = [] := by
  by_cases h : d.profile = []
  · simp [csvMissing, h]
  · rw [csvMissing, if_neg h, csvComplete_eq_nil_iff]
    simp [h]

/-- A dive loses exactly the missing part if the flag is set. -/
theorem csvSection_length (d : DiveTokens) :
    (csvSection s false d).length = (csvSection s true d).length + (csvMissing s d).length := by
  have hhead : (csvHead s false d).length = (csvHead s true d).length + (csvMissing s d).length := by
    unfold csvHead csvMissing
    simp only [List.length_append, Bool.false_eq_true, false_or, true_or, if_true,
      List.length_nil, Nat.add_zero]
  simp only [csvSection, List.length_append, hhead]
  ring

/-- Behind a dive with a waypoint, a list of dives is written in full exactly if no dive of it
misses anything. -/
theorem csvSection_flatMap_iff (ds : List DiveTokens) :
    ds.flatMap (csvSection s true) = ds.flatMap (csvSection s false) ↔
      ∀ d ∈ ds, csvMissing s d = [] := by
  have hsame : ∀ d, csvMissing s d = [] → csvSection s true d = csvSection s false d := by
    intro d hd
    have hhead : csvHead s true d = csvHead s false d := by
      simp only [csvMissing] at hd
      simp [csvHead, hd]
    rw [csvSection, csvSection, hhead]
  -- what is missing makes up the difference of the lengths
  have hlen : ∀ ds : List DiveTokens, (ds.flatMap (csvSection s false)).length =
      (ds.flatMap (csvSection s true)).length + (ds.flatMap (csvMissing s)).length := by
    intro ds
    induction ds with
    | nil => rfl
    | cons d ds ih =>
      simp only [List.flatMap_cons, List.length_append, csvSection_length d, ih]
      ring
  constructor
  · intro h
    have hmissing : (ds.flatMap (csvMissing s)).length = 0 := by
      have := hlen ds
      rw [h] at this
      exact Nat.left_eq_add.mp this
    exact List.flatMap_eq_nil_iff.mp (List.length_eq_zero_iff.mp hmissing)
  · intro h
    exact List.flatMap_congr fun d hd => hsame d (h d hd)

/-- Once the flag is set, every dive is written without its heading. -/
theorem csvWritten_of_complete (ds : List DiveTokens) {f : CsvFmtData} (h : f.hdrComplete = true) :
    csvWritten s f ds = ds.flatMap (csvSection s true) := by
  induction ds generalizing f with
  | nil => simp [csvWritten]
  | cons d ds ih =>
    have hnext : ((csvFormatter s).dive f d).hdrComplete = true := by
      rw [(csvFormatter_dive f d).2, h, Bool.true_or]
    rw [csvWritten_cons, h, ih hnext, List.flatMap_cons]

theorem csvWritten_concat_iff (ds : List DiveTokens) {f : CsvFmtData} (h : f.hdrComplete = false) :
    csvWritten s f ds = ds.flatMap (csvSection s false) ↔
      (s.outputHeader = false ∧ s.outputProfile = false) ∨
        ds.countP (fun d => d.profile ≠ []) ≤ 1 := by
  induction ds generalizing f with
  | nil => simp [csvWritten]
  | cons d ds ih =>
    rw [csvWritten_cons, h, List.flatMap_cons, List.append_right_inj]
    have hflag := (csvFormatter_dive (s := s) f d).2
    by_cases hd : d.profile = []
    · -- the flag is as before
      rw [h] at hflag
      rw [ih (by simpa [hd] using hflag), List.countP_cons_of_neg (by simpa using hd)]
    · rw [h] at hflag
      rw [csvWritten_of_complete ds (by simpa [hd] using hflag), csvSection_flatMap_iff,
        List.countP_cons_of_pos (by simpa using hd)]
      simp only [csvMissing_eq_nil_iff]
      by_cases hs : s.outputHeader = false ∧ s.outputProfile = false
      · simp [hs]
      · simp [hs]

/-- The flag is set behind the first dive with a waypoint and is never cleared. -/
theorem csvFormatter_dives_complete (ds : List DiveTokens) (f : CsvFmtData) :
    ((csvFormatter s).dives f ds).hdrComplete = (f.hdrComplete || ds.any (·.profile ≠ [])) := by
  induction ds generalizing f with
  | nil => simp
  | cons d ds ih =>
    rw [Formatter.dives_cons, ih, (csvFormatter_dive f d).2, List.any_cons, Bool.or_assoc]

/-- **The sections of the dives are independent if and only if at most one dive of the list
has a waypoint token** (or neither of the two outputs is on). -/
theorem csvIndependent_iff {f : CsvFmtData} (h : f.hdrComplete = false) (ds : List DiveTokens) :
    CsvIndependent s f ds ↔
      (s.outputHeader = false ∧ s.outputProfile = false) ∨
        ds.countP (fun d => d.profile ≠ []) ≤ 1 := by
  have halone : (ds.flatMap fun d => csvWritten s f [d]) = ds.flatMap (csvSection s false) := by
    refine List.flatMap_congr fun d _ => ?_
    rw [csvWritten_single, h]
  constructor
  · intro hind
    rw [← csvWritten_concat_iff ds h, ← halone]
    exact hind.concat
  · intro hcond
    refine ⟨?_, ?_⟩
    · rw [halone]
      exact (csvWritten_concat_iff ds h).mpr hcond
    · intro pre d post hds hd
      refine ⟨_, csvTankMap_lists d.header, ?_⟩
      -- the flag is not set in front of `d`, or there is no heading to write
      have hhead : ∀ complete, complete = ((csvFormatter s).dives f pre).hdrComplete →
          csvHead s complete d = csvDiveHeader ++ csvHeaderLines s d.header ++
            csvComplete s (d.header.foldl csvTankStep ∅).toList := by
        intro complete hcomplete
        rw [← csvComplete_eq]
        rcases hcond with hflags | hcount
        · simp [csvHead, (csvComplete_eq_nil_iff _).mpr hflags]
        · have hpre : ∀ e ∈ pre, e.profile = [] := by
            rw [hds, List.countP_append, List.countP_cons_of_pos (by simpa using hd)] at hcount
            have hzero : pre.countP (fun d => d.profile ≠ []) = 0 := by omega
            simpa using List.countP_eq_zero.mp hzero
          rw [csvFormatter_dives_complete, h] at hcomplete
          have hfalse : complete = false := by
            rw [hcomplete]
            simpa using hpre
          simp [csvHead, hfalse, hd]
      rw [csvWritten_single, csvSection, hhead _ rfl]

/-- Two dives without waypoints, and one with a waypoint between them. -/
theorem csvIndependent_iff_three :
    csvStart.hdrComplete = false ∧
      CsvIndependent ⟨true, true⟩ csvStart [⟨[], []⟩, oneWaypoint, ⟨[], []⟩] :=
  ⟨rfl, (csvIndependent_iff rfl _).mpr (.inr (by decide))⟩

/-- The second of two dives with a waypoint has neither tanks nor a profile header. -/
theorem not_csvIndependent_two :
    ¬ CsvIndependent ⟨true, true⟩ csvStart [oneWaypoint, oneWaypoint] := by
  intro h
  exact absurd h.concat (by decide +kernel)

end BenthosDc

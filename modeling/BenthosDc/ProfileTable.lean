/-
BenthosDc/ProfileTable.lean

The rows of a dive.

What the CSV file should say of a dive can be told from its records alone, without the parser
and the formatter: a row for each sample that a record completes, every four seconds, with what
the readings of depth and temperature add up to and with the alarms that have been sent since
the sample before (`tableRows`).  The parser hands these values to the formatter token by token,
in a state of its accumulators for each sample (`AtSample`), and the formatter remembers those of
the earlier samples; both come to the same rows (`wantedRows_reportsOf`), of which the last one is
not written (`csvRows_reportsOf`).
-/
import BenthosDc.TransferOutput
import BenthosDc.OutputCsvRuns

namespace BenthosDc

open CString Readings

/-! ### The table

The rows are computed from the records by definitions of their own.  Nothing of the parser's
state or of the formatter's stands in them.
-/

section Table

variable {m : Model}

/-- The depth below the first absolute one. -/
def depthAfter (rs : List (Record m)) : BitVec 32 :=
  match current (readings .depth rs), firstAbsolute (readings .depth rs) with
  | some v, some v₀ => 2 * v - 2 * v₀
  | _, _ => 0

/-- The temperature behind some records. -/
def tempAfter (rs : List (Record m)) : BitVec 32 :=
  ((current (readings .temperature rs)).map (40 * ·)).getD 0

/-- The words of alarms as they have been sent. -/
def alarmWords (rs : List (Record m)) (i : Fin 3) : BitVec 16 :=
  ((lastAlarms i rs).map (·.call.value.setWidth 16)).getD 0

/-- The name of bit `j` of word `i`. -/
def alarmBitName (m : Model) (i : Fin 3) (j : Nat) : Text :=
  match alarmName m i ((1#16 <<< j).setWidth 8) with
  | none => tokenName (some s!"alarm{i.val}-{j}")
  | some aname => tokenName (some aname)

/-- The names of the bits that are set. -/
def alarmBitNames (m : Model) (words : Fin 3 → BitVec 16) : List Text :=
  (List.finRange 3).flatMap fun i => (List.range 9).flatMap fun j =>
    if words i &&& 1#16 <<< j = 1#16 <<< j then [alarmBitName m i j] else []

/-- The alarms of a sample; `fresh` are the records since the sample before. -/
def alarmsAfter (rs fresh : List (Record m)) : List Text :=
  if fresh.any (·.dti.type = .alarms) then alarmBitNames m (alarmWords rs) else []

/-- The row of sample `n`. -/
def tableRow (n : Nat) (rs fresh : List (Record m)) : Text :=
  csvRow (BitVec.ofNat 32 (4 * n)) (depthAfter rs) (tempAfter rs) (alarmsAfter rs fresh)

/-- The number of samples that the records complete. -/
def samples (rs : List (Record m)) : Nat := (rs.map Record.completes).sum

/-- The rows of the samples that the record `r` completes behind the records `pre`. -/
def rowsOf (pre : List (Record m)) (r : Record m) : List Text :=
  (List.range r.completes).map fun k =>
    tableRow (samples pre + k) (pre ++ [r]) (freshRecords pre r k)

/-- **The rows of the records** behind the records `pre`. -/
def tableRows (pre : List (Record m)) : List (Record m) → List Text
  | [] => []
  | r :: rs => rowsOf pre r ++ tableRows (pre ++ [r]) rs

/-- A record at the end adds the samples that it completes. -/
theorem samples_concat (rs : List (Record m)) (r : Record m) :
    samples (rs ++ [r]) = samples rs + r.completes := by
  simp [samples]

/-- There is one row for each sample. -/
theorem length_tableRows (pre rs : List (Record m)) : (tableRows pre rs).length = samples rs := by
  induction rs generalizing pre with
  | nil => rfl
  | cons r rs ih => simp [tableRows, rowsOf, samples, ih]

end Table

/-! ### The tokens of a sample

A sample is sent as a TIME token and the tokens of the values that the parser has.  A value it
does not have keeps its last token, of an earlier sample.
-/

section Sample

variable {before : List Waypoint} {q : SmartParser}

/-- The value behind further tokens. -/
theorem lastValue_append_list (tok : WaypointToken) (ws : List Waypoint) :
    lastValue tok (before ++ ws) =
      (((tokensOf tok ws).getLast?).map (·.value)).getD (lastValue tok before) := by
  unfold lastValue tokensOf
  rw [List.filter_append, List.getLast?_append]
  cases (ws.filter (·.token = tok)).getLast? <;> rfl

/-- The depth that is valid behind a sample. -/
theorem lastValue_depth (before : List Waypoint) (q : SmartParser) :
    lastValue .depth (before ++ waypointTokens q) =
      if q.haveDepth then q.depth - q.dcal else lastValue .depth before := by
  rw [lastValue_append_list, (tokensOf_waypointTokens q).1]
  cases q.haveDepth <;> rfl

/-- The temperature that is valid behind a sample. -/
theorem lastValue_temp (before : List Waypoint) (q : SmartParser) :
    lastValue .temp (before ++ waypointTokens q) =
      if q.haveTemp then q.temp else lastValue .temp before := by
  rw [lastValue_append_list, (tokensOf_waypointTokens q).2.1]
  cases q.haveTemp <;> rfl

/-- The tokens of a sample behind the time. -/
def sampleTokens (q : SmartParser) : List Waypoint := (waypointTokens q).tail

/-- The TIME token comes first. -/
theorem waypointTokens_eq (q : SmartParser) :
    waypointTokens q = ⟨.time, q.time, 0, none⟩ :: sampleTokens q := rfl

/-- There is one TIME token only. -/
theorem sampleTokens_ne_time : ∀ x ∈ sampleTokens q, x.token ≠ .time := by
  intro x hx
  simp only [sampleTokens, waypointTokens, List.cons_append, List.nil_append, List.tail_cons,
    List.mem_append] at hx
  rcases hx with (((((hx | hx) | hx) | hx) | hx) | hx) | hx
  case inr =>
    split at hx
    · rw [alarmTokens_token hx]
      decide
    · cases hx
  all_goals
    split at hx
    · rw [List.mem_singleton.mp hx]
      rintro ⟨⟩
    · cases hx

/-- The tokens of alarms give their names. -/
theorem alarmNames_alarmTokens (q : SmartParser) :
    alarmNames (alarmTokens q) = alarmBitNames q.model q.alarms := by
  have hall : (alarmTokens q).filter (·.token = .alarm) = alarmTokens q := by
    rw [List.filter_eq_self]
    intro x hx
    simpa using alarmTokens_token hx
  unfold alarmNames
  rw [hall, alarmTokens, alarmBitNames, List.map_flatMap]
  congr 1
  funext i
  rw [List.map_flatMap]
  congr 1
  funext j
  unfold alarmToken alarmBitName
  dsimp only
  split
  · split <;> simp only [List.map_cons, List.map_nil, *]
  · rfl

/-- The alarms of a sample. -/
theorem alarmNames_sampleTokens (q : SmartParser) :
    alarmNames (sampleTokens q) =
      if q.haveAlarms then alarmBitNames q.model q.alarms else [] := by
  rw [← alarmNames_alarmTokens]
  unfold sampleTokens waypointTokens
  cases q.haveDepth <;> cases q.haveTemp <;> cases q.havePressure <;> cases q.haveRbt <;>
    cases q.haveHeartrate <;> cases q.haveBearing <;> cases q.haveAlarms <;>
    simp [alarmNames]

/-- Tokens without a time have no row of their own. -/
theorem wantedRows_own (own : List Waypoint) (hown : ∀ x ∈ own, x.token ≠ .time)
    (rest : List Waypoint) : wantedRows before (own ++ rest) = wantedRows (before ++ own) rest := by
  induction own generalizing before with
  | nil => rw [List.nil_append, List.append_nil]
  | cons t own ih =>
    have ht := hown t List.mem_cons_self
    have hrest : wantedRows (before ++ [t]) (own ++ rest) =
        wantedRows (before ++ [t] ++ own) rest :=
      ih fun x hx => hown x (List.mem_cons_of_mem t hx)
    rw [List.append_assoc, List.singleton_append] at hrest
    rw [List.cons_append, wantedRows, if_neg ht, List.nil_append, hrest]

/-- **The row of a sample.** -/
theorem wantedRows_sample {rest : List Waypoint} (hrest : ownTokens rest = []) :
    wantedRows before (waypointTokens q ++ rest) =
      csvRow q.time (lastValue .depth (before ++ waypointTokens q))
          (lastValue .temp (before ++ waypointTokens q)) (alarmNames (sampleTokens q)) ::
        wantedRows (before ++ waypointTokens q) rest := by
  have hown : ownTokens (sampleTokens q ++ rest) = sampleTokens q := by
    unfold ownTokens
    rw [List.takeWhile_append_of_pos fun x hx => by simpa using sampleTokens_ne_time x hx]
    exact (congrArg _ hrest).trans (List.append_nil _)
  rw [waypointTokens_eq, List.cons_append, wantedRows, if_pos rfl, hown,
    wantedRows_own _ sampleTokens_ne_time, List.append_assoc]
  rfl

end Sample

/-! ### The parser at a sample

What the state of the parser is in a sample, in terms of the records read.  The alarms are
those of the records since the sample before.
-/

section Run

variable {m : Model}

/-- The parser in front of sample `n`, behind the records `rs`, of which `fresh` have come since
the sample before. -/
structure AtSample (rs fresh : List (Record m)) (n : Nat) (q : SmartParser) : Prop where
  follows : Follows rs q
  pending : Pending fresh q
  model : q.model = m
  time : q.time = BitVec.ofNat 32 (4 * n)

/-- Behind a sample the alarms are gone and the time is four seconds later. -/
theorem AtSample.waypointNext {rs fresh : List (Record m)} {n : Nat} {q : SmartParser}
    (h : AtSample rs fresh n q) : AtSample rs [] (n + 1) (waypointNext q) where
  follows := h.follows.waypointNext
  pending := Pending.waypointNext q
  model := h.model
  time := by
    show q.time + 4 = _
    rw [h.time, Nat.mul_succ, BitVec.ofNat_add]
    rfl

/-- A call leaves the time alone. -/
theorem smartParseDti_time (p : SmartParser) (c : DtiCall) : (smartParseDti p c).time = p.time := by
  unfold smartParseDti
  cases c.dti.type <;> cases c.dti.abs <;> rfl

/-- A record joins those that have been read. -/
theorem AtSample.smartParseDti {pre fresh : List (Record m)} {n : Nat} {p : SmartParser}
    (h : AtSample pre fresh n p) (r : Record m) :
    AtSample (pre ++ [r]) (fresh ++ [r]) n (smartParseDti p r.call) where
  follows := h.follows.smartParseDti r
  pending := h.pending.smartParseDti r
  model := (smartParseDti_model p r.call).trans h.model
  time := (smartParseDti_time p r.call).trans h.time

/-- The parser behind the samples of a record. -/
theorem AtSample.iterate {rs fresh : List (Record m)} {n : Nat} {q : SmartParser}
    (h : AtSample rs fresh n q) (k : Nat) :
    AtSample rs (if k = 0 then fresh else []) (n + k) (BenthosDc.waypointNext^[k] q) := by
  cases k with
  | zero => exact h
  | succ k =>
    rw [if_neg k.succ_ne_zero, Function.iterate_succ_apply']
    exact (AtSample.iterate h k).waypointNext

/-- The values that the formatter remembers are those of the records: before the first absolute
value there has been no token. -/
structure Remembers (rs : List (Record m)) (before : List Waypoint) : Prop where
  depth : lastAbsolute (readings .depth rs) = none → lastValue .depth before = 0
  temp : lastAbsolute (readings .temperature rs) = none → lastValue .temp before = 0

/-- No absolute reading of all means none of the first ones. -/
theorem lastAbsolute_of_concat (q : Quantity) {rs : List (Record m)} {r : Record m}
    (h : lastAbsolute (readings q (rs ++ [r])) = none) : lastAbsolute (readings q rs) = none := by
  rw [readings_concat] at h
  rcases hr : r.reading q with _ | v | d
  · rw [hr] at h
    simpa using h
  · rw [hr] at h
    simp at h
  · rw [hr] at h
    simpa using h

/-- A record changes nothing in what the formatter remembers. -/
theorem Remembers.concat {rs : List (Record m)} {before : List Waypoint} (h : Remembers rs before)
    (r : Record m) : Remembers (rs ++ [r]) before where
  depth hnone := h.depth (lastAbsolute_of_concat .depth hnone)
  temp hnone := h.temp (lastAbsolute_of_concat .temperature hnone)

section Values

variable {rs fresh : List (Record m)} {n : Nat} {q : SmartParser} {before : List Waypoint}

/-- The depth of the row is that of the records. -/
theorem AtSample.depth (h : AtSample rs fresh n q) (hb : Remembers rs before) :
    lastValue .depth (before ++ waypointTokens q) = depthAfter rs := by
  have hseen : q.haveDepth = (lastAbsolute (readings .depth rs)).isSome :=
    (h.follows.tracks .depth).seen_eq
  have hvalue : (current (readings .depth rs)).map (2 * ·) =
      if q.haveDepth then some q.depth else none := h.follows.map_current .depth
  have hfirst := firstAbsolute_isSome (readings .depth rs)
  rw [lastValue_depth, depthAfter, h.follows.dcal]
  cases hc : current (readings .depth rs) with
  | none =>
    have hnone : lastAbsolute (readings .depth rs) = none := by
      rw [← Option.not_isSome_iff_eq_none, ← current_isSome, hc]
      exact Bool.false_ne_true
    rw [hseen, hnone]
    exact hb.depth hnone
  | some v =>
    rw [hc] at hfirst hvalue
    obtain ⟨v₀, hv₀⟩ := Option.isSome_iff_exists.mp hfirst
    cases hq : q.haveDepth with
    | false =>
      rw [hq] at hvalue
      cases hvalue
    | true =>
      rw [hq] at hvalue
      have hdepth : 2 * v = q.depth := Option.some.inj hvalue
      rw [hv₀, if_pos rfl, ← hdepth]
      rfl

/-- The temperature of the row is that of the records. -/
theorem AtSample.temp (h : AtSample rs fresh n q) (hb : Remembers rs before) :
    lastValue .temp (before ++ waypointTokens q) = tempAfter rs := by
  have hseen : q.haveTemp = (lastAbsolute (readings .temperature rs)).isSome :=
    (h.follows.tracks .temperature).seen_eq
  have hvalue : (current (readings .temperature rs)).map (40 * ·) =
      if q.haveTemp then some q.temp else none := h.follows.map_current .temperature
  rw [lastValue_temp, tempAfter, hvalue]
  cases hq : q.haveTemp with
  | false =>
    rw [hq] at hseen
    exact hb.temp (Option.not_isSome_iff_eq_none.mp (by simp [← hseen]))
  | true => rfl

/-- The alarms of the row are those of the records since the last sample. -/
theorem AtSample.alarms (h : AtSample rs fresh n q) :
    alarmNames (sampleTokens q) = alarmsAfter rs fresh := by
  have hwords : q.alarms = alarmWords rs := funext h.follows.alarms
  rw [alarmNames_sampleTokens, h.pending.haveAlarms, h.model, hwords]
  rfl

/-- The formatter remembers what the sample has sent. -/
theorem AtSample.remembers (h : AtSample rs fresh n q) (hb : Remembers rs before) :
    Remembers rs (before ++ waypointTokens q) where
  depth hnone := by
    have hseen : q.haveDepth = (lastAbsolute (readings .depth rs)).isSome :=
      (h.follows.tracks .depth).seen_eq
    rw [lastValue_depth, hseen, hnone]
    exact hb.depth hnone
  temp hnone := by
    have hseen : q.haveTemp = (lastAbsolute (readings .temperature rs)).isSome :=
      (h.follows.tracks .temperature).seen_eq
    rw [lastValue_temp, hseen, hnone]
    exact hb.temp hnone

/-- **The row of a sample is that of the table.** -/
theorem AtSample.row (h : AtSample rs fresh n q) (hb : Remembers rs before) {rest : List Waypoint}
    (hrest : ownTokens rest = []) :
    wantedRows before (waypointTokens q ++ rest) =
      tableRow n rs fresh :: wantedRows (before ++ waypointTokens q) rest := by
  rw [wantedRows_sample hrest, h.depth hb, h.temp hb, h.alarms, h.time]
  rfl

/-- The rows of `k` samples behind the same record. -/
theorem AtSample.rows (h : AtSample rs fresh n q) (hb : Remembers rs before) {rest : List Waypoint}
    (hrest : ownTokens rest = []) (k : Nat) :
    ∃ before', Remembers rs before' ∧
      wantedRows before
          (((List.range k).map fun j => waypointTokens (BenthosDc.waypointNext^[j] q)).flatten ++
            rest) =
        ((List.range k).map fun j => tableRow (n + j) rs (if j = 0 then fresh else [])) ++
          wantedRows before' rest := by
  induction k generalizing fresh n q before with
  | zero => exact ⟨before, hb, rfl⟩
  | succ k ih =>
    obtain ⟨before', hb', hrows⟩ := ih h.waypointNext (h.remembers hb)
    refine ⟨before', hb', ?_⟩
    -- the first of the samples, and the others behind it
    rw [List.range_succ_eq_map, List.map_cons, List.flatten_cons, List.append_assoc, List.map_map,
      List.map_cons, List.map_map]
    have hown : ownTokens ((((List.range k).map
        ((fun j => waypointTokens (BenthosDc.waypointNext^[j] q)) ∘ Nat.succ)).flatten) ++ rest)
          = [] := by
      cases k with
      | zero => exact hrest
      | succ k => rw [List.range_succ_eq_map]; rfl
    apply (h.row hb hown).trans
    refine congrArg _ (Eq.trans hrows ?_)
    congr 1
    refine List.map_congr_left fun j _ => ?_
    simp only [Function.comp_apply, ite_self, if_neg j.succ_ne_zero]
    rw [Nat.add_assoc, Nat.add_comm 1 j]

end Values

/-! ### The rows of a profile

The samples are put one behind the other, and the tokens of a dive are those of its samples.
-/

/-- Every waypoint is sent out of a state of the parser. -/
theorem mem_reportsOf {p : SmartParser} {rs : List (Record m)} {w : List Waypoint}
    (h : w ∈ reportsOf p rs) : ∃ q, w = waypointTokens q := by
  induction rs generalizing p with
  | nil => cases h
  | cons r rs ih =>
    rw [reportsOf, List.mem_append] at h
    rcases h with h | h
    · rw [processCall, sampleLoop_eq] at h
      obtain ⟨k, -, rfl⟩ := List.mem_map.mp h
      exact ⟨_, rfl⟩
    · exact ih h

/-- A profile begins with a time token, if it is not empty. -/
theorem reportsOf_flatten_cases (p : SmartParser) (rs : List (Record m)) :
    (reportsOf p rs).flatten = [] ∨
      ∃ q ts, (reportsOf p rs).flatten = ⟨.time, q, 0, none⟩ :: ts := by
  cases h : reportsOf p rs with
  | nil => exact .inl rfl
  | cons w ws =>
    obtain ⟨q, rfl⟩ := mem_reportsOf (h ▸ List.mem_cons_self : w ∈ reportsOf p rs)
    exact .inr ⟨q.time, sampleTokens q ++ ws.flatten, rfl⟩

/-- A profile starts with a TIME token, or is empty. -/
theorem ownTokens_reportsOf (p : SmartParser) (rs : List (Record m)) :
    ownTokens (reportsOf p rs).flatten = [] := by
  rcases reportsOf_flatten_cases p rs with h | ⟨v, ts, h⟩
  · rw [h]
    rfl
  · rw [h]
    exact ownTokens_time ts rfl

/-- **The rows that the tokens of a profile ask for are those of the table.** -/
theorem wantedRows_reportsOf (rs : List (Record m)) {pre : List (Record m)} {p : SmartParser}
    (h : AtSample pre (recordsSince pre) (samples pre) p) (hcomplete : p.complete = 0)
    {before : List Waypoint} (hb : Remembers pre before) :
    wantedRows before (reportsOf p rs).flatten = tableRows pre rs := by
  induction rs generalizing pre p before with
  | nil => rfl
  | cons r rs ih =>
    have hcompletes := complete_smartParseDti hcomplete r
    have hr := h.smartParseDti r
    have hiter := hr.iterate r.completes
    have hcall : processCall p r.call = (waypointNext^[r.completes] (smartParseDti p r.call),
        (List.range r.completes).map fun k =>
          waypointTokens (waypointNext^[k] (smartParseDti p r.call))) := by
      rw [processCall, sampleLoop_eq, hcompletes]
    -- the samples of the record, then those of the others
    obtain ⟨before', hb', hrows⟩ := hr.rows (hb.concat r)
      (ownTokens_reportsOf (waypointNext^[r.completes] (smartParseDti p r.call)) rs) r.completes
    rw [reportsOf, hcall, List.flatten_append, hrows, tableRows]
    refine congrArg _ (ih ?_ ?_ hb')
    · rw [recordsSince_concat, samples_concat]
      exact hiter
    · rw [complete_iterate, hcompletes, Nat.sub_self]

/-- A parser that has been reset is in front of the first sample. -/
theorem atSample_newParser (m : Model) :
    AtSample ([] : List (Record m)) (recordsSince []) (samples ([] : List (Record m))) (newParser m) where
  follows := Follows.start _
  pending := ⟨rfl, rfl⟩
  model := rfl
  time := rfl

/-- The rows of a whole profile. -/
theorem wantedRows_newParser (rs : List (Record m)) :
    wantedRows [] (reportsOf (newParser m) rs).flatten = tableRows [] rs :=
  wantedRows_reportsOf rs (atSample_newParser m) rfl ⟨fun _ => rfl, fun _ => rfl⟩

/-- **The rows that are written of a profile**: those of the table but the last one. -/
theorem csvRows_reportsOf (rs : List (Record m)) :
    csvRows .cleared (reportsOf (newParser m) rs).flatten = (tableRows [] rs).dropLast := by
  rw [← wantedRows_newParser]
  rcases reportsOf_flatten_cases (newParser m) rs with h | ⟨v, ts, h⟩
  · rw [h]
    rfl
  · rw [h, ← csvRows_append_last ts rfl, List.dropLast_concat]

/-- A profile has tokens if it has a sample. -/
theorem reportsOf_flatten_eq_nil_iff (rs : List (Record m)) :
    (reportsOf (newParser m) rs).flatten = [] ↔ samples rs = 0 := by
  rw [← length_tableRows [], ← wantedRows_newParser]
  rcases reportsOf_flatten_cases (newParser m) rs with h | ⟨v, ts, h⟩
  · rw [h]
    exact ⟨fun _ => rfl, fun _ => rfl⟩
  · rw [h, wantedRows, if_pos rfl]
    simp

end Run

end BenthosDc

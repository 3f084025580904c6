/-
BenthosDc/LibdcSamples.lean

The waypoint tokens that the samples of libdivecomputer become (`libdc_parser.c`).

Each case of the `switch` reports one token, but the case of a temperature has no `break`
and falls into that of a pressure: behind the temperature it reports a tank pressure that
nobody has measured, read from the wrong member of the union (`libdcSampleTokens_iff`).

The value of a sample is a union, of which `DcSampleValue` gives what each member reads.  The
kinds of the tokens do not depend on the values.
-/
import BenthosDc.LibdcDriver

namespace BenthosDc

open Hoare

/-- The kind of token for a type of sample; none for a type that is not supported. -/
def wantedToken : DcSampleType → Option WaypointToken
  | .time => some .time
  | .depth => some .depth
  | .temperature => some .temp
  | .pressure => some .px
  | .rbt => some .rbt
  | .heartbeat => some .heartrate
  | .bearing => some .bearing
  | .event => some .alarm
  | .vendor => none

/-- The tokens of the samples that `libdc_sample_cb` is called with, one after the other. -/
def libdcSampleTokens (samples : List (DcSampleType × DcSampleValue)) : List Waypoint :=
  samples.flatMap fun s => libdcSampleCb s.1 s.2

variable {samples : List (DcSampleType × DcSampleValue)}

/-- The token of the type, and for a temperature that of a pressure behind it. -/
theorem libdcSampleCb_kinds (type : DcSampleType) (value : DcSampleValue) :
    (libdcSampleCb type value).map (·.token) =
      (wantedToken type).toList ++ if type = .temperature then [.px] else [] := by
  cases type <;> rfl

/-- The kinds of the samples of supported types. -/
def wantedTokens (samples : List (DcSampleType × DcSampleValue)) : List WaypointToken :=
  samples.filterMap fun s => wantedToken s.1

/-- The tokens of the first sample, and of the others. -/
theorem wantedTokens_cons (s : DcSampleType × DcSampleValue)
    (samples : List (DcSampleType × DcSampleValue)) :
    wantedTokens (s :: samples) = (wantedToken s.1).toList ++ wantedTokens samples := by
  rw [wantedTokens, wantedTokens, List.filterMap_eq_flatMap_toList,
    List.filterMap_eq_flatMap_toList, List.flatMap_cons]

/-- The tokens are one for each sample of a supported type, of its kind and in order. -/
def OneTokenPerSample (samples : List (DcSampleType × DcSampleValue)) : Prop :=
  (libdcSampleTokens samples).map (·.token) = wantedTokens samples

/-- What the first sample becomes, with the pressure behind a temperature. -/
theorem map_libdcSampleTokens_cons (s : DcSampleType × DcSampleValue)
    (samples : List (DcSampleType × DcSampleValue)) :
    (libdcSampleTokens (s :: samples)).map (·.token) = (wantedToken s.1).toList ++
      (if s.1 = .temperature then [.px] else []) ++ (libdcSampleTokens samples).map (·.token) := by
  rw [← libdcSampleCb_kinds s.1 s.2]
  exact List.map_append

/-- There are as many tokens too many as there are temperatures. -/
theorem length_libdcSampleTokens (samples : List (DcSampleType × DcSampleValue)) :
    ((libdcSampleTokens samples).map (·.token)).length =
      (wantedTokens samples).length + samples.countP fun s => s.1 = .temperature := by
  induction samples with
  | nil => rfl
  | cons s samples ih =>
    rw [map_libdcSampleTokens_cons, wantedTokens_cons, List.countP_cons, List.length_append,
      List.length_append, List.length_append, ih]
    by_cases htemp : s.1 = .temperature
    · simp only [htemp, decide_true, if_true, List.length_singleton]
      omega
    · simp only [htemp, decide_false, Bool.false_eq_true, if_false, List.length_nil]
      omega

/-- **Samples are mapped one to one just if none of them is a temperature.** -/
theorem libdcSampleTokens_iff (samples : List (DcSampleType × DcSampleValue)) :
    OneTokenPerSample samples ↔ ∀ s ∈ samples, s.1 ≠ .temperature := by
  constructor
  · intro h s hs htemp
    have hlen := congrArg List.length h
    rw [length_libdcSampleTokens] at hlen
    have hzero : samples.countP (fun s => s.1 = .temperature) = 0 := by omega
    exact List.countP_eq_zero.mp hzero s hs (decide_eq_true htemp)
  · intro h
    unfold OneTokenPerSample
    induction samples with
    | nil => rfl
    | cons s samples ih =>
      rw [map_libdcSampleTokens_cons, wantedTokens_cons, if_neg (h s List.mem_cons_self),
        List.append_nil, ih fun s' hs' => h s' (List.mem_cons_of_mem _ hs')]

/-- A sample of 20 degrees, in a union that reads as a pressure of 1000 as well. -/
def twentyDegrees : DcSampleType × DcSampleValue :=
  (.temperature, ⟨2000, 2000, 0, 1000, 2000, 0, 2000, 2000, 2000⟩)

/-- A temperature alone makes a tank pressure. -/
theorem not_libdcSampleTokens :
    ¬OneTokenPerSample [twentyDegrees] ∧
      ∃ w ∈ libdcSampleTokens [twentyDegrees], w.token = .px := by
  refine ⟨?_, ⟨.px, 1000, 0, none⟩, .tail _ (.head _), rfl⟩
  unfold OneTokenPerSample
  decide

/-! ### The driver -/

variable {S : Type} {D : Libdivecomputer S}

/-- The profile that the driver reports is what the callback makes of the samples that the
library delivers. -/
theorem libdcParserParseProfile_tokens {p : Nat} {data : List UInt8} {d d' : Desk (LibdcProc S)}
    {rv : Int} {tokens : List Waypoint}
    (h : (libdcParserParseProfile D p data).run d = .ok ((rv, tokens), d')) :
    tokens = [] ∨ ∃ w, tokens = libdcSampleTokens (D.samplesForeach w).1.2 := by
  obtain ⟨_, d₁, -, h⟩ := run_bind_eq_ok.mp h
  obtain ⟨set, d₂, -, h⟩ := run_bind_eq_ok.mp h
  cases set with
  | false =>
    obtain ⟨_, d₃, -, h⟩ := run_bind_eq_ok.mp h
    cases h
    exact .inl rfl
  | true =>
    obtain ⟨⟨done, samples⟩, d₃, hsamples, h⟩ := run_bind_eq_ok.mp h
    -- the samples are those of the library
    obtain ⟨_, d₄, -, hsamples⟩ := run_bind_eq_ok.mp hsamples
    obtain ⟨_, d₅, -, hsamples⟩ := run_bind_eq_ok.mp hsamples
    have hdelivered : (done, samples) = (D.samplesForeach d₅.state.world).1 :=
      congrArg Prod.fst (Except.ok.inj hsamples).symm
    refine .inr ⟨d₅.state.world, ?_⟩
    rw [← hdelivered]
    cases done with
    | true =>
      cases h
      rfl
    | false =>
      obtain ⟨_, d₆, -, h⟩ := run_bind_eq_ok.mp h
      cases h
      rfl

end BenthosDc

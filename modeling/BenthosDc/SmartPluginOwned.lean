/-
BenthosDc/SmartPluginOwned.lean

The handles of the parser of the two Smart plugins.

What is proved of a driver's own desk holds on the desk with the parser as well.  The
parser is a handle besides those of the driver; it follows itself and its device only.
-/
import BenthosDc.Ownership
import BenthosDc.SmartPlugin

namespace BenthosDc

open Hoare Lifetime Loop

variable {σ α β : Type} {dev p : Nat} {E : Halt → Prop}

/-! ### Programs of the driver

The desk of the plugin is the desk of the driver with a parser beside it.
-/

/-- A triple about the driver is one about the plugin. -/
theorem onDriver_spec {m : Driver σ α} {d : Desk (Parsing σ)} {Q : α → Desk σ → Prop}
    (hm : Triple m d.driver Q E) :
    Triple (onDriver m) d (fun a d' => Q a d'.driver) E := by
  cases hrun : m.run d.driver with
  | error e =>
    refine Triple.of_run_error (e := e) ?_ (hm.halt hrun)
    show onDriver m d = _
    rw [onDriver, show m d.driver = _ from hrun]
  | ok r =>
    have hQ : Q r.1 r.2 := hm.result hrun
    have hrun' : (onDriver m).run d =
        .ok (r.1, ⟨{ d.state with driver := r.2.state }, r.2.ledger⟩) := by
      show onDriver m d = _
      rw [onDriver, show m d.driver = _ from hrun]
    exact Triple.of_run hrun' hQ

/-- Two programs of the driver one behind the other. -/
theorem onDriver_bind (m : Driver σ α) (f : α → Driver σ β) :
    onDriver (m >>= f) = onDriver m >>= fun a => onDriver (f a) := by
  funext d
  show onDriver (m >>= f) d = (onDriver m d >>= fun r => onDriver (f r.1) r.2)
  have hbind : (m >>= f) d.driver = (m d.driver >>= fun r => f r.1 r.2) := rfl
  rw [onDriver, onDriver, hbind]
  cases m d.driver with
  | error e => rfl
  | ok r => rfl

/-- What the driver keeps of its desk it keeps here. -/
theorem onDriver_keeping {I : Desk σ → Prop} {P : α → Prop} {m : Driver σ α}
    (hm : Keeping I P m) : Keeping (fun d => I d.driver) P (onDriver m) := fun d hd =>
  onDriver_spec (hm d.driver hd)

/-! ### The parser

Two handles are in use: that of the parser and that of its device.  The functions check both
and dispose of none but the parser's own.
-/

/-- The parser `p` of the device is live, and is none of the driver's own handles. -/
structure Parses (valid : σ → Prop) (handles : σ → Set Nat) (dev p : Nat)
    (d : Desk (Parsing σ)) : Prop where
  owned : Owned valid handles d.driver
  live : p ∈ d.ledger.live
  ne : p ∉ handles d.state.driver
  parserDev : d.state.parserDev p = dev

variable {valid : σ → Prop} {handles : σ → Set Nat} {d : Desk (Parsing σ)}

theorem Parses.of_eq (hd : Parses valid handles dev p d) {l : Ledger}
    (hl : l.live = d.ledger.live) : Parses valid handles dev p ⟨d.state, l⟩ :=
  ⟨hd.owned.of_eq hl, hl ▸ hd.live, hd.ne, hd.parserDev⟩

/-- The parser is there. -/
theorem useParser_keeping : Keeping (Parses valid handles dev p) (fun _ => True) (useHandle p) :=
  fun _ hd => useHandle_spec hd.live fun _ hl => ⟨trivial, hd.of_eq hl⟩

theorem getState_keeping :
    Keeping (Parses valid handles dev p) (fun s => s.parserDev p = dev) getState := fun _ hd =>
  Triple.of_run rfl ⟨hd.parserDev, hd⟩

theorem setParser_keeping (q : Nat) (parser : SmartParser) :
    Keeping (Parses valid handles dev p) (fun _ => True) (SmartPlugin.setParser q parser) :=
  fun _ hd => Triple.of_run rfl ⟨trivial, hd.owned, hd.live, hd.ne, hd.parserDev⟩

/-- A reset touches the accumulators only. -/
theorem parserReset_keeping :
    Keeping (Parses valid handles dev p) (fun _ => True) (SmartPlugin.parserReset p) := by
  refine useParser_keeping.bind fun _ _ => ?_
  refine getState_keeping.bind fun s _ => ?_
  refine (setParser_keeping p _).bind fun _ _ => ?_
  exact Maintains.pure trivial

/-- Closing the parser leaves the driver's own handles. -/
theorem parserClose_spec (hd : Parses valid handles dev p d) :
    Triple (SmartPlugin.parserClose p) d (fun _ d' => Owned valid handles d'.driver) NotDangling :=
  disposeHandle_spec hd.live fun _ hl => hd.owned.of_diff hl hd.ne

section Base

variable [HasBase σ]

/-- The handles do not depend on the base, and the device is one of them. -/
structure BaseOwned (valid : σ → Prop) (handles : σ → Set Nat) (dev : Nat) : Prop where
  valid_setBase : ∀ base s, valid s → valid (HasBase.setBase base s)
  handles_setBase : ∀ base s, handles (HasBase.setBase base s) = handles s
  mem : ∀ s, dev ∈ handles s

/-- The device is there. -/
theorem useDevice_keeping (hbase : BaseOwned valid handles dev) :
    Keeping (Parses valid handles dev p) (fun _ => True) (useHandle dev) := fun _ hd =>
  useHandle_spec (hd.owned.live (hbase.mem _)) fun _ hl => ⟨trivial, hd.of_eq hl⟩

/-- The base is none of the handles. -/
theorem modifyBase_owned (hbase : BaseOwned valid handles dev) (f : SmartBase → SmartBase) :
    Keeping (fun d => Owned valid handles d.driver) (fun _ => True)
      (SmartPlugin.modifyBase f : Driver (Parsing σ) Unit) := by
  intro d hd
  refine Triple.of_run rfl ⟨trivial, hbase.valid_setBase _ _ hd.valid, ?_⟩
  show handles (HasBase.setBase _ _) ⊆ _
  rw [hbase.handles_setBase]
  exact hd.live

/-- A change of the common part disposes of nothing. -/
theorem modifyBase_keeping (hbase : BaseOwned valid handles dev) (f : SmartBase → SmartBase) :
    Keeping (Parses valid handles dev p) (fun _ => True) (SmartPlugin.modifyBase f) := by
  intro d hd
  refine Triple.of_run rfl ⟨trivial, ⟨hbase.valid_setBase _ _ hd.owned.valid, ?_⟩, hd.live, ?_,
    hd.parserDev⟩
  · show handles (HasBase.setBase _ _) ⊆ _
    rw [hbase.handles_setBase]
    exact hd.owned.live
  · show p ∉ handles (HasBase.setBase _ _)
    rw [hbase.handles_setBase]
    exact hd.ne

/-- An error is stored without a copy. -/
theorem storeError_keeping (hbase : BaseOwned valid handles dev) (ret : Int)
    (base : SmartDeviceBase) :
    Keeping (Parses valid handles dev p) (fun _ => True) (SmartPlugin.storeError ret base) :=
  Maintains.ite (fun _ => modifyBase_keeping hbase _) fun _ => Maintains.pure trivial

theorem parserParseHeader_keeping (hbase : BaseOwned valid handles dev) (data : List UInt8) :
    Keeping (Parses valid handles dev p) (fun _ => True)
      (SmartPlugin.parserParseHeader p data) := by
  refine useParser_keeping.bind fun _ _ => ?_
  refine getState_keeping.bind fun s hs => ?_
  rw [hs]
  refine (useDevice_keeping hbase).bind fun _ _ => ?_
  cases smartParserParseHeaderOn (HasBase.base s.driver).forParser (s.parser p) data with
  | none => exact Maintains.throw fun h => nomatch h
  | some r =>
    refine (setParser_keeping p _).bind fun _ _ => ?_
    exact (storeError_keeping hbase _ _).bind fun _ _ => Maintains.pure trivial

theorem parserParseProfile_keeping (hbase : BaseOwned valid handles dev) (data : List UInt8) :
    Keeping (Parses valid handles dev p) (fun _ => True)
      (SmartPlugin.parserParseProfile p data) := by
  refine useParser_keeping.bind fun _ _ => ?_
  refine getState_keeping.bind fun s hs => ?_
  rw [hs]
  refine (useDevice_keeping hbase).bind fun _ _ => ?_
  dsimp only
  refine (setParser_keeping p _).bind fun _ _ => ?_
  cases (smartParserParseProfileOn (HasBase.base s.driver).model (s.parser p) data).ret with
  | none => exact Maintains.throw fun h => nomatch h
  | some ret => exact (storeError_keeping hbase _ _).bind fun _ _ => Maintains.pure trivial

/-- A new parser is none of the handles that were live before. -/
theorem parserCreate_spec (hbase : BaseOwned valid handles dev)
    (hd : Owned valid handles d.driver) :
    Triple (SmartPlugin.parserCreate dev) d (fun r d' => Owned valid handles d'.driver ∧
      ∀ p, r = .ok p → Parses valid handles dev p d') NotDangling := by
  have halloc : Triple allocHandle d (fun p d' => Owned valid handles d'.driver ∧
      p ∈ d'.ledger.live ∧ p ∉ handles d'.state.driver) NotDangling := by
    refine allocHandle_spec fun p l hp hl => ⟨hd.of_insert hl, ?_, fun h => hp (hd.live h)⟩
    exact hl ▸ Set.mem_insert p _
  apply halloc.bind
  intro p d₁ ⟨hd₁, hp₁, hne₁⟩
  have huse : Triple (useHandle dev) d₁ (fun _ d' => Owned valid handles d'.driver ∧
      p ∈ d'.ledger.live ∧ p ∉ handles d'.state.driver) NotDangling :=
    useHandle_spec (hd₁.live (hbase.mem _)) fun l hl => ⟨hd₁.of_eq hl, hl ▸ hp₁, hne₁⟩
  apply huse.bind
  intro _ d₂ ⟨hd₂, hp₂, hne₂⟩
  have hget : Triple getState d₂ (fun s d' => s = d₂.state ∧ d' = d₂) NotDangling :=
    Triple.of_run rfl ⟨rfl, rfl⟩
  apply hget.bind
  intro s d₃ ⟨hs, hd₃⟩
  subst hs hd₃
  -- the structure is given back if the model has no parser
  cases smartParserCreate (d₃.state.parser p) (HasBase.base d₃.state.driver).forParser with
  | ok parser =>
    refine Triple.of_run rfl ⟨hd₂, fun p' h => ?_⟩
    cases h
    exact ⟨hd₂, hp₂, hne₂, Function.update_self ..⟩
  | error base =>
    have hset : Triple (SmartPlugin.modifyBase fun b => b.assignError base) d₃
        (fun _ d' => Owned valid handles d'.driver ∧ p ∈ d'.ledger.live ∧
          p ∉ handles d'.state.driver) NotDangling := by
      refine Triple.of_run rfl ⟨⟨hbase.valid_setBase _ _ hd₂.valid, ?_⟩, hp₂, ?_⟩
      · show handles (HasBase.setBase _ _) ⊆ _
        rw [hbase.handles_setBase]
        exact hd₂.live
      · show p ∉ handles (HasBase.setBase _ _)
        rw [hbase.handles_setBase]
        exact hne₂
    apply hset.bind
    intro _ d₄ ⟨hd₄, hp₄, hne₄⟩
    have hdispose : Triple (disposeHandle p) d₄ (fun _ d' => Owned valid handles d'.driver)
        NotDangling := disposeHandle_spec hp₄ fun _ hl => hd₄.of_diff hl hne₄
    refine hdispose.bind fun _ d₅ hd₅ => ?_
    exact Triple.pure ⟨hd₅, fun p' h => nomatch h⟩

/-! ### Extraction and messages

Neither of them makes or disposes of a handle.
-/

theorem useDevice_owned (hbase : BaseOwned valid handles dev) :
    Keeping (fun d : Desk (Parsing σ) => Owned valid handles d.driver) (fun _ => True)
      (useHandle dev) := fun _ hd =>
  useHandle_spec (hd.live (hbase.mem _)) fun _ hl => ⟨trivial, hd.of_eq hl⟩

theorem driverExtract_owned (hbase : BaseOwned valid handles dev) (fuel : Nat)
    (buffer : Option Memory) (size : Nat) :
    Keeping (fun d : Desk (Parsing σ) => Owned valid handles d.driver) (fun _ => True)
      (SmartPlugin.driverExtract fuel dev buffer size) := by
  refine (useDevice_owned hbase).bind fun _ _ => ?_
  cases buffer with
  | none => exact Maintains.pure trivial
  | some mem =>
    dsimp only
    cases iterate (extractStep mem size) fuel extractStart with
    | next s => exact Maintains.throw fun h => nomatch h
    | stop r =>
      dsimp only
      refine Maintains.ite (fun _ => ?_) fun _ => ?_
      · exact Maintains.pure trivial
      · refine (modifyBase_owned hbase _).bind fun _ _ => ?_
        exact Maintains.pure trivial

theorem driverErrmsg_owned (hbase : BaseOwned valid handles dev) :
    Keeping (fun d : Desk (Parsing σ) => Owned valid handles d.driver) (fun _ => True)
      (SmartPlugin.driverErrmsg dev) := by
  refine (useDevice_owned hbase).bind fun _ _ => ?_
  have hget : Keeping (fun d : Desk (Parsing σ) => Owned valid handles d.driver)
      (fun _ => True) getState := fun _ hd => Triple.of_run rfl ⟨trivial, hd⟩
  refine hget.bind fun _ _ => ?_
  exact Maintains.pure trivial

theorem driverErrmsg_keeping (hbase : BaseOwned valid handles dev) :
    Keeping (Parses valid handles dev p) (fun _ => True) (SmartPlugin.driverErrmsg dev) := by
  refine (useDevice_keeping hbase).bind fun _ _ => ?_
  refine getState_keeping.bind fun _ _ => ?_
  exact Maintains.pure trivial

end Base

end BenthosDc

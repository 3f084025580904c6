/-
BenthosDc/OutputUddf.lean

The UDDF formatter (`output_uddf.cpp`).

The document is built through pointers to its nodes.  A dive is made outside the
document and linked to the repetition group that the last header token with repetition
number 1 has made, possibly for an earlier dive; in front of the first such token there
is no group, and linking to a null pointer does nothing.

The data of the formatter holds pointers into the document: to the root and the nodes that
collect dives and gases, to the group that dives are linked to, and to the nodes of the dive
and the waypoint that are being made.  A pointer that has not been set is null.
-/
import BenthosDc.OutputCsv
import BenthosDc.Lib.XmlHeap

namespace BenthosDc

open CString XmlHeap

/-- `mix_t`: oxygen and helium in permille -/
abbrev Mix := BitVec 16 × BitVec 16

/-- `uddf_fmt_data`; the nodes of the document are in `doc`. -/
structure UddfFmtData where
  doc : Heap
  root : NodeId
  profiles : Option NodeId
  gasdef : Option NodeId
  repgrp : Option NodeId
  mixes : Std.TreeMap Text Mix
  tanks : Std.TreeMap Nat (Option NodeId)
  curMixes : Std.TreeMap Text Mix
  curProfile : Option NodeId
  curWaypoint : Option NodeId
  appdata : Option NodeId
  samples : Option NodeId
  before : Option NodeId
  after : Option NodeId
  ts : Text
  rgid : Nat
  did : Nat

namespace UddfFmtData

/-- `xmlNewChild` in the document. -/
def newChild (f : UddfFmtData) (parent : Option NodeId) (name content : Text) :
    UddfFmtData × Option NodeId :=
  let r := xmlNewChild f.doc parent name content
  ({ f with doc := r.1 }, r.2)

/-- A child that nothing is added to. -/
def leaf (f : UddfFmtData) (parent : Option NodeId) (name content : Text) : UddfFmtData :=
  (f.newChild parent name content).1

/-- `xmlNewProp` in the document. -/
def newProp (f : UddfFmtData) (node : Option NodeId) (key value : Text) : UddfFmtData :=
  { f with doc := xmlNewProp f.doc node key value }

end UddfFmtData

/-! ### Initialisation and prolog -/

/-- `uddf_init_formatter`, with the version of the program and the time as two texts: the
date, and the stamp for the dive ids. -/
def uddfInit (version date ts : Text) : UddfFmtData :=
  let f : UddfFmtData := ⟨xmlNewProp (xmlNewNode [] "uddf".toList []) (some 0) "version".toList
      "3.0.0".toList, 0, none, none, none, ∅, ∅, ∅, none, none, none, none, none, none, ts, 0, 0⟩
  let (f, generator) := f.newChild (some f.root) "generator".toList []
  let f := f.leaf generator "name".toList "benthos-dc".toList
  let f := f.leaf generator "version".toList version
  let f := f.leaf generator "datetime".toList date
  let (f, gasdef) := f.newChild (some f.root) "gasdefinitions".toList []
  let (f, profiles) := f.newChild (some f.root) "profiledata".toList []
  { f with
    gasdef := gasdef
    profiles := profiles
    mixes := .ofList ([("air".toList, (210, 0)), ("ean32".toList, (320, 0)),
      ("ean36".toList, (360, 0))] : List (Text × Mix)) }

/-- The identifier of a dive, from the time stamp and a counter. -/
def diveId (f : UddfFmtData) : Text :=
  "benthos_dive_".toList ++ f.ts ++ '_' :: padded 3 f.did

/-- The node of a dive is made, outside of the document, with its parts. -/
def uddfProlog (f : UddfFmtData) : UddfFmtData :=
  let cur := f.doc.length
  let f := { f with
    doc := xmlNewProp (xmlNewNode f.doc "dive".toList []) (some cur) "id".toList (diveId f)
    curProfile := some cur
    curWaypoint := none
    curMixes := ∅
    tanks := ∅
    did := f.did + 1 }
  let (f, appdata) := f.newChild f.curProfile "applicationdata".toList []
  let (f, benthos) := f.newChild appdata "benthos".toList []
  let (f, before) := f.newChild f.curProfile "informationbeforedive".toList []
  let (f, after) := f.newChild f.curProfile "informationafterdive".toList []
  let (f, samples) := f.newChild f.curProfile "samples".toList []
  { f with appdata := benthos, before := before, after := after, samples := samples }

/-! ### Header tokens -/

/-- A value in minutes, in seconds -/
def seconds (v : BitVec 32) : BitVec 32 := v * 60

/-- `%.2f` of a temperature in hundredths of a degree, in kelvin -/
def kelvin (v : BitVec 32) : Text := printFixed 2 (Float.ofInt v.toInt / 100 + 273.15)

/-- `"mix-%u"` -/
def mixName (i : Nat) : Text := "mix-".toList ++ decimal i

/-- `"%s%u"` in a buffer that takes 254 characters -/
def vendorName (e : HeaderEntry) : Text := (tokenName e.name ++ decimal e.index).take 254

/-- Parent, name and content of the element that a header token adds. -/
def uddfHeaderLeaf (f : UddfFmtData) (e : HeaderEntry) : Option (Option NodeId × Text × Text) :=
  match e.token with
  | .startTime => some (f.before, "datetime".toList, isoTime e.value.toInt)
  | .utcOffset => some (f.appdata, "utc_offset".toList, decimalInt e.value.toInt)
  | .duration => some (f.after, "diveduration".toList, decimal (seconds e.value).toNat)
  | .desatBefore => some (f.before, "desaturationtime".toList, decimal (seconds e.value).toNat)
  | .desatAfter => some (f.after, "desaturationtime".toList, decimal (seconds e.value).toNat)
  | .noflyBefore => some (f.before, "noflighttime".toList, decimal (seconds e.value).toNat)
  | .noflyAfter => some (f.after, "noflighttime".toList, decimal (seconds e.value).toNat)
  | .maxDepth => some (f.after, "greatestdepth".toList, hundredths e.value)
  | .avgDepth => some (f.appdata, "avg_depth".toList, hundredths e.value)
  | .airTemp => some (f.before, "airtemperature".toList, kelvin e.value)
  | .maxTemp => some (f.appdata, "max_temp".toList, hundredths e.value)
  | .minTemp => some (f.after, "lowesttemperature".toList, kelvin e.value)
  | .vendor => some (f.appdata, vendorName e, decimal e.value.toNat)
  | .interval | .repetition | .pxStart | .pxEnd | .pmo2 | .pmhe => none

/-- The surface interval; 0 is taken for none. -/
def uddfInterval (f : UddfFmtData) (v : BitVec 32) : UddfFmtData :=
  let (f, si) := f.newChild f.before "surfaceintervalbeforedive".toList []
  if v = 0 then f.leaf si "infinity".toList []
  else f.leaf si "passedtime".toList (decimalInt (seconds v).toInt)

/-- A repetition group of its own, which the dives to come are linked to. -/
def uddfNewGroup (f : UddfFmtData) : UddfFmtData :=
  let buf := "benthos_repgroup_".toList ++ f.ts ++ '_' :: padded 3 f.rgid
  let (f, repgrp) := { f with rgid := f.rgid + 1 }.newChild f.profiles "repetitiongroup".toList []
  { f with repgrp := repgrp }.newProp repgrp "id".toList buf

/-- The tank node of an index is made when the index is first mentioned. -/
def uddfTank (f : UddfFmtData) (i : Nat) : UddfFmtData :=
  if f.tanks.contains i then f
  else
    let (f, tank) := f.newChild f.curProfile "tankdata".toList []
    { f with tanks := f.tanks.insert i tank }

/-- `fmt_data->tanks[index]` -/
def UddfFmtData.tankNode (f : UddfFmtData) (i : Nat) : Option NodeId := f.tanks[i]?.join

/-- A pressure of a tank. -/
def uddfTankPressure (f : UddfFmtData) (e : HeaderEntry) (name : Text) : UddfFmtData :=
  let f := uddfTank f e.index
  f.leaf (f.tankNode e.index) name (decimal e.value.toNat)

/-- A share of the gas of a tank. -/
def uddfTankMix (f : UddfFmtData) (e : HeaderEntry) (set : Mix → Mix) : UddfFmtData :=
  if e.value = 0 then f
  else
    let f := uddfTank f e.index
    { f with curMixes := f.curMixes.alter (mixName e.index) fun m => some (set (m.getD (0, 0))) }

/-- The cases of the header tokens. -/
def uddfHeaderToken (f : UddfFmtData) (e : HeaderEntry) : UddfFmtData :=
  match e.token with
  | .interval => uddfInterval f e.value
  | .repetition => if e.value = 1 then uddfNewGroup f else f
  | .pxStart => uddfTankPressure f e "tankpressurebegin".toList
  | .pxEnd => uddfTankPressure f e "tankpressureend".toList
  | .pmo2 => uddfTankMix f e fun m => (e.value.setWidth 16, m.2)
  | .pmhe => uddfTankMix f e fun m => (m.1, e.value.setWidth 16)
  | _ =>
      match uddfHeaderLeaf f e with
      | none => f
      | some (parent, name, content) => f.leaf parent name content

/-- Header tokens, if they are asked for. -/
def uddfHeaderCb (s : OutputFmtData) (f : UddfFmtData) (e : HeaderEntry) : UddfFmtData :=
  if s.outputHeader then uddfHeaderToken f e else f

/-! ### Waypoint tokens -/

/-- The cases of the waypoint tokens. -/
def uddfWaypointToken (f : UddfFmtData) (t : Waypoint) : UddfFmtData :=
  match t.token with
  | .time =>
      let (f, w) := f.newChild f.samples "waypoint".toList []
      { f with curWaypoint := w }.leaf w "divetime".toList (decimalInt t.value.toInt)
  | .depth => f.leaf f.curWaypoint "depth".toList (hundredths t.value)
  | .temp => f.leaf f.curWaypoint "temperature".toList (kelvin t.value)
  | .alarm => f.leaf f.curWaypoint "alarm".toList (tokenName t.name)
  | _ => f

/-- Waypoint tokens, if they are asked for. -/
def uddfWaypointCb (s : OutputFmtData) (f : UddfFmtData) (t : Waypoint) : UddfFmtData :=
  if s.outputProfile then uddfWaypointToken f t else f

/-! ### Epilog and closing -/

/-- A link to a gas. -/
def uddfLink (f : UddfFmtData) (tank : Option NodeId) (ref : Text) : UddfFmtData :=
  let (f, mn) := f.newChild tank "link".toList []
  f.newProp mn "ref".toList ref

/-- One pass of the loop over the tanks; a mix that is not known yet is added. -/
def uddfTankLink (f : UddfFmtData) (tank : Nat × Option NodeId) : UddfFmtData :=
  match f.curMixes[mixName tank.1]? with
  | none => uddfLink f tank.2 "air".toList
  | some mix =>
      match f.mixes.toList.find? (·.2 = mix) with
      | none =>
          let buf := mixName f.mixes.size
          uddfLink { f with mixes := f.mixes.insertIfNew buf mix } tank.2 buf
      | some known => uddfLink f tank.2 known.1

/-- The dive is linked to its group, and its tanks to their gases. -/
def uddfEpilog (f : UddfFmtData) : UddfFmtData :=
  let f := match f.curProfile with
    | none => f
    | some dive => { f with doc := xmlAddChild f.doc f.repgrp dive }
  f.tanks.toList.foldl uddfTankLink f

/-- `"0.%03u"` -/
def permille (v : BitVec 16) : Text := "0.".toList ++ padded 3 v.toNat

/-- The definition of a gas. -/
def uddfMix (f : UddfFmtData) (mix : Text × Mix) : UddfFmtData :=
  let (o2, he) := mix.2
  let (f, mixnode) := f.newChild f.gasdef "mix".toList []
  let f := f.newProp mixnode "id".toList mix.1
  let f := f.leaf mixnode "o2".toList (permille o2)
  let f := f.leaf mixnode "n2".toList (permille (1000 - (o2 + he)))
  let f := f.leaf mixnode "he".toList (permille he)
  let f := f.leaf mixnode "ar".toList "0.000".toList
  f.leaf mixnode "h2".toList "0.000".toList

/-- The document that is saved is the part of `doc` below `root`. -/
def uddfClose (f : UddfFmtData) : UddfFmtData := f.mixes.toList.foldl uddfMix f

/-- The formatter that `uddf_init_formatter` sets up. -/
def uddfFormatter (s : OutputFmtData) : Formatter UddfFmtData where
  prologFn := uddfProlog
  headerCb := uddfHeaderCb s
  profileCb := uddfWaypointCb s
  epilogFn := uddfEpilog
  closeFn := uddfClose

end BenthosDc

/-
BenthosDc/RegistryAtomic.lean

What a call leaves behind that fails to add a manifest (`registry.cpp`).

`benthos_dc_registry_add_manifest` puts the path into the list of manifest files before the
manifest is loaded, and does not take it out again: a manifest that is malformed, or whose
plugin is there already, stays in the list, and later calls with its path say that it exists
(`addManifest_atomic_iff`).

The condition asks for the registry and the file alone: the file exists, is not listed, and
holds a manifest that is refused.
-/
import BenthosDc.RegistryLookup

namespace BenthosDc

open CString Checked

/-! ### Errors of a manifest

The parser of the manifests is built from small parsers, and each of them can only fail with a
negative code.
-/

/-- `MANIFEST_ERR_*`, but no `errno`. -/
def Negative (e : ManifestError) : Prop := e.code < 0

instance : DecidablePred Negative := fun e => inferInstanceAs (Decidable (e.code < 0))

variable {conv : Iconv}

/-- An error of the parser is negative. -/
theorem negative_parserError (msg : String) : Negative (.parser msg) := show (-3 : Int) < 0 by decide

/-- A computation of the parser that fails with `MANIFEST_ERR_*` only. -/
abbrev Rejects {α : Type} (x : Except ManifestError α) : Prop := FailsWith Negative x

section Parser

variable {α : Type} {c : Prop} [Decidable c]

/-- A check that fails is refused. -/
theorem rejects_require (msg : String) : Rejects (require c (.parser msg)) :=
  .require (negative_parserError msg)

/-- An error that is thrown is refused. -/
theorem rejects_throw (msg : String) : Rejects (.error (.parser msg) : Except ManifestError α) :=
  .throw (negative_parserError msg)

theorem soleText_rejects (elements : String) (children : List XmlTree) :
    Rejects (soleText elements children) := by
  unfold soleText
  split
  · exact .ok _
  · exact rejects_throw _

theorem parseDriverDesc_rejects (d : DriverWrapper) (children : List XmlTree) :
    Rejects (parseDriverDesc conv d children) := by
  refine (rejects_require _).bind fun _ => (rejects_require _).bind fun _ => ?_
  exact (soleText_rejects _ _).bind fun _ => .ok _

theorem parseDriverIntf_rejects (d : DriverWrapper) (children : List XmlTree) :
    Rejects (parseDriverIntf conv d children) := by
  refine (rejects_require _).bind fun _ => (rejects_require _).bind fun _ => ?_
  refine (soleText_rejects _ _).bind fun content => ?_
  cases intfOf content with
  | none => exact rejects_throw _
  | some intf => exact .ok _

theorem paramAttr_rejects (p : ParamInfo) (attr : Text × Text) : Rejects (paramAttr conv p attr) := by
  unfold paramAttr
  refine .ite ((rejects_require _).bind fun _ => .ok _) (.ite ?_ (.ite ?_ (rejects_throw _)))
  · refine (rejects_require _).bind fun _ => ?_
    cases paramTypeOf attr.2 with
    | none => exact rejects_throw _
    | some t => exact .ok _
  · exact (rejects_require _).bind fun _ => .ok _

theorem paramDesc_rejects (children : List XmlTree) : Rejects (paramDesc conv children) :=
  .ite (.ok _) ((soleText_rejects _ _).bind fun _ => .ok _)

theorem assignModelParam_rejects (d : DriverWrapper) (p : ParamInfo) :
    Rejects (assignModelParam d p) :=
  .ite ((rejects_require _).bind fun _ => .ok _) (.ok _)

theorem parseParam_rejects (d : DriverWrapper) (e : XmlTree) : Rejects (parseParam conv d e) := by
  cases e with
  | element name properties children =>
    refine (rejects_require _).bind fun _ => (FailsWith.foldlM paramAttr_rejects _ _).bind fun p => ?_
    refine (rejects_require _).bind fun _ => (rejects_require _).bind fun _ => ?_
    refine (rejects_require _).bind fun _ => (assignModelParam_rejects d p).bind fun d => ?_
    exact (paramDesc_rejects children).bind fun _ => .ok _
  | _ => exact .ok _

theorem defaultManufacturer_rejects (properties : List (Text × Text)) :
    Rejects (defaultManufacturer conv properties) := by
  rcases properties with _ | ⟨attr, _ | ⟨next, attrs⟩⟩
  · exact .ok _
  · exact (rejects_require _).bind fun _ => .ok _
  · exact (rejects_require _).bind fun _ => rejects_throw _

theorem modelAttr_rejects (m : ModelInfo) (attr : Text × Text) : Rejects (modelAttr conv m attr) := by
  unfold modelAttr
  refine .ite ?_ (.ite ?_ (rejects_throw _))
  · refine (rejects_require _).bind fun _ => ?_
    cases scanUnsigned (convXmlstr conv attr.2) with
    | none => exact rejects_throw _
    | some n => exact .ok _
  · exact (rejects_require _).bind fun _ => .ok _

theorem parseModel_rejects (mfg : Text) (d : DriverWrapper) (e : XmlTree) :
    Rejects (parseModel conv mfg d e) := by
  cases e with
  | element name properties children =>
    refine (rejects_require _).bind fun _ => (FailsWith.foldlM modelAttr_rejects _ _).bind fun m => ?_
    refine (rejects_require _).bind fun _ => (rejects_require _).bind fun _ => ?_
    refine (soleText_rejects _ _).bind fun content => ?_
    exact (rejects_require _).bind fun _ => .ok _
  | _ => exact .ok _

theorem parseDriverChild_rejects (d : DriverWrapper) (e : XmlTree) :
    Rejects (parseDriverChild conv d e) := by
  cases e with
  | element name properties children =>
    refine .ite (parseDriverDesc_rejects _ _) (.ite (parseDriverIntf_rejects _ _) (.ite ?_ (.ite ?_
      (rejects_throw _))))
    · exact FailsWith.foldlM parseParam_rejects _ _
    · exact (defaultManufacturer_rejects _).bind fun mfg => FailsWith.foldlM (parseModel_rejects mfg) _ _
  | _ => exact .ok _

theorem driverAttr_rejects (name : Text) (attr : Text × Text) : Rejects (driverAttr conv name attr) :=
  (rejects_require _).bind fun _ => .ok _

theorem parseDriver_rejects (m : PluginManifest) (e : XmlTree) : Rejects (parseDriver conv m e) := by
  cases e with
  | element name properties children =>
    refine (rejects_require _).bind fun _ => (FailsWith.foldlM driverAttr_rejects _ _).bind fun n => ?_
    refine (FailsWith.foldlM parseDriverChild_rejects _ _).bind fun d => ?_
    exact (rejects_require _).bind fun _ => .ok _
  | _ => exact .ok _

theorem manifestAttr_rejects (m : PluginManifest) (attr : Text × Text) :
    Rejects (manifestAttr conv m attr) := by
  refine .ite (.ok _) (.ite (.ok _) (.ite ?_ (rejects_throw _)))
  cases scanVersion m.version (convXmlstr conv attr.2) with
  | none => exact rejects_throw _
  | some version => exact .ok _

theorem parseManifest_rejects (properties : List (Text × Text)) (children : List XmlTree) :
    Rejects (parseManifest conv properties children) := by
  refine (FailsWith.foldlM manifestAttr_rejects _ _).bind fun m => ?_
  refine (FailsWith.require (by decide)).bind fun _ => (FailsWith.require (by decide)).bind fun _ => ?_
  exact (FailsWith.foldlM parseDriver_rejects _ _).bind fun _ => .ok _

end Parser

/-- **A regular file is rejected with an error of the parser**, and none of these is 0. -/
theorem benthosDcManifestParse_rejects {content : ManifestFile} (h : content.isRegular = true) :
    Rejects (benthosDcManifestParse conv content) := by
  cases content with
  | absent => cases h
  | notRegular => cases h
  | malformed => exact .throw (by decide)
  | noRoot => exact .throw (by decide)
  | document root =>
    cases root with
    | element name properties children =>
      exact (FailsWith.require (by decide)).bind fun _ => parseManifest_rejects properties children
    | _ => exact .throw (by decide)

/-! ### Failed calls

What should not be changed is compared as a whole: the lists, the table and the drivers.
-/

/-- What the registry holds of manifests. -/
def manifestState (r : PluginRegistry) : List Text × ManifestTable × List DriverInfo :=
  (r.manifestFiles, r.manifests, r.drivers)

/-- The registry is as it was in front of the call, and a later call is answered as if it were
the first. -/
structure LeavesNothing (conv : Iconv) (g : GRegistry) (file : Option FsNode) : Prop where
  unchanged : (benthosDcRegistryAddManifest conv g file).2.map manifestState = g.map manifestState
  later : ∀ file', (benthosDcRegistryAddManifest conv (benthosDcRegistryAddManifest conv g file).2
    file').1 = (benthosDcRegistryAddManifest conv g file').1

/-- A call that fails changes nothing. -/
def AddManifestAtomic (conv : Iconv) (g : GRegistry) (file : Option FsNode) : Prop :=
  (benthosDcRegistryAddManifest conv g file).1 ≠ 0 → LeavesNothing conv g file

/-- The file is a regular one that is new to the registry, and its manifest does not parse, or
is that of a plugin with a name that is registered. -/
def RejectedFile (conv : Iconv) (g : GRegistry) (file : Option FsNode) : Prop :=
  ∃ r path content, g = some r ∧ file = some (.file path content) ∧ content.isRegular = true ∧
    path ∉ r.manifestFiles ∧
    ∀ m, benthosDcManifestParse conv content = .ok m → r.manifests.contains m.pluginName = true

/-- A call that changes nothing leaves nothing behind. -/
theorem leavesNothing_of_eq {g : GRegistry} {file : Option FsNode}
    (h : (benthosDcRegistryAddManifest conv g file).2 = g) : LeavesNothing conv g file :=
  ⟨congrArg _ h, fun file' => by rw [h]⟩

/-- A file that is rejected is in the list behind the call, which has failed. -/
theorem addManifest_rejected {r : PluginRegistry} {path : Text} {content : ManifestFile}
    (hregular : content.isRegular = true) (hnew : path ∉ r.manifestFiles)
    (hrejected : ∀ m, benthosDcManifestParse conv content = .ok m →
      r.manifests.contains m.pluginName = true) :
    (benthosDcRegistryAddManifest conv (some r) (some (.file path content))).1 ≠ 0 ∧
      (benthosDcRegistryAddManifest conv (some r) (some (.file path content))).2 =
        some { r with manifestFiles := r.manifestFiles ++ [path] } := by
  have hcall : benthosDcRegistryAddManifest conv (some r) (some (.file path content)) =
      ((registerManifest conv { r with manifestFiles := r.manifestFiles ++ [path] } content).1,
        some (registerManifest conv { r with manifestFiles := r.manifestFiles ++ [path] } content).2) := by
    have hregular' : ¬content.isRegular = false := by rw [hregular]; decide
    show (if content.isRegular = false then _ else if path ∈ r.manifestFiles then _ else _) = _
    rw [if_neg hregular', if_neg hnew]
  rw [hcall, registerManifest]
  cases hparse : benthosDcManifestParse conv content with
  | error e => exact ⟨Int.ne_of_lt (benthosDcManifestParse_rejects hregular e hparse), rfl⟩
  | ok m =>
    have hcontains : r.manifests.contains m.pluginName = true := hrejected m hparse
    simp only [if_pos hcontains, and_true]
    decide

/-- Every other call succeeds, or leaves the registry as it is. -/
theorem addManifest_not_rejected {g : GRegistry} {file : Option FsNode}
    (h : ¬RejectedFile conv g file) :
    (benthosDcRegistryAddManifest conv g file).1 = 0 ∨
      (benthosDcRegistryAddManifest conv g file).2 = g := by
  unfold benthosDcRegistryAddManifest
  split
  · exact .inr rfl
  · exact .inr rfl
  · exact .inr rfl
  · next r path content =>
    split
    · exact .inr rfl
    · next hregular =>
      split
      · exact .inr rfl
      · next hnew =>
        left
        rw [Bool.not_eq_false] at hregular
        obtain ⟨m, hparse, hcontains⟩ : ∃ m, benthosDcManifestParse conv content = .ok m ∧
            r.manifests.contains m.pluginName = false := by
          by_contra hnone
          refine h ⟨r, path, content, rfl, rfl, hregular, hnew, fun m hm => ?_⟩
          by_contra hcontains
          exact hnone ⟨m, hm, Bool.eq_false_iff.mpr hcontains⟩
        have hcontains' : ¬r.manifests.contains m.pluginName = true := by rw [hcontains]; decide
        simp only [registerManifest, hparse, if_neg hcontains']

/-- **Failed calls change nothing just if** the file is not a new one that the parser or the
table of plugins rejects, in every state that the registry can come to. -/
theorem addManifest_atomic_iff (conv : Iconv) (calls : List RegistryCall) (file : Option FsNode) :
    AddManifestAtomic conv (runCalls conv calls) file ↔
      ¬RejectedFile conv (runCalls conv calls) file := by
  constructor
  · rintro hatomic ⟨r, path, content, hr, rfl, hregular, hnew, hrejected⟩
    rw [hr] at hatomic
    obtain ⟨hfails, hafter⟩ := addManifest_rejected hregular hnew hrejected
    have hsame := (hatomic hfails).unchanged
    rw [hafter] at hsame
    have hfiles : r.manifestFiles ++ [path] = r.manifestFiles :=
      congrArg Prod.fst (Option.some.inj hsame)
    exact List.cons_ne_nil path [] (List.append_right_eq_self.mp hfiles)
  · intro haccepted hfails
    rcases addManifest_not_rejected haccepted with hzero | hsame
    · exact absurd hzero hfails
    · exact leavesNothing_of_eq hsame

/-- A file that is no XML is refused when it is added, and when it has been repaired. -/
theorem not_addManifest_atomic :
    ¬∀ (calls : List RegistryCall) (file : Option FsNode),
      AddManifestAtomic some (runCalls some calls) file := by
  intro h
  let bad : Option FsNode := some (.file "/m/smart.xml".toList .malformed)
  let good : Option FsNode := some (.file "/m/smart.xml".toList
    (.document (.element "plugin".toList smartProperties smartChildren)))
  have hlater := (h [.init none none] bad (by decide)).later good
  exact absurd hlater (by decide +kernel)

end BenthosDc

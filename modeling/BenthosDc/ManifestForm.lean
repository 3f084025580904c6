/-
BenthosDc/ManifestForm.lean

Manifests that parse are well formed (`parseManifest_wellFormed`).

Each loop of the parser is inverted once: `parseParam_eq_ok` and `parseModel_eq_ok` say
what a pass adds and which tests it has passed, and the invariant `DriverParsed` of the
loop over the children of a driver follows, over all blocks of parameters and models.

What the invariant says of the structure so far it says of the elements that have been passed:
the parameters and models are those of the elements, in their order, with the names that the
attributes give, and no two of them have the same name.
-/
import Mathlib.Data.List.Forall2
import BenthosDc.Manifest

namespace BenthosDc

open CString Checked

variable {conv : Iconv}

/-! ### What the elements say -/

/-- The parameter that an element describes. -/
structure ParamFor (conv : Iconv) (e : XmlTree) (p : ParamInfo) : Prop where
  element : ∃ properties children, e = .element "parameter".toList properties children ∧
    (∃ v, ("name".toList, v) ∈ properties ∧ p.paramName = convXmlstr conv v) ∧
    (∃ v, ("type".toList, v) ∈ properties ∧ paramTypeOf v = some p.paramType) ∧
    (p.paramDefault = [] ∨
      ∃ v, ("default".toList, v) ∈ properties ∧ p.paramDefault = convXmlstr conv v) ∧
    (children = [] ∧ p.paramDesc = [] ∨
      ∃ content, children = [.text content] ∧ p.paramDesc = convXmlstr conv content)

/-- The model that an element describes, in a block with the default manufacturer `mfg`. -/
structure ModelFor (conv : Iconv) (mfg : Text) (e : XmlTree) (m : ModelInfo) : Prop where
  element : ∃ properties content, e = .element "model".toList properties [.text content] ∧
    m.modelName = convXmlstr conv content ∧
    (∃ v, ("id".toList, v) ∈ properties ∧ scanUnsigned (convXmlstr conv v) = some m.modelNumber) ∧
    (m.manufName = mfg ∧ (∀ v, ("manufacturer".toList, v) ∈ properties → convXmlstr conv v = []) ∨
      ∃ v, ("manufacturer".toList, v) ∈ properties ∧ convXmlstr conv v ≠ [] ∧
        m.manufName = convXmlstr conv v)

/-- An element with one text, and nothing else. -/
theorem soleText_eq_ok_iff {elements : String} {children : List XmlTree} {content : Text} :
    soleText elements children = .ok content ↔ children = [.text content] := by
  unfold soleText
  split
  · rw [pure_eq_ok_iff]
    simp
  · rename_i hne
    apply iff_of_false (fun h => by cases h)
    rintro rfl
    exact hne content rfl

/-! ### Parameters -/

/-- The attributes of `<parameter>` that have been read. -/
structure ParamAttrs (conv : Iconv) (properties : List (Text × Text)) (p : ParamInfo) : Prop where
  name : p.paramName ≠ [] → ∃ v, ("name".toList, v) ∈ properties ∧ p.paramName = convXmlstr conv v
  type : p.paramType ≠ .unknown →
    ∃ v, ("type".toList, v) ∈ properties ∧ paramTypeOf v = some p.paramType
  default : p.paramDefault = [] ∨
    ∃ v, ("default".toList, v) ∈ properties ∧ p.paramDefault = convXmlstr conv v

/-- A further attribute changes nothing about those in front of it. -/
theorem ParamAttrs.append {properties : List (Text × Text)} {p : ParamInfo}
    (h : ParamAttrs conv properties p) (attr : Text × Text) :
    ParamAttrs conv (properties ++ [attr]) p where
  name hne := by
    obtain ⟨v, hv, hp⟩ := h.name hne
    exact ⟨v, List.mem_append_left _ hv, hp⟩
  type hne := by
    obtain ⟨v, hv, hp⟩ := h.type hne
    exact ⟨v, List.mem_append_left _ hv, hp⟩
  default := by
    rcases h.default with hnil | ⟨v, hv, hp⟩
    · exact .inl hnil
    · exact .inr ⟨v, List.mem_append_left _ hv, hp⟩

/-- An attribute sets its own field, and leaves the others. -/
theorem ParamAttrs.step {properties : List (Text × Text)} {attr : Text × Text} {p p' : ParamInfo}
    (h : ParamAttrs conv properties p) (hok : paramAttr conv p attr = .ok p') :
    ParamAttrs conv (properties ++ [attr]) p' := by
  have hmem : attr ∈ properties ++ [attr] := List.mem_append_right _ (List.mem_singleton_self attr)
  obtain ⟨hname, htype, hdefault⟩ := h.append attr
  obtain ⟨key, value⟩ := attr
  unfold paramAttr at hok
  split at hok
  · rename_i hkey
    obtain ⟨-, hok⟩ := require_bind_eq_ok_iff.mp hok
    obtain rfl := pure_eq_ok_iff.mp hok
    exact ⟨fun _ => ⟨value, hkey ▸ hmem, rfl⟩, htype, hdefault⟩
  · split at hok
    · rename_i hkey
      obtain ⟨-, hok⟩ := require_bind_eq_ok_iff.mp hok
      split at hok
      · rename_i t ht
        obtain rfl := pure_eq_ok_iff.mp hok
        exact ⟨hname, fun _ => ⟨value, hkey ▸ hmem, ht⟩, hdefault⟩
      · cases hok
    · split at hok
      · rename_i hkey
        obtain ⟨-, hok⟩ := require_bind_eq_ok_iff.mp hok
        obtain rfl := pure_eq_ok_iff.mp hok
        exact ⟨hname, htype, .inr ⟨value, hkey ▸ hmem, rfl⟩⟩
      · cases hok

/-- All attributes of a parameter. -/
theorem paramAttrs_foldlM {properties : List (Text × Text)} {p : ParamInfo}
    (hok : properties.foldlM (paramAttr conv) ⟨[], [], .unknown, []⟩ = .ok p) :
    ParamAttrs conv properties p :=
  foldlM_eq_ok_induction hok ⟨fun h => absurd rfl h, fun h => absurd rfl h, .inl rfl⟩
    fun _ _ _ _ h hstep => h.step hstep

/-- **What a pass over a parameter element has checked and what it adds.** -/
theorem parseParam_eq_ok {d d' : DriverWrapper} {name : Text} {properties : List (Text × Text)}
    {children : List XmlTree} (hok : parseParam conv d (.element name properties children) = .ok d') :
    ∃ p, ParamFor conv (.element name properties children) p ∧ p.paramName ≠ [] ∧
      driverHasParam d p.paramName = false ∧ (p.paramType = .model → d.modelParam = []) ∧
      d' = { d with
        modelParam := if p.paramType = .model then p.paramName else d.modelParam
        paramWrappers := d.paramWrappers ++ [p] } := by
  obtain ⟨helement, hrest⟩ := require_bind_eq_ok_iff.mp hok
  subst helement
  obtain ⟨p, hp, hrest⟩ := bind_eq_ok_iff.mp hrest
  obtain ⟨hname, hrest⟩ := require_bind_eq_ok_iff.mp hrest
  obtain ⟨htype, hrest⟩ := require_bind_eq_ok_iff.mp hrest
  obtain ⟨hnew, hrest⟩ := require_bind_eq_ok_iff.mp hrest
  obtain ⟨d₁, hassign, hrest⟩ := bind_eq_ok_iff.mp hrest
  obtain ⟨desc, hdesc, hrest⟩ := bind_eq_ok_iff.mp hrest
  obtain rfl := pure_eq_ok_iff.mp hrest
  have hattrs := paramAttrs_foldlM hp
  -- the description is the text of the element, if it has one
  have hdescription : children = [] ∧ desc = [] ∨
      ∃ content, children = [.text content] ∧ desc = convXmlstr conv content := by
    unfold paramDesc at hdesc
    split at hdesc
    · rename_i hnil
      exact .inl ⟨hnil, (pure_eq_ok_iff.mp hdesc).symm⟩
    · obtain ⟨content, hcontent, hdesc⟩ := bind_eq_ok_iff.mp hdesc
      exact .inr ⟨content, soleText_eq_ok_iff.mp hcontent, (pure_eq_ok_iff.mp hdesc).symm⟩
  refine ⟨{ p with paramDesc := desc }, ⟨properties, children, rfl, hattrs.name hname,
    hattrs.type htype, hattrs.default, hdescription⟩, hname, hnew, ?_⟩
  -- only one parameter may name the model
  unfold assignModelParam at hassign
  split at hassign
  · rename_i hmodel
    obtain ⟨hempty, hassign⟩ := require_bind_eq_ok_iff.mp hassign
    obtain rfl := pure_eq_ok_iff.mp hassign
    exact ⟨fun _ => hempty, by rw [if_pos hmodel]⟩
  · rename_i hmodel
    obtain rfl := pure_eq_ok_iff.mp hassign
    exact ⟨fun h => absurd h hmodel, by rw [if_neg hmodel]⟩

/-! ### Models -/

/-- The attributes of `<model>` that have been read. -/
structure ModelAttrs (conv : Iconv) (properties : List (Text × Text)) (m : ModelInfo) : Prop where
  id : m.modelNumber ≠ -1 → ∃ v, ("id".toList, v) ∈ properties ∧
    scanUnsigned (convXmlstr conv v) = some m.modelNumber
  manufacturer : if m.manufName = [] then
      ∀ v, ("manufacturer".toList, v) ∈ properties → convXmlstr conv v = []
    else ∃ v, ("manufacturer".toList, v) ∈ properties ∧ m.manufName = convXmlstr conv v

/-- One attribute of a model. -/
theorem ModelAttrs.step {properties : List (Text × Text)} {attr : Text × Text} {m m' : ModelInfo}
    (h : ModelAttrs conv properties m) (hok : modelAttr conv m attr = .ok m') :
    ModelAttrs conv (properties ++ [attr]) m' := by
  have hmem : attr ∈ properties ++ [attr] := List.mem_append_right _ (List.mem_singleton_self attr)
  obtain ⟨key, value⟩ := attr
  have hid : m.modelNumber ≠ -1 → ∃ v, ("id".toList, v) ∈ properties ++ [(key, value)] ∧
      scanUnsigned (convXmlstr conv v) = some m.modelNumber := by
    intro hne
    obtain ⟨v, hv, hm⟩ := h.id hne
    exact ⟨v, List.mem_append_left _ hv, hm⟩
  unfold modelAttr at hok
  split at hok
  · rename_i hkey
    obtain ⟨-, hok⟩ := require_bind_eq_ok_iff.mp hok
    split at hok
    · rename_i n hn
      obtain rfl := pure_eq_ok_iff.mp hok
      refine ⟨fun _ => ⟨value, hkey ▸ hmem, hn⟩, ?_⟩
      -- an `id` is no manufacturer
      have hother : ∀ v, ("manufacturer".toList, v) ∈ properties ++ [(key, value)] ↔
          ("manufacturer".toList, v) ∈ properties := by
        intro v
        rw [List.mem_append, List.mem_singleton, Prod.mk.injEq]
        refine or_iff_left fun hv => ?_
        have hkeys : "manufacturer".toList = "id".toList := hv.1.trans hkey
        exact absurd hkeys (by decide)
      simp only [hother]
      exact h.manufacturer
    · cases hok
  · split at hok
    · rename_i hkey
      obtain ⟨hnone, hok⟩ := require_bind_eq_ok_iff.mp hok
      obtain rfl := pure_eq_ok_iff.mp hok
      refine ⟨hid, ?_⟩
      -- the manufacturer was unset, so that all values before were empty
      have hold := h.manufacturer
      rw [if_pos hnone] at hold
      show if convXmlstr conv value = [] then _ else _
      split
      · rename_i hempty
        intro v hv
        rcases List.mem_append.mp hv with hv | hv
        · exact hold v hv
        · obtain ⟨-, rfl⟩ := Prod.mk.inj (List.mem_singleton.mp hv)
          exact hempty
      · exact ⟨value, hkey ▸ hmem, rfl⟩
    · cases hok

/-- All attributes of a model. -/
theorem modelAttrs_foldlM {properties : List (Text × Text)} {m : ModelInfo}
    (hok : properties.foldlM (modelAttr conv) ⟨-1, [], []⟩ = .ok m) :
    ModelAttrs conv properties m :=
  foldlM_eq_ok_induction hok
    ⟨fun h => absurd rfl h, by rw [if_pos rfl]; exact fun _ hv => absurd hv List.not_mem_nil⟩
    fun _ _ _ _ h hstep => h.step hstep

/-- **What a pass over a model element has checked and what it adds.** -/
theorem parseModel_eq_ok {mfg : Text} {d d' : DriverWrapper} {name : Text}
    {properties : List (Text × Text)} {children : List XmlTree}
    (hok : parseModel conv mfg d (.element name properties children) = .ok d') :
    ∃ m, ModelFor conv mfg (.element name properties children) m ∧
      driverHasModel d m.modelNumber m.modelName = false ∧
      d' = { d with modelWrappers := d.modelWrappers ++ [m] } := by
  obtain ⟨helement, hrest⟩ := require_bind_eq_ok_iff.mp hok
  subst helement
  obtain ⟨m, hm, hrest⟩ := bind_eq_ok_iff.mp hrest
  obtain ⟨hnumber, hrest⟩ := require_bind_eq_ok_iff.mp hrest
  obtain ⟨-, hrest⟩ := require_bind_eq_ok_iff.mp hrest
  obtain ⟨content, hcontent, hrest⟩ := bind_eq_ok_iff.mp hrest
  obtain ⟨hnew, hrest⟩ := require_bind_eq_ok_iff.mp hrest
  obtain rfl := pure_eq_ok_iff.mp hrest
  obtain rfl := soleText_eq_ok_iff.mp hcontent
  have hattrs := modelAttrs_foldlM hm
  refine ⟨⟨m.modelNumber, convXmlstr conv content, if m.manufName = [] then mfg else m.manufName⟩,
    ⟨properties, content, rfl, rfl, hattrs.id hnumber, ?_⟩, hnew, rfl⟩
  have hmanuf := hattrs.manufacturer
  -- without a manufacturer of its own a model has that of the driver
  by_cases hempty : m.manufName = []
  · rw [if_pos hempty] at hmanuf
    exact .inl ⟨if_pos hempty, hmanuf⟩
  · rw [if_neg hempty] at hmanuf
    obtain ⟨v, hv, heq⟩ := hmanuf
    refine .inr ⟨v, hv, ?_, (if_neg hempty).trans heq⟩
    rw [← heq]
    exact hempty

/-! ### Drivers -/

/-- The parameter elements of a driver, over all its blocks and in document order. -/
def paramElements (children : List XmlTree) : List XmlTree :=
  children.flatMap fun
    | .element name _ params => if name = "parameters".toList then params.filter (·.isElement) else []
    | _ => []

/-- The default manufacturer of a block of models, empty if it has none. -/
def blockManufacturer (conv : Iconv) (properties : List (Text × Text)) : Text :=
  ((properties.find? (·.1 = "manufacturer".toList)).map fun attr => convXmlstr conv attr.2).getD []

/-- The model elements of a driver, each with the default of its block. -/
def modelElements (conv : Iconv) (children : List XmlTree) : List (Text × XmlTree) :=
  children.flatMap fun
    | .element name properties models =>
        if name = "models".toList then
          (models.filter (·.isElement)).map fun e => (blockManufacturer conv properties, e)
        else []
    | _ => []

/-- What holds of a driver behind the parameter elements `ps` and the model elements `ms`. -/
structure DriverParsed (conv : Iconv) (ps : List XmlTree) (ms : List (Text × XmlTree))
    (d : DriverWrapper) : Prop where
  params : List.Forall₂ (ParamFor conv) ps d.paramWrappers
  models : List.Forall₂ (fun e => ModelFor conv e.1 e.2) ms d.modelWrappers
  paramNames : d.paramWrappers.Pairwise fun p q => strcaseEq p.paramName q.paramName = false
  modelNumbers : d.modelWrappers.Pairwise fun a b => a.modelNumber ≠ b.modelNumber
  modelNames : d.modelWrappers.Pairwise fun a b => strcaseEq a.modelName b.modelName = false
  paramNonempty : ∀ p ∈ d.paramWrappers, p.paramName ≠ []
  modelParam : (d.paramWrappers.filter (·.paramType = .model)).map (·.paramName) =
    if d.modelParam = [] then [] else [d.modelParam]

variable {ps : List XmlTree} {ms : List (Text × XmlTree)} {d d' : DriverWrapper}

/-- A driver begins without parameters and models. -/
theorem DriverParsed.start (driverName : Text) :
    DriverParsed conv [] [] ⟨driverName, [], [], .unknown, [], []⟩ :=
  ⟨.nil, .nil, .nil, .nil, .nil, fun _ h => absurd h List.not_mem_nil, rfl⟩

/-- One more element that is different from all others. -/
theorem pairwise_concat {α : Type} {R : α → α → Prop} {xs : List α} {x : α} (h : xs.Pairwise R)
    (hx : ∀ y ∈ xs, R y x) : (xs ++ [x]).Pairwise R := by
  refine List.pairwise_append.mpr ⟨h, List.pairwise_singleton _ _, ?_⟩
  intro y hy z hz
  rw [List.mem_singleton.mp hz]
  exact hx y hy

/-- A pass over a child of `<parameters>`. -/
theorem DriverParsed.param (h : DriverParsed conv ps ms d) {e : XmlTree}
    (hok : parseParam conv d e = .ok d') :
    DriverParsed conv (ps ++ [e].filter (·.isElement)) ms d' := by
  rcases e with ⟨name, properties, children⟩ | content | _
  · obtain ⟨p, hfor, hname, hnew, hmodel, rfl⟩ := parseParam_eq_ok hok
    refine ⟨List.rel_append h.params (.cons hfor .nil), h.models, ?_, h.modelNumbers,
      h.modelNames, ?_, ?_⟩
    · refine pairwise_concat h.paramNames fun q hq => ?_
      have := List.any_eq_false.mp hnew q hq
      simpa using this
    · intro q hq
      rcases List.mem_append.mp hq with hq | hq
      · exact h.paramNonempty q hq
      · rw [List.mem_singleton.mp hq]
        exact hname
    · rw [List.filter_append, List.map_append, h.modelParam]
      by_cases htype : p.paramType = .model
      · -- the first parameter of type model
        simp [htype, hmodel htype, hname]
      · simp [htype]
  · obtain rfl := pure_eq_ok_iff.mp hok
    rwa [show [XmlTree.text content].filter (·.isElement) = [] from rfl, List.append_nil]
  · obtain rfl := pure_eq_ok_iff.mp hok
    rwa [show [XmlTree.other].filter (·.isElement) = [] from rfl, List.append_nil]

/-- A pass over a child of `<models>`. -/
theorem DriverParsed.model (h : DriverParsed conv ps ms d) {mfg : Text} {e : XmlTree}
    (hok : parseModel conv mfg d e = .ok d') :
    DriverParsed conv ps (ms ++ ([e].filter (·.isElement)).map (mfg, ·)) d' := by
  rcases e with ⟨name, properties, children⟩ | content | _
  · obtain ⟨m, hfor, hnew, rfl⟩ := parseModel_eq_ok hok
    have hother : ∀ a ∈ d.modelWrappers,
        a.modelNumber ≠ m.modelNumber ∧ strcaseEq a.modelName m.modelName = false := by
      intro a ha
      have := List.any_eq_false.mp hnew a ha
      simpa using this
    exact ⟨h.params, List.rel_append h.models (.cons hfor .nil), h.paramNames,
      pairwise_concat h.modelNumbers fun a ha => (hother a ha).1,
      pairwise_concat h.modelNames fun a ha => (hother a ha).2, h.paramNonempty, h.modelParam⟩
  · obtain rfl := pure_eq_ok_iff.mp hok
    rwa [show [XmlTree.text content].filter (·.isElement) = [] from rfl, List.map_nil,
      List.append_nil]
  · obtain rfl := pure_eq_ok_iff.mp hok
    rwa [show [XmlTree.other].filter (·.isElement) = [] from rfl, List.map_nil, List.append_nil]

/-- The other fields of a driver do not matter. -/
theorem DriverParsed.congr (h : DriverParsed conv ps ms d)
    (hparams : d'.paramWrappers = d.paramWrappers) (hmodels : d'.modelWrappers = d.modelWrappers)
    (hparam : d'.modelParam = d.modelParam) : DriverParsed conv ps ms d' := by
  obtain ⟨h₁, h₂, h₃, h₄, h₅, h₆, h₇⟩ := h
  refine ⟨?_, ?_, ?_, ?_, ?_, ?_, ?_⟩
  · rwa [hparams]
  · rwa [hmodels]
  · rwa [hparams]
  · rwa [hmodels]
  · rwa [hmodels]
  · rwa [hparams]
  · rwa [hparams, hparam]

/-- All children of `<parameters>`. -/
theorem DriverParsed.paramBlock (h : DriverParsed conv ps ms d) {params : List XmlTree}
    (hok : parseDriverParams conv d params = .ok d') :
    DriverParsed conv (ps ++ params.filter (·.isElement)) ms d' := by
  refine foldlM_eq_ok_induction
    (P := fun pre c => DriverParsed conv (ps ++ pre.filter (·.isElement)) ms c) hok ?_ ?_
  · rwa [List.filter_nil, List.append_nil]
  · intro pre e c c' hc hstep
    have := hc.param hstep
    rwa [List.append_assoc, ← List.filter_append] at this

/-- The manufacturer that the attributes give. -/
theorem defaultManufacturer_eq_ok {properties : List (Text × Text)} {mfg : Text}
    (hok : defaultManufacturer conv properties = .ok mfg) :
    mfg = blockManufacturer conv properties := by
  unfold defaultManufacturer at hok
  split at hok
  · exact (pure_eq_ok_iff.mp hok).symm
  · rename_i attr attrs
    obtain ⟨hkey, hok⟩ := require_bind_eq_ok_iff.mp hok
    have hfind : (attr :: attrs).find? (·.1 = "manufacturer".toList) = some attr :=
      List.find?_cons_of_pos (decide_eq_true hkey)
    split at hok
    · unfold blockManufacturer
      rw [hfind]
      exact (pure_eq_ok_iff.mp hok).symm
    · cases hok

/-- All children of `<models>`. -/
theorem DriverParsed.modelBlock (h : DriverParsed conv ps ms d)
    {properties : List (Text × Text)} {models : List XmlTree}
    (hok : parseDriverModels conv d properties models = .ok d') :
    DriverParsed conv ps (ms ++ (models.filter (·.isElement)).map
      fun e => (blockManufacturer conv properties, e)) d' := by
  obtain ⟨mfg, hmfg, hok⟩ := bind_eq_ok_iff.mp hok
  obtain rfl := defaultManufacturer_eq_ok hmfg
  refine foldlM_eq_ok_induction
    (P := fun pre c => DriverParsed conv ps (ms ++ (pre.filter (·.isElement)).map
      fun e => (blockManufacturer conv properties, e)) c) hok ?_ ?_
  · rwa [List.filter_nil, List.map_nil, List.append_nil]
  · intro pre e c c' hc hstep
    have := hc.model hstep
    rwa [List.append_assoc, ← List.map_append, ← List.filter_append] at this

/-- One child of a driver. -/
theorem DriverParsed.child (h : DriverParsed conv ps ms d) {e : XmlTree}
    (hok : parseDriverChild conv d e = .ok d') :
    DriverParsed conv (ps ++ paramElements [e]) (ms ++ modelElements conv [e]) d' := by
  -- a child that is no block of parameters or models adds no elements
  have hnone : ∀ d', DriverParsed conv ps ms d' → paramElements [e] = [] →
      modelElements conv [e] = [] →
      DriverParsed conv (ps ++ paramElements [e]) (ms ++ modelElements conv [e]) d' := by
    intro d' hd' hparams hmodels
    rwa [hparams, hmodels, List.append_nil, List.append_nil]
  rcases e with ⟨name, properties, children⟩ | content | _
  · have hps : paramElements [.element name properties children] =
        if name = "parameters".toList then children.filter (·.isElement) else [] := by
      unfold paramElements
      exact List.flatMap_singleton _ _
    have hms : modelElements conv [.element name properties children] =
        if name = "models".toList then (children.filter (·.isElement)).map
          fun e => (blockManufacturer conv properties, e) else [] := by
      unfold modelElements
      exact List.flatMap_singleton _ _
    change (if name = "description".toList then parseDriverDesc conv d children
      else if name = "interface".toList then parseDriverIntf conv d children
      else if name = "parameters".toList then parseDriverParams conv d children
      else if name = "models".toList then parseDriverModels conv d properties children
      else throw _) = .ok d' at hok
    split at hok
    · rename_i hname
      subst hname
      obtain ⟨-, hok⟩ := require_bind_eq_ok_iff.mp hok
      obtain ⟨-, hok⟩ := require_bind_eq_ok_iff.mp hok
      obtain ⟨content, -, hok⟩ := bind_eq_ok_iff.mp hok
      obtain rfl := pure_eq_ok_iff.mp hok
      exact hnone _ (h.congr rfl rfl rfl) (hps.trans (if_neg (by decide)))
        (hms.trans (if_neg (by decide)))
    · split at hok
      · rename_i hname
        subst hname
        obtain ⟨-, hok⟩ := require_bind_eq_ok_iff.mp hok
        obtain ⟨-, hok⟩ := require_bind_eq_ok_iff.mp hok
        obtain ⟨content, -, hok⟩ := bind_eq_ok_iff.mp hok
        refine hnone _ ?_ (hps.trans (if_neg (by decide))) (hms.trans (if_neg (by decide)))
        split at hok
        · obtain rfl := pure_eq_ok_iff.mp hok
          exact h.congr rfl rfl rfl
        · cases hok
      · split at hok
        · rename_i hname
          subst hname
          rw [hps, if_pos rfl, hms, if_neg (by decide), List.append_nil]
          exact h.paramBlock hok
        · split at hok
          · rename_i hparameters hname
            rw [hps, if_neg hparameters, hms, if_pos hname, List.append_nil]
            exact h.modelBlock hok
          · cases hok
  · obtain rfl := pure_eq_ok_iff.mp hok
    exact hnone _ h rfl rfl
  · obtain rfl := pure_eq_ok_iff.mp hok
    exact hnone _ h rfl rfl

/-! ### The plugin -/

/-- The wrapper of a driver element. -/
def DriverFor (conv : Iconv) (e : XmlTree) (d : DriverWrapper) : Prop :=
  ∃ properties children, e = .element "driver".toList properties children ∧
    DriverParsed conv (paramElements children) (modelElements conv children) d

/-- What holds of a manifest behind the driver elements `es`. -/
structure ManifestParsed (conv : Iconv) (es : List XmlTree) (m : PluginManifest) : Prop where
  drivers : List.Forall₂ (DriverFor conv) es m.driverWrappers
  driverNames : m.driverWrappers.Pairwise fun a b => strcaseEq a.driverName b.driverName = false

variable {es : List XmlTree} {m m' : PluginManifest}

/-- A driver that parses has a new name. -/
theorem parseDriver_eq_ok {name : Text} {properties : List (Text × Text)} {children : List XmlTree}
    (hok : parseDriver conv m (.element name properties children) = .ok m') :
    ∃ d, DriverFor conv (.element name properties children) d ∧
      pluginHasDriver m d.driverName = false ∧
      m' = { m with driverWrappers := m.driverWrappers ++ [d] } := by
  obtain ⟨hname, hrest⟩ := require_bind_eq_ok_iff.mp hok
  obtain ⟨driverName, -, hrest⟩ := bind_eq_ok_iff.mp hrest
  obtain ⟨d, hd, hrest⟩ := bind_eq_ok_iff.mp hrest
  obtain ⟨hnew, hrest⟩ := require_bind_eq_ok_iff.mp hrest
  refine ⟨d, ⟨properties, children, by rw [hname], ?_⟩, hnew, (pure_eq_ok_iff.mp hrest).symm⟩
  refine foldlM_eq_ok_induction
    (P := fun pre c => DriverParsed conv (paramElements pre) (modelElements conv pre) c) hd
    (.start driverName) ?_
  intro pre e c c' hc hstep
  have := hc.child hstep
  rwa [paramElements, modelElements, List.flatMap_append, List.flatMap_append]

/-- A pass over a child of `<plugin>`. -/
theorem ManifestParsed.driver (h : ManifestParsed conv es m) {e : XmlTree}
    (hok : parseDriver conv m e = .ok m') :
    ManifestParsed conv (es ++ [e].filter (·.isElement)) m' ∧ m'.pluginInfo = m.pluginInfo := by
  rcases e with ⟨name, properties, children⟩ | content | _
  · obtain ⟨d, hfor, hnew, rfl⟩ := parseDriver_eq_ok hok
    refine ⟨⟨List.rel_append h.drivers (.cons hfor .nil), ?_⟩, rfl⟩
    refine pairwise_concat h.driverNames fun q hq => ?_
    have := List.any_eq_false.mp hnew q hq
    simpa using this
  · obtain rfl := pure_eq_ok_iff.mp hok
    rw [show [XmlTree.text content].filter (·.isElement) = [] from rfl, List.append_nil]
    exact ⟨h, rfl⟩
  · obtain rfl := pure_eq_ok_iff.mp hok
    rw [show [XmlTree.other].filter (·.isElement) = [] from rfl, List.append_nil]
    exact ⟨h, rfl⟩

/-- The information of a driver is that of its element. -/
structure DriverWellFormed (conv : Iconv) (e : XmlTree) (d : DriverInfo) : Prop where
  paramNames : d.params.Pairwise fun p q => strcaseEq p.paramName q.paramName = false
  modelNumbers : d.models.Pairwise fun a b => a.modelNumber ≠ b.modelNumber
  modelNames : d.models.Pairwise fun a b => strcaseEq a.modelName b.modelName = false
  modelParam : (d.params.filter (·.paramType = .model)).map (·.paramName) =
    if d.modelParam = [] then [] else [d.modelParam]
  counts : d.nParams = d.params.length ∧ d.nModels = d.models.length
  element : ∃ properties children, e = .element "driver".toList properties children ∧
    List.Forall₂ (ParamFor conv) (paramElements children) d.params ∧
    List.Forall₂ (fun e => ModelFor conv e.1 e.2) (modelElements conv children) d.models

/-- What the registry may rely on. -/
structure ManifestWellFormed (conv : Iconv) (children : List XmlTree) (m : PluginManifest) :
    Prop where
  pluginName : m.pluginName ≠ []
  pluginLibrary : m.pluginLibrary ≠ []
  driverNames : m.drivers.Pairwise fun a b => strcaseEq a.driverName b.driverName = false
  drivers : List.Forall₂ (DriverWellFormed conv) (children.filter (·.isElement)) m.drivers
  plugin : ∀ d ∈ m.drivers, d.plugin = m.pluginInfo

/-- Elements that are put behind a list one by one. -/
theorem foldl_concat {α : Type} (xs acc : List α) :
    xs.foldl (fun acc x => acc ++ [x]) acc = acc ++ xs := by
  rw [List.foldl_append_eq_append, ← List.flatMap_def, List.flatMap_singleton']

/-- The pointers lead to the elements, in their order. -/
@[simp] theorem pointers_eq {α : Type} (wrappers : List α) : pointers wrappers = wrappers :=
  foldl_concat wrappers []

/-- They are counted. -/
@[simp] theorem pointerCount_eq {α : Type} (vector : List α) :
    pointerCount vector = vector.length := by
  unfold pointerCount
  split
  · rfl
  · rename_i h
    exact (Nat.eq_zero_of_not_pos h).symm

/-- The information of a driver is that of its wrapper. -/
theorem DriverFor.wellFormed {e : XmlTree} (h : DriverFor conv e d) (plugin : PluginInfo) :
    DriverWellFormed conv e (d.driverInfo plugin) := by
  obtain ⟨properties, children, he, hd⟩ := h
  have hparams : (d.driverInfo plugin).params = d.paramWrappers := pointers_eq _
  have hmodels : (d.driverInfo plugin).models = d.modelWrappers := pointers_eq _
  refine ⟨?_, ?_, ?_, ?_, ⟨pointerCount_eq _, pointerCount_eq _⟩, properties, children, he, ?_, ?_⟩
  · rw [hparams]
    exact hd.paramNames
  · rw [hmodels]
    exact hd.modelNumbers
  · rw [hmodels]
    exact hd.modelNames
  · rw [hparams]
    exact hd.modelParam
  · rw [hparams]
    exact hd.params
  · rw [hmodels]
    exact hd.models

/-- An attribute of the plugin adds no driver. -/
theorem manifestAttr_driverWrappers {attr : Text × Text} (hok : manifestAttr conv m attr = .ok m') :
    m'.driverWrappers = m.driverWrappers := by
  unfold manifestAttr at hok
  split at hok
  · obtain rfl := pure_eq_ok_iff.mp hok
    rfl
  · split at hok
    · obtain rfl := pure_eq_ok_iff.mp hok
      rfl
    · split at hok
      · split at hok
        · obtain rfl := pure_eq_ok_iff.mp hok
          rfl
        · cases hok
      · cases hok

/-- What a manifest that parses was before `setup_pointers`. -/
theorem parseManifest_eq_ok {properties : List (Text × Text)} {children : List XmlTree}
    (hok : parseManifest conv properties children = .ok m') :
    ∃ m, m' = setupPointers m ∧ m.pluginName ≠ [] ∧ m.pluginLibrary ≠ [] ∧
      ManifestParsed conv (children.filter (·.isElement)) m := by
  obtain ⟨m₀, hattrs, hrest⟩ := bind_eq_ok_iff.mp hok
  obtain ⟨hname, hrest⟩ := require_bind_eq_ok_iff.mp hrest
  obtain ⟨hlibrary, hrest⟩ := require_bind_eq_ok_iff.mp hrest
  obtain ⟨m, hdrivers, hrest⟩ := bind_eq_ok_iff.mp hrest
  -- the attributes add no driver
  have hempty : m₀.driverWrappers = [] := by
    apply foldlM_eq_ok_induction (P := fun _ c => c.driverWrappers = []) hattrs rfl
    intro _ attr c c' hc hstep
    exact (manifestAttr_driverWrappers hstep).trans hc
  obtain ⟨hparsed, hinfo⟩ : ManifestParsed conv (children.filter (·.isElement)) m ∧
      m.pluginInfo = m₀.pluginInfo := by
    refine foldlM_eq_ok_induction (P := fun pre c =>
      ManifestParsed conv (pre.filter (·.isElement)) c ∧ c.pluginInfo = m₀.pluginInfo) hdrivers
      ⟨⟨by rw [hempty]; exact .nil, by rw [hempty]; exact .nil⟩, rfl⟩ ?_
    intro pre e c c' hc hstep
    obtain ⟨hdriver, hc'⟩ := hc.1.driver hstep
    rw [List.filter_append]
    exact ⟨hdriver, hc'.trans hc.2⟩
  obtain ⟨hpluginName, hpluginLibrary, -⟩ := PluginInfo.mk.inj hinfo
  refine ⟨m, (pure_eq_ok_iff.mp hrest).symm, ?_, ?_, hparsed⟩
  · rw [hpluginName]
    exact hname
  · rw [hpluginLibrary]
    exact hlibrary

/-- **Manifests that parse are well formed**: plugin and library have names, no two drivers have
the same name, and the drivers are those of the document, in its order, each with its interface,
its parameters and its models. -/
theorem parseManifest_wellFormed {properties : List (Text × Text)} {children : List XmlTree}
    (hok : parseManifest conv properties children = .ok m) :
    ManifestWellFormed conv children m := by
  obtain ⟨m, rfl, hname, hlibrary, hparsed⟩ := parseManifest_eq_ok hok
  refine ⟨hname, hlibrary, List.pairwise_map.mpr hparsed.driverNames, ?_, ?_⟩
  · apply List.forall₂_map_right_iff.mpr
    exact hparsed.drivers.imp fun _ _ h => h.wellFormed _
  · intro d hd
    obtain ⟨w, -, rfl⟩ := List.mem_map.mp hd
    rfl

/-- The attributes of the manifest of the Smart driver. -/
def smartProperties : List (Text × Text) :=
  [("name".toList, "benthosdc-smart".toList), ("library".toList, "smart".toList),
    ("version".toList, "1.0".toList)]

/-- Its children, cut to two models. -/
def smartChildren : List XmlTree :=
  [.other, .element "driver".toList [("name".toList, "smart".toList)]
    [.element "interface".toList [] [.text "irda".toList],
      .element "parameters".toList [] [.element "parameter".toList
        [("name".toList, "lsap".toList), ("type".toList, "int".toList)] []],
      .element "models".toList [("manufacturer".toList, "Uwatec".toList)]
        [.element "model".toList [("id".toList, "16".toList)] [.text "Smart Pro".toList],
          .element "model".toList [("id".toList, "17".toList)] [.text "Galileo Sol".toList]]]]

/-- The manifest of the Smart driver. -/
theorem parseManifest_wellFormed_smart : ∃ m,
    parseManifest some smartProperties smartChildren = .ok m ∧
      ManifestWellFormed some smartChildren m := by
  obtain ⟨m, hok⟩ : ∃ m, parseManifest some smartProperties smartChildren = .ok m := ⟨_, rfl⟩
  exact ⟨m, hok, parseManifest_wellFormed hok⟩

end BenthosDc

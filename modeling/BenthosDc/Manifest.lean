/-
BenthosDc/Manifest.lean

The parser of the plugin manifests (`manifest.cpp`, `wrappers.hpp`).

The elements are those of libxml2, every attribute with its one text child, and the
conversion to ISO-8859-1 is a function of the text.  A pointer to a name, and a pointer
to the information in a wrapper, is given by what it points to once `setup_pointers` has
run.  The texts in `ManifestError.parser` are those of `g_parser_errmsg`.

The parser adds to its structures as it goes and returns at the first error, so it is a chain
in `Except` over the structure so far.  Texts between elements are passed over; an element that
is not known is an error, and so is an attribute.
-/
import BenthosDc.Lib.Checked
import BenthosDc.Lib.CString

namespace BenthosDc

open CString Checked

/-! ### Elements -/

/-- A node: an element with its name, attributes and children, a text, or another node. -/
inductive XmlTree
  | element (name : Text) (properties : List (Text × Text)) (children : List XmlTree)
  | text (content : Text)
  | other

/-- `cur->type == XML_ELEMENT_NODE` -/
def XmlTree.isElement : XmlTree → Bool
  | element _ _ _ => true
  | _ => false

/-- `iconv` from UTF-8, of a text that fits in the buffer; `none` is an error. -/
abbrev Iconv := Text → Option Text

/-- A text that cannot be converted is replaced by a note. -/
def convXmlstr (conv : Iconv) (s : Text) : Text :=
  match conv s with
  | some t => cstr t
  | none => "<invalid utf-8 string>".toList

/-! ### Manifests -/

/-- What can be wrong with a manifest. -/
inductive ManifestError
  | malformed
  | noRoot
  | parser (msg : String)
  | notPlugin
  | noName
  | noLib
  | errno (e : Int)
  deriving DecidableEq

/-- `MANIFEST_ERR_*` -/
def ManifestError.code : ManifestError → Int
  | malformed => -1
  | noRoot => -2
  | parser _ => -3
  | notPlugin => -4
  | noName => -5
  | noLib => -6
  | errno e => e

/-- `param_type_t` -/
inductive ParamType
  | unknown
  | string
  | int
  | uint
  | float
  | model
  deriving DecidableEq

/-- `intf_type_t` -/
inductive IntfType
  | unknown
  | serial
  | usb
  | bluetooth
  | irda
  | network
  deriving DecidableEq

/-- `param_info_t` -/
structure ParamInfo where
  paramName : Text
  paramDesc : Text
  paramType : ParamType
  paramDefault : Text
  deriving DecidableEq

/-- `model_info_t` -/
structure ModelInfo where
  modelNumber : Int
  modelName : Text
  manufName : Text
  deriving DecidableEq

/-- `plugin_info_t` -/
structure PluginInfo where
  pluginName : Text
  pluginLibrary : Text
  version : Nat × Nat × Nat
  deriving DecidableEq

/-- `driver_info_t` -/
structure DriverInfo where
  plugin : PluginInfo
  driverName : Text
  driverDesc : Text
  driverIntf : IntfType
  nParams : Nat
  nModels : Nat
  params : List ParamInfo
  models : List ModelInfo
  modelParam : Text
  deriving DecidableEq

/-- `driver_wrapper_t` while it is parsed.  The wrappers of the parameters and models hold
what their information will point to. -/
structure DriverWrapper where
  driverName : Text
  driverDesc : Text
  modelParam : Text
  driverIntf : IntfType
  paramWrappers : List ParamInfo
  modelWrappers : List ModelInfo

/-- `plugin_manifest_t_`; `drivers` is what `setup_pointers` makes of the wrappers. -/
structure PluginManifest where
  pluginName : Text
  pluginLibrary : Text
  version : Nat × Nat × Nat
  driverWrappers : List DriverWrapper
  drivers : List DriverInfo

/-- A model of the driver has the number or the name. -/
def driverHasModel (d : DriverWrapper) (modelId : Int) (modelName : Text) : Bool :=
  d.modelWrappers.any fun m => m.modelNumber = modelId ∨ strcaseEq m.modelName modelName

/-- A parameter of the driver has the name. -/
def driverHasParam (d : DriverWrapper) (paramName : Text) : Bool :=
  d.paramWrappers.any fun p => strcaseEq p.paramName paramName

/-- A driver of the plugin has the name. -/
def pluginHasDriver (m : PluginManifest) (driverName : Text) : Bool :=
  m.driverWrappers.any fun d => strcaseEq d.driverName driverName

/-! ### The elements of a driver -/

variable (conv : Iconv)

/-- The converted text in quotes or angle brackets, for a message. -/
def shown (s : Text) : String := String.ofList (convXmlstr conv s)

/-- The text of an element with nothing else in it. -/
def soleText (elements : String) : List XmlTree → Except ManifestError Text
  | [.text content] => pure content
  | _ => throw (.parser elements)

/-- `<description>` -/
def parseDriverDesc (d : DriverWrapper) (children : List XmlTree) :
    Except ManifestError DriverWrapper := do
  require (d.driverDesc = []) (.parser "Duplicate <description> element within <driver>")
  require (children ≠ []) (.parser "Empty <description> element within <driver>")
  let content ← soleText "Elements not allowed within <description> element" children
  pure { d with driverDesc := convXmlstr conv content }

/-- The interfaces that are known. -/
def intfOf (content : Text) : Option IntfType :=
  if content = "serial".toList then some .serial
  else if content = "usb".toList then some .usb
  else if content = "bluetooth".toList then some .bluetooth
  else if content = "irda".toList then some .irda
  else if content = "net".toList then some .network
  else none

/-- `<interface>` -/
def parseDriverIntf (d : DriverWrapper) (children : List XmlTree) :
    Except ManifestError DriverWrapper := do
  require (d.driverIntf = .unknown) (.parser "Duplicate <interface> element within <driver>")
  require (children ≠ []) (.parser "Empty <interface> element within <driver>")
  let content ← soleText "Elements not allowed within <interface> element" children
  match intfOf content with
  | some intf => pure { d with driverIntf := intf }
  | none => throw (.parser ("Invalid interface type: '" ++ shown conv content ++ "' within <driver>"))

/-! ### Parameters -/

/-- The types that are known. -/
def paramTypeOf (content : Text) : Option ParamType :=
  if content = "string".toList then some .string
  else if content = "int".toList then some .int
  else if content = "uint".toList then some .uint
  else if content = "float".toList then some .float
  else if content = "model".toList then some .model
  else none

/-- One pass of the loop over the attributes of `<parameter>`. -/
def paramAttr (p : ParamInfo) (attr : Text × Text) : Except ManifestError ParamInfo :=
  if attr.1 = "name".toList then do
    require (p.paramName = []) (.parser "Duplicate 'name' attribute within <parameter>")
    pure { p with paramName := convXmlstr conv attr.2 }
  else if attr.1 = "type".toList then do
    require (p.paramType = .unknown) (.parser "Duplicate 'type' attribute within <parameter>")
    match paramTypeOf attr.2 with
    | some t => pure { p with paramType := t }
    | none => throw (.parser ("Invalid type name: '" ++ shown conv attr.2 ++ "' within <parameter>"))
  else if attr.1 = "default".toList then do
    require (p.paramDefault = []) (.parser "Duplicate 'default' attribute within <parameter>")
    pure { p with paramDefault := convXmlstr conv attr.2 }
  else throw (.parser ("Unsupported Attribute: '" ++ shown conv attr.1 ++ "' within <parameter>"))

/-- The description of a parameter may be missing. -/
def paramDesc (children : List XmlTree) : Except ManifestError Text :=
  if children = [] then pure []
  else do
    let content ← soleText "Elements not allowed within <parameter> element" children
    pure (convXmlstr conv content)

/-- The parameter of type model names the model; there is one at most. -/
def assignModelParam (d : DriverWrapper) (p : ParamInfo) : Except ManifestError DriverWrapper :=
  if p.paramType = .model then do
    require (d.modelParam = []) (.parser "Duplicate parameter of type 'model'")
    pure { d with modelParam := p.paramName }
  else pure d

/-- One pass of the loop of `parse_driver_params`. -/
def parseParam (d : DriverWrapper) : XmlTree → Except ManifestError DriverWrapper
  | .element name properties children => do
      require (name = "parameter".toList)
        (.parser ("Invalid element <" ++ shown conv name ++ "> within <parameters>"))
      let p ← properties.foldlM (paramAttr conv) ⟨[], [], .unknown, []⟩
      require (p.paramName ≠ []) (.parser "Missing 'name' attribute within <parameter>")
      require (p.paramType ≠ .unknown) (.parser "Missing 'type' attribute within <parameter>")
      require (driverHasParam d p.paramName = false)
        (.parser ("Duplicate parameter name '" ++ String.ofList p.paramName ++ "'"))
      let d ← assignModelParam d p
      let desc ← paramDesc conv children
      pure { d with paramWrappers := d.paramWrappers ++ [{ p with paramDesc := desc }] }
  | _ => pure d

/-- The children of `<parameters>`. -/
def parseDriverParams (d : DriverWrapper) (children : List XmlTree) :
    Except ManifestError DriverWrapper :=
  children.foldlM (parseParam conv) d

/-! ### Models -/

/-- `sscanf` with `%u` into an `int` -/
def scanUnsigned (s : Text) : Option Int := (strtoul s).map fun r => (BitVec.ofNat 32 r.1).toInt

/-- The default manufacturer of a `<models>` block. -/
def defaultManufacturer : List (Text × Text) → Except ManifestError Text
  | [] => pure []
  | attr :: attrs => do
      require (attr.1 = "manufacturer".toList)
        (.parser ("Unsupported Attribute: '" ++ shown conv attr.1 ++ "' within <models>"))
      match attrs with
      | [] => pure (convXmlstr conv attr.2)
      | next :: _ =>
          throw (.parser ("Unsupported Attribute: '" ++ shown conv next.1 ++ "' within <models>"))

/-- One pass of the loop over the attributes of `<model>`. -/
def modelAttr (m : ModelInfo) (attr : Text × Text) : Except ManifestError ModelInfo :=
  if attr.1 = "id".toList then do
    let content := convXmlstr conv attr.2
    require (m.modelNumber = -1) (.parser "Duplicate 'id' attribute in <model>")
    match scanUnsigned content with
    | some n => pure { m with modelNumber := n }
    | none =>
        throw (.parser ("Invalid model number '" ++ String.ofList content ++ "' within <model>"))
  else if attr.1 = "manufacturer".toList then do
    require (m.manufName = []) (.parser "Duplicate 'manufactuer' attribute in <model>")
    pure { m with manufName := convXmlstr conv attr.2 }
  else throw (.parser ("Unsupported Attribute: '" ++ shown conv attr.1 ++ "' within <model>"))

/-- One pass of the loop of `parse_driver_models`. -/
def parseModel (mfg : Text) (d : DriverWrapper) : XmlTree → Except ManifestError DriverWrapper
  | .element name properties children => do
      require (name = "model".toList)
        (.parser ("Invalid element <" ++ shown conv name ++ "> within <models>"))
      let m ← properties.foldlM (modelAttr conv) ⟨-1, [], []⟩
      require (m.modelNumber ≠ -1) (.parser "Missing 'id' attribute in <model>")
      let manuf := if m.manufName = [] then mfg else m.manufName
      require (children ≠ []) (.parser "Empty <model> element")
      let content ← soleText "Elements not allowed within <model> element" children
      let modelName := convXmlstr conv content
      require (driverHasModel d m.modelNumber modelName = false)
        (.parser ("Duplicate model number or name '" ++ String.ofList modelName ++ "'"))
      pure { d with modelWrappers := d.modelWrappers ++ [⟨m.modelNumber, modelName, manuf⟩] }
  | _ => pure d

/-- The children of `<models>`, with the manufacturer of the block for those that name none. -/
def parseDriverModels (d : DriverWrapper) (properties : List (Text × Text))
    (children : List XmlTree) : Except ManifestError DriverWrapper := do
  let mfg ← defaultManufacturer conv properties
  children.foldlM (parseModel conv mfg) d

/-! ### Drivers and the plugin -/

/-- One pass of the loop over the attributes of `<driver>`. -/
def driverAttr (_ : Text) (attr : Text × Text) : Except ManifestError Text := do
  require (attr.1 = "name".toList)
    (.parser ("Unsupported Attribute: '" ++ shown conv attr.1 ++ "' within <driver>"))
  pure (convXmlstr conv attr.2)

/-- One pass of the loop over the children of `<driver>`. -/
def parseDriverChild (d : DriverWrapper) : XmlTree → Except ManifestError DriverWrapper
  | .element name properties children =>
      if name = "description".toList then parseDriverDesc conv d children
      else if name = "interface".toList then parseDriverIntf conv d children
      else if name = "parameters".toList then parseDriverParams conv d children
      else if name = "models".toList then parseDriverModels conv d properties children
      else throw (.parser ("Unsupported node <" ++ shown conv name ++ "> within <plugin>"))
  | _ => pure d

/-- One pass of the loop over the children of `<plugin>`, with `parse_driver`. -/
def parseDriver (m : PluginManifest) : XmlTree → Except ManifestError PluginManifest
  | .element name properties children => do
      require (name = "driver".toList)
        (.parser ("Unsupported node <" ++ shown conv name ++ "> within <plugin>"))
      let driverName ← properties.foldlM (driverAttr conv) []
      let d ← children.foldlM (parseDriverChild conv) ⟨driverName, [], [], .unknown, [], []⟩
      require (pluginHasDriver m d.driverName = false)
        (.parser ("Duplicate driver name '" ++ String.ofList d.driverName ++ "' in plugin '" ++
          String.ofList m.pluginName ++ "'"))
      pure { m with driverWrappers := m.driverWrappers ++ [d] }
  | _ => pure m

/-- `%hhu` -/
def scanByte (s : Text) : Option (Nat × Text) := (strtoul s).map fun r => (r.1 % 256, r.2)

/-- `sscanf` with `%hhu.%hhu.%hhu` over the old values; `none` for a negative result. -/
def scanVersion (old : Nat × Nat × Nat) (s : Text) : Option (Nat × Nat × Nat) :=
  if s.dropWhile isSpace = [] then none
  else some <|
    match scanByte s with
    | none => old
    | some (major, '.' :: s) =>
        match scanByte s with
        | none => (major, old.2)
        | some (minor, '.' :: s) =>
            match scanByte s with
            | none => (major, minor, old.2.2)
            | some (patch, _) => (major, minor, patch)
        | some (minor, _) => (major, minor, old.2.2)
    | some (major, _) => (major, old.2)

/-- One pass of the loop over the attributes of `<plugin>`. -/
def manifestAttr (m : PluginManifest) (attr : Text × Text) : Except ManifestError PluginManifest :=
  if attr.1 = "name".toList then pure { m with pluginName := convXmlstr conv attr.2 }
  else if attr.1 = "library".toList then pure { m with pluginLibrary := convXmlstr conv attr.2 }
  else if attr.1 = "version".toList then
    match scanVersion m.version (convXmlstr conv attr.2) with
    | some version => pure { m with version := version }
    | none => throw (.parser ("Invalid version string: '" ++ shown conv attr.2 ++ "'"))
  else throw (.parser ("Unsupported Attribute: '" ++ shown conv attr.1 ++ "' within <plugin>"))

/-- What the drivers are told of their plugin. -/
def PluginManifest.pluginInfo (m : PluginManifest) : PluginInfo :=
  ⟨m.pluginName, m.pluginLibrary, m.version⟩

/-- The loop that fills a cleared vector with the pointers into a list. -/
def pointers {α : Type} (wrappers : List α) : List α :=
  wrappers.foldl (fun vector w => vector ++ [w]) []

/-- The number of pointers is set for a vector that is not empty. -/
def pointerCount {α : Type} (vector : List α) : Nat := if 0 < vector.length then vector.length else 0

/-- One pass of the loop of `setup_pointers`. -/
def DriverWrapper.driverInfo (d : DriverWrapper) (plugin : PluginInfo) : DriverInfo :=
  { plugin := plugin
    driverName := d.driverName
    driverDesc := d.driverDesc
    driverIntf := d.driverIntf
    nParams := pointerCount (pointers d.paramWrappers)
    nModels := pointerCount (pointers d.modelWrappers)
    params := pointers d.paramWrappers
    models := pointers d.modelWrappers
    modelParam := d.modelParam }

/-- The drivers, once their number does not change any more. -/
def setupPointers (m : PluginManifest) : PluginManifest :=
  { m with drivers := m.driverWrappers.map fun d => d.driverInfo m.pluginInfo }

/-- `parse_manifest`, of an element and into a new manifest -/
def parseManifest (properties : List (Text × Text)) (children : List XmlTree) :
    Except ManifestError PluginManifest := do
  let m ← properties.foldlM (manifestAttr conv) ⟨[], [], (0, 0, 0), [], []⟩
  require (m.pluginName ≠ []) .noName
  require (m.pluginLibrary ≠ []) .noLib
  let m ← children.foldlM (parseDriver conv) m
  pure (setupPointers m)

/-- What is found at a path. -/
inductive ManifestFile
  | absent (errno : Int)
  | notRegular (enoent : Int)
  | malformed
  | noRoot
  | document (root : XmlTree)

/-- The file, and the element at its root. -/
def benthosDcManifestParse : ManifestFile → Except ManifestError PluginManifest
  | .absent errno => throw (.errno errno)
  | .notRegular enoent => throw (.errno enoent)
  | .malformed => throw .malformed
  | .noRoot => throw .noRoot
  | .document (.element name properties children) => do
      require (name = "plugin".toList) .notPlugin
      parseManifest conv properties children
  | .document _ => throw .noRoot

end BenthosDc

import DeclGraph.Declaration.SourceUnit
import DeclGraph.Interchange.Graph

/-!
# Documents of declarations

The document forms of declarations and source units.
-/

namespace DeclGraph

open Document

instance : Interchange FilePath where
  write path := .text path.display
  read document := (read document).map FilePath.ofText

instance : Interchange Parameter where
  write parameter := .record
    [("name", write parameter.name), ("type_spelling", write parameter.type),
     ("has_default", write parameter.hasDefault)]
  read document := do
    let fields ← document.fields? ["name", "type_spelling", "has_default"]
    return ⟨← withDefault none fields "name", ← required fields "type_spelling",
      ← required fields "has_default"⟩

instance : Interchange Signature where
  write signature := .record
    [("parameters", write signature.parameters), ("return_type", write signature.returnType),
     ("is_const", write signature.isConst), ("is_variadic", write signature.isVariadic)]
  read document := do
    let fields ← document.fields? ["parameters", "return_type", "is_const", "is_variadic"]
    return ⟨← required fields "parameters", ← withDefault none fields "return_type",
      ← required fields "is_const", ← required fields "is_variadic"⟩

instance : Interchange Receiver where
  write
    | .absent => .text "None"
    | .self => .text "This"
    | .named name => .record [("Variable", write name)]
    | .expression => .text "Expression"
  read document := do
    match ← document.variant? with
    | ("None", .null) => some .absent
    | ("This", .null) => some .self
    | ("Variable", content) => (read content).map .named
    | ("Expression", .null) => some .expression
    | _ => none

/-- The written names of the styles of calls. -/
def callStyleNames : List (String × CallStyle) :=
  [("Plain", .plain), ("Member", .member), ("Construct", .construct)]

instance : Interchange CallStyle where
  write
    | .plain => .text "Plain"
    | .member => .text "Member"
    | .construct => .text "Construct"
  read := choice? callStyleNames

instance : Interchange Call where
  write call := .record
    [("callee", write call.callee), ("receiver", write call.receiver),
     ("style", write call.style), ("arg_count", write call.argumentCount),
     ("line", write call.line)]
  read document := do
    let fields ← document.fields? ["callee", "receiver", "style", "arg_count", "line"]
    return ⟨← required fields "callee", ← required fields "receiver", ← required fields "style",
      ← required fields "arg_count", ← required fields "line"⟩

instance : Interchange Local where
  write held := .record
    [("name", write held.name), ("type_spelling", write held.type), ("line", write held.line)]
  read document := do
    let fields ← document.fields? ["name", "type_spelling", "line"]
    return ⟨← required fields "name", ← required fields "type_spelling",
      ← required fields "line"⟩

instance : Interchange Body where
  write body := .record [("calls", write body.calls), ("locals", write body.locals)]
  read document := do
    let fields ← document.fields? ["calls", "locals"]
    return ⟨← required fields "calls", ← required fields "locals"⟩

/-- The written names of the kinds of scopes. -/
def scopeKindNames : List (String × ScopeKind) :=
  [("Namespace", .namespaceScope), ("Class", .classRecord), ("Struct", .structRecord),
   ("Unknown", .unknown)]

instance : Interchange ScopeKind where
  write
    | .namespaceScope => .text "Namespace"
    | .classRecord => .text "Class"
    | .structRecord => .text "Struct"
    | .unknown => .text "Unknown"
  read := choice? scopeKindNames

instance : Interchange ScopeStep where
  write step := .record [("name", write step.name), ("kind", write step.kind)]
  read document := do
    let fields ← document.fields? ["name", "kind"]
    return ⟨← required fields "name", ← required fields "kind"⟩

/-- The written names of the access levels. -/
def accessNames : List (String × Access) :=
  [("Public", .everyone), ("Protected", .derivedRecords), ("Private", .ownRecord)]

instance : Interchange Access where
  write
    | .everyone => .text "Public"
    | .derivedRecords => .text "Protected"
    | .ownRecord => .text "Private"
  read := choice? accessNames

instance : Interchange Base where
  write base := .record
    [("name", write base.name), ("access", write base.access),
     ("is_virtual", write base.isVirtual)]
  read document := do
    let fields ← document.fields? ["name", "access", "is_virtual"]
    return ⟨← required fields "name", ← required fields "access",
      ← required fields "is_virtual"⟩

instance : Interchange Modifiers where
  write modifiers := .record
    [("is_virtual", write modifiers.isVirtual), ("is_override", write modifiers.isOverride),
     ("is_final", write modifiers.isFinal), ("is_pure", write modifiers.isPure),
     ("is_static", write modifiers.isStatic), ("is_defaulted", write modifiers.isDefaulted),
     ("is_deleted", write modifiers.isDeleted)]
  read document := do
    let fields ← document.fields?
      ["is_virtual", "is_override", "is_final", "is_pure", "is_static", "is_defaulted",
       "is_deleted"]
    return ⟨← required fields "is_virtual", ← required fields "is_override",
      ← required fields "is_final", ← required fields "is_pure", ← required fields "is_static",
      ← required fields "is_defaulted", ← required fields "is_deleted"⟩

instance : Interchange Declaration where
  write declaration := .record
    [("kind", write declaration.kind), ("name", write declaration.name),
     ("scope", write declaration.scope), ("signature", write declaration.signature),
     ("is_definition", write declaration.isDefinition), ("line", write declaration.line),
     ("access", write declaration.access), ("specifiers", write declaration.modifiers),
     ("bases", write declaration.bases),
     ("template_parameters", write declaration.templateParameters),
     ("underlying_type", write declaration.underlyingType),
     ("field_type", write declaration.fieldType), ("body", write declaration.body)]
  read document := do
    let fields ← document.fields?
      ["kind", "name", "scope", "signature", "is_definition", "line", "access", "specifiers",
       "bases", "template_parameters", "underlying_type", "field_type", "body"]
    return {
      kind := ← required fields "kind"
      name := ← required fields "name"
      scope := ← required fields "scope"
      signature := ← withDefault none fields "signature"
      isDefinition := ← required fields "is_definition"
      line := ← required fields "line"
      access := ← withDefault none fields "access"
      modifiers := ← required fields "specifiers"
      bases := ← required fields "bases"
      templateParameters := ← required fields "template_parameters"
      underlyingType := ← withDefault none fields "underlying_type"
      fieldType := ← withDefault none fields "field_type"
      body := ← withDefault none fields "body" }

instance : Interchange Directive where
  write directive := .record
    [("scope", write directive.scope), ("namespace", write directive.opened),
     ("line", write directive.line)]
  read document := do
    let fields ← document.fields? ["scope", "namespace", "line"]
    return ⟨← required fields "scope", ← required fields "namespace",
      ← required fields "line"⟩

/-- A duration is written in whole microseconds, and as the largest word where these
do not fit. -/
def writeTime (time : Duration) : Document := write (min (time.nanoseconds / 1000) maxWord)

/-- A duration is read from a field that gives it in microseconds. -/
def requiredTime (fields : List (String × Document)) (name : String) : Option Duration := do
  let microseconds : Nat ← required fields name
  Duration.ofNanoseconds? (microseconds * 1000)

instance : Interchange SourceUnit where
  write unit := .record
    [("path", write unit.path), ("declarations", write unit.declarations),
     ("using_directives", write unit.directives), ("parse_time", writeTime unit.parseTime),
     ("line_count", write unit.lineCount), ("byte_count", write unit.byteCount)]
  read document := do
    let fields ← document.fields?
      ["path", "declarations", "using_directives", "parse_time", "line_count", "byte_count"]
    return {
      path := ← required fields "path"
      declarations := ← required fields "declarations"
      directives := ← withDefault [] fields "using_directives"
      parseTime := ← requiredTime fields "parse_time"
      lineCount := ← required fields "line_count"
      byteCount := ← required fields "byte_count" }

end DeclGraph

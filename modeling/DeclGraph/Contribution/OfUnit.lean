import DeclGraph.Contribution.Basic
import DeclGraph.Settings

/-!
# From declarations to contributions

Every declaration becomes a mention of its entity, after mentions of those of
its scopes that the unit has not mentioned before, so that a scope is always
mentioned before its members. The types and calls in a declaration become
references as far as the settings ask for them.
-/

namespace DeclGraph

/-- A flag, where it is set. -/
def flagEntry (key : String) (isSet : Bool) : List (String × Value) :=
  if isSet then [(key, .flag true)] else []

/-- An attribute, where it has a value. -/
def optionalEntry (key : String) (value : Option Value) : List (String × Value) :=
  value.toList.map fun value => (key, value)

namespace Mention

/-- The mention of a scope that is known from a qualifier only. -/
def impliedScope (name : ScopedName) : Mention where
  key := .scope name
  kind := .namespaceScope
  attributes := (∅ : Attributes).insert AttributeName.implied (.flag true)
  isDefinition := false
  implied := true

/-- The mention of a scope around a declaration. -/
def ofScope (name : ScopedName) : ScopeKind → Mention
  | .unknown => impliedScope name
  | .namespaceScope => ⟨.scope name, .namespaceScope, ∅, false, false⟩
  | .classRecord => ⟨.scope name, .classRecord, ∅, false, false⟩
  | .structRecord => ⟨.scope name, .structRecord, ∅, false, false⟩

end Mention

namespace Declaration

/-- The attributes of every declaration: where it stands and who may use it. -/
def placeEntries (file : String) (declaration : Declaration) : List (String × Value) :=
  [(AttributeName.sourceFile, .text file),
   (AttributeName.line, .ofCount declaration.line),
   (AttributeName.declaredIn, .texts [file])]
  ++ flagEntry AttributeName.isDefinition declaration.isDefinition
  ++ (if declaration.isDefinition then [(AttributeName.definedIn, .text file)] else [])
  ++ optionalEntry AttributeName.access
      (declaration.access.map fun access => .text access.keyword)
  ++ (if declaration.templateParameters.isEmpty then []
      else [(AttributeName.templateParameters, .texts declaration.templateParameters)])

/-- The names of the callables that a unit declares in a scope. -/
def callablesIn (declarations : List Declaration) (scope : ScopedName) : List String :=
  (declarations.filter fun declaration =>
    declaration.kind.isCallable && declaration.scopeName = scope).map (·.name)

/-- The attributes of a record: its bases and the functions declared in it. -/
def recordEntries (siblings : List Declaration) (declaration : Declaration) :
    List (String × Value) :=
  let methods := callablesIn siblings declaration.scopedName
  flagEntry AttributeName.isStruct (declaration.kind = .structRecord)
  ++ (if declaration.bases.isEmpty then []
      else [(AttributeName.bases, .texts (declaration.bases.map (·.name)))])
  ++ (if methods.isEmpty then []
      else [(AttributeName.methods, .texts (sortedUnion [] methods))])

/-- The attributes that follow from the modifiers of a callable. -/
def modifierEntries (modifiers : Modifiers) : List (String × Value) :=
  flagEntry AttributeName.isVirtual (modifiers.isVirtual || modifiers.isPure)
  ++ flagEntry AttributeName.isOverride (modifiers.isOverride || modifiers.isFinal)
  ++ flagEntry AttributeName.isPure modifiers.isPure
  ++ flagEntry AttributeName.isStatic modifiers.isStatic
  ++ flagEntry AttributeName.isDefaulted modifiers.isDefaulted
  ++ flagEntry AttributeName.isDeleted modifiers.isDeleted

/-- The attributes that follow from the signature of a callable. -/
def signatureEntries : Option Signature → List (String × Value)
  | none => [(AttributeName.parameterTypes, .texts []), (AttributeName.minArity, .ofCount 0)]
  | some signature =>
    [(AttributeName.parameterTypes, .texts signature.parameterTypes),
     (AttributeName.parameterNames, .texts signature.parameterNames),
     (AttributeName.minArity, .ofCount signature.minArity)]
    ++ optionalEntry AttributeName.returnType (signature.returnType.map .text)
    ++ flagEntry AttributeName.isConst signature.isConst
    ++ flagEntry AttributeName.isVariadic signature.isVariadic

/-- The attributes of a kind of entity. -/
def kindEntries (siblings : List Declaration) (declaration : Declaration) :
    List (String × Value) :=
  match declaration.kind with
  | .classRecord | .structRecord => recordEntries siblings declaration
  | .freeFunction | .method | .constructor | .destructor =>
    modifierEntries declaration.modifiers ++ signatureEntries declaration.signature
  | .typeAlias =>
    optionalEntry AttributeName.underlyingType (declaration.underlyingType.map .text)
  | .field =>
    flagEntry AttributeName.isStatic declaration.modifiers.isStatic
    ++ optionalEntry AttributeName.fieldType (declaration.fieldType.map .text)
  | .namespaceScope | .placeholder => []

/-- What a declaration says about its entity. -/
def mention (file : String) (siblings : List Declaration) (declaration : Declaration) :
    Mention where
  key := declaration.key
  kind := declaration.kind
  attributes := Std.ExtTreeMap.ofList
    (placeEntries file declaration ++ kindEntries siblings declaration)
  isDefinition := declaration.isDefinition
  implied := false

/-- The references from the types of a signature. -/
def signatureReferences (owner : EntityKey) (signature : Signature) : List Reference :=
  (signature.parameters.map fun parameter => .parameterType owner parameter.type)
  ++ signature.returnType.toList.map (.returnType owner)

/-- The references from a body. -/
def bodyReferences (settings : Settings) (owner : EntityKey) (parameters : List Parameter)
    (body : Body) : List Reference :=
  (if settings.readTypeUses then
    body.locals.map fun held => .localType owner held.type
   else [])
  ++ (if settings.readCalls && !body.calls.isEmpty then [.body owner parameters body] else [])

/-- The references a declaration makes. -/
def references (settings : Settings) (declaration : Declaration) : List Reference :=
  let owner := declaration.key
  match declaration.kind with
  | .classRecord | .structRecord => declaration.bases.map (.base owner)
  | .freeFunction | .method | .constructor | .destructor =>
    (if settings.readTypeUses then
      declaration.signature.toList.flatMap (signatureReferences owner)
     else [])
    ++ declaration.body.toList.flatMap
        (bodyReferences settings owner ((declaration.signature.map (·.parameters)).getD []))
  | .typeAlias => declaration.underlyingType.toList.map (.aliasTarget owner)
  | .field =>
    if settings.readTypeUses then declaration.fieldType.toList.map (.fieldType owner) else []
  | .namespaceScope | .placeholder => []

end Declaration

namespace SourceUnit

/-- The scopes around a declaration that were not mentioned before. -/
def newScopes (mentioned : List ScopedName) (declaration : Declaration) :
    List (ScopedName × ScopeKind) :=
  declaration.enclosing.filter fun scope => !mentioned.contains scope.1

/-- The scope that a declaration itself declares, if it declares one. -/
def ownScope (declaration : Declaration) : List ScopedName :=
  if declaration.kind.family = .scope then [declaration.key.name] else []

/-- The mentions of a list of declarations. `mentioned` holds the scopes that
were mentioned before. -/
def mentionsFrom (file : String) (siblings : List Declaration) (mentioned : List ScopedName) :
    List Declaration → List Mention
  | [] => []
  | declaration :: rest =>
    let scopes := newScopes mentioned declaration
    scopes.map (fun scope => Mention.ofScope scope.1 scope.2)
      ++ declaration.mention file siblings
      :: mentionsFrom file siblings
          (mentioned ++ scopes.map (·.1) ++ ownScope declaration) rest

/-- What a unit contributes. -/
def contribution (settings : Settings) (unit : SourceUnit) : Contribution where
  path := unit.path
  mentions := mentionsFrom unit.path.display unit.declarations [] unit.declarations
  references := unit.declarations.flatMap (Declaration.references settings)
  directives := unit.directives

end SourceUnit

end DeclGraph

import DeclGraph.Linking.Basic

/-!
# Linking types

The types in aliases, bases, data members, signatures and bodies. Template
parameters in force name no entity. Aliases come first, since lookups see
through them, then bases, since lookups search them.
-/

namespace DeclGraph.Linking

/-- Whether a node other than the referring one is a type. -/
def isOtherType (referrer : Nat) (node : Node) : Bool :=
  node.kind.isType && node.id != referrer

/-- The type that a name means for a referring node, or its stand-in. A template
parameter means none. -/
def namedType (viewpoint : Viewpoint) (referrer : Nat) (purpose : LookupPurpose)
    (name : String) : Step (Option Nat) := do
  let catalogue := (← get).catalogue
  if (catalogue.templateParameters referrer).contains name then
    return none
  else
    match (catalogue.resolveFrom viewpoint (isOtherType referrer) name
        (catalogue.scopeOf referrer)).head? with
    | some found => return some found
    | none => return some (← substitute viewpoint referrer name purpose)

/-- Links a node to the type that a name means. -/
def linkName (viewpoint : Viewpoint) (referrer : Nat) (purpose : LookupPurpose)
    (role name : String) : Step Unit := do
  match ← namedType viewpoint referrer purpose name with
  | some target => useType role referrer target
  | none => pure ()

/-- Links a node to every type that a spelling names. -/
def linkSpelling (viewpoint : Viewpoint) (purpose : LookupPurpose) (role spelling : String)
    (referrer : Nat) : Step Unit :=
  (Spelling.references spelling).forM (linkName viewpoint referrer purpose role)

/-- Links an alias to what it stands for and to the template arguments of that.
A spelling that names nothing gets a stand-in of its own, which is not
unresolved. -/
def linkAliasTarget (viewpoint : Viewpoint) (spelling : String) (owner : Nat) : Step Unit := do
  match Spelling.references spelling with
  | [] =>
    let target ← perform (Catalogue.placeholder (Spelling.canonical spelling))
    useType "alias" owner target
  | name :: arguments =>
    linkName viewpoint owner .aliasTarget "alias" name
    arguments.forM (linkName viewpoint owner .aliasTarget "template_argument")

/-- Links a record to one of its bases. No record is its own base. -/
def linkBase (viewpoint : Viewpoint) (base : Base) (derived : Nat) : Step Unit := do
  match ← namedType viewpoint derived .base (Spelling.withoutArguments base.name) with
  | none => pure ()
  | some found =>
    let target := (← get).catalogue.dealias found
    if target ≠ derived then
      relate derived target .inherits
        ((∅ : Attributes).insert AttributeName.inheritanceAccess (.text base.access.keyword))

/-- Links a data member, and the record that holds it, to one type that its type
names. -/
def linkFieldName (viewpoint : Viewpoint) (field : Nat) (name : String) : Step Unit := do
  match ← namedType viewpoint field .fieldType name with
  | none => pure ()
  | some target =>
    useType "field" field target
    let node ← perform (Catalogue.Action.reading fun graph => graph.node field)
    relate ((← get).catalogue.scopeOf field) target .hasField
      ((∅ : Attributes).insert AttributeName.viaFields (.texts [node.key.name.simple]))

/-- Links a data member, and the record that holds it, to its types. -/
def linkField (viewpoint : Viewpoint) (spelling : String) (field : Nat) : Step Unit :=
  (Spelling.references spelling).forM (linkFieldName viewpoint field)

/-- Links the aliases among the references. -/
def linkAliases (references : List SeenReference) : Step Unit :=
  references.forM fun
    | (viewpoint, .aliasTarget owner spelling) =>
      forEntity owner (linkAliasTarget viewpoint spelling)
    | _ => pure ()

/-- Links the bases among the references. -/
def linkBases (references : List SeenReference) : Step Unit :=
  references.forM fun
    | (viewpoint, .base derived base) => forEntity derived (linkBase viewpoint base)
    | _ => pure ()

/-- Links the data members among the references. -/
def linkFields (references : List SeenReference) : Step Unit :=
  references.forM fun
    | (viewpoint, .fieldType owner spelling) => forEntity owner (linkField viewpoint spelling)
    | _ => pure ()

/-- Links the types of signatures among the references. -/
def linkSignatures (references : List SeenReference) : Step Unit :=
  references.forM fun
    | (viewpoint, .parameterType owner spelling) =>
      forEntity owner (linkSpelling viewpoint .parameterType "parameter" spelling)
    | (viewpoint, .returnType owner spelling) =>
      forEntity owner (linkSpelling viewpoint .returnType "return" spelling)
    | _ => pure ()

/-- Links the types of variables among the references. -/
def linkLocals (references : List SeenReference) : Step Unit :=
  references.forM fun
    | (viewpoint, .localType owner spelling) =>
      forEntity owner (linkSpelling viewpoint .localType "local" spelling)
    | _ => pure ()

end DeclGraph.Linking

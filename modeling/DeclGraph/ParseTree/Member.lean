import DeclGraph.ParseTree.Record

/-!
# Data members and aliases in a parse tree
-/

namespace DeclGraph

/-- What a type definition declares: perhaps a record, and the type for which
its names stand. -/
structure TypedefPlan where
  record : Option RecordHead
  /-- The type as spelled, or the name of the record. -/
  target : String
deriving DecidableEq, Repr

namespace SourceText

variable (source : SourceText)

/-- The spelling of the type of a data member. A pointer to a function keeps its
spelling around the name. -/
def fieldSpelling (declaration declarator name : ParseTree) : String :=
  match declaration.child? "type" with
  | none => ""
  | some type =>
    match declarator.peel with
    | (inner, marks) =>
      if inner.kind = "function_declarator" then
        source.sliceWithout type.info.start declarator.info.stop name
      else source.typeSpelling declaration type marks

/-- The declaration of a data member. -/
def field? (scope : List ScopeStep) (access : Option Access)
    (declaration declarator : ParseTree) : Option Declaration := do
  let name ← declarator.declaredName?
  some {
    kind := .field
    name := source.spelling name
    scope
    line := name.line
    access
    modifiers := { isStatic := source.hasWord declaration "storage_class_specifier" "static" }
    fieldType := some (Spelling.canonical (source.fieldSpelling declaration declarator name)) }

/-- The declaration of an alias. -/
def alias? (scope : List ScopeStep) (access : Option Access)
    (templateParameters : List String) (tree : ParseTree) : Option Declaration := do
  let name ← tree.child? "name"
  let type ← tree.child? "type"
  some {
    kind := .typeAlias
    name := source.spelling name
    scope
    isDefinition := true
    line := tree.line
    access
    templateParameters
    underlyingType := some (Spelling.canonical (source.spelling type)) }

/-- The name that a type definition gives to a record without one: the first of
its names that stands for the record itself. -/
def namelessRecordName? (declarators : List ParseTree) : Option String :=
  (declarators.findSome? fun declarator =>
    match declarator.peel with
    | (inner, marks) =>
      if marks.isEmpty && inner.kind = "type_identifier" then some inner else none).map
    source.spelling

/-- What a type definition declares. A record without a name that gets none is
no use. -/
def typedefPlan? (tree : ParseTree) : Option TypedefPlan := do
  let type ← tree.child? "type"
  match recordKind? type with
  | none => some ⟨none, Spelling.canonical (source.spelling type)⟩
  | some kind =>
    match type.child? "name" with
    | some name =>
      let spelled := source.plainSpelling name
      some ⟨(type.child? "body").map fun _ => ⟨kind, spelled⟩, spelled⟩
    | none =>
      let name ← source.namelessRecordName? (tree.childrenLabelled "declarator")
      some ⟨some ⟨kind, name⟩, name⟩

/-- The name of the record that a type definition speaks of, if it speaks of
one. -/
def typedefRecordName? (plan : TypedefPlan) (tree : ParseTree) : Option String := do
  let _ ← recordKind? (← tree.child? "type")
  some (ScopedName.ofSpelling plan.target).simple

/-- The name that a declarator of a type definition introduces and the type it
stands for. -/
def typedefTarget? (plan : TypedefPlan) (tree declarator : ParseTree) :
    Option (ParseTree × String) := do
  match declarator.peel with
  | (inner, marks) =>
    if inner.kind = "type_identifier" then
      some (inner, source.qualifiers tree ++ " " ++ plan.target ++ marks)
    else
      let name ← declarator.declaredTypeName?
      let type ← tree.child? "type"
      some (name, source.sliceWithout type.info.start declarator.info.stop name)

/-- The alias that a declarator of a type definition introduces. A record that
is given its own name gets no alias. -/
def typedefAlias? (scope : List ScopeStep) (access : Option Access) (plan : TypedefPlan)
    (tree declarator : ParseTree) : Option Declaration := do
  let (name, underlying) ← source.typedefTarget? plan tree declarator
  let spelled := source.spelling name
  if declarator.peel.2.isEmpty && typedefRecordName? plan tree == some spelled then none
  else
    some {
      kind := .typeAlias
      name := spelled
      scope
      isDefinition := true
      line := declarator.line
      access
      underlyingType := some (Spelling.canonical underlying) }

end SourceText

end DeclGraph

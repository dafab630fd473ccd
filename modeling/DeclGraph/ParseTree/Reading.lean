import DeclGraph.Declaration.SourceUnit
import DeclGraph.ParseTree.FunctionBody
import DeclGraph.ParseTree.Member

/-!
# Reading declarations from a parse tree

A parse tree is read in document order. The reader keeps track of the scopes
around its place, of the access in force in the record around it and of the
template parameters that wait for their declaration. Leaving a scope restores
what held outside of it.
-/

namespace DeclGraph

/-- What a node of a parse tree means to the reader. -/
inductive Construct where
  | namespaceBlock
  | record (kind : EntityKind)
  | functionDefinition
  | declaration
  | memberDeclaration
  | template
  | aliasDeclaration
  | typeDefinition
  | accessLabel
  | usingDirective
  /-- A block that only says how its contents are linked. -/
  | linkage
  /-- A node with nothing to read at or below it. -/
  | skipped
  /-- A node that is read child by child. -/
  | transparent
deriving DecidableEq, Repr

/-- The meaning of a kind of node. -/
def Construct.ofKind : String → Construct
  | "namespace_definition" => .namespaceBlock
  | "class_specifier" => .record .classRecord
  | "struct_specifier" => .record .structRecord
  | "function_definition" => .functionDefinition
  | "declaration" => .declaration
  | "field_declaration" => .memberDeclaration
  | "template_declaration" => .template
  | "alias_declaration" => .aliasDeclaration
  | "type_definition" => .typeDefinition
  | "access_specifier" => .accessLabel
  | "using_declaration" => .usingDirective
  | "linkage_specification" => .linkage
  | "compound_statement" | "enum_specifier" | "union_specifier" | "friend_declaration"
  | "namespace_alias_definition" | "static_assert_declaration" | "expression_statement"
  | "preproc_include" | "preproc_def" | "preproc_function_def" | "preproc_call"
  | "comment" => .skipped
  | _ => .transparent

/-- Where the reader stands and what it has found so far. -/
structure Reading where
  /-- The scopes around the place, outermost first. -/
  scope : List ScopeStep
  /-- The access in force; there is one only inside a record. -/
  access : Option Access
  /-- The template parameters that wait for their declaration. -/
  templateParameters : List String
  declarations : List Declaration
  directives : List Directive
deriving DecidableEq, Repr

namespace Reading

/-- The reader in front of a text. -/
def start : Reading := ⟨[], none, [], [], []⟩

/-- Notes declarations that have taken up the waiting template parameters. -/
def declare (reading : Reading) (declarations : List Declaration) : Reading :=
  { reading with
    templateParameters := []
    declarations := reading.declarations ++ declarations }

/-- Notes declarations that leave template parameters alone. -/
def note (reading : Reading) (declarations : List Declaration) : Reading :=
  { reading with declarations := reading.declarations ++ declarations }

/-- The names of a namespace block, outermost first. -/
def namespaceNames (source : SourceText) (tree : ParseTree) : List String :=
  match tree.child? "name" with
  | some name =>
    (ScopedName.ofSpelling (Spelling.canonical (source.spelling name))).segments
  | none => [source.path.unnamedNamespace]

/-- Enters one namespace. -/
def enterNamespace (line : Nat) (reading : Reading) (name : String) : Reading :=
  { reading with
    scope := reading.scope ++ [⟨name, .namespaceScope⟩]
    declarations := reading.declarations ++
      [{ kind := .namespaceScope, name, scope := reading.scope, isDefinition := true, line }] }

/-- Enters the namespaces of a block. No access is in force inside. -/
def openNamespace (source : SourceText) (tree : ParseTree) (reading : Reading) : Reading :=
  { (namespaceNames source tree).foldl (enterNamespace tree.line) reading with access := none }

/-- Leaves a namespace block: the scopes that it opened are dropped again. -/
def closeNamespace (outside inside : Reading) : Reading :=
  { inside with
    scope := inside.scope.take outside.scope.length
    access := outside.access }

/-- Enters the body of a record that was just declared. -/
def enterRecord (head : RecordHead) (declaration : Declaration) (reading : Reading) : Reading :=
  let step : ScopeStep :=
    ⟨declaration.name, if head.kind = .structRecord then .structRecord else .classRecord⟩
  { reading.declare [declaration] with
    scope := declaration.scope ++ [step]
    access := some (defaultAccess head.kind) }

/-- Leaves a record and stands again as before it, with what was found in it. -/
def leaveTo (outside inside : Reading) : Reading :=
  { inside with scope := outside.scope, access := outside.access }

/-- The declaration of a record at the reader's place. -/
def recordAt? (source : SourceText) (reading : Reading) (head : RecordHead)
    (tree : ParseTree) : Option Declaration :=
  source.record? reading.scope reading.access reading.templateParameters head tree

/-- The declaration of a callable at the reader's place. -/
def callableAt? (source : SourceText) (reading : Reading) (declaration function : ParseTree)
    (marks : String) : Option Declaration :=
  source.callable? reading.scope reading.access reading.templateParameters declaration
    function marks

/-- A defined callable. Its body is read where calls are wanted. -/
def withBody (source : SourceText) (tree : ParseTree) (declaration : Declaration) :
    Declaration :=
  { declaration with
    isDefinition := true
    body := if source.readCalls then (tree.child? "body").map source.functionBody else none }

/-- Reads the definition of a function. -/
def addFunction (source : SourceText) (reading : Reading) (tree : ParseTree) : Reading :=
  match (tree.child? "declarator").map ParseTree.peel with
  | none => reading
  | some (function, marks) =>
    if function.kind ≠ "function_declarator" then reading
    else
      match reading.callableAt? source tree function marks with
      | none => reading
      | some declaration => reading.declare [withBody source tree declaration]

/-- A callable that is declared without a body. Where the body is the default
one or none is allowed, the declaration is the definition. -/
def announced (declaration : Declaration) : Declaration :=
  if declaration.modifiers.isDefaulted || declaration.modifiers.isDeleted then
    { declaration with isDefinition := true }
  else declaration

/-- The callable that a declarator declares, if it declares one. -/
def prototype? (source : SourceText) (reading : Reading) (tree declarator : ParseTree) :
    Option Declaration :=
  match declarator.peel with
  | (inner, marks) =>
    if inner.kind = "function_declarator" ∧ inner.isFunctionPointer = false then
      (reading.callableAt? source tree inner marks).map announced
    else none

/-- Reads the callables of a declaration. Variables are not read. -/
def addPrototypes (source : SourceText) (tree : ParseTree) (reading : Reading) : Reading :=
  reading.declare
    ((tree.childrenLabelled "declarator").filterMap (reading.prototype? source tree))

/-- Whether a declarator declares a callable rather than a data member. -/
def declaresCallable (declarator : ParseTree) : Bool :=
  declarator.peel.1.kind = "function_declarator" && !declarator.peel.1.isFunctionPointer

/-- The callable or the data member that a declarator in a record declares. -/
def memberAt? (source : SourceText) (reading : Reading) (tree declarator : ParseTree) :
    Option Declaration :=
  if declaresCallable declarator then reading.prototype? source tree declarator
  else source.field? reading.scope reading.access tree declarator

/-- Reads the callables and data members of a declaration in a record. -/
def addMembers (source : SourceText) (tree : ParseTree) (reading : Reading) : Reading :=
  reading.declare
    ((tree.childrenLabelled "declarator").filterMap (reading.memberAt? source tree))

/-- Reads an alias. -/
def addAlias (source : SourceText) (reading : Reading) (tree : ParseTree) : Reading :=
  match source.alias? reading.scope reading.access reading.templateParameters tree with
  | none => reading
  | some declaration => reading.declare [declaration]

/-- Reads the aliases that a type definition introduces. -/
def addTypedefAliases (source : SourceText) (plan : TypedefPlan) (tree : ParseTree)
    (reading : Reading) : Reading :=
  reading.note ((tree.childrenLabelled "declarator").filterMap
    (source.typedefAlias? reading.scope reading.access plan tree))

/-- Changes the access in force, inside a record. -/
def changeAccess (source : SourceText) (reading : Reading) (tree : ParseTree) : Reading :=
  match reading.access, accessNamed? (source.spelling tree) with
  | some _, some access => { reading with access := some access }
  | _, _ => reading

/-- Reads a directive that opens a namespace. A declaration that brings in a
single name opens none. -/
def addDirective (source : SourceText) (reading : Reading) (tree : ParseTree) : Reading :=
  if tree.hasChildOf "namespace" then
    match tree.children.find? fun child =>
        ["identifier", "namespace_identifier", "qualified_identifier"].contains child.kind with
    | none => reading
    | some target =>
      let directive : Directive :=
        ⟨⟨reading.scope.map (·.name)⟩, Spelling.canonical (source.spelling target), tree.line⟩
      { reading with directives := reading.directives ++ [directive] }
  else reading

/-- The names of the parameters of a template. -/
def templateNames (source : SourceText) (tree : ParseTree) : List String :=
  match tree.child? "parameters" with
  | none => []
  | some list =>
    (list.namedChildren.filterMap ParseTree.templateParameterName?).map source.spelling

/-- Whether a child of a template is part of what is declared. -/
def isTemplated (info : NodeInfo) : Bool :=
  info.named && info.kind ≠ "template_parameter_list" && info.kind ≠ "requires_clause"

mutual

/-- Reads a tree. -/
def visit (source : SourceText) (reading : Reading) : ParseTree → Reading
  | .node info children =>
    let tree := ParseTree.node info children
    match Construct.ofKind info.kind with
    | .namespaceBlock =>
      closeNamespace reading (visitBody source (reading.openNamespace source tree) children)
    | .record _ =>
      match source.recordHead? tree with
      | none => reading
      | some head =>
        match reading.recordAt? source head tree with
        | none => reading
        | some declaration =>
          if declaration.isDefinition then
            leaveTo reading (visitBody source (reading.enterRecord head declaration) children)
          else reading.declare [declaration]
    | .functionDefinition => reading.addFunction source tree
    | .declaration =>
      (visitType source reading source.embeddedHead? children).addPrototypes source tree
    | .memberDeclaration =>
      (visitType source reading source.embeddedHead? children).addMembers source tree
    | .template =>
      { visitTemplated source
          { reading with templateParameters := templateNames source tree } children with
        templateParameters := reading.templateParameters }
    | .aliasDeclaration => reading.addAlias source tree
    | .typeDefinition =>
      match source.typedefPlan? tree with
      | none => reading
      | some plan =>
        (visitType source reading (fun _ => plan.record) children).addTypedefAliases source
          plan tree
    | .accessLabel => reading.changeAccess source tree
    | .usingDirective => reading.addDirective source tree
    | .linkage => visitLinked source reading children
    | .skipped => reading
    | .transparent => visitAll source reading children

/-- Reads trees one after the other. -/
def visitAll (source : SourceText) (reading : Reading) : List ParseTree → Reading
  | [] => reading
  | tree :: rest => visitAll source (visit source reading tree) rest

/-- Reads the children of the first tree that is labelled as a body. -/
def visitBody (source : SourceText) (reading : Reading) : List ParseTree → Reading
  | [] => reading
  | .node info children :: rest =>
    if info.label = "body" then visitAll source reading children
    else visitBody source reading rest

/-- Reads the first tree that is labelled as a body. -/
def visitLinked (source : SourceText) (reading : Reading) : List ParseTree → Reading
  | [] => reading
  | .node info children :: rest =>
    if info.label = "body" then visit source reading (.node info children)
    else visitLinked source reading rest

/-- Reads the record that the first tree labelled as a type declares, as far as
`head` finds one in it. -/
def visitType (source : SourceText) (reading : Reading)
    (head : ParseTree → Option RecordHead) : List ParseTree → Reading
  | [] => reading
  | .node info children :: rest =>
    let tree := ParseTree.node info children
    if info.label = "type" then
      match head tree with
      | none => reading
      | some head =>
        match reading.recordAt? source head tree with
        | none => reading
        | some declaration =>
          if declaration.isDefinition then
            leaveTo reading (visitBody source (reading.enterRecord head declaration) children)
          else reading.declare [declaration]
    else visitType source reading head rest

/-- Reads what a template declares. -/
def visitTemplated (source : SourceText) (reading : Reading) : List ParseTree → Reading
  | [] => reading
  | .node info children :: rest =>
    visitTemplated source
      (if isTemplated info then visit source reading (.node info children) else reading) rest

end

end Reading

end DeclGraph

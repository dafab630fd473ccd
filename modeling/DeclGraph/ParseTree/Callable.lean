import DeclGraph.Declaration.Basic
import DeclGraph.ParseTree.Declarator
import DeclGraph.ParseTree.SourceText
import DeclGraph.Spelling.Canonical
import DeclGraph.Spelling.Template

/-!
# Callables in a parse tree

The name, the parameters, the result type and the modifiers of a callable, read
from the declaration around it and from its function declarator.
-/

namespace DeclGraph.SourceText

variable (source : SourceText)

/-- The canonical spelling of a node without template arguments. -/
def plainSpelling (tree : ParseTree) : String :=
  Spelling.withoutArguments (Spelling.canonical (source.spelling tree))

/-- Whether a child of a kind has a spelling. -/
def hasWord (tree : ParseTree) (kind word : String) : Bool :=
  tree.children.any fun child => child.kind = kind && source.spelling child = word

/-- The qualifiers among the specifiers of a declaration. -/
def qualifiers (tree : ParseTree) : String :=
  let words := (tree.children.filter (·.kind = "type_qualifier")).map source.spelling
  " ".intercalate (words.filter Spelling.qualifierWords.contains)

/-- The spelling of a declared type: qualifiers, type and the marks of the
declarator. -/
def typeSpelling (declaration type : ParseTree) (marks : String) : String :=
  source.qualifiers declaration ++ " " ++ source.spelling type ++ marks

/-- The byte at which a parameter ends and its default value begins. -/
def parameterEnd (tree : ParseTree) : Nat :=
  match tree.children.find? (·.kind = "=") with
  | some sign => sign.info.start
  | none =>
    match tree.child? "default_value" with
    | some value => value.info.start
    | none => tree.info.stop

/-- A parameter of a callable. -/
def parameter (tree : ParseTree) : Parameter :=
  let hasDefault : Bool := tree.kind = "optional_parameter_declaration"
  let stop := if hasDefault then parameterEnd tree else tree.info.stop
  let name := (tree.child? "declarator").bind ParseTree.declaredName?
  let type := match name with
    | some name => source.sliceWithout tree.info.start stop name
    | none => source.slice tree.info.start stop
  ⟨name.map source.spelling, Spelling.canonicalParameter type, hasDefault⟩

/-- Whether the parameters are a single nameless `void`, which stands for
none. -/
def isVoidOnly : List Parameter → Bool
  | [parameter] => parameter.name.isNone && parameter.type = "void"
  | _ => false

/-- The parameters of a function declarator. -/
def parameters (function : ParseTree) : List Parameter :=
  let trees := ((function.child? "parameters").map (·.children)).getD []
  let listed := (trees.filter fun tree =>
    tree.kind = "parameter_declaration" || tree.kind = "optional_parameter_declaration").map
    source.parameter
  if isVoidOnly listed then [] else listed

/-- Whether the parameters of a function declarator end in an ellipsis. -/
def isVariadic (function : ParseTree) : Bool :=
  (((function.child? "parameters").map (·.children)).getD []).any fun tree =>
    tree.kind = "variadic_parameter_declaration" || tree.kind = "..."

/-- The kind of a callable, as far as its name and its scopes tell. -/
def callableKind (scope : List ScopeStep) (name : String) : EntityKind :=
  match scope.getLast? with
  | none => .freeFunction
  | some around =>
    if name.toList.head? = some '~' then .destructor
    else if around.kind ≠ .namespaceScope ∧ Spelling.withoutArguments around.name = name then
      .constructor
    else if around.kind.isRecord then .method
    else .freeFunction

/-- Whether a pure mark stands among the children: a zero behind an equals
sign. -/
def hasPureZero : List ParseTree → Bool
  | [] => false
  | [_] => false
  | sign :: value :: rest =>
    (sign.kind = "=" && value.kind = "number_literal" && source.spelling value = "0")
      || hasPureZero (value :: rest)

/-- The modifiers of a callable, in front of and behind its declarator. -/
def modifiers (declaration function : ParseTree) : Modifiers :=
  let isPure :=
    declaration.hasChildOf "pure_virtual_clause" || source.hasPureZero declaration.children
  let isFinal := source.hasWord function "virtual_specifier" "final"
  { isVirtual :=
      ["virtual", "virtual_function_specifier", "function_specifier"].any
        (source.hasWord declaration · "virtual") || isPure
    isOverride := source.hasWord function "virtual_specifier" "override" || isFinal
    isFinal
    isPure
    isStatic := source.hasWord declaration "storage_class_specifier" "static"
    isDefaulted := declaration.hasChildOf "default_method_clause"
    isDeleted := declaration.hasChildOf "delete_method_clause" }

/-- The result type of a callable; constructors and destructors have none. -/
def returnType? (kind : EntityKind) (declaration : ParseTree) (marks : String) :
    Option String :=
  if kind = .constructor ∨ kind = .destructor then none
  else
    (declaration.child? "type").map fun type =>
      Spelling.canonical (source.typeSpelling declaration type marks)

/-- The scopes that a qualified name adds: all its segments but the last. -/
def qualifierSteps (name : ScopedName) : List ScopeStep :=
  name.segments.dropLast.map fun segment => ⟨segment, .unknown⟩

/-- The declaration of a callable inside the scopes around it. `marks` are the
marks around the function declarator, which belong to the result type. -/
def callable? (scope : List ScopeStep) (access : Option Access)
    (templateParameters : List String) (declaration function : ParseTree) (marks : String) :
    Option Declaration := do
  let name := ScopedName.ofSpelling (source.plainSpelling (← function.child? "declarator"))
  if name.isGlobal then none
  else
    let inner := scope ++ qualifierSteps name
    let kind := callableKind inner name.simple
    some {
      kind
      name := name.simple
      scope := inner
      signature := some {
        parameters := source.parameters function
        returnType := source.returnType? kind declaration marks
        isConst := source.hasWord function "type_qualifier" "const"
        isVariadic := isVariadic function }
      line := function.line
      access
      modifiers := source.modifiers declaration function
      templateParameters }

end DeclGraph.SourceText

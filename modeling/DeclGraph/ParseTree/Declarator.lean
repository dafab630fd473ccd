import DeclGraph.ParseTree.Basic

/-!
# Declarators

A declarator wraps the declared name in pointer, reference, array and parameter
marks. Peeling leads to the innermost declarator and collects the marks on
the way.
-/

namespace DeclGraph.ParseTree

/-- The position of the last tree that satisfies a condition. -/
def lastPosition? (condition : ParseTree → Bool) (trees : List ParseTree) : Option Nat :=
  (trees.reverse.findIdx? condition).map fun fromEnd => trees.length - 1 - fromEnd

/-- The position of the declarator inside a declarator: the child labelled so,
or the last child of a rule that is no qualifier. -/
def innerPosition? (trees : List ParseTree) : Option Nat :=
  match trees.findIdx? fun tree => tree.info.label = "declarator" with
  | some position => some position
  | none =>
    lastPosition? (fun tree => tree.info.named && tree.kind ≠ "type_qualifier") trees

/-- The mark that a wrapping declarator adds to the type. Other declarators wrap
nothing. -/
def declaratorMark? (tree : ParseTree) : Option String :=
  match tree.kind with
  | "pointer_declarator" | "abstract_pointer_declarator" => some "*"
  | "reference_declarator" | "abstract_reference_declarator" =>
    some (if (tree.children.head?.map (·.kind)) = some "&&" then "&&" else "&")
  | "array_declarator" | "abstract_array_declarator" => some "[]"
  | "init_declarator" | "parenthesized_declarator" | "attributed_declarator" => some ""
  | _ => none

mutual

/-- The innermost declarator and the marks around it, outermost first. -/
def peel : ParseTree → ParseTree × String
  | .node info children =>
    match declaratorMark? (.node info children) with
    | none => (.node info children, "")
    | some mark =>
      match (innerPosition? children).bind (peelAt children) with
      | some (inner, marks) => (inner, mark ++ marks)
      | none => (.node info children, mark)

/-- Peels the declarator at a position of a list. -/
def peelAt : List ParseTree → Nat → Option (ParseTree × String)
  | [], _ => none
  | tree :: _, 0 => some tree.peel
  | _ :: rest, position + 1 => peelAt rest position

end

/-- Whether a function declarator declares a pointer to a function: its own
declarator stands in parentheses. -/
def isFunctionPointer (tree : ParseTree) : Bool :=
  (tree.child? "declarator").any fun inner => inner.kind = "parenthesized_declarator"

/-- Whether a tree is searched for names. Names in lists of parameters and
arguments are not what is declared. -/
def isListOfOthers (kind : String) : Bool :=
  ["parameter_list", "argument_list", "initializer_list", "template_argument_list"].contains kind

mutual

/-- The first node of one of the kinds, in document order. Initial values are
passed over. -/
def findName? (kinds : List String) : ParseTree → Option ParseTree
  | .node info children =>
    if kinds.contains info.kind then some (.node info children)
    else if isListOfOthers info.kind then none
    else findNameAmong? kinds (info.kind = "init_declarator") children

/-- The first node of one of the kinds below a list of trees. With `skipValue`
the first tree labelled as a value is passed over. -/
def findNameAmong? (kinds : List String) : Bool → List ParseTree → Option ParseTree
  | _, [] => none
  | skipValue, .node info children :: rest =>
    if skipValue && info.label = "value" then findNameAmong? kinds false rest
    else
      match if info.named then findName? kinds (.node info children) else none with
      | some found => some found
      | none => findNameAmong? kinds skipValue rest

end

/-- The name of a variable, a parameter or a data member that a declarator
declares. -/
def declaredName? : ParseTree → Option ParseTree :=
  findName? ["identifier", "field_identifier"]

/-- The name of a type that a declarator declares. -/
def declaredTypeName? : ParseTree → Option ParseTree :=
  findName? ["type_identifier"]

mutual

/-- The name of a template parameter. The name of a parameter that is itself a
template is that of its last part. -/
def templateParameterName? : ParseTree → Option ParseTree
  | .node info children =>
    let tree := ParseTree.node info children
    match (tree.child? "name").orElse fun _ => tree.child? "declarator" with
    | some name => findName? ["identifier", "type_identifier"] name
    | none =>
      match tree.namedChildren.find? fun child =>
          child.kind = "type_identifier" || child.kind = "identifier" with
      | some name => some name
      | none =>
        (lastPosition? (·.info.named) children).bind (templateParameterNameAt children)

/-- The name of the template parameter at a position of a list. -/
def templateParameterNameAt : List ParseTree → Nat → Option ParseTree
  | [], _ => none
  | tree :: _, 0 =>
    if "parameter_declaration".toList.isSuffixOf tree.kind.toList then tree.templateParameterName?
    else none
  | _ :: rest, position + 1 => templateParameterNameAt rest position

end

end DeclGraph.ParseTree

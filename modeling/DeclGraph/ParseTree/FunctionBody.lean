import DeclGraph.ParseTree.Callable
import DeclGraph.Spelling.Reference

/-!
# Function bodies in a parse tree

Every node of a body is looked at once, in document order: calls, constructions
and variables are noted wherever they stand.
-/

namespace DeclGraph.SourceText

variable (source : SourceText)

/-- The number of arguments in an argument list. -/
def argumentCount (arguments : ParseTree) : Nat :=
  (arguments.namedChildren.filter (·.kind ≠ "comment")).length

/-- The number of arguments of a call or construction, zero without a list. -/
def argumentsOf (tree : ParseTree) : Nat :=
  ((tree.child? "arguments").map argumentCount).getD 0

/-- What a member is called on. -/
def receiver (function : ParseTree) : Receiver :=
  match function.child? "argument" with
  | none => .expression
  | some tree =>
    if tree.kind = "this" then .self
    else if tree.kind = "identifier" then .named (source.spelling tree)
    else .expression

/-- The call at a call expression. -/
def callAt? (tree : ParseTree) : Option Call := do
  let function ← tree.child? "function"
  match function.kind with
  | "identifier" | "qualified_identifier" | "template_function" =>
    some ⟨Spelling.canonical (source.spelling function), .absent, .plain, argumentsOf tree,
      tree.line⟩
  | "field_expression" =>
    let member ← function.child? "field"
    some ⟨source.plainSpelling member, source.receiver function, .member, argumentsOf tree,
      tree.line⟩
  | _ => none

/-- The construction at a new expression. -/
def constructionAt? (tree : ParseTree) : Option Call := do
  let type ← tree.child? "type"
  some ⟨Spelling.canonical (source.spelling type), .absent, .construct, argumentsOf tree,
    tree.line⟩

/-- The construction that the declaration of a variable of a named type
implies. -/
def impliedConstruction? (type : String) (declarator : ParseTree) : Option Call :=
  if declarator.kind = "identifier" then
    some ⟨type, .absent, .construct, 0, declarator.line⟩
  else
    match declarator.child? "value" with
    | none => none
    | some value =>
      if value.kind = "argument_list" ∨ value.kind = "initializer_list" then
        some ⟨type, .absent, .construct, argumentCount value, declarator.line⟩
      else none

/-- The variable that a declarator declares, with the construction it implies.
A pointer, a reference or an array constructs nothing. -/
def variableAt (type : String) (declarator : ParseTree) : Body :=
  match declarator.peel with
  | (inner, marks) =>
    if inner.kind ≠ "identifier" then .empty
    else
      { locals :=
          [⟨source.spelling inner, Spelling.canonical (type ++ marks), inner.line⟩]
        calls :=
          if marks.isEmpty && (Spelling.baseName? type).isSome then
            (impliedConstruction? type declarator).toList
          else [] }

/-- The variables of a declaration. -/
def variablesAt (tree : ParseTree) : List Body :=
  match tree.child? "type" with
  | none => []
  | some type =>
    let spelled := Spelling.canonical (source.typeSpelling tree type "")
    (tree.childrenLabelled "declarator").map (source.variableAt spelled)

/-- The variable that a loop over a range declares. -/
def rangeVariableAt? (tree : ParseTree) : Option Local := do
  let type ← tree.child? "type"
  let (inner, marks) := (← tree.child? "declarator").peel
  if inner.kind = "identifier" then
    some ⟨source.spelling inner, Spelling.canonical (source.typeSpelling tree type marks),
      inner.line⟩
  else none

/-- The calls and variables noted at one node. -/
def notesAt (tree : ParseTree) : List Body :=
  match tree.kind with
  | "call_expression" => (source.callAt? tree).toList.map fun call => ⟨[call], []⟩
  | "new_expression" => (source.constructionAt? tree).toList.map fun call => ⟨[call], []⟩
  | "declaration" => source.variablesAt tree
  | "for_range_loop" => (source.rangeVariableAt? tree).toList.map fun held => ⟨[], [held]⟩
  | _ => []

/-- The calls and variables of a function body. -/
def functionBody (tree : ParseTree) : Body :=
  let notes := tree.preorder.flatMap source.notesAt
  ⟨notes.flatMap (·.calls), notes.flatMap (·.locals)⟩

end DeclGraph.SourceText

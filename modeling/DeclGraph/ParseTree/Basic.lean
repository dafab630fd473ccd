/-!
# Parse trees

The tree of a source text as a parser for C++ hands it over. Every node has a
kind, a place in the text and perhaps a label under which its parent knows it.
A tree is exchanged as the list of its nodes in document order, each with the
number of its children.
-/

namespace DeclGraph

/-- What a node of a parse tree says about itself. -/
structure NodeInfo where
  kind : String
  /-- The node stands for a rule of the grammar and not for a mere word. -/
  named : Bool := true
  /-- The text under the node could not be parsed. -/
  isError : Bool := false
  /-- The node was supplied by the parser and is not in the text. -/
  isMissing : Bool := false
  /-- There is an error at or below the node. -/
  hasError : Bool := false
  /-- The label given by the parent, empty without one. -/
  label : String := ""
  /-- The first byte of the node. -/
  start : Nat
  /-- The byte behind the node. -/
  stop : Nat
  /-- The line of the first byte, counted from zero. -/
  row : Nat
  /-- The place of the first byte in its line, counted in bytes from zero. -/
  column : Nat
deriving DecidableEq, Repr, Inhabited

/-- A node with everything below it. -/
inductive ParseTree where
  | node (info : NodeInfo) (children : List ParseTree)
deriving Repr, Inhabited

namespace ParseTree

/-- What the topmost node says about itself. -/
def info : ParseTree → NodeInfo
  | .node info _ => info

/-- The trees directly below the topmost node. -/
def children : ParseTree → List ParseTree
  | .node _ children => children

/-- The kind of the topmost node. -/
def kind (tree : ParseTree) : String := tree.info.kind

/-- The line of the topmost node, counted from one. -/
def line (tree : ParseTree) : Nat := tree.info.row + 1

/-- The first child with a label. -/
def child? (tree : ParseTree) (label : String) : Option ParseTree :=
  tree.children.find? fun child => child.info.label = label

/-- All children with a label. -/
def childrenLabelled (tree : ParseTree) (label : String) : List ParseTree :=
  tree.children.filter fun child => child.info.label = label

/-- The children that stand for rules of the grammar. -/
def namedChildren (tree : ParseTree) : List ParseTree :=
  tree.children.filter (·.info.named)

/-- Whether a child of a kind is there. -/
def hasChildOf (tree : ParseTree) (kind : String) : Bool :=
  tree.children.any fun child => child.kind = kind

mutual

/-- A tree and all trees below it, in document order. -/
def preorder : ParseTree → List ParseTree
  | .node info children => .node info children :: preorderAll children

/-- The trees of a list and all trees below them, in document order. -/
def preorderAll : List ParseTree → List ParseTree
  | [] => []
  | tree :: rest => tree.preorder ++ preorderAll rest

end

mutual

/-- The first node that could not be parsed or was supplied. Only nodes that are
marked as holding an error are looked into. -/
def firstError? : ParseTree → Option NodeInfo
  | .node info children =>
    if info.isError || info.isMissing then some info
    else if info.hasError then firstErrorAmong? children
    else none

/-- The first such node in a list of trees. -/
def firstErrorAmong? : List ParseTree → Option NodeInfo
  | [] => none
  | tree :: rest =>
    match tree.firstError? with
    | some info => some info
    | none => firstErrorAmong? rest

end

/-- Puts one node of a list in document order on top of the trees behind it:
the node takes its children from the front of them. -/
def gather (entry : NodeInfo × Nat) : Option (List ParseTree) → Option (List ParseTree)
  | none => none
  | some trees =>
    if entry.2 ≤ trees.length then
      some (.node entry.1 (trees.take entry.2) :: trees.drop entry.2)
    else none

/-- The tree of a list of nodes in document order, each with the number of its
children. -/
def ofPreorder? (entries : List (NodeInfo × Nat)) : Option ParseTree :=
  match entries.foldr gather (some []) with
  | some [tree] => some tree
  | _ => none

end ParseTree

end DeclGraph

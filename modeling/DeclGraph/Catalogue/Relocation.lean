import DeclGraph.Catalogue.Lookup
import DeclGraph.Catalogue.Merge

/-!
# Moving implied scopes

A unit that opens a namespace may define a member of a record in it without
naming the namespace. The record is then known under a short name, as a scope
that is only implied. Once every unit is merged, such a scope is moved, with
all that lies in it, to the declared scope that the directives of its unit make
it mean. The old keys lead to the moved nodes.
-/

namespace DeclGraph

namespace Catalogue

/-- The node of the scope in which a directive stands. -/
def directiveScope? (catalogue : Catalogue) (directive : Directive) : Option Nat :=
  match catalogue.graph.nodeByKey? (.scope directive.scope) with
  | some id => some id
  | none => if directive.scope.isGlobal then some Graph.root else none

/-- Whether a scope of this name is declared and not only implied. -/
def isDeclaredScope (catalogue : Catalogue) (name : ScopedName) : Bool :=
  ((catalogue.graph.nodeByKey? (.scope name)).bind (catalogue.graph.nodeTable[·]?)).any
    fun node => !node.attributes.isSet AttributeName.implied

/-- The names that a scope could have in the namespaces a directive opens. -/
def namesThrough (catalogue : Catalogue) (unit : FilePath) (name : ScopedName)
    (directive : Directive) : List ScopedName :=
  match catalogue.directiveScope? directive with
  | none => []
  | some scope =>
    ((catalogue.openedBy unit directive scope).filterMap (catalogue.graph.nodeTable[·]?)).map
      fun node => node.key.name.child name.simple

/-- The declared scope that the name of an implied scope means in a unit. -/
def relocationTarget? (catalogue : Catalogue) (viewpoint : Viewpoint) (name : ScopedName) :
    Option ScopedName :=
  match name.parent? with
  | none => none
  | some outer =>
    ((viewpoint.directives.filter (·.appliesTo outer)).flatMap
      (catalogue.namesThrough viewpoint.unit name)).find? catalogue.isDeclaredScope

/-- A scope and everything below it, level by level. `steps` bounds the
listing. -/
def listBelow (graph : Graph) : Nat → List Nat → List Nat
  | 0, _ => []
  | _ + 1, [] => []
  | steps + 1, scope :: queue => scope :: listBelow graph steps (queue ++ graph.children scope)

/-- A scope and everything below it. No node is listed twice, as containment is
a forest. -/
def subtree (graph : Graph) (scope : Nat) : List Nat :=
  listBelow graph (graph.nodeCount + 1) [scope]

/-- What a node says about itself under the name that a move gives it. -/
def movedMention (source target : ScopedName) (node : Node) : Mention where
  key :=
    { node.key with
      name := target.descend (node.key.name.segments.drop source.segments.length) }
  kind := node.kind
  attributes := node.attributes
  isDefinition := node.attributes.isSet AttributeName.isDefinition
  implied := node.attributes.isSet AttributeName.implied

/-- Takes a node out of its scope and out of the graph. -/
def detach (id : Nat) : Action Unit := do
  let catalogue ← get
  match catalogue.graph.parent? id with
  | none => pure ()
  | some scope =>
    let node ← Action.reading fun graph => graph.node id
    modify fun catalogue =>
      { catalogue with
        memberIndex :=
          Graph.removeAt catalogue.memberIndex ⟨scope, node.key.name.simple⟩ id }
  modify fun catalogue =>
    { catalogue with memberIndex := catalogue.memberIndex.filter fun key _ => key.scope ≠ id }
  Action.editing fun graph => graph.removeNode id

/-- Registers a moved node under its new key and notes where its old key
leads. -/
def resettle (former : EntityKey) (mention : Mention) : Action Unit := do
  let _ ← register mention
  modify fun catalogue =>
    { catalogue with moved := catalogue.moved.insert former mention.key }

/-- Moves a scope and everything below it, unless a moved entity would
contradict one that is there. -/
def moveSubtree (scope : Nat) (source target : ScopedName) : Action Unit := do
  let catalogue ← get
  let order := subtree catalogue.graph scope
  let nodes ← order.mapM fun id => Action.reading fun graph => graph.node id
  let moves := nodes.map fun node => (node.key, movedMention source target node)
  if moves.all fun move => (catalogue.conflict? move.2).isNone then
    order.reverse.forM detach
    moves.forM fun move => resettle move.1 move.2

/-- Moves one implied scope of a unit, if the directives of the unit give its
name another meaning. -/
def relocateScope (viewpoint : Viewpoint) (name : ScopedName) : Action Unit := do
  let catalogue ← get
  match catalogue.graph.nodeByKey? (.scope name) with
  | none => pure ()
  | some id =>
    let node ← Action.reading fun graph => graph.node id
    if node.attributes.isSet AttributeName.implied then
      match catalogue.relocationTarget? viewpoint name with
      | none => pure ()
      | some target => if target ≠ name then moveSubtree id name target

/-- Moves the implied scopes of a unit, outer scopes first. Only containment may
relate the nodes so far. -/
def relocate (viewpoint : Viewpoint) (implied : List ScopedName) : Action Unit :=
  (implied.mergeSort fun first second => first.length ≤ second.length).forM
    (relocateScope viewpoint)

end Catalogue

end DeclGraph

import DeclGraph.Graph.Read

/-!
# The shape of a finished graph

A finished graph is a forest of scopes: nothing lies in two scopes and nothing
contains itself. Overloading is mutual. `Graph.check` reports the first place
where one of the three fails.
-/

namespace DeclGraph.Graph

/-- Walks from scope to scope outwards and says whether a scope passed before is
met again. `steps` bounds the walk. -/
def outwardWalkRepeats (graph : Graph) : Nat → List Nat → Nat → Bool
  | 0, _, _ => false
  | steps + 1, passed, current =>
    match graph.parent? current with
    | none => false
    | some scope =>
      if passed.contains scope then true
      else graph.outwardWalkRepeats steps (scope :: passed) scope

/-- Whether the walk outwards from a node runs in a circle. A walk that passes
no scope twice is no longer than the graph has nodes. -/
def liesOnCycle (graph : Graph) (id : Nat) : Bool :=
  graph.outwardWalkRepeats graph.nodeCount [id] id

/-- The number of scopes that hold a node. -/
def parentCount (graph : Graph) (id : Nat) : Nat :=
  (graph.incoming id (some .contains)).length

/-- Whether the edge of an overload has one in the other direction. -/
def hasReverse (graph : Graph) (edge : Edge) : Bool :=
  (graph.edgeBetween? edge.target edge.source .overloads).isSome

/-- The first violation of the shape, if there is one. -/
def violation? (graph : Graph) : Option GraphError :=
  match graph.nodes.find? fun node => graph.parentCount node.id > 1 with
  | some node => some (.manyParents node (graph.parentCount node.id))
  | none =>
    match graph.nodes.find? fun node => graph.liesOnCycle node.id with
    | some node => some (.containmentCycle node)
    | none =>
      match (graph.edgesOf .overloads).find? fun edge => !graph.hasReverse edge with
      | some edge => some (.oneWayOverload edge.source edge.target)
      | none => none

/-- Checks the shape of the graph. -/
def check (graph : Graph) : Except GraphError Unit :=
  match graph.violation? with
  | some error => .error error
  | none => .ok ()

end DeclGraph.Graph

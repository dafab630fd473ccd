import DeclGraph.Attributes.Names
import DeclGraph.Graph.Read
import DeclGraph.Query.Pattern
import DeclGraph.Text.Lowercase

/-!
# Queries

A query asks for the nodes that pass all of its filters, in the order of
creation, and may ask for the first few of them only.
-/

namespace DeclGraph

/-- A condition on a node. -/
inductive Query.Filter where
  /-- The node is of one of the kinds. -/
  | kinds (kinds : List EntityKind)
  /-- The name holds the text, whatever the case. -/
  | nameContains (text : String)
  /-- The name matches a name pattern. -/
  | nameMatches (pattern : String)
  /-- The node has an attribute of this value. -/
  | attribute (key : String) (value : Value)
  /-- The node has an attribute under this key. -/
  | hasAttribute (key : String)
  /-- The node lies below the scope. -/
  | within (scope : ScopedName)
  /-- A file that declares the node matches a path pattern. -/
  | declaredIn (pattern : String)
  /-- The node is a member of the scope. -/
  | childOf (scope : Nat)
deriving DecidableEq, Repr

/-- A query: its filters and how many nodes are wanted at most. -/
structure Query where
  filters : List Query.Filter
  limit : Option Nat
deriving DecidableEq, Repr

namespace Query

/-- Whether an attribute has a value. A text also agrees with a list that holds
it. -/
def valueAgrees (wanted : Value) : Value → Bool
  | .texts values =>
    match wanted with
    | .text value => values.contains value
    | other => other = .texts values
  | actual => wanted = actual

/-- Whether a node of the graph passes the filter. -/
def Filter.passes (graph : Graph) (node : Node) : Filter → Bool
  | .kinds wanted => wanted.contains node.kind
  | .nameContains text =>
    Text.occursIn (Text.lower text.toList) (Text.lower node.key.name.simple.toList)
  | .nameMatches pattern => anchoredMatches pattern node.key.name.simple
  | .attribute key value => node.attributes[key]?.any (valueAgrees value)
  | .hasAttribute key => node.attributes.contains key
  | .within scope =>
    node.key.name.length > scope.length && node.key.name.isWithin scope
  | .declaredIn pattern =>
    ((node.attributes.texts? AttributeName.declaredIn).getD []).any (pathMatches pattern)
  | .childOf scope => graph.parent? node.id = some scope

/-- The query without filters. -/
def everything : Query := ⟨[], none⟩

/-- Every node that passes all filters. -/
def matching (query : Query) (graph : Graph) : List Node :=
  graph.nodes.filter fun node => query.filters.all (Filter.passes graph node)

/-- The nodes the query answers with. -/
def run (query : Query) (graph : Graph) : List Nat :=
  let found := (query.matching graph).map (·.id)
  match query.limit with
  | some limit => found.take limit
  | none => found

/-- How many nodes pass all filters, whatever the limit. -/
def count (query : Query) (graph : Graph) : Nat :=
  (query.matching graph).length

/-- Whether some node passes all filters. -/
def hasMatch (query : Query) (graph : Graph) : Bool :=
  graph.nodes.any fun node => query.filters.all (Filter.passes graph node)

end Query

end DeclGraph

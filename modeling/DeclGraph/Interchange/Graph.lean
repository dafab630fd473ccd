import DeclGraph.Graph.Read
import DeclGraph.Interchange.Document

/-!
# Documents of graphs

The document forms of names, keys, attributes, nodes and edges.
-/

namespace DeclGraph

open Document

instance : Interchange ScopedName where
  write name := write name.segments
  read document := (read document).map ScopedName.mk

/-- The written names of the families. -/
def familyNames : List (String × Family) :=
  [.scope, .callable, .typeAlias, .field, .placeholder].map fun family =>
    (Family.display family, family)

instance : Interchange Family where
  write family := .text family.display
  read := choice? familyNames

/-- The written names of the kinds. -/
def entityKindNames : List (String × EntityKind) :=
  [.namespaceScope, .classRecord, .structRecord, .freeFunction, .method, .constructor,
   .destructor, .typeAlias, .field, .placeholder].map fun kind =>
    (EntityKind.display kind, kind)

instance : Interchange EntityKind where
  write kind := .text kind.display
  read := choice? entityKindNames

instance : Interchange Relation where
  write relation := .text relation.display
  read := choice? (Relation.all.map fun relation => (relation.display, relation))

/-- The written names of the directions. -/
def directionNames : List (String × Direction) :=
  [("Outgoing", .outgoing), ("Incoming", .incoming), ("Both", .both)]

instance : Interchange Direction where
  write
    | .outgoing => .text "Outgoing"
    | .incoming => .text "Incoming"
    | .both => .text "Both"
  read := choice? directionNames

instance : Interchange EntityKey where
  write key := .record
    [("family", write key.family), ("name", write key.name),
     ("signature", write key.signature)]
  read document := do
    let fields ← document.fields? ["family", "name", "signature"]
    return ⟨← required fields "family", ← required fields "name",
      ← withDefault none fields "signature"⟩

instance : Interchange Value where
  write
    | .text value => .record [("String", write value)]
    | .int value => .record [("Int", write value)]
    | .flag value => .record [("Bool", write value)]
    | .texts values => .record [("StringList", write values)]
    | .ints values => .record [("IntList", write values)]
  read document := do
    match ← document.variant? with
    | ("String", content) => (read content).map .text
    | ("Int", content) => (read content).map .int
    | ("Bool", content) => (read content).map .flag
    | ("StringList", content) => (read content).map .texts
    | ("IntList", content) => (read content).map .ints
    | _ => none

/-- The entries of an attribute map, in the order of their keys. -/
def writeEntries (attributes : Attributes) : Document :=
  .record (attributes.toList.map fun entry => (entry.1, write entry.2))

/-- An attribute map from its entries. -/
def readEntries : Document → Option Attributes
  | .record fields => do
    let entries ← fields.mapM fun field => (read field.2).map fun value => (field.1, value)
    return Std.ExtTreeMap.ofList entries
  | _ => none

instance : Interchange Attributes where
  write attributes := .record [("data", writeEntries attributes)]
  read document := do
    let fields ← document.fields? ["data"]
    (fields.lookup "data").bind readEntries

instance : Interchange Node where
  write node := .record
    [("id", write node.id), ("key", write node.key), ("kind", write node.kind),
     ("attributes", write node.attributes)]
  read document := do
    let fields ← document.fields? ["id", "key", "kind", "attributes"]
    return ⟨← required fields "id", ← required fields "key", ← required fields "kind",
      ← required fields "attributes"⟩

instance : Interchange Edge where
  write edge := .record
    [("id", write edge.id), ("source", write edge.source), ("target", write edge.target),
     ("kind", write edge.relation), ("attributes", write edge.attributes)]
  read document := do
    let fields ← document.fields? ["id", "source", "target", "kind", "attributes"]
    return ⟨← required fields "id", ← required fields "source", ← required fields "target",
      ← required fields "kind", ← required fields "attributes"⟩

/-- A node with its written form and the parts of its key. -/
def describeNode (node : Node) : Document :=
  .record
    [("id", write node.id), ("display", .text node.display), ("family", write node.key.family),
     ("name", write node.key.name), ("signature", write node.key.signature),
     ("kind", write node.kind), ("attributes", write node.attributes)]

/-- A whole graph, nodes and edges in the order of creation. -/
def describeGraph (graph : Graph) : Document :=
  .record
    [("root", write Graph.root), ("node_count", write graph.nodeCount),
     ("edge_count", write graph.edgeCount), ("nodes", .list (graph.nodes.map describeNode)),
     ("edges", write graph.edges)]

end DeclGraph

import DeclGraph.Catalogue.Basic

/-!
# Settling kinds

Once every unit is merged, an implied scope that holds what only a record can
hold is taken for a class, and a callable is a method exactly when its scope is
a record.
-/

namespace DeclGraph

namespace Catalogue

/-- Whether only a record can hold the node: a constructor, a destructor, a data
member or a function that may be called on constants. -/
def needsRecord (node : Node) : Bool :=
  node.kind = .constructor || node.kind = .destructor || node.kind = .field
    || (node.kind.isCallable && node.attributes.isSet AttributeName.isConst)

/-- Whether a scope holds something that only a record can hold. -/
def holdsMembers (graph : Graph) (scope : Nat) : Bool :=
  ((graph.children scope).filterMap (graph.nodeTable[·]?)).any needsRecord

/-- The scopes that are known from qualifiers only. -/
def impliedScopes (graph : Graph) : List Nat :=
  (graph.nodes.filter fun node =>
    node.key.family = .scope && node.attributes.isSet AttributeName.implied).map (·.id)

/-- Makes an implied scope a class, if it has to be one. -/
def settleScope (scope : Nat) : Action Unit := do
  if holdsMembers (← get).graph scope then
    Action.editing fun graph => graph.setKind scope .classRecord

/-- The functions and methods with their kinds so far. -/
def functions (graph : Graph) : List (Nat × EntityKind) :=
  (graph.nodes.filter fun node =>
    node.kind = .freeFunction || node.kind = .method).map fun node => (node.id, node.kind)

/-- Makes a callable a method or a function, as its scope has it. -/
def settleFunction (id : Nat) (kind : EntityKind) : Action Unit := do
  let catalogue ← get
  let inRecord := (catalogue.graph.parent? id).any catalogue.isRecord
  let settled : EntityKind := if inRecord then .method else .freeFunction
  if settled ≠ kind then
    Action.editing fun graph => graph.setKind id settled

/-- Settles the kinds of implied scopes and then of functions and methods. -/
def settleKinds : Action Unit := do
  (impliedScopes (← get).graph).forM settleScope
  (functions (← get).graph).forM fun (id, kind) => settleFunction id kind

end Catalogue

end DeclGraph

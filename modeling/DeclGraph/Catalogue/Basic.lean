import DeclGraph.Contribution.Basic
import DeclGraph.Graph.Read

/-!
# The catalogue

The catalogue holds the graph while it is put together. Beside the graph it
keeps the members of every scope by name, which lookups read, and the keys of
nodes that were moved. Changes to the catalogue are actions: an action that
fails keeps what it did before it failed.
-/

namespace DeclGraph

/-- What the members of a scope are found by. -/
structure MemberKey where
  scope : Nat
  name : String
deriving DecidableEq, Repr

namespace MemberKey

instance : Ord MemberKey where
  compare := compareLex (compareOn MemberKey.scope) (compareOn MemberKey.name)

instance : Std.TransOrd MemberKey :=
  inferInstanceAs (Std.TransCmp (compareLex (compareOn MemberKey.scope)
    (compareOn MemberKey.name)))

instance : Std.LawfulEqOrd MemberKey where
  compare_self := by intro key; exact Std.ReflCmp.compare_self
  eq_of_compare := by
    intro first second same
    obtain ⟨scope, name⟩ := compareLex_eq_eq.mp same
    have sameScope : first.scope = second.scope := Std.LawfulEqOrd.eq_of_compare scope
    have sameName : first.name = second.name := Std.LawfulEqOrd.eq_of_compare name
    cases first
    cases second
    simp_all

end MemberKey

/-- Lists of members are compared node by node. -/
instance lawfulMemberList : LawfulBEq (List Nat) := inferInstance

/-- The graph under construction and what is needed to look names up in it. -/
structure Catalogue where
  graph : Graph
  /-- The members of each scope by name, in the order in which they came. -/
  memberIndex : Std.ExtTreeMap MemberKey (List Nat)
  /-- Under the key of a moved node, the key to which it was moved. -/
  moved : Std.ExtTreeMap EntityKey EntityKey
deriving DecidableEq

namespace Catalogue

/-- The catalogue of the global namespace alone. -/
def empty : Catalogue := ⟨.empty, ∅, ∅⟩

/-- A change of the catalogue with a result. -/
abbrev Action := ExceptT GraphError (StateM Catalogue)

namespace Action

/-- A reading of the graph. -/
def reading {α : Type} (look : Graph → Except GraphError α) : Action α := do
  match look (← get).graph with
  | .ok result => return result
  | .error error => throw error

/-- A change of the graph alone. -/
def changing {α : Type} (change : Graph → Except GraphError (Graph × α)) : Action α := do
  match change (← get).graph with
  | .ok (graph, result) =>
    modify fun catalogue => { catalogue with graph }
    return result
  | .error error => throw error

/-- A change of the graph alone that gives no result. -/
def editing (change : Graph → Except GraphError Graph) : Action Unit :=
  changing fun graph => (change graph).map fun graph => (graph, ())

end Action

/-- Follows the moves from a key, at most `hops` of them. A longer chain leads
nowhere. -/
def settledKey? (catalogue : Catalogue) : Nat → EntityKey → Option EntityKey
  | hops, key =>
    match catalogue.moved[key]? with
    | none => some key
    | some next =>
      match hops with
      | 0 => none
      | hops + 1 => catalogue.settledKey? hops next

/-- The node that is registered under a key or was moved away from it. -/
def nodeByKey? (catalogue : Catalogue) (key : EntityKey) : Option Nat :=
  (catalogue.settledKey? catalogue.moved.size key).bind catalogue.graph.nodeByKey?

/-- The kind of a node. -/
def kind? (catalogue : Catalogue) (id : Nat) : Option EntityKind :=
  catalogue.graph.nodeTable[id]?.map (·.kind)

/-- Whether a node is a class or a struct. -/
def isRecord (catalogue : Catalogue) (id : Nat) : Bool :=
  (catalogue.kind? id).any (·.isRecord)

/-- The members of a scope that have a name. -/
def membersNamed (catalogue : Catalogue) (scope : Nat) (name : String) : List Nat :=
  Graph.listAt catalogue.memberIndex ⟨scope, name⟩

/-- The scope that holds a node; what lies in no scope counts as global. -/
def scopeOf (catalogue : Catalogue) (id : Nat) : Nat :=
  (catalogue.graph.parent? id).getD Graph.root

/-- The base records of a record. -/
def bases (catalogue : Catalogue) (record : Nat) : List Nat :=
  ((catalogue.graph.outgoing record (some .inherits)).map (·.target)).filter
    catalogue.isRecord

/-- Makes a node a member of a scope. -/
def attach (scope child : Nat) : Action Unit := do
  let _ ← Action.changing fun graph => graph.connect scope child .contains ∅
  let node ← Action.reading fun graph => graph.node child
  modify fun catalogue =>
    { catalogue with
      memberIndex := Graph.appendAt catalogue.memberIndex ⟨scope, node.key.name.simple⟩ child }

/-- The attributes of a scope that is known only because something lies in it. -/
def impliedAttributes : Attributes :=
  (∅ : Attributes).insert AttributeName.implied (.flag true)

/-- The node of a scope, created with all scopes around it where they are
missing. The scope is given by its segments from the innermost to the
outermost. -/
def ensureScope : List String → Action Nat
  | [] => return Graph.root
  | last :: outer => do
    let key : EntityKey := .scope ⟨(last :: outer).reverse⟩
    match (← get).graph.nodeByKey? key with
    | some id => return id
    | none =>
      let scope ← ensureScope outer
      let id ← Action.changing fun graph => graph.insert key .namespaceScope impliedAttributes
      attach scope id
      return id

/-- The node of the scope around a name, created where it is missing. -/
def ensureEnclosing (name : ScopedName) : Action Nat :=
  ensureScope name.segments.reverse.tail

/-- The stand-in for a spelling, created on first use. -/
def placeholder (spelling : String) : Action Nat := do
  let key : EntityKey := .placeholder spelling
  match (← get).graph.nodeByKey? key with
  | some id => return id
  | none => Action.changing fun graph => graph.insert key .placeholder ∅

end Catalogue

end DeclGraph

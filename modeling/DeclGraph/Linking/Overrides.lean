import DeclGraph.Linking.Basic

/-!
# Linking overrides

A method overrides a method of the same name and signature in a base record. The
bases are searched breadth first, and a record that has a callable of this name
and signature ends the search behind it. The base method must not be static; it
must be virtual, or marked as overriding, or override something itself, unless
the overriding method is marked as such. What a method overrides is worked out
once and kept in a memo.
-/

namespace DeclGraph

/-- The methods that a method overrides, by method. -/
abbrev OverrideMemo := Std.ExtTreeMap Nat (List Nat)

namespace Catalogue

variable (catalogue : Catalogue)

/-- The callable of a record that has a name and a signature. -/
def callableOf? (record : Node) (name signature : String) : Option Node :=
  (catalogue.graph.nodeByKey? (.callable (record.key.name.child name) signature)).bind
    (catalogue.graph.nodeTable[·]?)

/-- Searches the records of a queue, and behind each of them its bases, for the
callables of a name and a signature that `overridden` accepts. `steps` bounds
the search. -/
def searchOverridden (name signature : String) (overridden : Node → StateM OverrideMemo Bool) :
    Nat → List Nat → List Nat → StateM OverrideMemo (List Nat)
  | 0, _, _ => return []
  | _ + 1, _, [] => return []
  | steps + 1, passed, record :: queue =>
    if passed.contains record then
      searchOverridden name signature overridden steps passed queue
    else
      match catalogue.graph.nodeTable[record]? with
      | none => searchOverridden name signature overridden steps (record :: passed) queue
      | some node =>
        match catalogue.callableOf? node name signature with
        | none =>
          searchOverridden name signature overridden steps (record :: passed)
            (queue ++ catalogue.bases record)
        | some candidate => do
          let accepted ← overridden candidate
          let others ←
            searchOverridden name signature overridden steps (record :: passed) queue
          return if accepted then candidate.id :: others else others

/-- Whether a base method is overridden by a method of its name and signature.
`inherited` says whether it overrides something itself. -/
def isOverridden (isExplicit : Bool) (inherited : Nat → StateM OverrideMemo Bool)
    (candidate : Node) : StateM OverrideMemo Bool :=
  if candidate.kind ≠ .method ∨ candidate.attributes.isSet AttributeName.isStatic then
    return false
  else if isExplicit || candidate.attributes.isSet AttributeName.isVirtual
      || candidate.attributes.isSet AttributeName.isOverride then
    return true
  else inherited candidate.id

/-- The methods that a method overrides, as far as the memo does not know them.
A method that is being worked out already overrides nothing for the time being;
`depth` bounds how many are worked out at once. -/
def overriddenBy : Nat → List Nat → Nat → StateM OverrideMemo (List Nat)
  | 0, _, _ => return []
  | depth + 1, active, method => do
    match (← get)[method]? with
    | some known => return known
    | none =>
      match if active.contains method then none else catalogue.graph.nodeTable[method]? with
      | none => return []
      | some node =>
        let record := catalogue.scopeOf method
        let inherited (candidate : Nat) : StateM OverrideMemo Bool := do
          return !(← overriddenBy depth (method :: active) candidate).isEmpty
        let found ← catalogue.searchOverridden node.key.name.simple
          (node.key.signature.getD "")
          (isOverridden (node.attributes.isSet AttributeName.isOverride) inherited)
          (catalogue.graph.edgeCount + 1) [record] (catalogue.bases record)
        modify fun memo => memo.insert method found
        return found

/-- The methods that a method overrides, with a memo to start from. -/
def overriddenMethods (method : Nat) : StateM OverrideMemo (List Nat) :=
  catalogue.overriddenBy (catalogue.graph.nodeCount + 1) [] method

/-- The methods that can override others. -/
def overridingMethods : List Nat :=
  (catalogue.graph.nodes.filter fun node =>
    node.kind = .method && !node.attributes.isSet AttributeName.isStatic).map (·.id)

/-- Every method with the methods it overrides, one memo for all. -/
def overrideTable : List (Nat × List Nat) :=
  let table : StateM OverrideMemo (List (Nat × List Nat)) :=
    catalogue.overridingMethods.mapM fun method => do
      return (method, ← catalogue.overriddenMethods method)
  (Id.run (table.run ∅)).1

end Catalogue

/-- Relates the methods to those they override. -/
def Linking.linkOverrides : Linking.Step Unit := do
  (← get).catalogue.overrideTable.forM fun (method, overridden) =>
    overridden.forM fun target => Linking.relate method target .overrides ∅

end DeclGraph

import DeclGraph.Linking.Basic

/-!
# Linking overloads

Functions, methods and constructors of one scope and one name overload each
other, every one of them every other.
-/

namespace DeclGraph

/-- The callables that share scope and name with others, group by group in the
order of scope and name. -/
def Catalogue.overloadGroups (catalogue : Catalogue) : List (List Nat) :=
  ((catalogue.graph.nodes.filter fun node => node.kind.isOverloadable).foldl
    (fun groups node =>
      Graph.appendAt groups
        (⟨catalogue.scopeOf node.id, node.key.name.simple⟩ : MemberKey) node.id)
    ∅).values

/-- All pairs of different members of a group. -/
def pairsWithin (group : List Nat) : List (Nat × Nat) :=
  group.flatMap fun first => (group.filter (· ≠ first)).map fun second => (first, second)

/-- Two different members of a group are a pair, in both orders. -/
@[simp] theorem mem_pairsWithin {group : List Nat} {first second : Nat} :
    (first, second) ∈ pairsWithin group ↔ first ∈ group ∧ second ∈ group ∧ second ≠ first := by
  simp [pairsWithin]

/-- Relates the callables that overload each other. -/
def Linking.linkOverloads : Linking.Step Unit := do
  let pairs := (← get).catalogue.overloadGroups.flatMap pairsWithin
  pairs.forM fun (first, second) => Linking.relate first second .overloads ∅

end DeclGraph

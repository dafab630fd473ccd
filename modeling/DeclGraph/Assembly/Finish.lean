import DeclGraph.Assembly.Basic
import DeclGraph.Catalogue.Kinds
import DeclGraph.Catalogue.Relocation
import DeclGraph.Graph.Shape
import DeclGraph.Linking.Run

/-!
# Finishing an assembly

Once every unit is taken up, implied scopes are moved to where the directives of
their units put them, kinds are settled, references are linked, and the shape of
the finished graph is checked.
-/

namespace DeclGraph

/-- A finished graph and the references that mean nothing in it. -/
structure Finished where
  graph : Graph
  unresolved : List Unresolved
deriving DecidableEq

namespace Assembly

/-- Moves the implied scopes of a unit, if it has directives. -/
def relocateUnit (unit : Pending) : Catalogue.Action Unit :=
  if unit.directives.isEmpty then pure ()
  else Catalogue.relocate ⟨unit.path, unit.directives⟩ unit.implied

/-- Moves the implied scopes of all units, in path order, and settles kinds. -/
def prepare (units : List Pending) : Catalogue.Action Unit := do
  units.forM relocateUnit
  Catalogue.settleKinds

/-- The graph of everything taken up, linked and checked. -/
def finish (assembly : Assembly) : Except GraphError Finished := do
  let units := assembly.units.values
  match (prepare units).run.run assembly.catalogue with
  | (.error error, _) => throw error
  | (.ok _, catalogue) =>
    let linking ← Linking.run catalogue units
    linking.catalogue.graph.check
    return ⟨linking.catalogue.graph, linking.unresolved⟩

end Assembly

end DeclGraph

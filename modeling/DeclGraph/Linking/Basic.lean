import DeclGraph.Catalogue.Lookup
import DeclGraph.Contribution.Basic
import DeclGraph.Spelling.Reference

/-!
# Linking

Once every unit is merged, the references that units have left behind are looked
up and become edges. A name that means nothing known gets a stand-in, to which
the edge leads, and is noted as unresolved. The first failing operation on the
graph ends the linking.
-/

namespace DeclGraph

/-- What a name is looked up for. -/
inductive LookupPurpose where
  | base
  | aliasTarget
  | fieldType
  | parameterType
  | returnType
  | localType
  | call
deriving DecidableEq, Repr, Inhabited

/-- A reference whose name means nothing known. -/
structure Unresolved where
  /-- The unit that holds the reference. -/
  unit : FilePath
  /-- The entity that refers. -/
  referrer : Node
  /-- The name as it was looked up. -/
  spelling : String
  purpose : LookupPurpose
deriving DecidableEq

/-- How far the linking has come. -/
structure Linking where
  catalogue : Catalogue
  unresolved : List Unresolved
deriving DecidableEq

/-- A reference with the viewpoint of the unit that holds it. -/
abbrev SeenReference := Viewpoint × Reference

/-- The references of merged units, unit by unit. -/
def seenReferences (units : List Pending) : List SeenReference :=
  units.flatMap fun unit =>
    unit.references.map fun reference => (⟨unit.path, unit.directives⟩, reference)

/-- A node and the scopes around it, from the inside out, at most `steps` of
them. -/
def outwardFrom (graph : Graph) : Nat → Nat → List Nat
  | 0, _ => []
  | steps + 1, node =>
    match graph.parent? node with
    | some scope => node :: outwardFrom graph steps scope
    | none => [node]

/-- The template parameters of a node and of the scopes around it. -/
def Catalogue.templateParameters (catalogue : Catalogue) (node : Nat) : List String :=
  ((outwardFrom catalogue.graph (catalogue.graph.nodeCount + 1) node).filterMap
    (catalogue.graph.nodeTable[·]?)).flatMap fun around =>
      (around.attributes.texts? AttributeName.templateParameters).getD []

namespace Linking

/-- A step of the linking. -/
abbrev Step := StateT Linking (Except GraphError)

/-- A change of the catalogue as a step. -/
def perform {α : Type} (action : Catalogue.Action α) : Step α := fun linking =>
  match action.run.run linking.catalogue with
  | (.ok result, catalogue) => .ok (result, { linking with catalogue })
  | (.error error, _) => .error error

/-- Relates two nodes. -/
def relate (source target : Nat) (relation : Relation) (attributes : Attributes) : Step Unit := do
  let _ ← perform (Catalogue.Action.changing fun graph =>
    graph.connect source target relation attributes)

/-- Notes that a node uses a type in a role. -/
def useType (role : String) (referrer target : Nat) : Step Unit :=
  relate referrer target .usesType
    ((∅ : Attributes).insert AttributeName.roles (.texts [role]))

/-- Notes a name that means nothing known and gives its stand-in. -/
def substitute (viewpoint : Viewpoint) (referrer : Nat) (spelling : String)
    (purpose : LookupPurpose) : Step Nat := do
  let node ← perform (Catalogue.Action.reading fun graph => graph.node referrer)
  modify fun linking =>
    { linking with
      unresolved := linking.unresolved ++ [⟨viewpoint.unit, node, spelling, purpose⟩] }
  perform (Catalogue.placeholder spelling)

/-- Takes a step for the node of an entity, if the entity is known. -/
def forEntity (key : EntityKey) (step : Nat → Step Unit) : Step Unit := do
  match (← get).catalogue.nodeByKey? key with
  | some node => step node
  | none => pure ()

end Linking

end DeclGraph

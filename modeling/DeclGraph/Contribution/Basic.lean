import DeclGraph.Attributes.Basic
import DeclGraph.Attributes.Names
import DeclGraph.Declaration.SourceUnit

/-!
# Contributions of units

A unit contributes mentions of entities and references between them. Mentions
can be merged at once, references wait until every unit is known.
-/

namespace DeclGraph

/-- What one unit says about one entity. -/
structure Mention where
  key : EntityKey
  kind : EntityKind
  attributes : Attributes
  isDefinition : Bool
  /-- The entity is a scope known from a qualifier only. -/
  implied : Bool
deriving DecidableEq

/-- A reference by name, which is looked up once every unit is known. -/
inductive Reference where
  | base (derived : EntityKey) (base : Base)
  | aliasTarget (owner : EntityKey) (spelling : String)
  | fieldType (owner : EntityKey) (spelling : String)
  | parameterType (owner : EntityKey) (spelling : String)
  | returnType (owner : EntityKey) (spelling : String)
  | localType (owner : EntityKey) (spelling : String)
  /-- The calls of a body, with the parameters a receiver may name. -/
  | body (caller : EntityKey) (parameters : List Parameter) (body : Body)
deriving DecidableEq, Repr

/-- What one unit contributes to the graph. -/
structure Contribution where
  path : FilePath
  mentions : List Mention
  references : List Reference
  directives : List Directive
deriving DecidableEq

/-- What is kept of a merged unit until the references are looked up. -/
structure Pending where
  path : FilePath
  references : List Reference
  directives : List Directive
  /-- The scopes that the unit knows from qualifiers only. -/
  implied : List ScopedName
deriving DecidableEq

/-- What is kept of a contribution. -/
def Contribution.pending (contribution : Contribution) : Pending where
  path := contribution.path
  references := contribution.references
  directives := contribution.directives
  implied := (contribution.mentions.filter (·.implied)).map (·.key.name)

end DeclGraph

import DeclGraph.Declaration.Basic
import DeclGraph.Duration
import DeclGraph.FilePath

/-!
# Source units

A source unit holds what one source file declares, in source order, and the
directives by which it opens namespaces for its lookups.
-/

namespace DeclGraph

/-- A directive that opens a namespace to the names looked up in a scope. -/
structure Directive where
  /-- The scope in which the directive stands. -/
  scope : ScopedName
  /-- The opened namespace as spelled. -/
  opened : String
  line : Nat
deriving DecidableEq, Repr, Inhabited

/-- Whether the directive is in force in a scope: in its own and all below. -/
def Directive.appliesTo (directive : Directive) (scope : ScopedName) : Bool :=
  scope.isWithin directive.scope

/-- The declarations of one source file. -/
structure SourceUnit where
  path : FilePath
  declarations : List Declaration
  directives : List Directive
  /-- The time spent on reading the file. -/
  parseTime : Duration
  lineCount : Nat
  byteCount : Nat
deriving DecidableEq, Repr, Inhabited

/-- How many references to other entities the unit carries. -/
def SourceUnit.referenceCount (unit : SourceUnit) : Nat :=
  unit.declarations.foldl (fun count declaration => count + declaration.referenceCount) 0

end DeclGraph

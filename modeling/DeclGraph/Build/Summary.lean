import DeclGraph.Assembly.Basic
import DeclGraph.Linking.Basic
import DeclGraph.SourceFile
import DeclGraph.Statistics

/-!
# Summaries of builds

What became of the units of a build and which references mean nothing.
-/

namespace DeclGraph

/-- A unit that could not be read. -/
structure SkippedUnit where
  path : FilePath
  cause : ReadError
deriving DecidableEq, Repr

/-- A unit that was read but contradicts others. -/
structure RejectedUnit where
  path : FilePath
  cause : AssemblyError
deriving DecidableEq

/-- What became of a build. -/
structure Summary where
  /-- The units in the graph, in path order. -/
  merged : List FilePath := []
  skipped : List SkippedUnit := []
  rejected : List RejectedUnit := []
  unresolved : List Unresolved := []
  statistics : Statistics := {}
  /-- The build stopped before the end. -/
  cancelled : Bool := false
deriving DecidableEq

namespace Summary

/-- Whether every unit was read and merged. -/
def isClean (summary : Summary) : Bool :=
  summary.skipped.isEmpty && summary.rejected.isEmpty && !summary.cancelled

/-- A build is clean when nothing was skipped or rejected and it was not cancelled. -/
theorem isClean_iff {summary : Summary} :
    summary.isClean = true ↔
      summary.skipped = [] ∧ summary.rejected = [] ∧ summary.cancelled = false := by
  simp [isClean, and_assoc]

/-- The unresolved references of a purpose. -/
def unresolvedFor (summary : Summary) (purpose : LookupPurpose) : List Unresolved :=
  summary.unresolved.filter fun reference => reference.purpose = purpose

end Summary

end DeclGraph

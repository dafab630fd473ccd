import DeclGraph.Build.Summary
import DeclGraph.Interchange.Contribution

/-!
# Documents of summaries

Summaries and unresolved references are only written.
-/

namespace DeclGraph

open Document

/-- The written names of the purposes of lookups. -/
def lookupPurposeNames : List (String × LookupPurpose) :=
  [("Base", .base), ("AliasTarget", .aliasTarget), ("FieldType", .fieldType),
   ("ParameterType", .parameterType), ("ReturnType", .returnType), ("LocalType", .localType),
   ("Call", .call)]

instance : Interchange LookupPurpose where
  write
    | .base => .text "Base"
    | .aliasTarget => .text "AliasTarget"
    | .fieldType => .text "FieldType"
    | .parameterType => .text "ParameterType"
    | .returnType => .text "ReturnType"
    | .localType => .text "LocalType"
    | .call => .text "Call"
  read := choice? lookupPurposeNames

/-- An unresolved reference, with the written form of the entity that refers. -/
def describeUnresolved (reference : Unresolved) : Document :=
  .record
    [("unit", write reference.unit), ("from", write reference.referrer.display),
     ("spelling", write reference.spelling), ("kind", write reference.purpose)]

/-- A path with the reason why it is not in the graph. -/
def describeRefusal (path : FilePath) (reason : String) : Document :=
  .record [("path", write path), ("reason", write reason)]

/-- The summary of a build. -/
def describeSummary (summary : Summary) : Document :=
  .record
    [("units_merged", write summary.merged),
     ("skipped", .list (summary.skipped.map fun unit =>
       describeRefusal unit.path unit.cause.message)),
     ("rejected", .list (summary.rejected.map fun unit =>
       describeRefusal unit.path unit.cause.message)),
     ("unresolved", .list (summary.unresolved.map describeUnresolved)),
     ("metrics", write summary.statistics), ("cancelled", write summary.cancelled)]

end DeclGraph

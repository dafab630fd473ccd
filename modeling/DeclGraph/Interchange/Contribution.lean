import DeclGraph.Contribution.Basic
import DeclGraph.Interchange.Declaration
import DeclGraph.Settings
import DeclGraph.Statistics

/-!
# Documents of contributions, settings and statistics
-/

namespace DeclGraph

open Document

instance : Interchange Mention where
  write mention := .record
    [("key", write mention.key), ("kind", write mention.kind),
     ("attributes", write mention.attributes), ("is_definition", write mention.isDefinition),
     ("implied", write mention.implied)]
  read document := do
    let fields ← document.fields? ["key", "kind", "attributes", "is_definition", "implied"]
    return ⟨← required fields "key", ← required fields "kind", ← required fields "attributes",
      ← required fields "is_definition", ← required fields "implied"⟩

/-- A reference of a type to the entity it is spelled at. -/
def writeTypeReference (variant owner : String) (key : EntityKey) (spelling : String) :
    Document :=
  .record [(variant, .record [(owner, write key), ("spelling", write spelling)])]

/-- Reads what `writeTypeReference` writes behind the name of the variant. -/
def readTypeReference (make : EntityKey → String → Reference) (owner : String)
    (document : Document) : Option Reference := do
  let fields ← document.namedFields?
  return make (← required fields owner) (← required fields "spelling")

instance : Interchange Reference where
  write
    | .base derived base =>
      .record [("Base", .record [("derived", write derived), ("base", write base)])]
    | .aliasTarget owner spelling => writeTypeReference "AliasTarget" "alias" owner spelling
    | .fieldType owner spelling => writeTypeReference "FieldType" "field" owner spelling
    | .parameterType owner spelling =>
      writeTypeReference "ParameterType" "callable" owner spelling
    | .returnType owner spelling => writeTypeReference "ReturnType" "callable" owner spelling
    | .localType owner spelling => writeTypeReference "LocalType" "function" owner spelling
    | .body caller parameters body =>
      .record [("Body", .record
        [("caller", write caller), ("parameters", write parameters), ("body", write body)])]
  read document := do
    match ← document.variant? with
    | ("Base", content) =>
      let fields ← content.namedFields?
      return .base (← required fields "derived") (← required fields "base")
    | ("AliasTarget", content) => readTypeReference .aliasTarget "alias" content
    | ("FieldType", content) => readTypeReference .fieldType "field" content
    | ("ParameterType", content) => readTypeReference .parameterType "callable" content
    | ("ReturnType", content) => readTypeReference .returnType "callable" content
    | ("LocalType", content) => readTypeReference .localType "function" content
    | ("Body", content) =>
      let fields ← content.namedFields?
      return .body (← required fields "caller") (← required fields "parameters")
        (← required fields "body")
    | _ => none

instance : Interchange Contribution where
  write contribution := .record
    [("path", write contribution.path), ("entities", write contribution.mentions),
     ("references", write contribution.references),
     ("using_directives", write contribution.directives)]
  read document := do
    let fields ← document.fields? ["path", "entities", "references", "using_directives"]
    return ⟨← required fields "path", ← required fields "entities",
      ← required fields "references", ← required fields "using_directives"⟩

instance : Interchange Settings where
  write settings := .record
    [("max_file_size", write settings.maxFileSize), ("timeout_per_file", write settings.timeout),
     ("parallel", write settings.parallel), ("parallel_workers", write settings.workers),
     ("extract_calls", write settings.readCalls),
     ("extract_type_usage", write settings.readTypeUses),
     ("tolerate_syntax_errors", write settings.tolerateErrors)]
  read document := do
    let fields ← document.fields?
      ["max_file_size", "timeout_per_file", "parallel", "parallel_workers", "extract_calls",
       "extract_type_usage", "tolerate_syntax_errors"]
    return {
      maxFileSize := ← required fields "max_file_size"
      timeout := ← required fields "timeout_per_file"
      parallel := ← required fields "parallel"
      workers := ← withDefault none fields "parallel_workers"
      readCalls := ← required fields "extract_calls"
      readTypeUses := ← required fields "extract_type_usage"
      tolerateErrors := ← required fields "tolerate_syntax_errors" }

instance : Interchange Statistics where
  write statistics := .record
    [("units_attempted", write statistics.attempted),
     ("units_succeeded", write statistics.succeeded),
     ("units_failed", write statistics.failed),
     ("total_parse_time", writeTime statistics.totalTime),
     ("total_declarations", write statistics.declarations),
     ("total_references", write statistics.references)]
  read document := do
    let fields ← document.fields?
      ["units_attempted", "units_succeeded", "units_failed", "total_parse_time",
       "total_declarations", "total_references"]
    return {
      attempted := ← required fields "units_attempted"
      succeeded := ← required fields "units_succeeded"
      failed := ← required fields "units_failed"
      totalTime := ← requiredTime fields "total_parse_time"
      declarations := ← required fields "total_declarations"
      references := ← required fields "total_references" }

end DeclGraph

import DeclGraph.Catalogue.Merge
import DeclGraph.Contribution.OfUnit

/-!
# Assembling contributions

An assembly takes up one contribution after the other. A contribution that
contradicts what is known, or itself, is refused as a whole. The references of a
contribution wait until every unit is known; taking up a unit of the same path
again replaces what is waiting.
-/

namespace DeclGraph

/-- Units by path, in the order of paths. -/
abbrev PendingUnits := Std.ExtTreeMap (List FilePath.Component) Pending

/-- Keeps a unit. A unit of the same path is replaced and its path stays as it
was first given. -/
def PendingUnits.keep (units : PendingUnits) (unit : Pending) : PendingUnits :=
  match units[unit.path.components]? with
  | some former => units.insert unit.path.components { unit with path := former.path }
  | none => units.insert unit.path.components unit

/-- The contributions taken up so far. -/
structure Assembly where
  settings : Settings
  catalogue : Catalogue
  units : PendingUnits
deriving DecidableEq

/-- Why a contribution is not taken up. -/
inductive AssemblyError where
  | conflict (unit : FilePath) (conflict : Conflict)
  | graph (error : GraphError)
deriving DecidableEq

/-- The text reported for an error. -/
def AssemblyError.message : AssemblyError → String
  | .conflict unit found =>
    "Merge conflict in " ++ unit.display ++ ": " ++ found.name.display ++ " is declared as "
      ++ found.incoming.display ++ " but already known as " ++ found.existing.display
  | .graph error => error.message

/-- Whether a mention contradicts an earlier one of the same name. -/
def Mention.contradicts (mention earlier : Mention) : Bool :=
  earlier.key.name = mention.key.name
    && !compatible earlier.key earlier.kind earlier.implied mention

/-- The first contradiction between a mention and earlier ones. -/
def Mention.conflictAmong? (mention : Mention) (earlier : List Mention) : Option Conflict :=
  (earlier.find? mention.contradicts).map fun other =>
    ⟨mention.key.name, other.kind, mention.kind⟩

/-- The first contradiction of a list of mentions to what is known or to a
mention before it. `earlier` holds the mentions in front of the list. -/
def Catalogue.firstConflict? (catalogue : Catalogue) (earlier : List Mention) :
    List Mention → Option Conflict
  | [] => none
  | mention :: rest =>
    match catalogue.conflict? mention with
    | some conflict => some conflict
    | none =>
      match mention.conflictAmong? earlier with
      | some conflict => some conflict
      | none => catalogue.firstConflict? (earlier ++ [mention]) rest

/-- Registers mentions one after the other. -/
def Catalogue.registerAll (mentions : List Mention) : Catalogue.Action Unit :=
  mentions.forM fun mention => do
    let _ ← Catalogue.register mention

namespace Assembly

/-- The assembly that has taken up nothing. -/
def empty (settings : Settings) : Assembly := ⟨settings, .empty, ∅⟩

/-- Takes up a contribution. -/
def merge (assembly : Assembly) (contribution : Contribution) :
    Assembly × Except AssemblyError Unit :=
  match assembly.catalogue.firstConflict? [] contribution.mentions with
  | some conflict => (assembly, .error (.conflict contribution.path conflict))
  | none =>
    match (Catalogue.registerAll contribution.mentions).run.run assembly.catalogue with
    | (.error error, catalogue) => ({ assembly with catalogue }, .error (.graph error))
    | (.ok _, catalogue) =>
      ({ assembly with catalogue, units := assembly.units.keep contribution.pending }, .ok ())

/-- A contribution that contradicts what is known, or itself, changes nothing. -/
theorem merge_of_conflict {assembly : Assembly} {contribution : Contribution} {found : Conflict}
    (refused : assembly.catalogue.firstConflict? [] contribution.mentions = some found) :
    assembly.merge contribution = (assembly, .error (.conflict contribution.path found)) := by
  simp [merge, refused]

/-- Takes up what a unit contributes. -/
def mergeUnit (assembly : Assembly) (unit : SourceUnit) : Assembly × Except AssemblyError Unit :=
  assembly.merge (unit.contribution assembly.settings)

/-- The paths of the units taken up, in path order. -/
def mergedPaths (assembly : Assembly) : List FilePath :=
  assembly.units.values.map (·.path)

end Assembly

end DeclGraph

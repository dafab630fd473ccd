import DeclGraph.Proofs.Assembly.Finish
import DeclGraph.Proofs.Assembly.History
import DeclGraph.Proofs.Catalogue.Rooted
import DeclGraph.Proofs.Linking.Parameters

/-!
# Types that are spelled from the global namespace

What a type refers to is told without the separator in front of its spelling, so that the
type is looked up from the scope of the reference. It is linked to what the spelling means
in the global namespace as long as nothing that is searched before shows its first
component.
-/

namespace DeclGraph

/-- A reference of a node of the key spells a type in a role. -/
inductive Reference.Spells : Reference → EntityKey → String → String → Prop where
  | aliasTarget (owner : EntityKey) (spelling : String) :
    Spells (.aliasTarget owner spelling) owner "alias" spelling
  | fieldType (owner : EntityKey) (spelling : String) :
    Spells (.fieldType owner spelling) owner "field" spelling
  | parameterType (owner : EntityKey) (spelling : String) :
    Spells (.parameterType owner spelling) owner "parameter" spelling
  | returnType (owner : EntityKey) (spelling : String) :
    Spells (.returnType owner spelling) owner "return" spelling
  | localType (owner : EntityKey) (spelling : String) :
    Spells (.localType owner spelling) owner "local" spelling

/-- A reference names the first type that its spelling refers to. -/
theorem Reference.Spells.names {reference : Reference} {owner : EntityKey}
    {role spelling name : String} {arguments : List String}
    (spells : reference.Spells owner role spelling)
    (first : Spelling.references spelling = name :: arguments) :
    reference.Names owner role name := by
  have among : name ∈ Spelling.references spelling := by simp [first]
  cases spells with
  | aliasTarget => exact .aliasTarget first
  | fieldType => exact .fieldType among
  | parameterType => exact .parameterType among
  | returnType => exact .returnType among
  | localType => exact .localType among

/-- A node uses in a role the first type that was found or, where none was, the stand-in
of the spelling. -/
def Graph.UsesFirst (graph : Graph) (node : Nat) (role : String) (found : List Nat)
    (spelling : String) : Prop :=
  ∃ target, graph.UsedAs node role target ∧
    (found.head? = some target ∨
      (found = [] ∧ graph.key? target = some (.placeholder spelling)))

namespace Linking

variable {bonds : List Bond} {before after : Linking}

/-- Whatever names a type is linked when its turn comes. -/
theorem Complete.linksName {references : List SeenReference}
    (complete : Complete references before after) {item : SeenReference}
    (member : item ∈ references) {owner : EntityKey} {role name : String} {node : Nat}
    (names : item.2.Names owner role name)
    (known : before.catalogue.nodeByKey? owner = some node) :
    Sometime allBonds before after (LinksName item.1 node role name) := by
  have linkedAs : ∀ {roles : List String}, NamesLinked allBonds roles item before after →
      role ∈ roles → Sometime allBonds before after (LinksName item.1 node role name) :=
    fun linked inRoles => linked names inRoles known
  obtain ⟨viewpoint, reference⟩ := item
  cases names with
  | aliasTarget first =>
    refine (complete.aliases _ member rfl known).imp fun stage _ _ links => ?_
    cases links with
    | unnamed nothing =>
      rw [nothing] at first
      cases first
    | named firstToo links =>
      rw [first] at firstToo
      cases firstToo
      exact links
  | fieldType => exact linkedAs (complete.fields _ member) (by simp)
  | parameterType => exact linkedAs (complete.signatures _ member) (by simp)
  | returnType => exact linkedAs (complete.signatures _ member) (by simp)
  | localType => exact linkedAs (complete.locals _ member) (by simp)

/-- A node is linked to the first type that a name means where it is no template
parameter. -/
theorem LinksName.usesFirst {viewpoint : Viewpoint} {node : Nat} {role name : String}
    {stage : Linking} (later : stage.Grows bonds after) (start : stage.catalogue.Housed [])
    (links : LinksName viewpoint node role name stage.catalogue after.catalogue)
    (shown : ¬ after.catalogue.graph.ParameterInForce node name) :
    after.catalogue.graph.UsesFirst node role
      (stage.catalogue.resolveFrom viewpoint (isOtherType node) name
        (stage.catalogue.scopeOf node)) name := by
  obtain ⟨meant, means, used⟩ := links
  cases means with
  | hidden inForce =>
    exact absurd (later.parameterInForce_kept start
      (Catalogue.parameterInForce_of_mem start.sound inForce)) shown
  | found _ first => exact ⟨_, used _ rfl, .inl first⟩
  | standIn _ nothing carried => exact ⟨_, used _ rfl, .inr ⟨nothing, carried⟩⟩

end Linking

namespace Assembly

/-- Whatever units were offered, a type that is spelled from the global namespace is linked
to what its name means in the scope of the reference or to a stand-in. That is what it means
in the global namespace, when nothing else that is searched shows its first component. -/
theorem offered_rooted_linked (settings : Settings) (units : List SourceUnit) :
    let assembly := (empty settings).offered units
    ∃ prepared linking, assembly.Finishes prepared linking ∧
      ∀ {viewpoint : Viewpoint} {reference : Reference} {owner : EntityKey} {role : String}
        {name : ScopedName} {node : Nat},
        (viewpoint, reference) ∈ seenReferences assembly.units.values →
        Spelling.IsQualified name → reference.Spells owner role ("::" ++ name.display) →
        prepared.nodeByKey? owner = some node →
        ¬ linking.catalogue.graph.ParameterInForce node name.display →
        ∃ stage : Linking, Linking.Grows Linking.allBonds ⟨prepared, []⟩ stage ∧
          stage.Grows Linking.allBonds linking ∧
          linking.catalogue.graph.UsesFirst node role
            (stage.catalogue.resolveFrom viewpoint (Linking.isOtherType node) name.display
              (stage.catalogue.scopeOf node)) name.display ∧
          (stage.catalogue.ShownAtRoot viewpoint
              (Catalogue.firstAccept (Linking.isOtherType node) name) (name.segments.headD "")
              (stage.catalogue.scopeOf node) →
            linking.catalogue.graph.UsesFirst node role
              (stage.catalogue.resolveFrom viewpoint (Linking.isOtherType node)
                ("::" ++ name.display) Graph.root) name.display) := by
  intro assembly
  have holds := (takenUp_accepted settings units).history.holds
  obtain ⟨prepared, linking, finishes, housed, _, complete⟩ :=
    finish_links holds.housed holds.unlinked
  refine ⟨prepared, linking, finishes, ?_⟩
  intro viewpoint reference owner role name node waits qualified spells known shown
  obtain ⟨stage, toStage, fromStage, links⟩ :=
    complete.linksName waits (spells.names qualified.references_rooted) known
  have housedStage := toStage.housed housed
  have uses := links.usesFirst fromStage housedStage shown
  refine ⟨stage, toStage, fromStage, uses, fun atRoot => ?_⟩
  obtain ⟨scopeName, carried⟩ := housedStage.key?_scopeOf node
  rwa [Catalogue.resolveFrom_rooted housedStage qualified carried atRoot] at uses

/-- A unit with a class in the global namespace, another one of the same name in a
namespace, and a data member there of the former type. -/
def namesakeUnit : SourceUnit where
  path := .ofText "namesake.h"
  declarations :=
    [{ kind := .classRecord, name := "A", line := 1, isDefinition := true },
     { kind := .namespaceScope, name := "n", line := 2, isDefinition := true },
     { kind := .classRecord, name := "A", scope := [⟨"n", .namespaceScope⟩], line := 3
       isDefinition := true },
     { kind := .classRecord, name := "B", scope := [⟨"n", .namespaceScope⟩], line := 4
       isDefinition := true },
     { kind := .field, name := "f", scope := [⟨"n", .namespaceScope⟩, ⟨"B", .classRecord⟩], line := 5
       fieldType := some "::A", isDefinition := true }]
  directives := []
  parseTime := .zero
  lineCount := 7
  byteCount := 80

/-- The names of the types that an entity uses in the graph finished from units in their
order. -/
def finishedUses? (units : List SourceUnit) (key : EntityKey) : Option (List ScopedName) := do
  let finished ← ((empty {}).offered units).finish.toOption
  let id ← finished.graph.nodeByKey? key
  let used := (finished.graph.outgoing id (some .usesType)).filterMap fun edge =>
    finished.graph.nodeTable[edge.target]?
  return used.map (·.key.name)

/-- A type spelled from the global namespace is taken for its namesake in the namespace of
the reference. -/
theorem finishedUses?_namesake :
    (empty {}).accepted [namesakeUnit] = [namesakeUnit] ∧
      finishedUses? [namesakeUnit] (.field ⟨["n", "B", "f"]⟩) = some [⟨["n", "A"]⟩] := by
  constructor <;> decide +kernel

end Assembly

end DeclGraph

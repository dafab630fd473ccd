import DeclGraph.Proofs.Assembly.Finish
import DeclGraph.Proofs.Assembly.History
import DeclGraph.Proofs.Catalogue.Aliases
import DeclGraph.Proofs.Linking.Parameters

/-!
# Aliases of a finished graph

Every alias that names something is linked to what it stands for, so that following
aliases leads to a record or a stand-in. Two things keep an alias from standing for
anything: aliases that stand for each other in a circle, and an alias of a template
parameter, which names no entity.
-/

namespace DeclGraph

/-- Whether a node is a record or a stand-in. -/
def Node.isConcrete (node : Node) : Bool := node.kind.isRecord || node.kind = .placeholder

/-- Where following aliases ends, given the references that were linked. -/
inductive AliasEnd (references : List SeenReference) (catalogue : Catalogue) (last : Nat) :
    Prop where
  | concrete (accepted : catalogue.Accepts Node.isConcrete last)
  | circular (cycle : Relation.TransGen catalogue.StandsFor last last)
  | parametric (nothing : catalogue.aliasTarget? last = none)
    (parameters : ∀ ⦃viewpoint : Viewpoint⦄ ⦃key : EntityKey⦄ ⦃spelling : String⦄,
      (viewpoint, .aliasTarget key spelling) ∈ references →
      catalogue.nodeByKey? key = some last → ∃ name arguments,
        Spelling.references spelling = name :: arguments ∧
          catalogue.graph.ParameterInForce last name)

namespace Linking

variable {bonds : List Bond} {before after : Linking}

/-- Only stand-ins become known under their keys. -/
theorem Grows.nodeByKey?_of_kind (grows : before.Grows bonds after)
    (start : before.catalogue.Housed []) {key : EntityKey} {id : Nat} {kind : EntityKind}
    (known : after.catalogue.nodeByKey? key = some id)
    (declared : after.catalogue.kind? id = some kind) (notStandIn : kind ≠ .placeholder) :
    before.catalogue.nodeByKey? key = some id := by
  obtain ⟨last, settles, carried⟩ := (Catalogue.nodeByKey?_eq_some (grows.housed start).sound).mp known
  obtain ⟨node, found, rfl⟩ := Graph.key?_eq_some.mp carried
  rw [Catalogue.kind?, found] at declared
  obtain rfl : node.kind = kind := Option.some.inj declared
  have old := grows.nodes_declared found notStandIn
  exact (Catalogue.nodeByKey?_eq_some start.sound).mpr
    ⟨node.key, settles.of_moved grows.moved.symm, Graph.key?_of_node old⟩

/-- An alias that stands for nothing though a reference says for what names a template
parameter first. -/
theorem LinksAlias.parameter {viewpoint : Viewpoint} {owner : Nat} {spelling : String}
    {stage : Linking} (later : stage.Grows bonds after) (start : stage.catalogue.Housed [])
    (links : LinksAlias viewpoint owner spelling stage.catalogue after.catalogue)
    (nothing : after.catalogue.aliasTarget? owner = none) :
    ∃ name arguments, Spelling.references spelling = name :: arguments ∧
      after.catalogue.graph.ParameterInForce owner name := by
  have unused : ∀ {target : Nat}, ¬ after.catalogue.graph.UsedAs owner "alias" target := by
    intro target used
    have stands := Catalogue.aliasTarget?_isSome_of_usedAs (later.housed start).sound used
    rw [nothing] at stands
    cases stands
  cases links with
  | unnamed _ _ used => exact absurd used unused
  | named first links =>
    obtain ⟨meant, means, used⟩ := links
    refine ⟨_, _, first, ?_⟩
    cases means with
    | hidden inForce =>
      exact later.parameterInForce_kept start (Catalogue.parameterInForce_of_mem start.sound inForce)
    | found => exact absurd (used _ rfl) unused
    | standIn => exact absurd (used _ rfl) unused

/-- Once all references are linked, following aliases ends as it should. -/
theorem Complete.aliasEnd {references : List SeenReference}
    (complete : Complete references before after) (start : before.catalogue.Housed [])
    (unlinked : before.catalogue.Unlinked) {id : Nat}
    (isAlias : after.catalogue.kind? id = some .typeAlias) :
    AliasEnd references after.catalogue (after.catalogue.dealias id) := by
  have grows := complete.grows
  have sound := (grows.housed start).sound
  have there : after.catalogue.HasNode id := by
    obtain ⟨node, found, _⟩ := Option.map_eq_some_iff.mp isAlias
    exact Graph.isSome_key?_iff.mpr ⟨node, found⟩
  by_cases lastIsAlias : after.catalogue.kind? (after.catalogue.dealias id) = some .typeAlias
  · cases Catalogue.endsAt_dealias sound there with
    | concrete other => exact absurd lastIsAlias other
    | around cycle => exact .circular cycle
    | nowhere nothing =>
      refine .parametric nothing fun viewpoint key spelling waits leads => ?_
      have known := grows.nodeByKey?_of_kind start leads lastIsAlias nofun
      obtain ⟨stage, toStage, fromStage, links⟩ := complete.aliases _ waits rfl known
      exact links.parameter fromStage (toStage.housed start) nothing
  · obtain ⟨former, stands⟩ := Catalogue.exists_standsFor_dealias isAlias lastIsAlias
    obtain ⟨node, found, usable⟩ := grows.isUsable_of_usesType start
      (fun source target related => by cases unlinked _ _ _ related) (stands.related sound)
    refine .concrete ⟨node, found, ?_⟩
    rw [Catalogue.kind?, found] at lastIsAlias
    cases kind : node.kind <;>
      simp_all [Node.isUsable, Node.isConcrete, EntityKind.isType, EntityKind.isRecord]

end Linking

namespace Assembly

variable {settings : Settings} {units : List SourceUnit} {assembly : Assembly}

/-- What a unit refers to waits as the unit sees it, if no other unit has its path. -/
theorem TakenUp.mem_seenReferences (taken : TakenUp settings units assembly)
    (distinct : (units.map (·.path.components)).Nodup) {unit : SourceUnit} (member : unit ∈ units)
    {declaration : Declaration} (declared : declaration ∈ unit.declarations)
    {reference : Reference} (refers : reference ∈ declaration.references settings) :
    (⟨unit.path, unit.directives⟩, reference) ∈ seenReferences assembly.units.values := by
  have waits := (taken.waiting distinct).1 unit member
  refine List.mem_flatMap.mpr ⟨_, mem_values.mpr ⟨_, waits⟩, ?_⟩
  exact List.mem_map.mpr ⟨reference, List.mem_flatMap.mpr ⟨declaration, declared, refers⟩, rfl⟩

/-- An alias of which it is known how it is spelled what it stands for has been declared with
that, and the reference from its declaration waits. -/
theorem TakenUp.alias_waits (taken : TakenUp settings units assembly)
    (distinct : (units.map (·.path.components)).Nodup) {node : Node}
    (listed : node ∈ assembly.catalogue.graph.nodes) (isAlias : node.kind = .typeAlias)
    {value : Value} (spelled : node.attributes[AttributeName.underlyingType]? = some value) :
    ∃ viewpoint spelling, (viewpoint, .aliasTarget node.key spelling) ∈
      seenReferences assembly.units.values := by
  have holds := taken.history.holds
  have sound := holds.housed.sound
  have found := sound.mem_nodes.mp listed
  have known := sound.profile?_of_node found
  rw [holds.profile] at known
  have family : node.key.family = .typeAlias := by
    rw [← sound.kind_family found, isAlias]
    rfl
  obtain ⟨best, described⟩ := described_of_known (regular_allMentions units)
    (fun global => by simp [global, EntityKey.global, EntityKey.scope] at family) known
  have plain : AttributeName.IsPlain AttributeName.underlyingType := by
    constructor <;> decide
  obtain ⟨mention, mentioned, said⟩ := (described.told (.ofAttribute _ _ plain)).source spelled
  obtain ⟨inAll, sameKey⟩ := mem_mentionsUnder.mp mentioned
  obtain ⟨unit, member, inUnit⟩ := List.mem_flatMap.mp inAll
  have told : mention.attributes[AttributeName.underlyingType]? = some value := said
  rcases SourceUnit.mem_mentions_cases inUnit with ⟨declaration, declared, rfl⟩ | ⟨name, kind, _, rfl⟩
  · have declaredAs : declaration.key = node.key := sameKey
    have kind : declaration.kind = .typeAlias := by
      have ofAlias : declaration.kind.family = .typeAlias := by
        rw [← declaration.key_family, declaredAs, family]
      revert ofAlias
      cases declaration.kind <;> simp [EntityKind.family]
    rcases Declaration.mention_attributes.mp told with place | entry
    · have notPlace : AttributeName.underlyingType ∉ Declaration.placeKeys := by decide
      exact absurd ((declaration.placeEntries_keys _).subset (List.mem_map_of_mem place)) notPlace
    · cases underlying : declaration.underlyingType with
      | none => simp [Declaration.kindEntries, kind, underlying, optionalEntry] at entry
      | some spelling =>
        refine ⟨_, spelling, taken.mem_seenReferences distinct member declared ?_⟩
        simp [Declaration.references, kind, underlying, declaredAs]
  · rw [SourceUnit.ofScope_key] at sameKey
    rw [← sameKey] at family
    cases family

/-- Whatever units were offered, following aliases in the finished graph ends at a record or
a stand-in, on a circle of aliases, or at an alias that names a template parameter in force
wherever it is declared. If no two units have one path, every alias of which it is known
how it is spelled what it stands for is linked. -/
theorem offered_aliasEnd (settings : Settings) (units : List SourceUnit) :
    let assembly := (empty settings).offered units
    let references := seenReferences assembly.units.values
    ∃ prepared linking, assembly.Finishes prepared linking ∧
      (∀ id, linking.catalogue.kind? id = some .typeAlias →
        AliasEnd references linking.catalogue (linking.catalogue.dealias id)) ∧
      ((((empty settings).accepted units).map (·.path.components)).Nodup →
        ∀ node ∈ assembly.catalogue.graph.nodes, node.kind = .typeAlias →
          (node.attributes[AttributeName.underlyingType]?).isSome →
            ∃ viewpoint spelling, (viewpoint, .aliasTarget node.key spelling) ∈ references) := by
  intro assembly references
  have taken := takenUp_accepted settings units
  obtain ⟨prepared, linking, finishes, housed, unlinked, complete⟩ :=
    finish_links taken.history.holds.housed taken.history.holds.unlinked
  refine ⟨prepared, linking, finishes, fun id isAlias => complete.aliasEnd housed unlinked isAlias,
    fun distinct node listed isAlias spelled => ?_⟩
  obtain ⟨value, held⟩ := Option.isSome_iff_exists.mp spelled
  exact taken.alias_waits distinct listed isAlias held

/-- A unit that declares an alias, which may be a template. -/
def aliasUnit (path name : String) (templateParameters : List String) (underlying : String) :
    SourceUnit where
  path := .ofText path
  declarations :=
    [{ kind := .typeAlias, name, templateParameters, underlyingType := some underlying, line := 1
       isDefinition := true }]
  directives := []
  parseTime := .zero
  lineCount := 1
  byteCount := 30

/-- The kind of the node where following aliases from an entity ends, in the graph finished
from units in their order. -/
def finishedAliasEnd? (units : List SourceUnit) (key : EntityKey) : Option EntityKind := do
  let finished ← ((empty {}).offered units).finish.toOption
  let id ← finished.graph.nodeByKey? key
  let catalogue : Catalogue := { Catalogue.empty with graph := finished.graph }
  catalogue.kind? (catalogue.dealias id)

/-- An alias of its own template parameter and aliases of each other end in no type. -/
theorem finishedAliasEnd?_noType :
    finishedAliasEnd? [aliasUnit "id.h" "Id" ["T"] "T"] (.typeAlias ⟨["Id"]⟩) = some .typeAlias ∧
      finishedAliasEnd? [aliasUnit "a.h" "A" [] "B", aliasUnit "b.h" "B" [] "A"]
        (.typeAlias ⟨["A"]⟩) = some .typeAlias := by
  constructor <;> decide +kernel

end Assembly

end DeclGraph

import DeclGraph.Proofs.Assembly.Overloads
import DeclGraph.Proofs.Assembly.Overrides
import DeclGraph.Proofs.Linking.FieldTypes
import DeclGraph.Proofs.Linking.OverrideFrame

/-!
# The structure of a finished graph

Declared nodes, containment, inheritance, overloads, overrides and what aliases
stand for make up the structure of a graph. All of it is settled as soon as aliases
and bases are linked: overloads and overrides are linked later, but they are
worked out from nothing that is added in between. So two linkings that agree up to
the bases end in graphs of the same structure.
-/

namespace DeclGraph

namespace Relation

/-- Whether the relation is part of the structure of a graph. -/
def isStructural : Relation → Bool
  | .contains | .inherits | .overrides | .overloads => true
  | .calls | .hasField | .usesType => false

end Relation

namespace Graph

/-- The nodes that stand for entities, not for names that mean nothing known. -/
def declaredNodes (graph : Graph) : List Node :=
  graph.nodes.filter fun node => node.kind ≠ .placeholder

/-- Something holds between the nodes of two entities. -/
def BetweenEntities (graph : Graph) (between : Nat → Nat → Prop)
    (source target : EntityKey) : Prop :=
  ∃ first second, graph.key? first = some source ∧ graph.key? second = some target ∧
    between first second

/-- An entity is related to another one by an edge with these attributes. -/
def RelatesWith (graph : Graph) (source : EntityKey) (relation : Relation) (target : EntityKey)
    (attributes : Attributes) : Prop :=
  graph.BetweenEntities
    (fun first second => graph.attributesOf? ⟨first, second, relation⟩ = some attributes)
    source target

/-- An entity uses another one in a role. -/
def UsesAs (graph : Graph) (source : EntityKey) (role : String) (target : EntityKey) : Prop :=
  graph.BetweenEntities (fun first second => graph.UsedAs first role second) source target

/-- Two graphs have the same declared nodes with the same keys, kinds and
attributes, and by the keys of their ends the same structural edges. -/
structure SameStructure (first second : Graph) : Prop where
  declaredNodes : first.declaredNodes = second.declaredNodes
  relatesWith_iff : ∀ {relation : Relation}, relation.isStructural →
    ∀ {source target : EntityKey} {attributes : Attributes},
      first.RelatesWith source relation target attributes ↔
        second.RelatesWith source relation target attributes
  aliases_iff : ∀ {source target : EntityKey},
    first.UsesAs source "alias" target ↔ second.UsesAs source "alias" target

variable {graph other : Graph} {key : EdgeKey}

/-- What holds between entities holds of other ids too if the ids have the same keys. -/
theorem BetweenEntities.of_keys {between betweenToo : Nat → Nat → Prop} {source target : EntityKey}
    (holds : graph.BetweenEntities between source target)
    (imp : ∀ {first second : Nat}, between first second → betweenToo first second)
    (keys : ∀ {first second : Nat}, between first second →
      other.key? first = graph.key? first ∧ other.key? second = graph.key? second) :
    other.BetweenEntities betweenToo source target := by
  obtain ⟨first, second, sourceKey, targetKey, held⟩ := holds
  obtain ⟨firstKeys, secondKeys⟩ := keys held
  exact ⟨first, second, firstKeys.trans sourceKey, secondKeys.trans targetKey, imp held⟩

/-- Two nodes are related when their edge has attributes. -/
theorem Sound.related_iff_attributesOf? (sound : graph.Sound) {source target : Nat}
    {relation : Relation} : graph.Related source relation target ↔
      ∃ attributes, graph.attributesOf? ⟨source, target, relation⟩ = some attributes := by
  rw [← sound.edgeBetween?_isSome, ← Option.isSome_iff_exists, attributesOf?, Option.isSome_map]

/-- What is used in a role is used. -/
theorem UsedAs.related {source target : Nat} {role : String}
    (used : graph.UsedAs source role target) : graph.Related source .usesType target := by
  obtain ⟨edge, found, ends, _⟩ := used
  exact ⟨edge.id, (edgeKey?_of_edge found).trans (congrArg some ends)⟩

end Graph

namespace Catalogue

/-- What the catalogue tells, once aliases and bases are linked in it, of the structural edges
that will be in the finished graph. -/
def Foretells (catalogue : Catalogue) (relation : Relation) (source target : Nat)
    (attributes : Attributes) : Prop :=
  match relation with
  | .overloads =>
    attributes = ∅ ∧ (source, target) ∈ catalogue.overloadGroups.flatMap pairsWithin
  | .overrides =>
    attributes = ∅ ∧ ∃ found, (source, found) ∈ catalogue.overrideTable ∧ target ∈ found
  | relation => catalogue.graph.attributesOf? ⟨source, target, relation⟩ = some attributes

/-- A graph has the structure that the catalogue foretells. -/
structure ForetellsStructure (catalogue : Catalogue) (graph : Graph) : Prop where
  declaredNodes : graph.declaredNodes = catalogue.graph.declaredNodes
  key?_eq : ∀ {id : Nat}, catalogue.HasNode id → graph.key? id = catalogue.graph.key? id
  attributesOf?_iff : ∀ {relation : Relation}, relation.isStructural →
    ∀ {source target : Nat} {attributes : Attributes},
      graph.attributesOf? ⟨source, target, relation⟩ = some attributes ↔
        catalogue.Foretells relation source target attributes
  usedAs_iff : ∀ {source target : Nat},
    graph.UsedAs source "alias" target ↔ catalogue.graph.UsedAs source "alias" target

variable {catalogue : Catalogue}

/-- What is foretold to be related is there. -/
theorem Foretells.there (sound : catalogue.graph.Sound) {relation : Relation} {source target : Nat}
    {attributes : Attributes} (foretells : catalogue.Foretells relation source target attributes) :
    catalogue.HasNode source ∧ catalogue.HasNode target := by
  unfold Foretells at foretells
  split at foretells
  · obtain ⟨_, one, other, oneFound, otherFound, _⟩ := (mem_overloadPairs sound).mp foretells.2
    exact ⟨Graph.isSome_key?_iff.mpr ⟨one, oneFound⟩, Graph.isSome_key?_iff.mpr ⟨other, otherFound⟩⟩
  · obtain ⟨_, found, listed, member⟩ := foretells
    have there := hasNode_overrideTable sound listed
    exact ⟨there.1, there.2 target member⟩
  · exact sound.there_of_related (sound.related_iff_attributesOf?.mpr ⟨attributes, foretells⟩)

namespace ForetellsStructure

variable (sound : catalogue.graph.Sound) {first second : Graph}
  (foretellsFirst : catalogue.ForetellsStructure first)
  (foretellsSecond : catalogue.ForetellsStructure second)

include foretellsFirst foretellsSecond

/-- Nodes of the catalogue have the same keys in graphs that it foretells. -/
theorem same_keys {id : Nat} (there : catalogue.HasNode id) : second.key? id = first.key? id :=
  (foretellsSecond.key?_eq there).trans (foretellsFirst.key?_eq there).symm

include sound

/-- Structural relations are the same in both graphs. -/
theorem relatesWith {relation : Relation} (structural : relation.isStructural)
    {source target : EntityKey} {attributes : Attributes}
    (relates : first.RelatesWith source relation target attributes) :
    second.RelatesWith source relation target attributes := by
  have foretold : ∀ {one other : Nat}, first.attributesOf? ⟨one, other, relation⟩ = some attributes →
      catalogue.Foretells relation one other attributes :=
    (foretellsFirst.attributesOf?_iff structural).mp
  refine relates.of_keys (fun held => ?_) fun held => ?_
  · exact (foretellsSecond.attributesOf?_iff structural).mpr (foretold held)
  · have there := (foretold held).there sound
    exact ⟨foretellsFirst.same_keys foretellsSecond there.1,
      foretellsFirst.same_keys foretellsSecond there.2⟩

/-- What is used as an alias is the same in both graphs. -/
theorem usesAs {source target : EntityKey} (uses : first.UsesAs source "alias" target) :
    second.UsesAs source "alias" target := by
  refine uses.of_keys (fun used => ?_) fun used => ?_
  · exact foretellsSecond.usedAs_iff.mpr (foretellsFirst.usedAs_iff.mp used)
  · have there := sound.there_of_related (foretellsFirst.usedAs_iff.mp used).related
    exact ⟨foretellsFirst.same_keys foretellsSecond there.1,
      foretellsFirst.same_keys foretellsSecond there.2⟩

/-- What one catalogue foretells are graphs of the same structure. -/
theorem sameStructure : first.SameStructure second where
  declaredNodes := foretellsFirst.declaredNodes.trans foretellsSecond.declaredNodes.symm
  relatesWith_iff structural :=
    ⟨foretellsFirst.relatesWith sound foretellsSecond structural,
      foretellsSecond.relatesWith sound foretellsFirst structural⟩
  aliases_iff :=
    ⟨foretellsFirst.usesAs sound foretellsSecond, foretellsSecond.usesAs sound foretellsFirst⟩

end ForetellsStructure

end Catalogue

namespace Linking

namespace Grows

variable {bonds : List Bond} {before after : Linking} (grows : before.Grows bonds after)
  (start : before.catalogue.Housed [])

include grows start

/-- The callables of one scope and one name are grouped as they were. -/
theorem overloadGroups_eq :
    after.catalogue.overloadGroups = before.catalogue.overloadGroups := by
  unfold Catalogue.overloadGroups
  rw [grows.filter_nodes_eq start]
  · simp only [grows.scopeOf_eq start]
  · intro node can standIn
    simp [standIn, EntityKind.isOverloadable] at can

/-- Edges that are there for a reason that gives them nothing to carry carry nothing. -/
theorem eq_empty_of_bare {reason : Bond} (bare : reason.isBare = true)
    (none : ∀ source target, ¬ before.catalogue.graph.Related source reason.relation target)
    {source target : Nat} {attributes : Attributes}
    (held : after.catalogue.graph.attributesOf? ⟨source, target, reason.relation⟩ =
      some attributes) : attributes = ∅ := by
  induction grows generalizing attributes with
  | refl => exact absurd (start.sound.related_iff_attributesOf?.mpr ⟨_, held⟩) (none _ _)
  | @edge middle bond key added sofar _ joins further =>
    have step : (middle.catalogue.withEdge key added).graph.attributesOf?
        ⟨source, target, reason.relation⟩ = _ :=
      (sofar.housed start).sound.attributesOf?_withEdge _
    rw [step] at held
    split at held
    · rename_i same
      obtain rfl : bond = reason := by
        have relation := joins.relation_eq
        rw [same] at relation
        cases reason <;> cases bond <;> simp_all [Bond.relation, Bond.isBare]
      rw [joins.of_bare bare] at held
      cases former : middle.catalogue.graph.attributesOf? ⟨source, target, bond.relation⟩ with
      | none => simpa [former] using held.symm
      | some old =>
        obtain rfl := further former
        rw [former] at held
        exact (Option.some.inj held).symm
    · exact further held
  | standIn _ _ further => exact further held
  | note _ _ further => exact further held

end Grows

namespace Stages

variable {references : List SeenReference} {start last : Linking}
  (stages : Stages references start last) (housed : start.catalogue.Housed [])

include stages housed

/-- In the end a bare edge is there wherever the nodes are related. -/
theorem attributesOf?_bare (unlinked : start.catalogue.Unlinked) (reason : Bond)
    (bare : reason.isBare = true) {source target : Nat} {attributes : Attributes} :
    last.catalogue.graph.attributesOf? ⟨source, target, reason.relation⟩ = some attributes ↔
      attributes = ∅ ∧ last.catalogue.graph.Related source reason.relation target := by
  have toLast := stages.toLast housed
  have sound := (toLast.housed housed).sound
  have empty : ∀ {attributes : Attributes}, last.catalogue.graph.attributesOf?
      ⟨source, target, reason.relation⟩ = some attributes → attributes = ∅ :=
    toLast.eq_empty_of_bare housed bare fun source target early => by
      cases reason <;> cases unlinked _ _ _ early
  constructor
  · exact fun held => ⟨empty held, sound.related_iff_attributesOf?.mpr ⟨_, held⟩⟩
  · rintro ⟨rfl, isRelated⟩
    obtain ⟨attributes, held⟩ := sound.related_iff_attributesOf?.mp isRelated
    rw [held, empty held]

/-- The finished graph has the structure that was settled when the bases were linked. -/
theorem foretellsStructure (unlinked : start.catalogue.Unlinked) :
    stages.based.catalogue.ForetellsStructure last.catalogue.graph := by
  have housedBased := stages.housed_based housed
  have onward := stages.basedToLast housed
  constructor
  case declaredNodes =>
    exact onward.filter_nodes_eq housedBased fun node declared => by simpa using declared
  case key?_eq => exact onward.key?_eq housedBased
  case usedAs_iff => exact onward.usedAs_iff housedBased (by decide)
  case attributesOf?_iff =>
    intro relation structural source target attributes
    cases relation with
    | contains =>
      have apart : ∀ bond ∈ quietBonds, bond.relation ≠ .contains := by decide
      exact (onward.attributesOf?_eq housedBased apart).congr_left
    | inherits =>
      have apart : ∀ bond ∈ quietBonds, bond.relation ≠ .inherits := by decide
      exact (onward.attributesOf?_eq housedBased apart).congr_left
    | overloads =>
      have groups := (stages.basedToSigned housed).overloadGroups_eq housedBased
      refine (stages.attributesOf?_bare housed unlinked .overloads rfl).trans ?_
      rw [Catalogue.Foretells, ← groups]
      exact and_congr_right fun _ => stages.overloads_linked housed unlinked
    | overrides =>
      have table := (stages.basedToOverloaded housed).overrideTable_eq housedBased
        quietBonds_quiet
      refine (stages.attributesOf?_bare housed unlinked .overrides rfl).trans ?_
      rw [Catalogue.Foretells, ← table]
      exact and_congr_right fun _ => stages.overrides_iff housed unlinked
    | calls => cases structural
    | hasField => cases structural
    | usesType => cases structural

end Stages

end Linking

end DeclGraph

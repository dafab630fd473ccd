import DeclGraph.Proofs.Assembly.Rooted
import DeclGraph.Proofs.Linking.Stages

/-!
# Types mean what the finished graph says

The types of data members, signatures and variables are looked up while the linking is under
way. No pass that comes later changes the answer, so that each of them is linked to what a
lookup in the finished graph finds first.
-/

namespace DeclGraph

namespace Linking

variable {bonds : List Bond} {stage last : Linking} {viewpoint : Viewpoint} {node : Nat}
  {role name : String}

/-- What was found when a node was linked is what is found in the end. -/
theorem LinksName.usesFirst_last (later : stage.Grows bonds last)
    (start : stage.catalogue.Housed []) (quiet : ∀ bond ∈ bonds, bond.leads = false)
    (there : stage.catalogue.HasNode node)
    (links : LinksName viewpoint node role name stage.catalogue last.catalogue)
    (shown : name ∉ last.catalogue.templateParameters node) :
    last.catalogue.graph.UsesFirst node role
      (last.catalogue.resolveFrom viewpoint (isOtherType node) name
        (last.catalogue.scopeOf node)) name := by
  have scopeThere := Catalogue.hasNode_scopeOf start.sound node
  rw [later.scopeOf_eq start, later.resolveFrom_eq start quiet scopeThere]
  rw [later.templateParameters_eq start quiet there] at shown
  obtain ⟨meant, means, used⟩ := links
  cases means with
  | hidden inForce => exact absurd inForce shown
  | found _ first => exact ⟨_, used _ rfl, .inl first⟩
  | standIn _ nothing carried => exact ⟨_, used _ rfl, .inr ⟨nothing, carried⟩⟩

namespace Stages

variable {references : List SeenReference} {start : Linking} {item : SeenReference}
  {owner : EntityKey} {roles : List String}

/-- What a pass has linked after the pass over the bases is used as it is meant in the end. -/
theorem usesFirst_of_namesLinked (stages : Stages references start last)
    (housed : start.catalogue.Housed []) {before after : Linking}
    (toBefore : stages.based.Grows quietBonds before) (fromAfter : after.Grows quietBonds last)
    (fewer : bonds ⊆ quietBonds) (linked : NamesLinked bonds roles item before after)
    (inRoles : role ∈ roles) (names : item.2.Names owner role name)
    (known : start.catalogue.nodeByKey? owner = some node)
    (shown : name ∉ last.catalogue.templateParameters node) :
    last.catalogue.graph.UsesFirst node role
      (last.catalogue.resolveFrom item.1 (isOtherType node) name
        (last.catalogue.scopeOf node)) name := by
  have housedBased := stages.housed_based housed
  have knownBased := (stages.toBased housed).nodeByKey?_kept housed known
  have knownBefore := toBefore.nodeByKey?_kept housedBased knownBased
  obtain ⟨stage, toStage, fromStage, links⟩ := linked names inRoles knownBefore
  have housedStage := toStage.housed (toBefore.housed housedBased)
  have later : stage.Grows quietBonds last := (fromStage.mono fewer).trans fromAfter
  have there := toStage.hasNode (toBefore.housed housedBased)
    (hasNode_of_nodeByKey? (toBefore.housed housedBased).sound knownBefore)
  exact (links.lasts fromAfter (fromStage.housed housedStage)).usesFirst_last later housedStage
    quietBonds_quiet there shown

/-- Every type that a reference names, other than what an alias stands for, is used as it is
meant in the end. -/
theorem usesFirst (stages : Stages references start last) (housed : start.catalogue.Housed [])
    (member : item ∈ references) (names : item.2.Names owner role name)
    (noAlias : role ≠ "alias") (known : start.catalogue.nodeByKey? owner = some node)
    (shown : name ∉ last.catalogue.templateParameters node) :
    last.catalogue.graph.UsesFirst node role
      (last.catalogue.resolveFrom item.1 (isOtherType node) name
        (last.catalogue.scopeOf node)) name := by
  have fields := ((succeeds_linkFields (stages.housed_based housed) references).of_run
    stages.fields).2 item member
  have signatures := ((succeeds_linkSignatures (stages.housed_fielded housed) references).of_run
    stages.signatures).2 item member
  have locals := ((succeeds_linkLocals (stages.housed_called housed) references).of_run
    stages.locals).2 item member
  have atFields : role ∈ ["field"] → _ := fun inRoles =>
    stages.usesFirst_of_namesLinked housed .refl (stages.fieldedToLast housed) (by decide) fields
      inRoles names known shown
  have atSignatures : role ∈ ["parameter", "return"] → _ := fun inRoles =>
    stages.usesFirst_of_namesLinked housed (stages.basedToFielded_quiet housed)
      (stages.signedToLast housed) (by decide) signatures inRoles names known shown
  have atLocals : role ∈ ["local"] → _ := fun inRoles =>
    stages.usesFirst_of_namesLinked housed (stages.basedToCalled housed) .refl (by decide) locals
      inRoles names known shown
  obtain ⟨viewpoint, reference⟩ := item
  cases names with
  | aliasTarget => exact absurd rfl noAlias
  | fieldType => exact atFields (by simp)
  | parameterType => exact atSignatures (by simp)
  | returnType => exact atSignatures (by simp)
  | localType => exact atLocals (by simp)

end Stages

end Linking

namespace Assembly

/-- Whatever units were offered, every type in the declaration of a data member, in a
signature or in a body that names no template parameter in force is linked, in its role, to
what a lookup in the finished graph finds first, or to the stand-in of the name where that
lookup finds nothing. -/
theorem offered_usesFirst (settings : Settings) (units : List SourceUnit) :
    let assembly := (empty settings).offered units
    ∃ prepared linking, assembly.Finishes prepared linking ∧
      ∀ {viewpoint : Viewpoint} {reference : Reference} {owner : EntityKey} {role name : String}
        {node : Nat},
        (viewpoint, reference) ∈ seenReferences assembly.units.values →
        reference.Names owner role name → role ≠ "alias" →
        prepared.nodeByKey? owner = some node →
        name ∉ linking.catalogue.templateParameters node →
        linking.catalogue.graph.UsesFirst node role
          (linking.catalogue.resolveFrom viewpoint (Linking.isOtherType node) name
            (linking.catalogue.scopeOf node)) name := by
  intro assembly
  have holds := (takenUp_accepted settings units).history.holds
  obtain ⟨prepared, linking, finishes, housed, _, _⟩ := finish_links holds.housed holds.unlinked
  obtain ⟨stages⟩ := Linking.exists_stages finishes.links
  refine ⟨prepared, linking, finishes, ?_⟩
  intro viewpoint reference owner role name node waits names noAlias known shown
  have uses := stages.usesFirst housed waits names noAlias known shown
  exact uses

end Assembly

end DeclGraph

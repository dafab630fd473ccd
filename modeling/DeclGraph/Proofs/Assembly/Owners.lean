import DeclGraph.Proofs.Assembly.Directives
import DeclGraph.Proofs.Linking.Owners

/-!
# Who refers to what, once units are taken up

Whatever waits was left by a declaration, so its owner has the family that refers in this way,
also after the moves that prepare the linking.
-/

namespace DeclGraph

namespace Assembly

variable {settings : Settings} {units : List SourceUnit} {assembly : Assembly}

/-- What waits was left by the declarations of units that were taken up. -/
theorem TakenUp.exists_declaration (taken : TakenUp settings units assembly)
    {item : SeenReference} (waits : item ∈ seenReferences assembly.units.values) :
    ∃ unit ∈ units, ∃ declaration ∈ unit.declarations,
      item.2 ∈ declaration.references settings := by
  obtain ⟨pending, member, _, refers⟩ := mem_seenReferences_iff.mp waits
  obtain ⟨unit, isUnit, given, _, rfl⟩ := taken.exists_owner member
  obtain ⟨declaration, declared, refersThere⟩ := List.mem_flatMap.mp refers
  exact ⟨unit, isUnit, declaration, declared, refersThere⟩

/-- What waits has an owner of the family that refers in this way. -/
theorem TakenUp.allOwned (taken : TakenUp settings units assembly) :
    AllOwned (seenReferences assembly.units.values) := by
  intro item waits
  obtain ⟨_, _, declaration, _, refers⟩ := taken.exists_declaration waits
  obtain ⟨owner, family⟩ := Declaration.owner_of_mem_references refers
  rw [owner, declaration.key_family, family]

/-- What every move and every change of kinds keeps holds of the prepared catalogue. -/
theorem TakenUp.prepared_keeps (taken : TakenUp settings units assembly) {prepared : Catalogue}
    {linking : Linking} (finishes : assembly.Finishes prepared linking)
    (invariant : Catalogue → Prop)
    (moves : ∀ {before after : Catalogue} {viewpoint : Viewpoint} {name : ScopedName},
      before.Housed [] → before.MovedTo after name (before.moveOf? viewpoint name) →
        invariant before → invariant after)
    (settles : ∀ {before after : Catalogue} {kindOf : Node → EntityKind}, before.Housed [] →
      before.Rekinded after kindOf → invariant before → invariant after)
    (start : invariant assembly.catalogue) : invariant prepared := by
  have holds := taken.history.holds
  have prepares : Catalogue.Action.Succeeds (prepare assembly.units.values) assembly.catalogue
      fun _ after => after.Housed [] ∧ after.Unlinked ∧ invariant after :=
    succeeds_prepare_keeping invariant moves settles holds.housed holds.unlinked start
  exact (prepares.of_run finishes.prepares).2.2

/-- In the prepared catalogue every move has kept the family of its key. -/
theorem TakenUp.movesWithinFamilies (taken : TakenUp settings units assembly)
    {prepared : Catalogue} {linking : Linking} (finishes : assembly.Finishes prepared linking) :
    prepared.MovesWithinFamilies := by
  refine taken.prepared_keeps finishes Catalogue.MovesWithinFamilies
    (fun _ moved keeps => moved.movesWithinFamilies keeps)
    (fun _ rekinded keeps => rekinded.movesWithinFamilies keeps) ?_
  intro key next leads
  simp [taken.history.holds.moved] at leads

end Assembly

end DeclGraph

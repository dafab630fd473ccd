import DeclGraph.Proofs.Linking.CallsTogether
import DeclGraph.Proofs.Linking.Stages

/-!
# Runs of the linking side by side

Catalogues that correspond are linked with the same references. After each pass they correspond
still, so that in the end the same entities are related, but for overrides, which depend on the
order in which methods were created when they ask for each other in circles.
-/

namespace DeclGraph

namespace Linking

variable {before beforeToo : Linking}
  (corresponds : before.catalogue.Corresponds beforeToo.catalogue)

include corresponds

/-- Callables that overload each other have counterparts that do. -/
theorem mem_overloadPairs_iff {one other another anotherToo : Nat}
    (same : before.catalogue.graph.Counterparts beforeToo.catalogue.graph one other)
    (sameToo : before.catalogue.graph.Counterparts beforeToo.catalogue.graph another anotherToo) :
    (one, another) ∈ before.catalogue.overloadGroups.flatMap pairsWithin ↔
      (other, anotherToo) ∈ beforeToo.catalogue.overloadGroups.flatMap pairsWithin := by
  obtain ⟨node, found⟩ := Graph.isSome_key?_iff.mp same.there.1
  obtain ⟨nodeToo, foundToo⟩ := Graph.isSome_key?_iff.mp sameToo.there.1
  have apart : another ≠ one ↔ anotherToo ≠ other :=
    not_congr (Relator.rel_eq corresponds.unique sameToo same)
  obtain rfl : node.id = one := corresponds.housed.sound.node_id found
  obtain rfl : nodeToo.id = another := corresponds.housed.sound.node_id foundToo
  have scopes : before.catalogue.scopeOf node.id = before.catalogue.scopeOf nodeToo.id ↔
      beforeToo.catalogue.scopeOf other = beforeToo.catalogue.scopeOf anotherToo :=
    Relator.rel_eq corresponds.unique (corresponds.scopeOf same) (corresponds.scopeOf sameToo)
  rw [Catalogue.mem_overloadPairs corresponds.housed.sound,
    Catalogue.mem_overloadPairs corresponds.housedToo.sound, apart, found, foundToo,
    corresponds.node same found, corresponds.node sameToo foundToo]
  simp [Catalogue.overloadKey, scopes]

/-- The pass over overloads proceeds alike on both sides. -/
theorem proceeds_linkOverloads :
    SucceedTogether linkOverloads linkOverloads before beforeToo fun _ _ =>
      Proceeds before beforeToo := by
  have there : ∀ {catalogue : Catalogue}, catalogue.graph.Sound →
      ∀ pair ∈ catalogue.overloadGroups.flatMap pairsWithin,
        catalogue.HasNode pair.1 ∧ catalogue.HasNode pair.2 := by
    intro catalogue sound pair listed
    obtain ⟨_, node, nodeToo, found, foundToo, _⟩ :=
      (Catalogue.mem_overloadPairs sound).mp listed
    exact ⟨Graph.isSome_key?_iff.mpr ⟨node, found⟩, Graph.isSome_key?_iff.mpr ⟨nodeToo, foundToo⟩⟩
  refine together_get ((succeeds_relates Prod.fst Prod.snd (by decide) corresponds.housed
    (there corresponds.housed.sound)).weaken fun _ after joined => ?_)
  refine (succeeds_relates Prod.fst Prod.snd (by decide) corresponds.housedToo
    (there corresponds.housedToo.sound)).weaken fun _ afterToo joinedToo => ?_
  refine proceeds_of_joined corresponds (by decide) joined joinedToo fun _ _ _ _ _ same sameToo => ?_
  simp only [Prod.eta, List.map_id']
  exact mem_overloadPairs_iff corresponds same sameToo

omit corresponds in
/-- What methods override is related to them, and nothing else is changed. -/
theorem succeeds_linkOverrides_joined (housed : before.catalogue.Housed []) :
    Succeeds linkOverrides before fun _ after => ∃ pairs,
      Catalogue.Joined .overrides pairs before.catalogue after.catalogue := by
  refine succeeds_bind (succeeds_get ?_)
  refine succeeds_forM_invariant (fun entry listed linking sofar => ?_) ⟨[], .refl housed⟩
  obtain ⟨method, overridden⟩ := entry
  obtain ⟨pairs, joined⟩ := sofar
  obtain ⟨methodThere, allThere⟩ := Catalogue.hasNode_overrideTable housed.sound listed
  refine (succeeds_relates (fun _ => method) id (by decide) joined.housed
    fun base among => ?_).weaken fun _ _ more => ⟨_, joined.trans more⟩
  exact ⟨joined.hasNode methodThere, joined.hasNode (allThere base among)⟩

/-- The pass over overrides proceeds alike on both sides. -/
theorem proceeds_linkOverrides :
    SucceedTogether linkOverrides linkOverrides before beforeToo fun _ _ =>
      Proceeds before beforeToo := by
  refine (succeeds_linkOverrides_joined corresponds.housed).weaken fun _ after joined => ?_
  refine (succeeds_linkOverrides_joined corresponds.housedToo).weaken fun _ afterToo joinedToo => ?_
  obtain ⟨pairs, joined⟩ := joined
  obtain ⟨pairsToo, joinedToo⟩ := joinedToo
  exact proceeds_of_joined corresponds (by decide) joined joinedToo fun other => absurd rfl other

omit corresponds in
/-- What steps succeed with together holds of their runs. -/
theorem SucceedTogether.of_run {α β : Type} {step : Step α} {stepToo : Step β} {result : α}
    {resultToo : β} {after afterToo : Linking} {done : α → β → Linking → Linking → Prop}
    (together : SucceedTogether step stepToo before beforeToo done)
    (ran : step before = .ok (result, after))
    (ranToo : stepToo beforeToo = .ok (resultToo, afterToo)) :
    done result resultToo after afterToo := by
  have first : Succeeds stepToo beforeToo fun resultToo afterToo =>
    done result resultToo after afterToo := Succeeds.of_run together ran
  exact first.of_run ranToo

omit corresponds in
/-- Two linkings that start from catalogues that correspond still correspond when overloads are
linked, and in the end. -/
theorem Stages.proceeds {references : List SeenReference} {start startToo last lastToo : Linking}
    (stages : Stages references start last) (stagesToo : Stages references startToo lastToo)
    (corresponds : start.catalogue.Corresponds startToo.catalogue) :
    stages.overloaded.catalogue.Corresponds stagesToo.overloaded.catalogue ∧
      Proceeds stages.overloaded stagesToo.overloaded last lastToo := by
  have aliased := (proceeds_linkAliases corresponds references).of_run stages.aliases
    stagesToo.aliases
  have based := (proceeds_linkBases aliased.corresponds references).of_run stages.bases
    stagesToo.bases
  have fielded := (proceeds_linkFields based.corresponds references).of_run stages.fields
    stagesToo.fields
  have signed := (proceeds_linkSignatures fielded.corresponds references).of_run stages.signatures
    stagesToo.signatures
  have overloaded := (proceeds_linkOverloads signed.corresponds).of_run stages.overloads
    stagesToo.overloads
  have overridden := (proceeds_linkOverrides overloaded.corresponds).of_run stages.overrides
    stagesToo.overrides
  have called := (proceeds_linkCalls overridden.corresponds references).of_run stages.calls
    stagesToo.calls
  have last := (proceeds_linkLocals called.corresponds references).of_run stages.locals
    stagesToo.locals
  exact ⟨overloaded.corresponds, overridden.trans (called.trans last)⟩

end Linking

end DeclGraph

import DeclGraph.Proofs.Assembly.Transaction

/-!
# Scopes before their members

A unit mentions the scopes around a name before the name, be it that it declares them or knows
them from qualifiers only. So whatever was taken up before, a mention finds the scope that it
belongs to: registering it creates no node but its own. The implied scopes that a catalogue can
create by itself are for contributions that come from elsewhere.
-/

namespace DeclGraph

/-- A proper prefix lies in front of the last item. -/
theorem prefix_dropLast {α : Type} {front whole : List α} (isPrefix : front <+: whole)
    (proper : front ≠ whole) : front <+: whole.dropLast := by
  obtain ⟨rest, rfl⟩ := isPrefix
  have more : rest ≠ [] := by
    rintro rfl
    simp at proper
  rw [List.dropLast_append_of_ne_nil more]
  exact List.prefix_append front _

/-- What is in front of a grounded mention holds all scopes around it. -/
theorem Grounded.around {earlier before after : List Mention} {mention : Mention}
    (grounded : Grounded earlier (before ++ mention :: after))
    (declared : mention.key.family ≠ .placeholder) :
    AllAround (earlier ++ before) mention.key.name.segments.dropLast :=
  (grounded_append.mp grounded).2.1 declared

/-- The key of each mention is known after all of them, and stays known. -/
theorem isSome_foldl_addedTo {mentions : List Mention} {known : EntityKey → Option Profile}
    {key : EntityKey} (there : (known key).isSome ∨ ∃ mention ∈ mentions, mention.key = key) :
    (mentions.foldl (fun known mention => mention.addedTo known) known key).isSome := by
  induction mentions generalizing known with
  | nil => simpa using there
  | cons mention rest further =>
    refine further ?_
    by_cases own : key = mention.key
    · left
      simp [Mention.addedTo, own]
    · obtain old | ⟨other, listed, same⟩ := there
      · left
        show (mention.addedTo known key).isSome
        rw [Mention.addedTo, if_neg own]
        cases held : known key with
        | none => simp [held] at old
        | some profile => rfl
      · right
        obtain rfl | inRest := List.mem_cons.mp listed
        · exact absurd same.symm own
        · exact ⟨other, inRest, same⟩

namespace Catalogue

variable {before after : Catalogue} {mention : Mention}

/-- Nothing but the node of one key is new or different. -/
def AddsOnly (before after : Catalogue) (key : EntityKey) : Prop :=
  ∀ node ∈ after.graph.nodes, node ∈ before.graph.nodes ∨ node.key = key

/-- A mention that finds all scopes around it adds nothing but its own node. -/
theorem Registered.addsOnly (registered : before.Registered after mention)
    (sound : before.graph.Sound) (soundAfter : after.graph.Sound)
    (around : mention.key.family ≠ .placeholder →
      ∀ key : EntityKey, key.isScopeAround mention.key.name.segments.dropLast →
        (before.graph.profile? key).isSome) :
    before.AddsOnly after mention.key := by
  intro node there
  by_cases own : node.key = mention.key
  · exact .inr own
  left
  have known := soundAfter.profile?_of_mem there
  rw [registered.profile, if_neg own] at known
  have older : before.graph.profile? node.key = some node.profile := by
    cases held : before.graph.profile? node.key with
    | some profile => simpa [held] using known
    | none =>
      -- Only a scope around the mention could be new, and all of them were known.
      rw [held, Option.none_or, Mention.impliedAround] at known
      split at known
      · rename_i isAround
        have before_ := around isAround.1 node.key isAround.2
        simp [held] at before_
      · cases known
  obtain ⟨former, formerThere, sameKey, sameProfile⟩ := sound.exists_node_of_profile? older
  have number : former.id = node.id := by
    have kept := registered.keys_kept (Graph.key?_of_node (sound.mem_nodes.mp formerThere))
    rw [sameKey] at kept
    exact soundAfter.id_eq_of_key? kept (Graph.key?_of_node (soundAfter.mem_nodes.mp there))
  have whole : former = node := by
    obtain ⟨id, key, kind, attributes⟩ := former
    obtain ⟨otherId, otherKey, otherKind, otherAttributes⟩ := node
    cases number
    cases sameKey
    cases sameProfile
    rfl
  exact whole ▸ formerThere

end Catalogue

namespace Assembly

/-- Every unit mentions the scopes around a name before the name; so when the mentions of the unit
are registered one after the other, whatever was taken up before, each of them adds or changes no
node but its own. -/
theorem contribution_scopesFirst (settings : Settings) (unit : SourceUnit) :
    (∀ before mention after,
      (unit.contribution settings).mentions = before ++ mention :: after →
      mention.key.family ≠ .placeholder →
      ∀ front, front ≠ [] → front <+: mention.key.name.segments →
        front ≠ mention.key.name.segments → ∃ scope ∈ before, scope.key = .scope ⟨front⟩) ∧
    ∀ (others : Settings) (assembly : Assembly), Reached others assembly →
      ∀ before mention after,
        (unit.contribution settings).mentions = before ++ mention :: after →
        ∃ middle id next,
          (Catalogue.registerAll before).run.run assembly.catalogue = (.ok (), middle) ∧
          (Catalogue.register mention).run.run middle = (.ok id, next) ∧
          middle.AddsOnly next mention.key := by
  have grounded := unit.grounded_mentions
  rw [← unit.contribution_mentions settings] at grounded
  constructor
  · intro before mention after split_ declared front someSegment isPrefix proper
    rw [split_] at grounded
    obtain ⟨scope, listed, same⟩ := grounded.around declared (.scope ⟨front⟩)
      (EntityKey.isScopeAround_iff.mpr
        ⟨front, someSegment, prefix_dropLast isPrefix proper, rfl⟩)
    exact ⟨scope, by simpa using listed, same⟩
  · intro others assembly reached before mention after split_
    rw [split_] at grounded
    have fitting : ∀ other ∈ before ++ mention :: after, other.Fitting := fun other listed =>
      (SourceUnit.regular_of_mem_mentions (split_ ▸ listed)).family
    have fittingBefore : ∀ other ∈ before, other.Fitting := fun other listed =>
      fitting other (by simp [listed])
    obtain ⟨_, middle, ranBefore, housed, all⟩ :=
      (reached.invariant.1.succeeds_registerAll fittingBefore).run
    have registers := Catalogue.ensures_register housed mention
    have success : Catalogue.Action.Succeeds (Catalogue.register mention) middle
        fun _ next => next.Housed [] ∧ middle.Registered next mention :=
      registers.mono (fun _ _ held => held.2) fun _ held => held.1 (fitting mention (by simp))
    obtain ⟨id, next, ran, housedNext, registered⟩ := success.run
    refine ⟨middle, id, next, ranBefore, ran,
      registered.addsOnly housed.sound housedNext.sound fun declared key isAround => ?_⟩
    obtain ⟨scope, listed, same⟩ := grounded.around declared key isAround
    rw [all.profile]
    exact isSome_foldl_addedTo (.inr ⟨scope, by simpa using listed, same⟩)

end Assembly

end DeclGraph

import DeclGraph.Proofs.Catalogue.Carrying
import DeclGraph.Proofs.Catalogue.Landing
import DeclGraph.Proofs.Catalogue.Shadowing

/-!
# Moving as renaming

A move that goes neither into the moved scope nor out of it, to a scope around it, is a change of
names. Everything below the scope is merged into what has its new name, or takes the new name
where nothing has it; nothing else changes. It takes place as a whole or, when one of the nodes
contradicts what has its new name, not at all.
-/

namespace DeclGraph

namespace Catalogue

/-- What stands for a node below a moved scope: the node that had the new key before, with what the
moved one adds, or else a new node that says what the moved one said. -/
structure Represents (before after : Catalogue) (source target : ScopedName)
    (node standing : Node) : Prop where
  there : after.graph.nodeTable[standing.id]? = some standing
  key : standing.key = node.key.moved source target
  merged : ∀ existing ∈ before.graph.nodes, existing.key = standing.key →
    let mention := movedMention source target node
    let wins := incomingWins existing mention
    standing = { existing with
      kind := mergedKind existing mention wins
      attributes := mergedAttributes existing.attributes mention.attributes wins }
  alone : before.graph.nodeByKey? standing.key = none →
    standing.kind = node.kind ∧ standing.attributes = node.attributes

/-- What a move does to a catalogue when it is a change of names. -/
structure Renamed (before after : Catalogue) (source target : ScopedName) : Prop where
  /-- What is below a scope by its key lies in it. -/
  below_iff : ∀ {scope id key}, before.graph.key? scope = some (.scope source) →
    before.graph.key? id = some key →
      (key.isBelow source ↔ id = scope ∨ before.graph.Encloses scope id)
  /-- The scope and what lies in it are gone. What keeps such a name is a stand-in, which lies in no
  scope, or has the name of the scope and is another entity. -/
  emptied : ∀ id key, after.graph.key? id = some key → key.name.isWithin source →
    key.family = .placeholder ∨ (key.name = source ∧ key ≠ .scope source)
  /-- Everything that was below the scope has a node under its new key, and its old key leads
  there. -/
  represented : ∀ node ∈ before.graph.nodes, node.key.isBelow source →
    ∃ standing, before.Represents after source target node standing ∧
      after.nodeByKey? node.key = some standing.id
  /-- What was elsewhere keeps its number and its scope. -/
  keeps_place : ∀ node ∈ before.graph.nodes, ¬ node.key.isBelow source →
    after.graph.key? node.id = some node.key ∧
      after.graph.parent? node.id = before.graph.parent? node.id
  /-- It stays as it was, unless something is moved to it. -/
  keeps_node : ∀ node ∈ before.graph.nodes, ¬ node.key.isBelow source →
    (∀ moved ∈ before.graph.nodes, moved.key.isBelow source →
      moved.key.moved source target ≠ node.key) → node ∈ after.graph.nodes
  /-- Nothing else is there. -/
  origin : ∀ standing ∈ after.graph.nodes, before.graph.key? standing.id = some standing.key ∨
    ∃ node ∈ before.graph.nodes, node.key.isBelow source ∧
      node.key.moved source target = standing.key

variable {before after : Catalogue} {viewpoint : Viewpoint} {source target : ScopedName}

/-- What a first mention keeps of a moved node is what the node says. -/
theorem firstProfile_movedMention (source target : ScopedName) (node : Node) :
    (movedMention source target node).firstProfile = node.profile := by
  have kept : initialAttributes (movedMention source target node) = node.attributes := by
    unfold initialAttributes
    by_cases implied : (movedMention source target node).implied
    · have holds : node.attributes[AttributeName.implied]? = some (.flag true) :=
        Attributes.isSet_iff.mp implied
      rw [if_pos implied]
      ext name : 1
      rw [Std.ExtTreeMap.getElem?_insert]
      split
      · rename_i same
        rw [← Std.LawfulEqOrd.eq_of_compare same, holds]
      · rfl
    · rw [if_neg implied]
      rfl
  rw [Mention.firstProfile, kept]
  rfl

/-- A move that took place in a catalogue in which nothing was moved before, to a scope that is
neither within the moved one nor around it. -/
structure FirstMove (before after : Catalogue) (viewpoint : Viewpoint)
    (source target : ScopedName) : Prop where
  housed : before.Housed []
  unmoved : ∀ key : EntityKey, before.moved[key]? = none
  relocatable : before.Relocatable viewpoint source target
  outward : ¬ source.isWithin target
  inward : ¬ target.isWithin source
  moved : before.Moved after source target
  outside : before.KeepsOutside after source

namespace FirstMove

variable (first : before.FirstMove after viewpoint source target) {key former : EntityKey}
  {profile : Profile} {node : Node} {id : Nat}

include first

/-- Nothing lies below the moved scope and below its new place. -/
theorem not_isBelow (below : key.isBelow target) : ¬ key.isBelow source := by
  intro belowSource
  have outward := first.outward
  have inward := first.inward
  simp only [ScopedName.isWithin, List.isPrefixOf_iff_prefix] at outward inward
  rcases List.prefix_or_prefix_of_prefix (EntityKey.prefix_of_isBelow below)
    (EntityKey.prefix_of_isBelow belowSource) with inside | inside
  · exact outward inside
  · exact inward inside

/-- What a first move carries away does not come back below the source. -/
theorem not_isBelow_moved (below : former.isBelow source) :
    ¬ (former.moved source target).isBelow source :=
  first.not_isBelow (EntityKey.isBelow_moved first.relocatable.source_ne below)

/-- Nothing is known below the moved scope any more. -/
theorem profile_of_below (below : key.isBelow source) : after.graph.profile? key = none := by
  have notTarget : ¬ key.isBelow target := fun belowTarget => first.not_isBelow belowTarget below
  have notAround : ¬ key.isScopeAround target.segments.dropLast := by
    intro around
    obtain ⟨front, _, isPrefix, rfl⟩ := EntityKey.isScopeAround_iff.mp around
    refine first.inward (List.isPrefixOf_iff_prefix.mpr ?_)
    exact (EntityKey.prefix_of_isBelow below).trans (isPrefix.trans (List.dropLast_prefix _))
  simp [first.moved.profile, profileMoved?, below, notTarget, notAround]

/-- What a moved node adds is added to what was known under its new key. -/
theorem profile_of_former (below : former.isBelow source)
    (known : before.graph.profile? former = some profile) :
    after.graph.profile? (former.moved source target) =
      some ((movedMention source target (profile.nodeUnder former)).profileAfter
        (before.graph.profile? (former.moved source target))) := by
  have inTarget : (former.moved source target).isBelow target :=
    EntityKey.isBelow_moved first.relocatable.source_ne below
  simp [first.moved.profile, profileMoved?, inTarget, EntityKey.moved_moved below, known,
    first.not_isBelow_moved below]

/-- What nothing is moved to is known as before. -/
theorem profile_of_apart (notSource : ¬ key.isBelow source)
    (apart : ∀ moved ∈ before.graph.nodes, moved.key.isBelow source →
      moved.key.moved source target ≠ key) :
    after.graph.profile? key = before.graph.profile? key := by
  by_cases inTarget : key.isBelow target
  · have targetSegment := first.relocatable.target_ne
    have nothing : before.graph.profile? (key.moved target source) = none := by
      refine Option.eq_none_iff_forall_ne_some.mpr fun profile known => ?_
      obtain ⟨node, there, carries, _⟩ := first.housed.sound.exists_node_of_profile? known
      refine apart node there ?_ ?_
      · rw [carries]
        exact EntityKey.isBelow_moved targetSegment inTarget
      · rw [carries, EntityKey.moved_moved inTarget]
    simp [first.moved.profile, profileMoved?, notSource, inTarget, nothing,
      EntityKey.not_isScopeAround_of_isBelow targetSegment inTarget]
  · exact first.relocatable.profile_other first.housed first.moved notSource inTarget

/-- What does not lie below the source keeps its id. -/
theorem key?_kept (there : node ∈ before.graph.nodes) (notSource : ¬ node.key.isBelow source) :
    after.graph.key? node.id = some node.key := by
  rw [first.outside node.id node.key (Graph.key?_of_node (first.housed.sound.mem_nodes.mp there)),
    if_neg notSource]

/-- Of the names at and below the moved scope those are left that nothing below it has. -/
theorem emptied (carried : after.graph.key? id = some key) (within : key.name.isWithin source) :
    key.family = .placeholder ∨ (key.name = source ∧ key ≠ .scope source) := by
  have known := first.moved.housed.sound.profile?_isSome.mpr ⟨id, carried⟩
  have notBelow : ¬ key.isBelow source := fun below => by
    rw [first.profile_of_below below] at known
    cases known
  simp only [EntityKey.isBelow_iff, not_or, not_and] at notBelow
  refine (Classical.em (key.family = .placeholder)).imp_right fun declared => ⟨?_, notBelow.1⟩
  have notFurther := notBelow.2 declared
  rw [ScopedName.isWithin, List.isPrefixOf_iff_prefix] at within
  obtain ⟨rest, split⟩ := within
  rcases List.eq_nil_or_concat rest with rfl | ⟨inner, last, rfl⟩
  · rw [List.append_nil] at split
    exact congrArg ScopedName.mk split.symm
  · refine absurd ?_ notFurther
    rw [← split, List.concat_eq_append, ← List.append_assoc, List.dropLast_concat]
    exact List.prefix_append _ _

/-- The old key of a moved node leads to what stands for the node. -/
theorem represented (there : node ∈ before.graph.nodes) (below : node.key.isBelow source) :
    ∃ standing, before.Represents after source target node standing ∧
      after.nodeByKey? node.key = some standing.id := by
  have sound := first.housed.sound
  have known := sound.profile?_of_mem there
  have standingProfile := first.profile_of_former below known
  rw [← movedMention_of_node] at standingProfile
  obtain ⟨id, carried⟩ := first.moved.housed.sound.profile?_isSome.mp
    (Option.isSome_iff_exists.mpr ⟨_, standingProfile⟩)
  have found := first.moved.housed.sound.nodeTable_of_profile? carried standingProfile
  refine ⟨⟨id, node.key.moved source target, _, _⟩,
    ⟨found, rfl, fun existing existingThere sameKey => ?merged, fun fresh => ?alone⟩, ?led⟩
  case merged =>
    replace sameKey : existing.key = node.key.moved source target := sameKey
    have existingKept := first.key?_kept existingThere (by
      rw [sameKey]
      exact first.not_isBelow_moved below)
    rw [sameKey] at existingKept
    obtain rfl := first.moved.housed.sound.id_eq_of_key? existingKept carried
    have existingKnown := sound.profile?_of_mem existingThere
    have sameMention : existing.key = (movedMention source target node).key := sameKey
    rw [← sameKey, existingKnown, Mention.profileAfter, Mention.joined_of_node sameMention]
  case alone =>
    have unknown := sound.profile?_eq_none.mpr fresh
    simp only [unknown, Mention.profileAfter, firstProfile_movedMention]
    exact ⟨rfl, rfl⟩
  case led =>
    have leads : after.moved[node.key]? = some (node.key.moved source target) := by
      rw [first.moved.moved, if_pos ⟨below, by rw [known]; rfl⟩]
    have stays : after.moved[node.key.moved source target]? = none := by
      rw [first.moved.moved, if_neg fun both => first.not_isBelow_moved below both.1]
      exact first.unmoved _
    exact (nodeByKey?_eq_some first.moved.housed.sound).mpr
      ⟨_, .leads leads (.stays stays), carried⟩

/-- What is not moved stays in its scope. -/
theorem parent?_kept (there : node ∈ before.graph.nodes) (notSource : ¬ node.key.isBelow source) :
    after.graph.parent? node.id = before.graph.parent? node.id := by
  have carried := Graph.key?_of_node (first.housed.sound.mem_nodes.mp there)
  have carriedAfter := first.key?_kept there notSource
  have holder_kept : ∀ {scope : Nat}, node.key.LiesInScope →
      before.graph.key? scope = some node.key.holder →
        after.graph.key? scope = some node.key.holder := by
    intro scope lies scopeKey
    rw [first.outside scope _ scopeKey, if_neg fun below => notSource (isBelow_of_holder lies below)]
  ext scope
  rw [first.moved.housed.parent?_eq_some, first.housed.parent?_eq_some]
  constructor
  · intro related
    obtain ⟨_, key, itsKey, lies, scopeKey⟩ := first.moved.housed.contains_iff.mp related
    rw [carriedAfter] at itsKey
    cases itsKey
    obtain ⟨holder, holderKey, inside⟩ := first.housed.exists_holder carried lies
    obtain rfl := first.moved.housed.sound.id_eq_of_key? (holder_kept lies holderKey) scopeKey
    exact inside
  · intro related
    obtain ⟨settled, key, itsKey, lies, scopeKey⟩ := first.housed.contains_iff.mp related
    rw [carried] at itsKey
    cases itsKey
    exact first.moved.housed.contains_iff.mpr
      ⟨settled, node.key, carriedAfter, lies, holder_kept lies scopeKey⟩

/-- A node that is not moved, and to which nothing is moved, stays as it is. -/
theorem node_kept (there : node ∈ before.graph.nodes) (notSource : ¬ node.key.isBelow source)
    (apart : ∀ moved ∈ before.graph.nodes, moved.key.isBelow source →
      moved.key.moved source target ≠ node.key) : node ∈ after.graph.nodes := by
  have known := first.housed.sound.profile?_of_mem there
  rw [← first.profile_of_apart notSource apart] at known
  exact first.moved.housed.sound.mem_nodes.mpr
    (first.moved.housed.sound.nodeTable_of_profile? (first.key?_kept there notSource) known)

/-- A node has its key as before, or a node was moved to the key. -/
theorem origin (there : node ∈ after.graph.nodes) :
    before.graph.key? node.id = some node.key ∨
      ∃ moved ∈ before.graph.nodes, moved.key.isBelow source ∧
        moved.key.moved source target = node.key := by
  have sound := first.housed.sound
  have carried := Graph.key?_of_node (first.moved.housed.sound.mem_nodes.mp there)
  have known := first.moved.housed.sound.profile?_isSome.mpr ⟨_, carried⟩
  rcases first.relocatable.origin first.housed first.moved known with
    ⟨former, below, formerKnown, same⟩ | knownBefore
  · obtain ⟨profile, formerProfile⟩ := Option.isSome_iff_exists.mp formerKnown
    obtain ⟨moved, movedThere, rfl, _⟩ := sound.exists_node_of_profile? formerProfile
    exact .inr ⟨moved, movedThere, below, same⟩
  · obtain ⟨id, formerKey⟩ := sound.profile?_isSome.mp knownBefore
    have notBelow : ¬ node.key.isBelow source := fun below => by
      rw [first.profile_of_below below] at known
      cases known
    have kept := first.outside id _ formerKey
    rw [if_neg notBelow] at kept
    exact .inl (first.moved.housed.sound.id_eq_of_key? kept carried ▸ formerKey)

/-- Such a move is a change of names. -/
theorem renamed : before.Renamed after source target where
  below_iff := first.housed.isBelow_iff_encloses first.relocatable.source_ne
  emptied := fun _ _ => first.emptied
  represented := fun _ => first.represented
  keeps_place := fun _ there notSource =>
    ⟨first.key?_kept there notSource, first.parent?_kept there notSource⟩
  keeps_node := fun _ => first.node_kept
  origin := fun _ => first.origin

end FirstMove

/-- Requests that make entities known and change nothing else. -/
def Request.introduces : Request → Bool
  | register _ | placeholder _ => true
  | settleKinds | relocate _ _ => false

/-- Whatever has been made known, the relocation of one implied scope to a scope that is neither
within it nor around it leaves the catalogue as it is, if anything below the scope contradicts what
has its new name, and otherwise is a change of names. -/
theorem relocate_renames (requests : List Request)
    (introduced : ∀ request ∈ requests, request.introduces) {viewpoint : Viewpoint}
    {source target : ScopedName}
    (place : (afterRequests requests).moveOf? viewpoint source = some target)
    (outward : ¬ source.isWithin target) (inward : ¬ target.isWithin source) :
    ∃ after, (relocate viewpoint [source]).run.run (afterRequests requests) = (.ok (), after) ∧
      ((afterRequests requests).Opposed source target → after = afterRequests requests) ∧
      (¬ (afterRequests requests).Opposed source target →
        (afterRequests requests).Renamed after source target) := by
  have housed := (tidy_afterRequests requests).housed
  have unmoved : ∀ key : EntityKey, (afterRequests requests).moved[key]? = none := by
    intro key
    refine Option.not_isSome_iff_eq_none.mp fun noted => ?_
    obtain ⟨_, _, asked, _⟩ := (movesAsked_afterRequests requests).asked key noted
    exact Bool.false_ne_true (introduced _ asked)
  have whole : Action.Succeeds (relocate viewpoint [source]) (afterRequests requests) fun _ after =>
      ((afterRequests requests).Opposed source target → after = afterRequests requests) ∧
      (¬ (afterRequests requests).Opposed source target →
        (afterRequests requests).Renamed after source target) := by
    unfold relocate
    rw [List.mergeSort_singleton]
    refine Action.ensures_bind ?_
    refine ((succeeds_relocateScope housed viewpoint source).and
      (ensures_relocateScope_keepsOutside housed viewpoint source)).mono ?_ fun _ both => both.1.elim
    rintro _ after ⟨movedTo, outside⟩
    rw [place] at movedTo
    refine Action.ensures_pure ⟨fun opposed => movedTo.2 ((opposed_iff housed.sound).mp opposed),
      fun unopposed => ?_⟩
    have fits : MoveFits (afterRequests requests).graph.profile? source target := by
      by_contra notFits
      exact unopposed ((opposed_iff housed.sound).mpr notFits)
    have first : (afterRequests requests).FirstMove after viewpoint source target :=
      ⟨housed, unmoved, relocatable_of_moveOf? place, outward, inward, movedTo.1 fits,
        outside target place fits⟩
    exact first.renamed
  obtain ⟨_, after, ran, held⟩ := whole.run
  exact ⟨after, ran, held⟩

section QualifiedMembers

/-- The record `E::P` declares a member, which is defined as `P::f` where `E` is opened. So `P` is
implied, and with the other member defined there it belongs into the record. -/
def definedElsewhere : List Request :=
  [.register (scopeMention ["E", "P"] .classRecord false),
    .register ⟨.callable ⟨["E", "P", "f"]⟩ "()", .method, ∅, false, false⟩,
    .register ⟨.callable ⟨["P", "f"]⟩ "()", .freeFunction, ∅, true, false⟩,
    .register ⟨.callable ⟨["P", "g"]⟩ "()", .freeFunction, ∅, true, false⟩,
    .placeholder "P::h"]

/-- The members are found in the record after the move. -/
theorem relocate_renames_definedElsewhere :
    (∀ request ∈ definedElsewhere, request.introduces) ∧
      (afterRequests definedElsewhere).moveOf? ⟨.ofText "a.cpp", [⟨.global, "E", 1⟩]⟩ ⟨["P"]⟩ =
        some ⟨["E", "P"]⟩ ∧
      ¬ (afterRequests definedElsewhere).Opposed ⟨["P"]⟩ ⟨["E", "P"]⟩ ∧
      ∃ after, (relocate ⟨.ofText "a.cpp", [⟨.global, "E", 1⟩]⟩ [⟨["P"]⟩]).run.run
          (afterRequests definedElsewhere) = (.ok (), after) ∧
        (afterRequests definedElsewhere).Renamed after ⟨["P"]⟩ ⟨["E", "P"]⟩ := by
  have introduced : ∀ request ∈ definedElsewhere, request.introduces := by decide
  have place : (afterRequests definedElsewhere).moveOf? ⟨.ofText "a.cpp", [⟨.global, "E", 1⟩]⟩ ⟨["P"]⟩ =
      some ⟨["E", "P"]⟩ := by decide +kernel
  have unopposed : ¬ (afterRequests definedElsewhere).Opposed ⟨["P"]⟩ ⟨["E", "P"]⟩ := by
    decide +kernel
  obtain ⟨after, ran, _, renamed⟩ :=
    relocate_renames definedElsewhere introduced place (by decide) (by decide)
  exact ⟨introduced, place, unopposed, after, ran, renamed unopposed⟩

end QualifiedMembers

end Catalogue

end DeclGraph

import DeclGraph.Proofs.Catalogue.Detaching
import DeclGraph.Proofs.Catalogue.Registering
import DeclGraph.Proofs.Catalogue.Stepwise

/-!
# Relocating a scope

Moving a scope detaches everything below it and registers it again under the
names that the move gives. Since every node of the scope is registered after the
scope that holds it, the move succeeds, and what the catalogue knows afterwards
follows from what it knew before.
-/

namespace DeclGraph

namespace EntityKey

/-- The key that a move of a scope gives to something below it. -/
def moved (source target : ScopedName) (key : EntityKey) : EntityKey :=
  { key with name := target.descend (key.name.segments.drop source.segments.length) }

variable {source target : ScopedName} {key : EntityKey}

/-- A move gives the scope itself the key of its target. -/
theorem moved_scope (source target : ScopedName) :
    (scope source).moved source target = scope target := by
  simp [moved, scope, ScopedName.descend]

/-- A key below a scope has further segments, unless it is that of the scope. -/
theorem isBelow_cases (someSegment : source.segments ≠ []) (below : key.isBelow source) :
    key = .scope source ∨ ∃ front last, key.name.segments = source.segments ++ front ++ [last] ∧
      key.family ≠ .placeholder := by
  obtain rfl | ⟨family, rest, split⟩ := isBelow_iff.mp below
  · exact .inl rfl
  · right
    have nonempty : key.name.segments ≠ [] := by
      intro nothing
      rw [nothing] at split
      simp only [List.dropLast_nil, List.append_eq_nil_iff] at split
      exact someSegment split.1
    refine ⟨rest, key.name.segments.getLast nonempty, ?_, family⟩
    rw [split, List.dropLast_concat_getLast]

/-- What was below the source of a move is below its target afterwards. -/
theorem isBelow_moved (sourceSegment : source.segments ≠ []) (below : key.isBelow source) :
    (key.moved source target).isBelow target := by
  obtain rfl | ⟨front, last, split, family⟩ := isBelow_cases sourceSegment below
  · rw [moved_scope]
    exact scope_isBelow_self target
  · refine isBelow_iff.mpr (.inr ⟨family, ?_⟩)
    simp only [moved, ScopedName.descend, split, List.append_assoc, List.drop_left]
    rw [← List.append_assoc, List.dropLast_concat]
    exact List.prefix_append _ _

/-- A move back undoes a move. -/
theorem moved_moved (below : key.isBelow source) :
    (key.moved source target).moved target source = key := by
  obtain ⟨rest, split⟩ := prefix_of_isBelow below
  obtain ⟨family, ⟨segments⟩, signature⟩ := key
  simp only at split
  subst split
  simp [moved, ScopedName.descend]

/-- A move gives different keys to different entities below its source. -/
theorem moved_injective {other : EntityKey} (below : key.isBelow source)
    (otherBelow : other.isBelow source)
    (same : key.moved source target = other.moved source target) : key = other := by
  calc key = (key.moved source target).moved target source := (moved_moved below).symm
    _ = (other.moved source target).moved target source := by rw [same]
    _ = other := moved_moved otherBelow

/-- A move keeps what holds what. -/
theorem holder_moved {front : List String} {last : String}
    (split : key.name.segments = source.segments ++ front ++ [last]) :
    (key.moved source target).holder = key.holder.moved source target := by
  simp only [moved, holder, scope, ScopedName.descend, split, List.append_assoc, List.drop_left,
    EntityKey.mk.injEq, true_and, and_true, ScopedName.mk.injEq]
  rw [← List.append_assoc, ← List.append_assoc, List.dropLast_concat, List.dropLast_concat,
    List.drop_left]

/-- Nothing below a scope is a scope around it. -/
theorem not_isScopeAround_of_isBelow (someSegment : target.segments ≠ [])
    (below : key.isBelow target) : key.isScopeAround target.segments.dropLast = false := by
  rw [Bool.eq_false_iff]
  intro around
  have long := (prefix_of_isBelow below).length_le
  have short := length_le_of_isScopeAround around
  have positive := List.length_pos_iff.mpr someSegment
  rw [List.length_dropLast] at short
  omega

end EntityKey

/-- The node of a profile under a key, with a number that says nothing. -/
def Profile.nodeUnder (profile : Profile) (key : EntityKey) : Node :=
  ⟨0, key, profile.kind, profile.attributes⟩

namespace Catalogue

variable {before middle : Catalogue} {source target : ScopedName}

/-- What a moved node says depends on its key and its profile only. -/
theorem movedMention_of_node (source target : ScopedName) (node : Node) :
    movedMention source target node =
      movedMention source target (node.profile.nodeUnder node.key) := rfl

/-- How far the entities below a scope have been registered under their new
names: those of the keys in `settled` have been. `before` is the catalogue in
front of the move, `middle` the one in which the scope was detached. -/
structure Resettled (before middle after : Catalogue) (source target : ScopedName)
    (settled : EntityKey → Prop) : Prop where
  housed : after.Housed []
  profile_moved : ∀ {former profile}, settled former →
    before.graph.profile? former = some profile →
    after.graph.profile? (former.moved source target) =
      some ((movedMention source target (profile.nodeUnder former)).profileAfter
        (middle.graph.profile? (former.moved source target)))
  profile_other : ∀ {key}, (∀ former, settled former → former.moved source target ≠ key) →
    after.graph.profile? key = (middle.graph.profile? key).or
      (if key.isScopeAround target.segments.dropLast then some .implied else none)
  moved_settled : ∀ {former}, settled former →
    after.moved[former]? = some (former.moved source target)
  moved_other : ∀ {former}, ¬ settled former → after.moved[former]? = middle.moved[former]?
  unlinked : middle.Unlinked → after.Unlinked

/-- A node is registered again without failure. -/
theorem succeeds_resettle {catalogue : Catalogue} {node : Node} (housed : catalogue.Housed [])
    (family : node.kind.family = node.key.family) :
    Action.Succeeds (resettle node.key (movedMention source target node)) catalogue
      fun _ after => after.Housed [] ∧ ∃ registered : Catalogue,
        catalogue.Registered registered (movedMention source target node) ∧
        after = { registered with
          moved := registered.moved.insert node.key (node.key.moved source target) } := by
  unfold resettle
  refine Action.ensures_bind ((ensures_register housed _).mono ?_ ?_)
  · rintro id registered ⟨_, housedAfter, step⟩
    refine Action.ensures_modify ⟨?_, registered, step, rfl⟩
    exact ⟨housedAfter.sound, housedAfter.loose_there, housedAfter.contains_iff,
      housedAfter.holder_there, housedAfter.mem_members, housedAfter.members_nodup⟩
  · rintro after ⟨outside, _⟩
    exact outside family

/-- The scope itself is the first to be registered. -/
theorem resettled_first {node : Node} (housed : middle.Housed [])
    (known : before.graph.profile? node.key = some node.profile)
    (key : node.key = .scope source) (family : node.kind.family = node.key.family) :
    Action.Succeeds (resettle node.key (movedMention source target node)) middle
      fun _ after => before.Resettled middle after source target (· = .scope source) := by
  refine (succeeds_resettle housed family).weaken ?_
  rintro _ after ⟨housedAfter, registered, step, rfl⟩
  have newKey : (movedMention source target node).key = .scope target := by
    show node.key.moved source target = _
    rw [key, EntityKey.moved_scope]
  constructor
  case housed => exact housedAfter
  case profile_moved =>
    rintro former profile rfl knownToo
    rw [← key, known] at knownToo
    cases knownToo
    refine (step.profile _).trans ?_
    rw [EntityKey.moved_scope, newKey, if_pos rfl, movedMention_of_node, key]
  case profile_other =>
    intro other apart
    have notIt := apart _ rfl
    rw [EntityKey.moved_scope] at notIt
    refine (step.profile other).trans ?_
    rw [newKey, if_neg (Ne.symm notIt)]
    congr 1
    unfold Mention.impliedAround
    rw [newKey]
    simp [EntityKey.scope]
  case moved_settled =>
    rintro former rfl
    show (registered.moved.insert node.key _)[EntityKey.scope source]? = _
    rw [key]
    simp
  case moved_other =>
    intro former other
    show (registered.moved.insert node.key _)[former]? = _
    rw [Std.ExtTreeMap.getElem?_insert, step.moved, key]
    simp [Ne.symm other]
  case unlinked => exact step.unlinked

/-- If the scope of a node has been registered under its new name, the new name of the node implies
no scope that is not known, as the scopes around that of the node are known with it. -/
theorem Resettled.or_impliedAround {catalogue : Catalogue} {settled : EntityKey → Prop} {node : Node}
    (resettled : before.Resettled middle catalogue source target settled)
    (sourceSegment : source.segments ≠ []) (below : node.key.isBelow source)
    (notSource : node.key ≠ .scope source) (holderSettled : settled node.key.holder)
    (holderKnown : (before.graph.profile? node.key.holder).isSome) (key : EntityKey) :
    (catalogue.graph.profile? key).or ((movedMention source target node).impliedAround key) =
      catalogue.graph.profile? key := by
  cases profile : catalogue.graph.profile? key with
  | some _ => rfl
  | none =>
    rw [Option.none_or]
    refine if_neg fun isAround => ?_
    obtain ⟨front, last, split, _⟩ :=
      (EntityKey.isBelow_cases sourceSegment below).resolve_left notSource
    obtain ⟨_, holderProfile⟩ := Option.isSome_iff_exists.mp holderKnown
    have there := resettled.profile_moved holderSettled holderProfile
    obtain ⟨scope, holds⟩ := resettled.housed.sound.profile?_isSome.mp
      (Option.isSome_iff_exists.mpr ⟨_, there⟩)
    rw [← EntityKey.holder_moved split] at holds
    obtain ⟨outer, outerHolds⟩ := resettled.housed.scopes_there
      (fun _ isLoose => absurd isLoose List.not_mem_nil) holds isAround.2
    have known := resettled.housed.sound.profile?_isSome.mpr ⟨outer, outerHolds⟩
    rw [profile] at known
    cases known

/-- A node whose scope has been registered under its new name can be
registered. -/
theorem Resettled.next {catalogue : Catalogue} {settled : EntityKey → Prop} {node : Node}
    (resettled : before.Resettled middle catalogue source target settled)
    (settledBelow : ∀ {former}, settled former → former.isBelow source)
    (sourceSegment : source.segments ≠ []) (targetSegment : target.segments ≠ [])
    (known : before.graph.profile? node.key = some node.profile)
    (family : node.kind.family = node.key.family) (below : node.key.isBelow source)
    (new : ¬ settled node.key) (notSource : node.key ≠ .scope source)
    (holderSettled : settled node.key.holder)
    (holderKnown : (before.graph.profile? node.key.holder).isSome) :
    Action.Succeeds (resettle node.key (movedMention source target node)) catalogue
      fun _ after => before.Resettled middle after source target
        fun former => settled former ∨ former = node.key := by
  refine (succeeds_resettle resettled.housed family).weaken ?_
  rintro _ after ⟨housedAfter, registered, step, rfl⟩
  have newKey : (movedMention source target node).key = node.key.moved source target := rfl
  have apart : ∀ former, settled former →
      former.moved source target ≠ node.key.moved source target := by
    intro former isSettled same
    exact new (EntityKey.moved_injective (settledBelow isSettled) below same ▸ isSettled)
  have unsettled : catalogue.graph.profile? (node.key.moved source target) =
      middle.graph.profile? (node.key.moved source target) := by
    rw [resettled.profile_other apart, EntityKey.not_isScopeAround_of_isBelow targetSegment
      (EntityKey.isBelow_moved sourceSegment below)]
    simp
  have kept := resettled.or_impliedAround sourceSegment below notSource holderSettled holderKnown
  constructor
  case housed => exact housedAfter
  case profile_moved =>
    rintro former profile isSettled knownFormer
    refine (step.profile _).trans ?_
    rw [newKey]
    by_cases same : former = node.key
    · subst same
      rw [known] at knownFormer
      cases knownFormer
      rw [if_pos rfl, unsettled, movedMention_of_node]
    · have old := isSettled.resolve_right same
      rw [if_neg (apart former old), kept]
      exact resettled.profile_moved old knownFormer
  case profile_other =>
    intro key elsewhere
    refine (step.profile key).trans ?_
    rw [newKey, if_neg (Ne.symm (elsewhere _ (.inr rfl))), kept]
    exact resettled.profile_other fun former old => elsewhere former (.inl old)
  case moved_settled =>
    intro former isSettled
    show (registered.moved.insert node.key _)[former]? = _
    rw [Std.ExtTreeMap.getElem?_insert, step.moved]
    by_cases same : node.key = former
    · simp [same]
    · simpa [same] using resettled.moved_settled (isSettled.resolve_right (Ne.symm same))
  case moved_other =>
    intro former other
    show (registered.moved.insert node.key _)[former]? = _
    rw [Std.ExtTreeMap.getElem?_insert, step.moved]
    have notIt : node.key ≠ former := fun same => other (.inr same.symm)
    simpa [notIt] using resettled.moved_other fun old => other (.inl old)
  case unlinked => exact fun unlinked => step.unlinked (resettled.unlinked unlinked)

/-- What is known after a scope has been moved. -/
def profileMoved? (known : EntityKey → Option Profile) (source target : ScopedName)
    (key : EntityKey) : Option Profile :=
  let remaining := if key.isBelow source then none else known key
  let former := key.moved target source
  match if key.isBelow target then known former else none with
  | some profile =>
    some ((movedMention source target (profile.nodeUnder former)).profileAfter remaining)
  | none =>
    remaining.or (if key.isScopeAround target.segments.dropLast then some .implied else none)

/-- What a move does to a catalogue. -/
structure Moved (before after : Catalogue) (source target : ScopedName) : Prop where
  housed : after.Housed []
  unlinked : before.Unlinked → after.Unlinked
  profile : ∀ key, after.graph.profile? key =
    profileMoved? before.graph.profile? source target key
  moved : ∀ key, after.moved[key]? =
    if key.isBelow source ∧ (before.graph.profile? key).isSome then
      some (key.moved source target)
    else before.moved[key]?

/-- A node can be read as its table has it. -/
theorem toOption_node (graph : Graph) (id : Nat) :
    (graph.node id).toOption = graph.nodeTable[id]? := by
  unfold Graph.node
  cases graph.nodeTable[id]? <;> rfl

/-- The scope comes first in its listing. -/
theorem subtree_eq_cons (graph : Graph) (scope : Nat) :
    subtree graph scope = scope :: listBelow graph graph.nodeCount (graph.children scope) := by
  simp [subtree, listBelow]

/-- The detached catalogue knows what is not below the scope. -/
theorem WithoutNodes.profile? {catalogue after : Catalogue} {gone : Nat → Prop}
    (housed : catalogue.Housed []) (without : catalogue.WithoutNodes after gone)
    (below : ∀ {id : Nat} {key : EntityKey}, catalogue.graph.key? id = some key →
      (gone id ↔ key.isBelow source)) (key : EntityKey) :
    after.graph.profile? key =
      if key.isBelow source then none else catalogue.graph.profile? key := by
  ext profile
  rw [without.housed.sound.profile?_eq_some]
  constructor
  · rintro ⟨id, node, found, rfl, rfl⟩
    obtain ⟨was, notGone⟩ := without.nodeTable.mp found
    rw [below (Graph.key?_of_node was)] at notGone
    rw [if_neg notGone, housed.sound.profile?_of_node was]
  · by_cases isBelow : key.isBelow source
    · simp [isBelow]
    · rw [if_neg isBelow, housed.sound.profile?_eq_some]
      rintro ⟨id, node, found, rfl, rfl⟩
      refine ⟨id, node, without.nodeTable.mpr ⟨found, ?_⟩, rfl, rfl⟩
      rwa [below (Graph.key?_of_node found)]

/-- The nodes behind numbers that are all there. -/
theorem map_id_filterMap {graph : Graph} (sound : graph.Sound) {ids : List Nat}
    (there : ∀ id ∈ ids, (graph.key? id).isSome) :
    (ids.filterMap (graph.nodeTable[·]?)).map (·.id) = ids := by
  induction ids with
  | nil => rfl
  | cons id rest further =>
    obtain ⟨node, found⟩ := Graph.isSome_key?_iff.mp (there id List.mem_cons_self)
    simp [found, sound.node_id found,
      further fun other member => there other (List.mem_cons_of_mem _ member)]

/-- The nodes of a scope and of everything below it, scopes before their
members. -/
structure Inventory (catalogue : Catalogue) (source : ScopedName) (nodes : List Node) : Prop where
  known : ∀ {node}, node ∈ nodes → catalogue.graph.profile? node.key = some node.profile
  family : ∀ {node}, node ∈ nodes → node.kind.family = node.key.family
  complete : ∀ {key}, (∃ node ∈ nodes, node.key = key) ↔
    key.isBelow source ∧ (catalogue.graph.profile? key).isSome
  distinct : nodes.Pairwise fun first second => first.key ≠ second.key
  ordered : nodes.Pairwise fun earlier later => later.key ≠ earlier.key.holder
  held : ∀ {node}, node ∈ nodes → node.key ≠ .scope source →
    ∃ holder ∈ nodes, holder.key = node.key.holder
  starts : ∃ first others, nodes = first :: others ∧ first.key = .scope source

/-- The nodes that the listing of a scope lists are those at and below the scope. -/
theorem mem_nodes_subtree {catalogue : Catalogue} {scope : Nat} (housed : catalogue.Housed [])
    (sourceSegment : source.segments ≠ [])
    (scopeKey : catalogue.graph.key? scope = some (.scope source)) {node : Node} :
    node ∈ (subtree catalogue.graph scope).filterMap (catalogue.graph.nodeTable[·]?) ↔
      catalogue.graph.nodeTable[node.id]? = some node ∧ node.key.isBelow source := by
  rw [List.mem_filterMap]
  constructor
  · rintro ⟨id, listed, found⟩
    obtain ⟨key, carried, below⟩ := (housed.mem_subtree sourceSegment scopeKey).mp listed
    rw [Graph.key?_of_node found] at carried
    cases carried
    exact ⟨by rwa [housed.sound.node_id found], below⟩
  · rintro ⟨found, below⟩
    exact ⟨node.id, (housed.mem_subtree sourceSegment scopeKey).mpr
      ⟨_, Graph.key?_of_node found, below⟩, found⟩

/-- What is at or below a scope that is not the global one lies in a scope. -/
theorem liesInScope_of_isBelow {key : EntityKey} (sourceSegment : source.segments ≠ [])
    (below : key.isBelow source) : key.LiesInScope := by
  obtain rfl | ⟨front, last, split, family⟩ := EntityKey.isBelow_cases sourceSegment below
  · exact EntityKey.scope_liesInScope sourceSegment
  · refine ⟨?_, family⟩
    rintro rfl
    simp [EntityKey.global, EntityKey.scope, ScopedName.global] at split

/-- What the listing of a scope lists. -/
theorem inventory_subtree {catalogue : Catalogue} {scope : Nat} (housed : catalogue.Housed [])
    (sourceSegment : source.segments ≠ [])
    (scopeKey : catalogue.graph.key? scope = some (.scope source)) :
    catalogue.Inventory source
      ((subtree catalogue.graph scope).filterMap (catalogue.graph.nodeTable[·]?)) := by
  have sound := housed.sound
  have listing := listing_subtree housed.forest scope (by rw [scopeKey]; rfl)
  have ids := map_id_filterMap sound fun id (member : id ∈ subtree catalogue.graph scope) =>
    listing.there (by simpa using member)
  have lists := @mem_nodes_subtree source catalogue scope housed sourceSegment scopeKey
  constructor
  case known => exact fun member => sound.profile?_of_node (lists.mp member).1
  case family => exact fun member => sound.kind_family (lists.mp member).1
  case complete =>
    intro key
    constructor
    · rintro ⟨node, member, rfl⟩
      obtain ⟨found, below⟩ := lists.mp member
      exact ⟨below, by rw [sound.profile?_of_node found]; rfl⟩
    · rintro ⟨below, known⟩
      obtain ⟨id, carried⟩ := sound.profile?_isSome.mp known
      obtain ⟨node, found, rfl⟩ := Graph.key?_eq_some.mp carried
      exact ⟨node, lists.mpr ⟨by rwa [sound.node_id found], below⟩, rfl⟩
  case distinct =>
    have nodup : (subtree catalogue.graph scope).Nodup := by simpa using listing.nodup
    rw [← ids, List.Nodup, List.pairwise_map] at nodup
    refine nodup.imp_of_mem fun {first second} isFirst isSecond apart same => apart ?_
    refine sound.id_eq_of_key? (Graph.key?_of_node (lists.mp isFirst).1) ?_
    rw [same]
    exact Graph.key?_of_node (lists.mp isSecond).1
  case ordered =>
    have ordered : (subtree catalogue.graph scope).Pairwise fun earlier later =>
        ¬ catalogue.graph.Related later .contains earlier := by simpa using listing.ordered
    rw [← ids, List.pairwise_map] at ordered
    refine ordered.imp_of_mem fun {earlier later} isEarlier isLater apart holds => apart ?_
    obtain ⟨found, below⟩ := lists.mp isEarlier
    exact housed.contains_iff.mpr ⟨List.not_mem_nil, _, Graph.key?_of_node found,
      liesInScope_of_isBelow sourceSegment below, holds ▸ Graph.key?_of_node (lists.mp isLater).1⟩
  case held =>
    intro node member notSource
    obtain ⟨found, below⟩ := lists.mp member
    have carried := Graph.key?_of_node found
    obtain same | ⟨holder, holderListed, holds⟩ := listing.reached node.id
      (by simpa using (housed.mem_subtree sourceSegment scopeKey).mpr ⟨_, carried, below⟩)
    · rw [same, scopeKey] at carried
      exact absurd (Option.some.inj carried).symm notSource
    · obtain ⟨_, key, carriedToo, _, holderKey⟩ := housed.contains_iff.mp holds
      rw [carried] at carriedToo
      cases carriedToo
      obtain ⟨holderNode, holderFound, sameKey⟩ := Graph.key?_eq_some.mp holderKey
      exact ⟨holderNode, List.mem_filterMap.mpr ⟨holder, holderListed, holderFound⟩, sameKey⟩
  case starts =>
    obtain ⟨first, firstFound, firstKey⟩ := Graph.key?_eq_some.mp scopeKey
    refine ⟨first, (listBelow catalogue.graph catalogue.graph.nodeCount
      (catalogue.graph.children scope)).filterMap (catalogue.graph.nodeTable[·]?), ?_, firstKey⟩
    rw [subtree_eq_cons]
    simp [firstFound]

/-- No two nodes of an inventory have one key. -/
theorem Inventory.same_node {catalogue : Catalogue} {nodes : List Node}
    (inventory : catalogue.Inventory source nodes) {one other : Node} (isOne : one ∈ nodes)
    (isOther : other ∈ nodes) (same : one.key = other.key) : one = other := by
  have unique := List.Pairwise.forall_of_forall_of_flip
    (R := fun first second : Node => first.key = second.key → first = second) (l := nodes)
    (fun _ _ _ => rfl) (inventory.distinct.imp fun apart equal => absurd equal apart)
    (inventory.distinct.imp fun apart equal => absurd equal.symm apart)
  exact unique isOne isOther same

/-- Which keys are settled may be told in another way. -/
theorem Resettled.congr {after : Catalogue} {settled other : EntityKey → Prop}
    (resettled : before.Resettled middle after source target settled)
    (same : ∀ former, settled former ↔ other former) :
    before.Resettled middle after source target other := by
  have equal : settled = other := funext fun former => propext (same former)
  rwa [← equal]

/-- What lies below a scope does not hold itself. -/
theorem holder_ne_self {key : EntityKey} (below : key.isBelow source)
    (sourceSegment : source.segments ≠ []) : key.holder ≠ key := by
  intro same
  have long := (EntityKey.prefix_of_isBelow below).length_le
  have positive := List.length_pos_iff.mpr sourceSegment
  have length := congrArg (fun held : EntityKey => held.name.segments.length) same
  simp only [EntityKey.holder, EntityKey.scope, List.length_dropLast] at length
  omega

/-- In the order of an inventory each node but the scope itself can be registered under its new
name once those in front of it are, as the scope that holds it is one of them. -/
theorem Inventory.succeeds_resettle_next {catalogue after : Catalogue} {nodes rest : List Node}
    {item : Node} (inventory : catalogue.Inventory source nodes)
    (sourceSegment : source.segments ≠ []) (targetSegment : target.segments ≠ [])
    (suffix : item :: rest <:+ nodes) (notSource : item.key ≠ .scope source)
    (resettled : catalogue.Resettled middle after source target fun former =>
      ∃ node ∈ nodes, node ∉ item :: rest ∧ node.key = former) :
    Action.Succeeds (resettle item.key (movedMention source target item)) after
      fun _ next => catalogue.Resettled middle next source target fun former =>
        ∃ node ∈ nodes, node ∉ rest ∧ node.key = former := by
  have below : ∀ {former}, (∃ node ∈ nodes, node.key = former) → former.isBelow source :=
    fun settled => (inventory.complete.mp settled).1
  have member : item ∈ nodes := suffix.subset List.mem_cons_self
  have apart := List.pairwise_cons.mp (inventory.distinct.sublist suffix.sublist)
  have order := List.pairwise_cons.mp (inventory.ordered.sublist suffix.sublist)
  obtain ⟨holder, holderMember, holderKey⟩ := inventory.held member notSource
  have holderSettled : ∃ node ∈ nodes, node ∉ item :: rest ∧ node.key = item.key.holder := by
    refine ⟨holder, holderMember, ?_, holderKey⟩
    intro ahead
    obtain rfl | inRest := List.mem_cons.mp ahead
    · exact holder_ne_self (below ⟨holder, member, rfl⟩) sourceSegment holderKey.symm
    · exact order.1 holder inRest holderKey
  refine (resettled.next (fun ⟨node, isNode, _, same⟩ => below ⟨node, isNode, same⟩)
    sourceSegment targetSegment (inventory.known member) (inventory.family member)
    (below ⟨item, member, rfl⟩) ?_ notSource holderSettled
    (inventory.complete.mp ⟨holder, holderMember, holderKey⟩).2).weaken ?_
  · rintro ⟨node, isNode, notAhead, same⟩
    exact notAhead (by rw [inventory.same_node isNode member same]; exact List.mem_cons_self)
  · refine fun _ next step => step.congr fun former => ?_
    constructor
    · rintro (⟨node, isNode, notAhead, same⟩ | rfl)
      · exact ⟨node, isNode, fun inRest => notAhead (List.mem_cons_of_mem _ inRest), same⟩
      · exact ⟨item, member, fun inRest => apart.1 item inRest rfl, rfl⟩
    · rintro ⟨node, isNode, notInRest, same⟩
      by_cases itself : node = item
      · subst itself
        exact .inr same.symm
      · exact .inl ⟨node, isNode, by simp [itself, notInRest], same⟩

/-- All nodes of a scope can be registered under their new names, one after the
other, once the scope is detached. -/
theorem Inventory.succeeds_resettleAll {catalogue : Catalogue} {nodes : List Node}
    (inventory : catalogue.Inventory source nodes) (housed : middle.Housed [])
    (sourceSegment : source.segments ≠ []) (targetSegment : target.segments ≠ []) :
    Action.Succeeds
      (nodes.forM fun node => resettle node.key (movedMention source target node))
      middle fun _ after => catalogue.Resettled middle after source target
        fun former => ∃ node ∈ nodes, node.key = former := by
  obtain ⟨first, others, split, firstKey⟩ := inventory.starts
  have firstMember : first ∈ nodes := by simp [split]
  have others_suffix : others <:+ nodes := by rw [split]; exact List.suffix_cons first others
  have first_apart : ∀ node ∈ others, first.key ≠ node.key := by
    have distinct := inventory.distinct
    rw [split] at distinct
    exact (List.pairwise_cons.mp distinct).1
  have start : Action.Succeeds (resettle first.key (movedMention source target first)) middle
      fun _ after => catalogue.Resettled middle after source target fun former =>
        ∃ node ∈ nodes, node ∉ others ∧ node.key = former := by
    refine (resettled_first housed (inventory.known firstMember) firstKey
      (inventory.family firstMember)).weaken fun _ after resettled => resettled.congr fun former => ?_
    constructor
    · rintro rfl
      exact ⟨first, firstMember, fun later => first_apart first later rfl, firstKey⟩
    · rintro ⟨node, member, notLater, rfl⟩
      rw [split] at member
      obtain rfl | later := List.mem_cons.mp member
      · exact firstKey
      · exact absurd later notLater
  have steps : ∀ item rest after, item :: rest <:+ others →
      catalogue.Resettled middle after source target (fun former =>
        ∃ node ∈ nodes, node ∉ item :: rest ∧ node.key = former) →
      Action.Succeeds (resettle item.key (movedMention source target item)) after
        fun _ next => catalogue.Resettled middle next source target fun former =>
          ∃ node ∈ nodes, node ∉ rest ∧ node.key = former := by
    intro item rest after isSuffix resettled
    have inOthers : item ∈ others := isSuffix.subset List.mem_cons_self
    have notSource : item.key ≠ .scope source := firstKey ▸ Ne.symm (first_apart item inOthers)
    exact inventory.succeeds_resettle_next sourceSegment targetSegment
      (isSuffix.trans others_suffix) notSource resettled
  subst split
  refine Action.ensures_bind (start.weaken fun _ after resettled => ?_)
  refine Action.Succeeds.weaken (Action.ensures_forM (fun rest next =>
    catalogue.Resettled middle next source target fun former =>
      ∃ node ∈ first :: others, node ∉ rest ∧ node.key = former) steps resettled) ?_
  intro _ last resettled
  exact resettled.congr (by simp)

/-- The nodes of the name that a mention gives. -/
theorem mem_namesakes {catalogue : Catalogue} (sound : catalogue.graph.Sound) {mention : Mention}
    {node : Node} :
    node ∈ catalogue.namesakes mention ↔
      catalogue.graph.nodeTable[node.id]? = some node ∧ node.key.name = mention.key.name := by
  simp only [namesakes, Graph.nodesNamed, List.mem_filterMap, sound.mem_named]
  constructor
  · rintro ⟨id, named, found⟩
    rw [Graph.key?_of_node found] at named
    rw [sound.node_id found]
    exact ⟨found, Option.some.inj named⟩
  · rintro ⟨found, named⟩
    exact ⟨node.id, by rw [Graph.key?_of_node found, Option.map_some, named], found⟩

/-- Whether a mention fits to everything known of its name. -/
def FitsIn (known : EntityKey → Option Profile) (mention : Mention) : Prop :=
  ∀ key profile, known key = some profile → key.name = mention.key.name →
    compatible key profile.kind (profile.attributes.isSet AttributeName.implied) mention = true

/-- A mention contradicts nothing exactly when it fits in. -/
theorem conflict?_eq_none {catalogue : Catalogue} (sound : catalogue.graph.Sound)
    {mention : Mention} :
    catalogue.conflict? mention = none ↔ FitsIn catalogue.graph.profile? mention := by
  simp only [conflict?, Option.map_eq_none_iff, List.find?_eq_none, mem_namesakes sound]
  constructor
  · intro fits key profile known named
    obtain ⟨id, node, found, rfl, rfl⟩ := sound.profile?_eq_some.mp known
    have held := fits node ⟨by rwa [sound.node_id found], named⟩
    simpa [Node.profile] using held
  · rintro fits node ⟨found, named⟩
    have held := fits node.key node.profile (sound.profile?_of_node found) named
    simpa [Node.profile] using held

/-- A scope can be moved when everything below it fits to what is known under
its new name. -/
def MoveFits (known : EntityKey → Option Profile) (source target : ScopedName) : Prop :=
  ∀ former profile, former.isBelow source → known former = some profile →
    FitsIn known (movedMention source target (profile.nodeUnder former))

/-- Once all nodes are registered again, the scope has been moved. -/
theorem Resettled.moved {after : Catalogue} {nodes : List Node} {gone : Nat → Prop}
    (resettled : before.Resettled middle after source target
      fun former => ∃ node ∈ nodes, node.key = former)
    (inventory : before.Inventory source nodes) (housed : before.Housed [])
    (without : before.WithoutNodes middle gone)
    (below : ∀ {id : Nat} {key : EntityKey}, before.graph.key? id = some key →
      (gone id ↔ key.isBelow source))
    (sourceSegment : source.segments ≠ []) (targetSegment : target.segments ≠ []) :
    before.Moved after source target := by
  have settled : ∀ {former}, (∃ node ∈ nodes, node.key = former) ↔
      former.isBelow source ∧ (before.graph.profile? former).isSome := inventory.complete
  have remaining : ∀ key, middle.graph.profile? key =
      if key.isBelow source then none else before.graph.profile? key :=
    without.profile? housed below
  constructor
  case housed => exact resettled.housed
  case unlinked =>
    intro unlinked
    refine resettled.unlinked fun first second relation related => ?_
    exact unlinked first second relation (without.related.mp related).1
  case profile =>
    intro key
    unfold profileMoved?
    dsimp only
    rw [← remaining]
    cases came : if key.isBelow target then before.graph.profile? (key.moved target source)
      else none with
    | some profile =>
      have isBelow : key.isBelow target := by
        cases held : key.isBelow target with
        | true => rfl
        | false => simp [held] at came
      rw [if_pos isBelow] at came
      have isSettled : ∃ node ∈ nodes, node.key = key.moved target source :=
        settled.mpr ⟨EntityKey.isBelow_moved targetSegment isBelow, by rw [came]; rfl⟩
      have known := resettled.profile_moved isSettled came
      rwa [EntityKey.moved_moved isBelow] at known
    | none =>
      refine resettled.profile_other fun former isSettled same => ?_
      obtain ⟨formerBelow, known⟩ := settled.mp isSettled
      have isBelow : key.isBelow target := same ▸ EntityKey.isBelow_moved sourceSegment formerBelow
      rw [if_pos isBelow, ← same, EntityKey.moved_moved formerBelow] at came
      simp [came] at known
  case moved =>
    intro key
    by_cases isSettled : key.isBelow source ∧ (before.graph.profile? key).isSome
    · rw [if_pos isSettled]
      exact resettled.moved_settled (settled.mpr isSettled)
    · rw [if_neg isSettled, ← without.moved]
      exact resettled.moved_other fun some_ => isSettled (settled.mp some_)

/-- The move of a scope takes place when nothing below it is opposed. -/
theorem Inventory.unopposed_iff {catalogue : Catalogue} {nodes : List Node}
    (inventory : catalogue.Inventory source nodes) (sound : catalogue.graph.Sound) :
    ((nodes.map fun node => (node.key, movedMention source target node)).all
      fun move => (catalogue.conflict? move.2).isNone) ↔
        MoveFits catalogue.graph.profile? source target := by
  simp only [List.all_map, List.all_eq_true, Function.comp_apply, Option.isNone_iff_eq_none,
    conflict?_eq_none sound]
  constructor
  · intro all former profile formerBelow known
    obtain ⟨node, member, rfl⟩ := inventory.complete.mpr ⟨formerBelow, by rw [known]; rfl⟩
    rw [inventory.known member] at known
    cases known
    exact all node member
  · intro moveFits node member
    exact moveFits node.key node.profile (inventory.complete.mp ⟨node, member, rfl⟩).1
      (inventory.known member)

/-- The catalogue from which a scope was taken with everything below it, and in which no number
has got another meaning. -/
structure WithoutScope (before after : Catalogue) (source : ScopedName) (gone : Nat → Prop) :
    Prop where
  without : before.WithoutNodes after gone
  below : ∀ {id : Nat} {key : EntityKey}, before.graph.key? id = some key →
    (gone id ↔ key.isBelow source)
  numbers : before.graph.KeepsNumbers after.graph

/-- A move leaves the catalogue as it is, or takes the scope out of it and registers its nodes
again, depending on whether everything fits. -/
theorem ensures_moveSubtree {catalogue : Catalogue} {scope : Nat} {done : Unit → Catalogue → Prop}
    {failed : Catalogue → Prop} (housed : catalogue.Housed []) (sourceSegment : source.segments ≠ [])
    (scopeKey : catalogue.graph.key? scope = some (.scope source))
    (stays : ¬ MoveFits catalogue.graph.profile? source target → done () catalogue)
    (moves : ∀ {nodes middle gone}, MoveFits catalogue.graph.profile? source target →
      catalogue.Inventory source nodes → catalogue.WithoutScope middle source gone →
        Action.Ensures (nodes.forM fun node => resettle node.key (movedMention source target node))
          middle done failed) :
    Action.Ensures (moveSubtree scope source target) catalogue done failed := by
  have sound := housed.sound
  have listing := listing_subtree housed.forest scope (by rw [scopeKey]; rfl)
  have inventory := inventory_subtree housed sourceSegment scopeKey
  have notRoot : scope ≠ Graph.root := by
    rintro rfl
    rw [sound.root_key] at scopeKey
    simp only [EntityKey.global, EntityKey.scope, Option.some.injEq, EntityKey.mk.injEq, true_and,
      and_true] at scopeKey
    exact sourceSegment (congrArg ScopedName.segments scopeKey.symm)
  have below : ∀ {id : Nat} {key : EntityKey}, catalogue.graph.key? id = some key →
      (id ∈ subtree catalogue.graph scope ↔ key.isBelow source) := by
    intro id key carried
    rw [housed.mem_subtree sourceSegment scopeKey]
    simp [carried]
  unfold moveSubtree
  refine Action.ensures_bind (Action.ensures_get ?_)
  refine Action.ensures_bind (Action.ensures_mapM_reading (fun id member => ?_) ?_)
  · obtain ⟨node, found⟩ := Graph.isSome_key?_iff.mp (listing.there (by simpa using member))
    exact ⟨node, Graph.node_of_nodeTable found⟩
  simp only [toOption_node]
  generalize (subtree catalogue.graph scope).filterMap (catalogue.graph.nodeTable[·]?) = nodes
    at inventory
  by_cases unopposed : ((nodes.map fun node => (node.key, movedMention source target node)).all
      fun move => (catalogue.conflict? move.2).isNone)
  · have detached := (succeeds_detachAll housed listing notRoot).and
      (Action.keeps_forM (keptBySteps_numbersSince catalogue.graph).detach
        ⟨sound, .refl catalogue.graph⟩)
    simp only [unopposed, if_true]
    refine Action.ensures_bind (detached.mono ?_ fun _ both => both.1.elim)
    rintro _ middle ⟨without, since⟩
    rw [List.forM_eq_forM, List.forM_map]
    exact moves ((inventory.unopposed_iff sound).mp unopposed) inventory
      ⟨without, below, since.numbers⟩
  · simp only [unopposed]
    exact Action.ensures_pure (stays fun fits => unopposed ((inventory.unopposed_iff sound).mpr fits))

/-- Moving a scope and everything below it never fails. It happens exactly when
everything fits. -/
theorem succeeds_moveSubtree {catalogue : Catalogue} {scope : Nat} (housed : catalogue.Housed [])
    (sourceSegment : source.segments ≠ []) (targetSegment : target.segments ≠ [])
    (scopeKey : catalogue.graph.key? scope = some (.scope source)) :
    Action.Succeeds (moveSubtree scope source target) catalogue fun _ after =>
      (MoveFits catalogue.graph.profile? source target → catalogue.Moved after source target) ∧
      (¬ MoveFits catalogue.graph.profile? source target → after = catalogue) := by
  refine ensures_moveSubtree housed sourceSegment scopeKey
    (fun notFits => ⟨fun fits => absurd fits notFits, fun _ => rfl⟩) ?_
  intro nodes middle gone fits inventory taken
  refine (inventory.succeeds_resettleAll taken.without.housed sourceSegment targetSegment).weaken ?_
  intro _ after resettled
  refine ⟨fun _ => ?_, fun notFits => absurd fits notFits⟩
  exact resettled.moved inventory housed taken.without taken.below sourceSegment targetSegment

/-- What is moved and where to are names of scopes other than the global
namespace. -/
theorem segments_of_relocationTarget? {catalogue : Catalogue} {viewpoint : Viewpoint}
    {name target : ScopedName} (found : catalogue.relocationTarget? viewpoint name = some target) :
    name.segments ≠ [] ∧ target.segments ≠ [] := by
  unfold relocationTarget? at found
  cases outer : name.parent? with
  | none => simp [outer] at found
  | some scope =>
    simp only [outer] at found
    constructor
    · intro nothing
      simp [ScopedName.parent?, ScopedName.isGlobal, nothing] at outer
    · obtain ⟨directive, _, named⟩ := List.mem_flatMap.mp (List.mem_of_find?_eq_some found)
      unfold namesThrough at named
      cases opened : catalogue.directiveScope? directive with
      | none => simp [opened] at named
      | some place =>
        simp only [opened] at named
        obtain ⟨node, _, rfl⟩ := List.mem_map.mp named
        simp [ScopedName.child]

/-- Where an implied scope of a unit is moved to, if everything below it
fits. -/
def moveOf? (catalogue : Catalogue) (viewpoint : Viewpoint) (name : ScopedName) :
    Option ScopedName :=
  if (catalogue.graph.profile? (.scope name)).any
      (·.attributes.isSet AttributeName.implied) then
    (catalogue.relocationTarget? viewpoint name).filter (· ≠ name)
  else none

/-- What becomes of a catalogue when a scope is to be moved. -/
def MovedTo (before after : Catalogue) (source : ScopedName) : Option ScopedName → Prop
  | none => after = before
  | some target =>
    (MoveFits before.graph.profile? source target → before.Moved after source target) ∧
    (¬ MoveFits before.graph.profile? source target → after = before)

/-- Relocating a scope leaves the catalogue as it is, or is the move that the directives of the
unit ask for. -/
theorem ensures_relocateScope {catalogue : Catalogue} {viewpoint : Viewpoint} {name : ScopedName}
    {done : Unit → Catalogue → Prop} {failed : Catalogue → Prop} (sound : catalogue.graph.Sound)
    (stays : catalogue.moveOf? viewpoint name = none → done () catalogue)
    (moves : ∀ {id target}, catalogue.moveOf? viewpoint name = some target →
      name.segments ≠ [] → target.segments ≠ [] → catalogue.graph.key? id = some (.scope name) →
        Action.Ensures (moveSubtree id name target) catalogue done failed) :
    Action.Ensures (relocateScope viewpoint name) catalogue done failed := by
  unfold relocateScope
  refine Action.ensures_bind (Action.ensures_get ?_)
  cases known : catalogue.graph.nodeByKey? (.scope name) with
  | none =>
    have unknown := sound.profile?_eq_none.mpr known
    exact Action.ensures_pure (stays (by simp [moveOf?, unknown]))
  | some id =>
    have scopeKey := sound.nodeByKey?_eq_some.mp known
    obtain ⟨node, found, nodeKey⟩ := Graph.key?_eq_some.mp scopeKey
    have profile := nodeKey ▸ sound.profile?_of_node found
    refine Action.ensures_bind (Action.ensures_reading (Graph.node_of_nodeTable found) ?_)
    by_cases implied : node.attributes.isSet AttributeName.implied
    · have decides : catalogue.moveOf? viewpoint name =
          (catalogue.relocationTarget? viewpoint name).filter (· ≠ name) := by
        simp [moveOf?, profile, Node.profile, implied]
      rw [if_pos implied]
      cases means : catalogue.relocationTarget? viewpoint name with
      | none => exact Action.ensures_pure (stays (by rw [decides, means]; rfl))
      | some place =>
        obtain ⟨sourceSegment, targetSegment⟩ := segments_of_relocationTarget? means
        by_cases elsewhere : place ≠ name
        · simp only [if_pos elsewhere]
          exact moves (by simp [decides, means, elsewhere]) sourceSegment targetSegment scopeKey
        · simp only [if_neg elsewhere]
          exact Action.ensures_pure (stays (by simpa [decides, means] using elsewhere))
    · have settled : catalogue.moveOf? viewpoint name = none := by
        simp [moveOf?, profile, Node.profile, implied]
      rw [if_neg implied]
      exact Action.ensures_pure (stays settled)

/-- Relocating a scope never fails and does what is to be done with it. -/
theorem succeeds_relocateScope {catalogue : Catalogue} (housed : catalogue.Housed [])
    (viewpoint : Viewpoint) (name : ScopedName) :
    Action.Succeeds (relocateScope viewpoint name) catalogue fun _ after =>
      catalogue.MovedTo after name (catalogue.moveOf? viewpoint name) := by
  refine ensures_relocateScope housed.sound (fun stays => ?_) ?_
  · rw [stays]
    rfl
  · intro id target place sourceSegment targetSegment scopeKey
    rw [place]
    exact succeeds_moveSubtree housed sourceSegment targetSegment scopeKey

/-- What becomes of a housed catalogue when a scope is to be moved is housed. -/
theorem MovedTo.housed {after : Catalogue} {place : Option ScopedName}
    (moved : before.MovedTo after source place) (housed : before.Housed []) : after.Housed [] := by
  cases place with
  | none => exact (show after = before from moved) ▸ housed
  | some target =>
    by_cases fits : MoveFits before.graph.profile? source target
    · exact (moved.1 fits).housed
    · exact moved.2 fits ▸ housed

/-- A move relates nothing. -/
theorem MovedTo.unlinked {after : Catalogue} {place : Option ScopedName}
    (moved : before.MovedTo after source place) (unlinked : before.Unlinked) : after.Unlinked := by
  cases place with
  | none => exact (show after = before from moved) ▸ unlinked
  | some target =>
    by_cases fits : MoveFits before.graph.profile? source target
    · exact (moved.1 fits).unlinked unlinked
    · exact moved.2 fits ▸ unlinked

/-- Relocating the scopes of a unit never fails, and it keeps what every move keeps. -/
theorem succeeds_relocate {catalogue : Catalogue} {viewpoint : Viewpoint}
    {implied : List ScopedName} (invariant : Catalogue → Prop)
    (moves : ∀ {before after : Catalogue} {name : ScopedName}, before.Housed [] →
      before.MovedTo after name (before.moveOf? viewpoint name) → invariant before →
        invariant after)
    (housed : catalogue.Housed []) (unlinked : catalogue.Unlinked) (start : invariant catalogue) :
    Action.Succeeds (relocate viewpoint implied) catalogue fun _ after =>
      after.Housed [] ∧ after.Unlinked ∧ invariant after := by
  refine Action.ensures_forM_invariant _ (fun name _ before held => ?_) ⟨housed, unlinked, start⟩
  obtain ⟨housedBefore, unlinkedBefore, kept⟩ := held
  refine (succeeds_relocateScope housedBefore viewpoint name).weaken fun _ after moved => ?_
  exact ⟨moved.housed housedBefore, moved.unlinked unlinkedBefore, moves housedBefore moved kept⟩

end Catalogue

end DeclGraph

import DeclGraph.Proofs.Catalogue.Housed
import DeclGraph.Proofs.Graph.Forest

/-!
# Detaching a scope

In a housed catalogue, what lies below a scope can be told from the keys. A
scope is taken out of the catalogue from the inside out, so that a node has no
members left when it is removed, and everything outside the scope stays where it
is.
-/

namespace DeclGraph

/-- Whether the key is that of a scope or of something below it. -/
def EntityKey.isBelow (source : ScopedName) (key : EntityKey) : Bool :=
  key = .scope source
    || (key.family ≠ .placeholder && source.segments.isPrefixOf key.name.segments.dropLast)

/-- What is below a scope is the scope or has a scope around it that is the scope or lies in it. -/
theorem EntityKey.isBelow_iff {source : ScopedName} {key : EntityKey} :
    key.isBelow source ↔ key = .scope source ∨
      (key.family ≠ .placeholder ∧ source.segments <+: key.name.segments.dropLast) := by
  simp [isBelow]

/-- A scope counts as below itself. -/
theorem EntityKey.scope_isBelow_self (name : ScopedName) : (scope name).isBelow name :=
  isBelow_iff.mpr (.inl rfl)

/-- The first segments of everything below a scope are those of the scope. -/
theorem EntityKey.prefix_of_isBelow {source : ScopedName} {key : EntityKey}
    (below : key.isBelow source) : source.segments <+: key.name.segments := by
  obtain rfl | ⟨_, isPrefix⟩ := isBelow_iff.mp below
  · exact List.prefix_refl _
  · exact isPrefix.trans (List.dropLast_prefix _)

/-- A scope whose name begins with that of another is at or below the other. -/
theorem EntityKey.scope_isBelow {outer name : ScopedName}
    (isPrefix : outer.segments <+: name.segments) : (scope name).isBelow outer := by
  obtain ⟨segments⟩ := name
  rcases List.eq_nil_or_concat segments with rfl | ⟨front, last, rfl⟩
  · refine isBelow_iff.mpr (.inl ?_)
    rw [show outer = ⟨[]⟩ from congrArg ScopedName.mk (List.prefix_nil.mp isPrefix)]
  · rw [List.concat_eq_append] at isPrefix ⊢
    rcases List.prefix_concat_iff.mp isPrefix with same | inFront
    · refine isBelow_iff.mpr (.inl ?_)
      rw [show outer = ⟨front ++ [last]⟩ from congrArg ScopedName.mk same]
    · refine isBelow_iff.mpr (.inr ⟨by simp [scope], ?_⟩)
      simpa [scope] using inFront

namespace Catalogue

/-- How deep a node lies: the global namespace at the top, anything else one
deeper than its name has segments. -/
def depth (graph : Graph) (id : Nat) : Nat :=
  match graph.key? id with
  | some key => if key = .global then 0 else key.name.segments.length + 1
  | none => 0

variable {catalogue : Catalogue}

/-- Containment in a housed catalogue is a forest. -/
theorem Housed.forest {loose : List Nat} (housed : catalogue.Housed loose) :
    catalogue.graph.Forest (depth catalogue.graph) where
  sound := housed.sound
  single := housed.single_scope
  deeper := by
    intro scope member related
    obtain ⟨_, key, carried, lies, holds⟩ := housed.contains_iff.mp related
    simp only [depth, carried, holds, if_neg lies.1]
    by_cases top : key.holder = .global
    · simp [top]
    · rw [if_neg top]
      have someSegment : key.name.segments ≠ [] := by
        intro nothing
        apply top
        simp [EntityKey.holder, nothing, EntityKey.global, ScopedName.global]
      have long := List.length_pos_iff.mpr someSegment
      have shorter : key.holder.name.segments.length = key.name.segments.length - 1 :=
        List.length_dropLast
      omega

/-- What lies in a scope below another lies below that too. -/
theorem isBelow_of_holder {source : ScopedName} {key : EntityKey} (lies : key.LiesInScope)
    (below : key.holder.isBelow source) : key.isBelow source := by
  refine EntityKey.isBelow_iff.mpr (.inr ⟨lies.2, ?_⟩)
  obtain same | ⟨_, isPrefix⟩ := EntityKey.isBelow_iff.mp below
  · simp only [EntityKey.holder, EntityKey.scope, EntityKey.mk.injEq, true_and, and_true] at same
    exact same ▸ List.prefix_refl _
  · exact isPrefix.trans (List.dropLast_prefix _)

/-- The listing of a scope holds exactly the nodes that are below it by their
keys. -/
theorem Housed.mem_subtree (housed : catalogue.Housed []) {source : ScopedName}
    (someSegment : source.segments ≠ []) {start id : Nat}
    (startKey : catalogue.graph.key? start = some (.scope source)) :
    id ∈ subtree catalogue.graph start ↔
      ∃ key, catalogue.graph.key? id = some key ∧ key.isBelow source := by
  have forest := housed.forest
  have listing := listing_subtree forest start (by rw [startKey]; rfl)
  constructor
  · -- Every listed node but the first lies in a scope that is listed and less deep.
    induction deep : depth catalogue.graph id using Nat.strongRecOn generalizing id with
    | _ _ shallower =>
      intro member
      obtain rfl | ⟨scope, listed, related⟩ := listing.reached _ (by simpa using member)
      · exact ⟨_, startKey, EntityKey.scope_isBelow_self source⟩
      · obtain ⟨_, key, carried, lies, holds⟩ := housed.contains_iff.mp related
        obtain ⟨scopeKey, scopeCarried, below⟩ :=
          shallower _ (deep ▸ forest.deeper related) rfl listed
        rw [holds] at scopeCarried
        cases scopeCarried
        exact ⟨key, carried, isBelow_of_holder lies below⟩
  · -- The scopes between a key and the scope it is below are all there.
    rintro ⟨key, carried, below⟩
    induction long : key.name.segments.length using Nat.strongRecOn generalizing id key with
    | _ _ shorter =>
      obtain rfl | ⟨family, isPrefix⟩ := EntityKey.isBelow_iff.mp below
      · have same := housed.sound.id_eq_of_key? startKey carried
        subst same
        simpa using listing.started
      · have someOwn : key.name.segments.dropLast ≠ [] := by
          intro nothing
          rw [nothing] at isPrefix
          exact someSegment (List.prefix_nil.mp isPrefix)
        have lies : key.LiesInScope := by
          refine ⟨?_, family⟩
          rintro rfl
          simp [EntityKey.global, EntityKey.scope, ScopedName.global] at someOwn
        obtain ⟨scope, holds⟩ := housed.holder_there carried lies List.not_mem_nil
        have related := housed.contains_iff.mpr ⟨List.not_mem_nil, key, carried, lies, holds⟩
        have belowHolder : key.holder.isBelow source := by
          rw [EntityKey.isBelow_iff]
          by_cases same : key.name.segments.dropLast = source.segments
          · left
            simp [EntityKey.holder, same]
          · refine .inr ⟨by simp [EntityKey.holder, EntityKey.scope], ?_⟩
            obtain ⟨rest, split⟩ := isPrefix
            obtain rfl | ⟨front, last, rfl⟩ := List.eq_nil_or_concat rest
            · exact absurd (by simpa using split.symm) same
            · simp only [EntityKey.holder, EntityKey.scope, ← split, ← List.append_assoc,
                List.concat_eq_append, List.dropLast_concat]
              exact List.prefix_append _ _
        have holderShort : key.holder.name.segments.length < key.name.segments.length := by
          have some_ := List.length_pos_iff.mpr someOwn
          simp only [EntityKey.holder, EntityKey.scope, List.length_dropLast] at some_ ⊢
          omega
        have listed := shorter _ (long ▸ holderShort) key.holder holds belowHolder rfl
        simpa using listing.closed listed related

/-- What is below a scope by its key is the scope or lies in it. -/
theorem Housed.isBelow_iff_encloses (housed : catalogue.Housed []) {source : ScopedName}
    (someSegment : source.segments ≠ []) {start id : Nat} {key : EntityKey}
    (startKey : catalogue.graph.key? start = some (.scope source))
    (carried : catalogue.graph.key? id = some key) :
    key.isBelow source ↔ id = start ∨ catalogue.graph.Encloses start id := by
  constructor
  · intro below
    exact encloses_of_mem_subtree housed.forest (by rw [startKey]; rfl)
      ((housed.mem_subtree someSegment startKey).mpr ⟨key, carried, below⟩)
  · rintro (rfl | encloses)
    · rw [startKey] at carried
      cases carried
      exact EntityKey.scope_isBelow_self source
    · induction encloses generalizing key with
      | directly related =>
        obtain ⟨_, held, itsKey, lies, holds⟩ := housed.contains_iff.mp related
        rw [carried] at itsKey
        cases itsKey
        rw [startKey] at holds
        exact isBelow_of_holder lies (Option.some.inj holds ▸ EntityKey.scope_isBelow_self source)
      | through _ related further =>
        obtain ⟨_, held, itsKey, lies, holds⟩ := housed.contains_iff.mp related
        rw [carried] at itsKey
        cases itsKey
        exact isBelow_of_holder lies (further holds)

/-- The catalogue without a node, its place among the members and its own
members. -/
structure Detached (before after : Catalogue) (id : Nat) (key : EntityKey) : Prop where
  graph : after.graph = before.graph.withoutNodeAndEdges id key
  mem_members : ∀ {scope member : Nat} {name : String},
    member ∈ after.membersNamed scope name ↔
      member ∈ before.membersNamed scope name ∧ scope ≠ id ∧ member ≠ id
  members_nodup : ∀ {scope : Nat} {name : String}, (before.membersNamed scope name).Nodup →
    (after.membersNamed scope name).Nodup
  moved : after.moved = before.moved

/-- Dropping the entries of one scope from the index leaves those of every other scope. -/
theorem listAt_filter (index : Std.ExtTreeMap MemberKey (List Nat)) (id : Nat) (at_ : MemberKey) :
    Graph.listAt (index.filter fun (key : MemberKey) _ => key.scope ≠ id) at_ =
      if at_.scope = id then [] else Graph.listAt index at_ := by
  unfold Graph.listAt
  rw [Std.ExtTreeMap.getElem?_filter']
  cases index[at_]? <;> by_cases same : at_.scope = id <;> simp [same, Option.filter]

/-- A node is detached when the index no longer lists it and lists everything else as before. -/
theorem detached_of_index {id : Nat} {key : EntityKey} {index : Std.ExtTreeMap MemberKey (List Nat)}
    (listed : ∀ (at_ : MemberKey) (member : Nat), member ∈ Graph.listAt index at_ ↔
      member ∈ Graph.listAt catalogue.memberIndex at_ ∧ member ≠ id)
    (nodup : ∀ at_, (Graph.listAt catalogue.memberIndex at_).Nodup →
      (Graph.listAt index at_).Nodup) :
    catalogue.Detached
      { catalogue with
        graph := catalogue.graph.withoutNodeAndEdges id key
        memberIndex := index.filter fun (key : MemberKey) _ => key.scope ≠ id } id key where
  graph := rfl
  mem_members := by
    intro scope member name
    simp only [membersNamed, listAt_filter]
    by_cases same : scope = id
    · simp [same]
    · simp [same, listed]
  members_nodup := by
    intro scope name before
    simp only [membersNamed, listAt_filter]
    by_cases same : scope = id
    · simp [same]
    · simpa [same] using nodup _ before
  moved := rfl

/-- A node can be detached unless it is the global namespace. -/
theorem succeeds_detach {id : Nat} {node : Node} (housed : catalogue.Housed [])
    (found : catalogue.graph.nodeTable[id]? = some node) (notRoot : id ≠ Graph.root) :
    Action.Succeeds (detach id) catalogue fun _ after => catalogue.Detached after id node.key := by
  have removed := Graph.removeNode_of_node found notRoot
  unfold detach
  refine Action.ensures_bind (Action.ensures_get ?_)
  cases parent : catalogue.graph.parent? id with
  | none =>
    have unlisted : ∀ at_ : MemberKey, id ∉ Graph.listAt catalogue.memberIndex at_ := by
      intro at_ member
      have related := housed.mem_members.mp
        (show id ∈ catalogue.membersNamed at_.scope at_.name from member)
      rw [housed.parent?_eq_some.mpr related.1] at parent
      cases parent
    refine Action.ensures_bind (Action.ensures_modify (Action.ensures_editing removed ?_))
    refine detached_of_index (fun at_ member => ?_) fun _ before => before
    refine ⟨fun there => ⟨there, ?_⟩, fun both => both.1⟩
    rintro rfl
    exact unlisted at_ there
  | some scope =>
    refine Action.ensures_bind (Action.ensures_reading (Graph.node_of_nodeTable found) ?_)
    refine Action.ensures_bind (Action.ensures_modify ?_)
    refine Action.ensures_bind (Action.ensures_modify (Action.ensures_editing removed ?_))
    refine detached_of_index (fun at_ member => ?_) fun at_ before => ?_
    · rw [Graph.mem_listAt_removeAt]
      refine and_congr_right fun there => ⟨?_, fun apart _ => apart⟩
      rintro apart rfl
      obtain ⟨related, named⟩ := housed.mem_members.mp
        (show member ∈ catalogue.membersNamed at_.scope at_.name from there)
      have sameScope := housed.single_scope related (housed.parent?_eq_some.mp parent)
      rw [Graph.key?_of_node found, Option.map_some, Option.some.injEq] at named
      refine apart ?_ rfl
      cases at_
      cases sameScope
      cases named
      rfl
    · by_cases same : at_ = ⟨scope, node.key.name.simple⟩
      · rw [same, Graph.listAt_removeAt_self]
        exact (same ▸ before).filter _
      · rw [Graph.listAt_removeAt_of_ne _ _ (Ne.symm same)]
        exact before

/-- Detaching a node without members keeps a catalogue housed. -/
theorem Detached.housed {before after : Catalogue} {id : Nat} {key : EntityKey}
    (detached : before.Detached after id key) (housed : before.Housed [])
    (carried : before.graph.key? id = some key) (notRoot : id ≠ Graph.root)
    (childless : ∀ member, ¬ before.graph.Related id .contains member) : after.Housed [] := by
  have keys : ∀ other, (before.graph.withoutNodeAndEdges id key).key? other = _ :=
    fun other => Graph.key?_withoutNodeAndEdges id other key
  have related : ∀ {scope member : Nat}, after.graph.Related scope .contains member ↔
      before.graph.Related scope .contains member ∧ scope ≠ id ∧ member ≠ id := by
    intro scope member
    rw [detached.graph]
    exact housed.sound.related_withoutNodeAndEdges
  have keyAfter : ∀ {other : Nat} {held : EntityKey}, after.graph.key? other = some held ↔
      before.graph.key? other = some held ∧ other ≠ id := by
    intro other held
    rw [detached.graph, keys]
    by_cases same : id = other
    · simp [same]
    · simp [same, Ne.symm same]
  constructor
  case sound =>
    rw [detached.graph]
    exact housed.sound.withoutNodeAndEdges carried notRoot
  case loose_there => intro other isLoose; cases isLoose
  case contains_iff =>
    intro scope member
    rw [related, housed.contains_iff]
    constructor
    · rintro ⟨⟨_, held, itsKey, lies, holds⟩, scopeApart, memberApart⟩
      exact ⟨List.not_mem_nil, held, keyAfter.mpr ⟨itsKey, memberApart⟩, lies,
        keyAfter.mpr ⟨holds, scopeApart⟩⟩
    · rintro ⟨_, held, itsKey, lies, holds⟩
      obtain ⟨itsKey, memberApart⟩ := keyAfter.mp itsKey
      obtain ⟨holds, scopeApart⟩ := keyAfter.mp holds
      exact ⟨⟨List.not_mem_nil, held, itsKey, lies, holds⟩, scopeApart, memberApart⟩
  case holder_there =>
    intro member held itsKey lies _
    obtain ⟨itsKey, memberApart⟩ := keyAfter.mp itsKey
    obtain ⟨scope, holds⟩ := housed.holder_there itsKey lies List.not_mem_nil
    refine ⟨scope, keyAfter.mpr ⟨holds, ?_⟩⟩
    rintro rfl
    exact childless member (housed.contains_iff.mpr
      ⟨List.not_mem_nil, held, itsKey, lies, holds⟩)
  case mem_members =>
    intro scope member name
    rw [detached.mem_members, housed.mem_members, related]
    constructor
    · rintro ⟨⟨inside, named⟩, scopeApart, memberApart⟩
      obtain ⟨held, itsKey, rfl⟩ := Option.map_eq_some_iff.mp named
      exact ⟨⟨inside, scopeApart, memberApart⟩, by rw [keyAfter.mpr ⟨itsKey, memberApart⟩]; rfl⟩
    · rintro ⟨⟨inside, scopeApart, memberApart⟩, named⟩
      obtain ⟨held, itsKey, rfl⟩ := Option.map_eq_some_iff.mp named
      exact ⟨⟨inside, by rw [(keyAfter.mp itsKey).1]; rfl⟩, scopeApart, memberApart⟩
  case members_nodup =>
    intro scope name
    exact detached.members_nodup (housed.members_nodup scope name)

/-- The catalogue without some of its nodes. -/
structure WithoutNodes (before after : Catalogue) (gone : Nat → Prop) : Prop where
  housed : after.Housed []
  nodeTable : ∀ {id : Nat} {node : Node}, after.graph.nodeTable[id]? = some node ↔
    before.graph.nodeTable[id]? = some node ∧ ¬ gone id
  related : ∀ {source target : Nat} {relation : Relation},
    after.graph.Related source relation target ↔
      before.graph.Related source relation target ∧ ¬ gone source ∧ ¬ gone target
  moved : after.moved = before.moved

/-- With one node more detached. -/
theorem WithoutNodes.detached {before middle after : Catalogue} {gone goneAfter : Nat → Prop}
    {id : Nat} {key : EntityKey} (without : before.WithoutNodes middle gone)
    (detached : middle.Detached after id key) (carried : middle.graph.key? id = some key)
    (notRoot : id ≠ Graph.root)
    (childless : ∀ member, ¬ middle.graph.Related id .contains member)
    (more : ∀ other, goneAfter other ↔ gone other ∨ other = id) :
    before.WithoutNodes after goneAfter where
  housed := detached.housed without.housed carried notRoot childless
  nodeTable := by
    intro other node
    rw [detached.graph, Graph.nodeTable_withoutNodeAndEdges, more]
    have old := @without.nodeTable other node
    grind
  related := by
    intro source target relation
    rw [detached.graph, without.housed.sound.related_withoutNodeAndEdges, without.related, more,
      more]
    grind
  moved := detached.moved.trans without.moved

/-- The global namespace lies in no scope. -/
theorem Housed.ne_root_of_related {loose : List Nat} (housed : catalogue.Housed loose)
    {scope member : Nat} (related : catalogue.graph.Related scope .contains member) :
    member ≠ Graph.root := by
  rintro rfl
  obtain ⟨_, key, carried, lies, _⟩ := housed.contains_iff.mp related
  rw [housed.sound.root_key] at carried
  cases carried
  exact lies.1 rfl

/-- The nodes of a listing can be detached from the last to the first. -/
theorem succeeds_detachAll {start : Nat} {listed : List Nat} (housed : catalogue.Housed [])
    (listing : Listing catalogue.graph (depth catalogue.graph) start listed [])
    (notRoot : start ≠ Graph.root) :
    Action.Succeeds (listed.reverse.forM detach) catalogue fun _ after =>
      catalogue.WithoutNodes after (· ∈ listed) := by
  have forest := housed.forest
  have nodup : listed.reverse.Nodup :=
    (List.reverse_perm listed).nodup_iff.mpr (by simpa using listing.nodup)
  have ordered : listed.reverse.Pairwise fun first second =>
      ¬ catalogue.graph.Related first .contains second :=
    List.pairwise_reverse.mpr (by simpa using listing.ordered)
  refine Action.Succeeds.weaken (Action.ensures_forM
    (fun rest middle =>
      catalogue.WithoutNodes middle fun id => id ∈ listed ∧ id ∉ rest) ?_ ?_) ?_
  · intro item rest middle isSuffix without
    have member : item ∈ listed := by
      simpa using isSuffix.subset (List.mem_cons_self (a := item) (l := rest))
    have nodupRest := List.nodup_cons.mp (nodup.sublist isSuffix.sublist)
    have orderedRest := List.pairwise_cons.mp (ordered.sublist isSuffix.sublist)
    obtain ⟨node, found⟩ := Graph.isSome_key?_iff.mp (listing.there (by simpa using member))
    have foundStill := without.nodeTable.mpr ⟨found, by simp⟩
    have itemNotRoot : item ≠ Graph.root := by
      obtain rfl | ⟨scope, _, related⟩ := listing.reached _ (by simpa using member)
      · exact notRoot
      · exact housed.ne_root_of_related related
    have childless : ∀ other, ¬ middle.graph.Related item .contains other := by
      intro other related
      obtain ⟨before, _, notGone⟩ := without.related.mp related
      have otherListed : other ∈ listed := by simpa using listing.closed member before
      have ahead : other ∈ item :: rest :=
        Classical.byContradiction fun absent => notGone ⟨otherListed, absent⟩
      obtain rfl | inRest := List.mem_cons.mp ahead
      · exact absurd (forest.deeper before) (Nat.lt_irrefl _)
      · exact orderedRest.1 other inRest before
    refine (succeeds_detach without.housed foundStill itemNotRoot).weaken fun _ after detached => ?_
    refine without.detached detached (Graph.key?_of_node foundStill) itemNotRoot childless ?_
    intro other
    have apart := nodupRest.1
    simp only [List.mem_cons, not_or]
    grind
  · exact ⟨housed, by simp, by simp, rfl⟩
  · intro _ after without
    have all : ∀ id, (id ∈ listed ∧ id ∉ ([] : List Nat)) ↔ id ∈ listed := by simp
    simpa only [all] using without

end Catalogue

end DeclGraph

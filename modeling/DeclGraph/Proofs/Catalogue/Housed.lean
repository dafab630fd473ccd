import DeclGraph.Proofs.Catalogue.Action
import DeclGraph.Proofs.Graph.Profile

/-!
# Housed catalogues

In a housed catalogue containment follows from the keys: every entity lies in
the scope that its name says, and the member index lists it there. The global
namespace and stand-ins lie nowhere. While a node is being put into its scope it
is loose: it is there already and lies nowhere yet. Creating the scopes around a
name keeps a catalogue housed and adds implied scopes only.
-/

namespace DeclGraph

namespace EntityKey

/-- The key of the scope in which entities of the key lie. -/
def holder (key : EntityKey) : EntityKey := .scope ⟨key.name.segments.dropLast⟩

/-- Everything lies in a scope but the global namespace and stand-ins. -/
def LiesInScope (key : EntityKey) : Prop := key ≠ .global ∧ key.family ≠ .placeholder

/-- Whether the key is that of a scope named by some of the first segments of a
name. -/
def isScopeAround (segments : List String) (key : EntityKey) : Bool :=
  key.family = .scope && key.signature = none && !key.name.segments.isEmpty
    && key.name.segments.isPrefixOf segments

/-- A key is that of a scope around some segments when its name is a front of them. -/
theorem isScopeAround_iff {segments : List String} {key : EntityKey} :
    key.isScopeAround segments ↔
      ∃ front, front ≠ [] ∧ front <+: segments ∧ key = .scope ⟨front⟩ := by
  obtain ⟨family, ⟨own⟩, signature⟩ := key
  simp only [isScopeAround, Bool.and_eq_true, decide_eq_true_eq, Bool.not_eq_true',
    List.isEmpty_eq_false_iff, List.isPrefixOf_iff_prefix, scope, EntityKey.mk.injEq,
    ScopedName.mk.injEq]
  constructor
  · rintro ⟨⟨⟨rfl, rfl⟩, someSegment⟩, isPrefix⟩
    exact ⟨own, someSegment, isPrefix, rfl, rfl, rfl⟩
  · rintro ⟨front, someSegment, isPrefix, rfl, rfl, rfl⟩
    exact ⟨⟨⟨rfl, rfl⟩, someSegment⟩, isPrefix⟩

/-- Nothing is around the global namespace. -/
@[simp] theorem not_isScopeAround_nil (key : EntityKey) : key.isScopeAround [] = false := by
  rw [Bool.eq_false_iff]
  intro around
  obtain ⟨front, someSegment, isPrefix, _⟩ := isScopeAround_iff.mp around
  exact someSegment (List.prefix_nil.mp isPrefix)

/-- Around some segments are the scope of all of them and what is around that scope. -/
theorem isScopeAround_concat {outer : List String} {last : String} {key : EntityKey} :
    key.isScopeAround (outer ++ [last]) ↔
      key = .scope ⟨outer ++ [last]⟩ ∨ key.isScopeAround outer := by
  simp only [isScopeAround_iff, List.prefix_concat_iff]
  constructor
  · rintro ⟨front, someSegment, rfl | isPrefix, rfl⟩
    · exact .inl rfl
    · exact .inr ⟨front, someSegment, isPrefix, rfl⟩
  · rintro (rfl | ⟨front, someSegment, isPrefix, rfl⟩)
    · exact ⟨outer ++ [last], by simp, .inl rfl, rfl⟩
    · exact ⟨front, someSegment, .inr isPrefix, rfl⟩

/-- A scope around a name has no more segments than the name. -/
theorem length_le_of_isScopeAround {segments : List String} {key : EntityKey}
    (around : key.isScopeAround segments) : key.name.segments.length ≤ segments.length := by
  obtain ⟨front, _, isPrefix, rfl⟩ := isScopeAround_iff.mp around
  exact isPrefix.length_le

/-- Everything that is declared and no scope lies in a scope. -/
theorem liesInScope_of_family {key : EntityKey} (notScope : key.family ≠ .scope)
    (declared : key.family ≠ .placeholder) : key.LiesInScope := by
  refine ⟨fun global => notScope ?_, declared⟩
  rw [global]
  rfl

/-- Every scope but the global namespace lies in a scope. -/
theorem scope_liesInScope {segments : List String} (someSegment : segments ≠ []) :
    (scope ⟨segments⟩).LiesInScope := by
  refine ⟨?_, by simp [scope]⟩
  simpa [global, scope, ScopedName.global] using someSegment

end EntityKey

/-- The profile of a scope that is known only because something lies in it. -/
def Profile.implied : Profile := ⟨.namespaceScope, Catalogue.impliedAttributes⟩

namespace Catalogue

/-- Containment is as the keys say, but for the loose nodes. -/
structure Housed (catalogue : Catalogue) (loose : List Nat) : Prop where
  sound : catalogue.graph.Sound
  loose_there : ∀ {id : Nat}, id ∈ loose → (catalogue.graph.key? id).isSome
  contains_iff : ∀ {scope member : Nat}, catalogue.graph.Related scope .contains member ↔
    member ∉ loose ∧ ∃ key, catalogue.graph.key? member = some key ∧ key.LiesInScope ∧
      catalogue.graph.key? scope = some key.holder
  holder_there : ∀ {member : Nat} {key : EntityKey}, catalogue.graph.key? member = some key →
    key.LiesInScope → member ∉ loose → ∃ scope, catalogue.graph.key? scope = some key.holder
  mem_members : ∀ {scope member : Nat} {name : String},
    member ∈ catalogue.membersNamed scope name ↔
      catalogue.graph.Related scope .contains member ∧
        (catalogue.graph.key? member).map (·.name.simple) = some name
  members_nodup : ∀ scope name, (catalogue.membersNamed scope name).Nodup

/-- Only containment relates the nodes of the graph. -/
def Unlinked (catalogue : Catalogue) : Prop :=
  ∀ source target relation, catalogue.graph.Related source relation target → relation = .contains

namespace Housed

variable {catalogue : Catalogue} {loose : List Nat}

/-- Nothing lies in two scopes. -/
theorem single_scope (housed : catalogue.Housed loose) {first second member : Nat}
    (inFirst : catalogue.graph.Related first .contains member)
    (inSecond : catalogue.graph.Related second .contains member) : first = second := by
  obtain ⟨_, key, carried, _, firstKey⟩ := housed.contains_iff.mp inFirst
  obtain ⟨_, other, carriedToo, _, secondKey⟩ := housed.contains_iff.mp inSecond
  rw [carried] at carriedToo
  cases carriedToo
  exact housed.sound.id_eq_of_key? firstKey secondKey

/-- The scope of a node is the one that contains it. -/
theorem parent?_eq_some (housed : catalogue.Housed loose) {scope member : Nat} :
    catalogue.graph.parent? member = some scope ↔
      catalogue.graph.Related scope .contains member :=
  housed.sound.parent?_eq_some fun _ _ => housed.single_scope

/-- What belongs into a scope lies there. -/
theorem exists_holder (housed : catalogue.Housed []) {member : Nat} {key : EntityKey}
    (carried : catalogue.graph.key? member = some key) (lies : key.LiesInScope) :
    ∃ scope, catalogue.graph.key? scope = some key.holder ∧
      catalogue.graph.Related scope .contains member := by
  obtain ⟨scope, scopeKey⟩ := housed.holder_there carried lies List.not_mem_nil
  exact ⟨scope, scopeKey,
    housed.contains_iff.mpr ⟨List.not_mem_nil, key, carried, lies, scopeKey⟩⟩

/-- The scope of a node that is no scope itself and no stand-in holds it. -/
theorem related_scopeOf (housed : catalogue.Housed []) {node : Node}
    (held : catalogue.graph.nodeTable[node.id]? = some node)
    (notScope : node.kind.family ≠ .scope) (declared : node.kind.family ≠ .placeholder) :
    catalogue.graph.Related (catalogue.scopeOf node.id) .contains node.id := by
  have family := housed.sound.kind_family held
  obtain ⟨scope, _, related⟩ := housed.exists_holder (Graph.key?_of_node held)
    (EntityKey.liesInScope_of_family (family ▸ notScope) (family ▸ declared))
  rwa [scopeOf, housed.parent?_eq_some.mpr related]

/-- What lies in a scope has no other edge of containment that enters it. -/
theorem sources_of_related (housed : catalogue.Housed loose) {scope member : Nat}
    (related : catalogue.graph.Related scope .contains member) :
    (catalogue.graph.incoming member (some .contains)).map (·.source) = [scope] := by
  refine eq_singleton_of_nodup (housed.sound.sources_nodup member .contains)
    (housed.sound.mem_sources.mpr related) fun source enters => ?_
  exact housed.single_scope (housed.sound.mem_sources.mp enters) related

/-- Replacing a node by one of the same key moves nothing. -/
theorem withNode (housed : catalogue.Housed loose) {id : Nat} {former node : Node}
    (found : catalogue.graph.nodeTable[id]? = some former) (sameId : node.id = former.id)
    (sameKey : node.key = former.key) (family : node.kind.family = node.key.family) :
    Housed { catalogue with graph := catalogue.graph.withNode id node } loose := by
  have keys := Graph.key?_withNode found sameKey
  constructor
  case sound => exact housed.sound.withNode found sameId sameKey family
  case loose_there => intro other; rw [keys]; exact housed.loose_there
  case contains_iff =>
    intro scope member
    simp only [keys]
    exact housed.contains_iff
  case holder_there =>
    intro member key
    simp only [keys]
    exact housed.holder_there
  case mem_members =>
    intro scope member name
    simp only [keys]
    exact housed.mem_members
  case members_nodup => exact housed.members_nodup

/-- A node under a new key is loose. -/
theorem addNode (housed : catalogue.Housed loose) {key : EntityKey} {kind : EntityKind}
    (attributes : Attributes) (fresh : catalogue.graph.nodeByKey? key = none)
    (family : kind.family = key.family) :
    Housed { catalogue with graph := catalogue.graph.addNode key kind attributes }
      (catalogue.graph.nextNode :: loose) := by
  have keys := catalogue.graph.key?_addNode key kind attributes
  have free := housed.sound.key?_nextNode
  have old : ∀ {id : Nat} {other : EntityKey}, catalogue.graph.key? id = some other →
      catalogue.graph.nextNode ≠ id := by
    intro id other carried equal
    rw [← equal, free] at carried
    cases carried
  have holderOld : ∀ {id : Nat} {other : EntityKey}, catalogue.graph.key? id = some other →
      (catalogue.graph.addNode key kind attributes).key? id = some other := by
    intro id other carried
    rw [keys, if_neg (old carried), carried]
  constructor
  case sound => exact housed.sound.addNode attributes fresh family
  case loose_there =>
    intro id member
    obtain rfl | before := List.mem_cons.mp member
    · simp [keys]
    · obtain ⟨other, carried⟩ := Option.isSome_iff_exists.mp (housed.loose_there before)
      rw [holderOld carried]
      rfl
  case contains_iff =>
    intro scope member
    have same : (catalogue.graph.addNode key kind attributes).Related scope .contains member ↔
        catalogue.graph.Related scope .contains member := Iff.rfl
    rw [same, housed.contains_iff]
    constructor
    · rintro ⟨settled, other, carried, lies, holds⟩
      refine ⟨?_, other, holderOld carried, lies, holderOld holds⟩
      simpa [settled] using Ne.symm (old carried)
    · rintro ⟨settled, other, carried, lies, holds⟩
      have notNew : catalogue.graph.nextNode ≠ member := by
        rintro rfl
        simp at settled
      rw [keys, if_neg notNew] at carried
      have related : ∃ holder, catalogue.graph.Related holder .contains member := by
        have notLoose : member ∉ loose := fun there => settled (List.mem_cons_of_mem _ there)
        obtain ⟨holder, held⟩ := housed.holder_there carried lies notLoose
        exact ⟨holder, housed.contains_iff.mpr ⟨notLoose, other, carried, lies, held⟩⟩
      obtain ⟨holder, related⟩ := related
      obtain ⟨notLoose, again, carriedToo, _, held⟩ := housed.contains_iff.mp related
      rw [carried] at carriedToo
      cases carriedToo
      have equal := (housed.sound.addNode attributes fresh family).id_eq_of_key?
        (holderOld held) holds
      subst equal
      exact ⟨notLoose, other, carried, lies, held⟩
  case holder_there =>
    intro member other carried lies settled
    have notNew : catalogue.graph.nextNode ≠ member := by
      rintro rfl
      simp at settled
    rw [keys, if_neg notNew] at carried
    obtain ⟨holder, held⟩ := housed.holder_there carried lies
      fun there => settled (List.mem_cons_of_mem _ there)
    exact ⟨holder, holderOld held⟩
  case mem_members =>
    intro scope member name
    have same : (catalogue.graph.addNode key kind attributes).Related scope .contains member ↔
        catalogue.graph.Related scope .contains member := Iff.rfl
    refine housed.mem_members.trans ?_
    rw [same]
    refine and_congr_right fun related => ?_
    obtain ⟨_, other, carried, _⟩ := housed.contains_iff.mp related
    rw [carried, holderOld carried]
  case members_nodup => exact housed.members_nodup

/-- What lies in no scope is not loose. -/
theorem settle (housed : catalogue.Housed loose) {id : Nat} {rest : List Nat}
    (isLoose : loose = id :: rest) {key : EntityKey} (carried : catalogue.graph.key? id = some key)
    (nowhere : ¬ key.LiesInScope) : catalogue.Housed rest := by
  subst isLoose
  have notIt : ∀ {member : Nat} {other : EntityKey}, catalogue.graph.key? member = some other →
      other.LiesInScope → member ≠ id := by
    rintro member other held lies rfl
    rw [carried] at held
    cases held
    exact nowhere lies
  constructor
  case sound => exact housed.sound
  case loose_there => exact fun member => housed.loose_there (List.mem_cons_of_mem _ member)
  case contains_iff =>
    intro scope member
    rw [housed.contains_iff]
    constructor
    · rintro ⟨settled, other⟩
      exact ⟨fun there => settled (List.mem_cons_of_mem _ there), other⟩
    · rintro ⟨settled, other, held, lies, holds⟩
      exact ⟨by simpa [settled] using notIt held lies, other, held, lies, holds⟩
  case holder_there =>
    intro member other held lies settled
    exact housed.holder_there held lies (by simpa [settled] using notIt held lies)
  case mem_members => exact housed.mem_members
  case members_nodup => exact housed.members_nodup

end Housed

/-- The catalogue in which a node has been made a member of a scope. -/
def attached (catalogue : Catalogue) (scope child : Nat) (name : String) : Catalogue :=
  { catalogue with
    graph := catalogue.graph.withEdge ⟨scope, child, .contains⟩ ∅
    memberIndex := Graph.appendAt catalogue.memberIndex ⟨scope, name⟩ child }

/-- A loose node that is made a member of its scope is loose no longer. -/
theorem Housed.attached {catalogue : Catalogue} {loose : List Nat} {scope child : Nat}
    {key : EntityKey} (housed : catalogue.Housed (child :: loose)) (once : child ∉ loose)
    (carried : catalogue.graph.key? child = some key) (lies : key.LiesInScope)
    (holds : catalogue.graph.key? scope = some key.holder) :
    (catalogue.attached scope child key.name.simple).Housed loose := by
  have sound := housed.sound
  have keys : ∀ id, (catalogue.attached scope child key.name.simple).graph.key? id = catalogue.graph.key? id :=
    fun id => Graph.key?_withEdge id
  have related : ∀ {outer member : Nat},
      (catalogue.attached scope child key.name.simple).graph.Related outer .contains member ↔
        catalogue.graph.Related outer .contains member ∨ (scope = outer ∧ child = member) := by
    intro outer member
    rw [Catalogue.attached, sound.related_withEdge]
    simp
  have outside : ∀ {outer : Nat}, ¬ catalogue.graph.Related outer .contains child := by
    intro outer inside
    exact (housed.contains_iff.mp inside).1 List.mem_cons_self
  constructor
  case sound =>
    exact sound.withEdge (by rw [holds]; rfl) (by rw [carried]; rfl)
  case loose_there =>
    intro id member
    rw [keys]
    exact housed.loose_there (List.mem_cons_of_mem _ member)
  case contains_iff =>
    intro outer member
    rw [related, housed.contains_iff, keys, keys]
    constructor
    · rintro (⟨settled, other⟩ | ⟨rfl, rfl⟩)
      · exact ⟨fun there => settled (List.mem_cons_of_mem _ there), other⟩
      · exact ⟨once, key, carried, lies, holds⟩
    · rintro ⟨settled, other, held, liesToo, holdsToo⟩
      by_cases same : child = member
      · subst same
        rw [carried] at held
        cases held
        exact .inr ⟨sound.id_eq_of_key? holds holdsToo, rfl⟩
      · exact .inl ⟨by simpa [settled] using Ne.symm same, other, held, liesToo, holdsToo⟩
  case holder_there =>
    intro member other held liesToo settled
    rw [keys] at held
    simp only [keys]
    by_cases same : child = member
    · subst same
      rw [carried] at held
      cases held
      exact ⟨scope, holds⟩
    · exact housed.holder_there held liesToo (by simpa [settled] using Ne.symm same)
  case mem_members =>
    intro outer member name
    have listed : member ∈ (catalogue.attached scope child key.name.simple).membersNamed outer name ↔
        member ∈ catalogue.membersNamed outer name ∨
          ((⟨outer, name⟩ : MemberKey) = ⟨scope, key.name.simple⟩ ∧ member = child) :=
      Graph.mem_listAt_appendAt
    rw [listed, housed.mem_members, related, keys]
    simp only [MemberKey.mk.injEq]
    constructor
    · rintro (⟨inside, named⟩ | ⟨⟨rfl, rfl⟩, rfl⟩)
      · exact ⟨.inl inside, named⟩
      · exact ⟨.inr ⟨rfl, rfl⟩, by simp [carried]⟩
    · rintro ⟨inside | ⟨rfl, rfl⟩, named⟩
      · exact .inl ⟨inside, named⟩
      · rw [carried] at named
        exact .inr ⟨⟨rfl, by simpa using named.symm⟩, rfl⟩
  case members_nodup =>
    intro outer name
    by_cases same : (⟨scope, key.name.simple⟩ : MemberKey) = ⟨outer, name⟩
    · simp only [MemberKey.mk.injEq] at same
      obtain ⟨rfl, rfl⟩ := same
      have grown : (catalogue.attached scope child key.name.simple).membersNamed scope
          key.name.simple = catalogue.membersNamed scope key.name.simple ++ [child] :=
        Graph.listAt_appendAt_self _ _ _
      rw [grown, List.nodup_append]
      refine ⟨housed.members_nodup _ _, by simp, ?_⟩
      rintro member listed _ single rfl
      simp only [List.mem_singleton] at single
      subst single
      exact outside (housed.mem_members.mp listed).1
    · have kept : (catalogue.attached scope child key.name.simple).membersNamed outer name =
          catalogue.membersNamed outer name := Graph.listAt_appendAt_of_ne _ _ same
      rw [kept]
      exact housed.members_nodup _ _

/-- Attaching a child succeeds where the scope and the child are there. -/
theorem ensures_attach {catalogue : Catalogue} {scope child : Nat} {key : EntityKey}
    {done : Unit → Catalogue → Prop} {failed : Catalogue → Prop}
    (scopeThere : (catalogue.graph.key? scope).isSome) (carried : catalogue.graph.key? child = some key)
    (held : done () (catalogue.attached scope child key.name.simple)) :
    Action.Ensures (attach scope child) catalogue done failed := by
  obtain ⟨node, found, rfl⟩ := Graph.key?_eq_some.mp carried
  obtain ⟨edge, connected⟩ := Graph.connect_of_nodes .contains ∅ scopeThere
    (by rw [carried]; rfl)
  refine Action.ensures_bind (Action.ensures_changing connected ?_)
  have foundAfter : (catalogue.graph.withEdge ⟨scope, child, .contains⟩ ∅).nodeTable[child]? =
      some node := by simpa using found
  refine Action.ensures_bind (Action.ensures_reading (Graph.node_of_nodeTable foundAfter) ?_)
  exact Action.ensures_modify held

/-- One catalogue knows all that another knows, and beyond that nothing but
implied scopes around a name. -/
structure Ensured (before after : Catalogue) (segments : List String) : Prop where
  nodes_kept : ∀ {id : Nat} {node : Node}, before.graph.nodeTable[id]? = some node →
    after.graph.nodeTable[id]? = some node
  profile : ∀ key, after.graph.profile? key =
    (before.graph.profile? key).or (if key.isScopeAround segments then some .implied else none)
  moved : after.moved = before.moved
  unlinked : before.Unlinked → after.Unlinked

/-- Making sure of the scopes around a name leaves all keys as they are. -/
theorem Ensured.key?_kept {before after : Catalogue} {segments : List String}
    (ensured : before.Ensured after segments) {id : Nat} {key : EntityKey}
    (carried : before.graph.key? id = some key) : after.graph.key? id = some key := by
  obtain ⟨node, found, rfl⟩ := Graph.key?_eq_some.mp carried
  exact Graph.key?_of_node (ensured.nodes_kept found)

/-- Containment is no link. -/
theorem Unlinked.attached {catalogue : Catalogue} (unlinked : catalogue.Unlinked)
    (sound : catalogue.graph.Sound) (scope child : Nat) (name : String) :
    (catalogue.attached scope child name).Unlinked := by
  intro source target relation related
  obtain old | new := sound.related_withEdge.mp related
  · exact unlinked source target relation old
  · cases new
    rfl

/-- A scope that is known has its own node. -/
theorem ensures_ensureScope_of_known {catalogue : Catalogue} {inner : List String} {id : Nat}
    {done : Nat → Catalogue → Prop} {failed : Catalogue → Prop} (sound : catalogue.graph.Sound)
    (carried : catalogue.graph.key? id = some (.scope ⟨inner.reverse⟩)) (held : done id catalogue) :
    Action.Ensures (ensureScope inner) catalogue done failed := by
  cases inner with
  | nil =>
    cases sound.id_eq_of_key? sound.root_key carried
    exact Action.ensures_pure held
  | cons last outer =>
    refine Action.ensures_bind (Action.ensures_get ?_)
    simp only [sound.nodeByKey?_eq_some.mpr carried]
    exact Action.ensures_pure held

/-- None of some nodes is a scope around a name. -/
def ApartFrom (catalogue : Catalogue) (loose : List Nat) (segments : List String) : Prop :=
  ∀ id ∈ loose, ∀ key, catalogue.graph.key? id = some key → key.isScopeAround segments = false

/-- What is no scope around a name is no scope around the name's own scope. -/
theorem ApartFrom.outer {catalogue : Catalogue} {loose : List Nat} {outer : List String}
    {last : String} (apart : catalogue.ApartFrom loose (outer ++ [last])) :
    catalogue.ApartFrom loose outer := by
  intro id isLoose key carried
  rw [Bool.eq_false_iff]
  intro around
  have notAround := apart id isLoose key carried
  rw [EntityKey.isScopeAround_concat.mpr (.inr around)] at notAround
  cases notAround

/-- With a scope, all scopes around it are there. -/
theorem Housed.scopes_there {catalogue : Catalogue} {loose : List Nat}
    (housed : catalogue.Housed loose) {segments : List String} {id : Nat}
    (apart : catalogue.ApartFrom loose segments)
    (carried : catalogue.graph.key? id = some (.scope ⟨segments⟩)) {key : EntityKey}
    (around : key.isScopeAround segments) : ∃ scope, catalogue.graph.key? scope = some key := by
  obtain ⟨inner, rfl⟩ : ∃ inner : List String, segments = inner.reverse :=
    ⟨segments.reverse, by simp⟩
  induction inner generalizing id with
  | nil => simp at around
  | cons last outer further =>
    rw [List.reverse_cons] at apart carried around
    obtain rfl | aroundOuter := EntityKey.isScopeAround_concat.mp around
    · exact ⟨id, carried⟩
    · have settled : id ∉ loose := by
        intro isLoose
        have notAround := apart id isLoose _ carried
        rw [EntityKey.isScopeAround_concat.mpr (.inl rfl)] at notAround
        cases notAround
      have lies : (EntityKey.scope ⟨outer.reverse ++ [last]⟩).LiesInScope :=
        EntityKey.scope_liesInScope (by simp)
      obtain ⟨scope, held⟩ := housed.holder_there carried lies settled
      have scopeHeld : catalogue.graph.key? scope = some (.scope ⟨outer.reverse⟩) := by
        simpa [EntityKey.holder, EntityKey.scope] using held
      exact further apart.outer scopeHeld aroundOuter

/-- The catalogue with one more implied scope, in the scope around it. -/
def withScope (catalogue : Catalogue) (scope : Nat) (segments : List String) : Catalogue :=
  attached
    { catalogue with
      graph := catalogue.graph.addNode (.scope ⟨segments⟩) .namespaceScope impliedAttributes }
    scope catalogue.graph.nextNode (EntityKey.scope ⟨segments⟩).name.simple

section OneScope

variable {before middle : Catalogue} {loose : List Nat} {outer : List String} {last : String}
  {scope : Nat}

/-- The new scope is carried by the next node. -/
theorem key?_withScope (catalogue : Catalogue) (scope : Nat) (segments : List String) :
    (catalogue.withScope scope segments).graph.key? catalogue.graph.nextNode =
      some (.scope ⟨segments⟩) := by
  refine (Graph.key?_withEdge _).trans ?_
  rw [Graph.key?_addNode, if_pos rfl]

/-- A scope that is missing is missing still when those around it are there. -/
theorem Ensured.missing (ensured : before.Ensured middle outer) (sound : before.graph.Sound)
    (soundMiddle : middle.graph.Sound)
    (missing : before.graph.nodeByKey? (.scope ⟨outer ++ [last]⟩) = none) :
    middle.graph.nodeByKey? (.scope ⟨outer ++ [last]⟩) = none := by
  have notAround : (EntityKey.scope ⟨outer ++ [last]⟩).isScopeAround outer = false := by
    rw [Bool.eq_false_iff]
    intro around
    have short := EntityKey.length_le_of_isScopeAround around
    simp only [EntityKey.scope, List.length_append, List.length_singleton] at short
    omega
  rw [← soundMiddle.profile?_eq_none, ensured.profile, sound.profile?_eq_none.mpr missing,
    notAround]
  rfl

/-- One more scope in the scope around it leaves a catalogue housed. -/
theorem Housed.withScope (housed : middle.Housed loose)
    (fresh : middle.graph.nodeByKey? (.scope ⟨outer ++ [last]⟩) = none)
    (carried : middle.graph.key? scope = some (.scope ⟨outer⟩)) :
    (middle.withScope scope (outer ++ [last])).Housed loose := by
  have keys := middle.graph.key?_addNode (.scope ⟨outer ++ [last]⟩) .namespaceScope
    impliedAttributes
  have once : middle.graph.nextNode ∉ loose := by
    intro isLoose
    have there := housed.loose_there isLoose
    rw [housed.sound.key?_nextNode] at there
    cases there
  have old : middle.graph.nextNode ≠ scope := Nat.ne_of_gt (housed.sound.lt_of_key? carried)
  refine (housed.addNode impliedAttributes fresh rfl).attached once
    ((keys middle.graph.nextNode).trans (if_pos rfl)) (EntityKey.scope_liesInScope (by simp)) ?_
  refine (keys scope).trans ((if_neg old).trans (carried.trans ?_))
  simp [EntityKey.holder, EntityKey.scope]

/-- With one more scope in the scope around it, all scopes around the name are there. -/
theorem Ensured.withScope (ensured : before.Ensured middle outer) (sound : before.graph.Sound)
    (soundMiddle : middle.graph.Sound)
    (missing : before.graph.nodeByKey? (.scope ⟨outer ++ [last]⟩) = none) (scope : Nat) :
    before.Ensured (middle.withScope scope (outer ++ [last])) (outer ++ [last]) := by
  have fresh := ensured.missing sound soundMiddle missing
  have family : EntityKind.namespaceScope.family =
      (EntityKey.scope ⟨outer ++ [last]⟩).family := rfl
  constructor
  case nodes_kept =>
    intro id node found
    have kept := ensured.nodes_kept found
    have notNew := Nat.ne_of_gt (soundMiddle.node_lt kept)
    simpa [Catalogue.withScope, attached, Graph.nodeTable_addNode, notNew] using kept
  case profile =>
    intro key
    refine (Graph.profile?_withEdge _ _ key).trans
      ((soundMiddle.profile?_addNode impliedAttributes fresh family key).trans ?_)
    by_cases itself : EntityKey.scope ⟨outer ++ [last]⟩ = key
    · subst itself
      have around : (EntityKey.scope ⟨outer ++ [last]⟩).isScopeAround (outer ++ [last]) :=
        EntityKey.isScopeAround_concat.mpr (.inl rfl)
      rw [if_pos rfl, sound.profile?_eq_none.mpr missing, if_pos around]
      rfl
    · have same : key.isScopeAround (outer ++ [last]) = key.isScopeAround outer := by
        rw [Bool.eq_iff_iff, EntityKey.isScopeAround_concat]
        simp [Ne.symm itself]
      rw [if_neg itself, ensured.profile, same]
  case moved => exact ensured.moved
  case unlinked =>
    intro unlinked
    refine Unlinked.attached ?_ (soundMiddle.addNode impliedAttributes fresh family) scope _ _
    exact ensured.unlinked unlinked

/-- A scope that is known has all scopes around it, so nothing has to be made. -/
theorem Housed.ensured_of_known (housed : before.Housed loose) {segments : List String}
    (apart : before.ApartFrom loose segments) {id : Nat}
    (carried : before.graph.key? id = some (.scope ⟨segments⟩)) :
    before.Ensured before segments where
  nodes_kept found := found
  profile key := by
    by_cases around : key.isScopeAround segments
    · obtain ⟨scope, held⟩ := housed.scopes_there apart carried around
      obtain ⟨profile, there⟩ := Option.isSome_iff_exists.mp
        (housed.sound.profile?_isSome.mpr ⟨scope, held⟩)
      simp [there]
    · rw [if_neg around, Option.or_none]
  moved := rfl
  unlinked unlinked := unlinked

end OneScope

/-- The scopes around a name are there in the end, and nothing else is new. -/
theorem succeeds_ensureScope {catalogue : Catalogue} {loose : List Nat}
    (housed : catalogue.Housed loose) {inner : List String}
    (apart : catalogue.ApartFrom loose inner.reverse) :
    Action.Succeeds (ensureScope inner) catalogue fun id after =>
      after.graph.key? id = some (.scope ⟨inner.reverse⟩) ∧ after.Housed loose ∧
        catalogue.Ensured after inner.reverse := by
  -- The scopes are made from the outermost to the innermost, each in the one before.
  induction inner generalizing catalogue with
  | nil =>
    refine Action.ensures_pure ⟨housed.sound.root_key, housed, fun found => found, ?_, rfl, id⟩
    intro key
    simp
  | cons last outer further =>
    cases known : catalogue.graph.nodeByKey? (.scope ⟨(last :: outer).reverse⟩) with
    | some id =>
      have carried := housed.sound.nodeByKey?_eq_some.mp known
      exact ensures_ensureScope_of_known housed.sound carried
        ⟨carried, housed, housed.ensured_of_known apart carried⟩
    | none =>
      refine Action.ensures_bind (Action.ensures_get ?_)
      simp only [known]
      rw [List.reverse_cons] at apart known ⊢
      refine Action.ensures_bind ((further housed apart.outer).weaken ?_)
      rintro scope middle ⟨scopeKey, housedMiddle, ensured⟩
      have fresh := ensured.missing housed.sound housedMiddle.sound known
      refine Action.ensures_bind (Action.ensures_changing
        (Graph.insert_of_fresh impliedAttributes fresh rfl) ?_)
      have keys := middle.graph.key?_addNode (.scope ⟨outer.reverse ++ [last]⟩) .namespaceScope
        impliedAttributes
      have old : middle.graph.nextNode ≠ scope :=
        Nat.ne_of_gt (housedMiddle.sound.lt_of_key? scopeKey)
      have scopeStill := (keys scope).trans ((if_neg old).trans scopeKey)
      refine Action.ensures_bind (ensures_attach (by rw [scopeStill]; rfl)
        ((keys middle.graph.nextNode).trans (if_pos rfl)) ?_)
      exact Action.ensures_pure ⟨key?_withScope _ _ _, housedMiddle.withScope fresh scopeKey,
        ensured.withScope housed.sound housedMiddle.sound known scope⟩

end Catalogue

end DeclGraph

import DeclGraph.Proofs.Catalogue.Lookups
import DeclGraph.Proofs.Catalogue.Requests
import DeclGraph.Proofs.Graph.Changes

/-!
# The order of members

Lookups read the members of a scope from an index of their own, which is written
beside the edges of containment. The index lists the members of a name in the
order of their edges: a member is appended right when its edge is made, with a
number above all others, and taking edges or members away disturbs no order.
Members are always nodes that have just been created; while such a node is
loose, no edge leads to it and no list has it.

Together with containment as the keys say, the index is containment itself.
-/

namespace DeclGraph

namespace Catalogue

/-- The members of a name are listed in the order of their edges of containment,
and the loose nodes are members of nothing. -/
structure InOrder (catalogue : Catalogue) (loose : List Nat) : Prop where
  sound : catalogue.graph.Sound
  loose_there : ∀ {id : Nat}, id ∈ loose → (catalogue.graph.key? id).isSome
  loose_unrelated : ∀ {id edge : Nat} {key : EdgeKey}, id ∈ loose →
    catalogue.graph.edgeKey? edge = some key → key.target ≠ id
  loose_unlisted : ∀ {id scope : Nat} {name : String}, id ∈ loose →
    id ∉ catalogue.membersNamed scope name
  listed_lt : ∀ {scope member : Nat} {name : String}, member ∈ catalogue.membersNamed scope name →
    member < catalogue.graph.nextNode
  ordered : ∀ scope name, (catalogue.membersNamed scope name).Pairwise fun first second =>
    ∀ one other, catalogue.graph.edgeKey? one = some ⟨scope, first, .contains⟩ →
      catalogue.graph.edgeKey? other = some ⟨scope, second, .contains⟩ → one < other

namespace InOrder

variable {catalogue : Catalogue} {loose : List Nat}

/-- At the start no member is listed. -/
theorem initial : empty.InOrder [] := by
  have unlisted : ∀ scope name, empty.membersNamed scope name = [] := by
    intro scope name
    simp [empty, membersNamed]
  refine ⟨Graph.sound_empty, ?_, ?_, ?_, ?_, ?_⟩ <;> simp [unlisted]

/-- Fewer loose nodes. -/
theorem settle (inOrder : catalogue.InOrder loose) {fewer : List Nat} (isPart : fewer ⊆ loose) :
    catalogue.InOrder fewer :=
  { inOrder with
    loose_there := fun member => inOrder.loose_there (isPart member)
    loose_unrelated := fun member => inOrder.loose_unrelated (isPart member)
    loose_unlisted := fun member => inOrder.loose_unlisted (isPart member) }

/-- A change that makes no edge and takes no loose node disturbs no order. -/
theorem changed (inOrder : catalogue.InOrder loose) {graph : Graph} (sound : graph.Sound)
    (there : ∀ id ∈ loose, (graph.key? id).isSome)
    (fewer : ∀ {edge : Nat} {key : EdgeKey}, graph.edgeKey? edge = some key →
      catalogue.graph.edgeKey? edge = some key)
    (grows : catalogue.graph.nextNode ≤ graph.nextNode) :
    InOrder { catalogue with graph } loose where
  sound := sound
  loose_there := fun member => there _ member
  loose_unrelated := fun member at_ => inOrder.loose_unrelated member (fewer at_)
  loose_unlisted := inOrder.loose_unlisted
  listed_lt := fun member => Nat.lt_of_lt_of_le (inOrder.listed_lt member) grows
  ordered := fun scope name => (inOrder.ordered scope name).imp
    fun inOrder one other first second => inOrder one other (fewer first) (fewer second)

/-- Shorter lists are in order. -/
theorem thinned (inOrder : catalogue.InOrder loose)
    {memberIndex : Std.ExtTreeMap MemberKey (List Nat)}
    (fewer : ∀ scope name, (Graph.listAt memberIndex (⟨scope, name⟩ : MemberKey)).Sublist
      (catalogue.membersNamed scope name)) :
    InOrder { catalogue with memberIndex } loose where
  sound := inOrder.sound
  loose_there := inOrder.loose_there
  loose_unrelated := inOrder.loose_unrelated
  loose_unlisted := fun member listed =>
    inOrder.loose_unlisted member ((fewer _ _).subset listed)
  listed_lt := fun member => inOrder.listed_lt ((fewer _ _).subset member)
  ordered := fun scope name => (inOrder.ordered scope name).sublist (fewer scope name)

/-- A new node is loose. -/
theorem addNode (inOrder : catalogue.InOrder loose) {key : EntityKey} {kind : EntityKind}
    (attributes : Attributes) (fresh : catalogue.graph.nodeByKey? key = none)
    (family : kind.family = key.family) :
    InOrder { catalogue with graph := catalogue.graph.addNode key kind attributes }
      (catalogue.graph.nextNode :: loose) := by
  have keys := catalogue.graph.key?_addNode key kind attributes
  have free := inOrder.sound.key?_nextNode
  have grown := inOrder.changed (inOrder.sound.addNode attributes fresh family)
    (fun id member => by
      rw [keys]
      split
      · rfl
      · exact inOrder.loose_there member)
    (fun at_ => at_) (Nat.le_succ _)
  constructor
  case sound => exact grown.sound
  case listed_lt => exact grown.listed_lt
  case ordered => exact grown.ordered
  case loose_there =>
    intro id member
    obtain rfl | before := List.mem_cons.mp member
    · rw [keys, if_pos rfl]
      rfl
    · exact grown.loose_there before
  case loose_unrelated =>
    intro id edge held member at_
    obtain rfl | before := List.mem_cons.mp member
    · -- An edge to the new number would have had an end that was not there.
      intro same
      have ends := (inOrder.sound.edge_ends
        (show catalogue.graph.edgeKey? edge = some held from at_)).2
      rw [same, free] at ends
      cases ends
    · exact grown.loose_unrelated before at_
  case loose_unlisted =>
    intro id scope name member
    obtain rfl | before := List.mem_cons.mp member
    · exact fun listed => Nat.lt_irrefl _ (inOrder.listed_lt listed)
    · exact grown.loose_unlisted before

/-- Attaching a loose node makes an edge of the last number and leaves the others as they are. -/
theorem edgeKey?_attached {child : Nat} (inOrder : catalogue.InOrder (child :: loose)) (scope : Nat)
    (name : String) (edge : Nat) :
    (catalogue.attached scope child name).graph.edgeKey? edge =
      if catalogue.graph.nextEdge = edge then some ⟨scope, child, .contains⟩
      else catalogue.graph.edgeKey? edge := by
  have fresh : catalogue.graph.edgeIndex[(⟨scope, child, .contains⟩ : EdgeKey)]? = none := by
    refine Option.eq_none_iff_forall_ne_some.mpr fun known at_ => ?_
    exact inOrder.loose_unrelated List.mem_cons_self (inOrder.sound.edgeIndex_iff.mp at_) rfl
  rw [Catalogue.attached, Graph.withEdge_of_fresh fresh]
  exact Graph.edgeKey?_addEdge edge

/-- The edges of the members that were there are those from before. -/
theorem edgeKey?_of_attached {scope child : Nat} (inOrder : catalogue.InOrder (child :: loose))
    {name other : String} {outer first edge : Nat} (member : first ∈ catalogue.membersNamed outer other)
    (at_ : (catalogue.attached scope child name).graph.edgeKey? edge =
      some ⟨outer, first, .contains⟩) :
    catalogue.graph.edgeKey? edge = some ⟨outer, first, .contains⟩ := by
  rw [inOrder.edgeKey?_attached] at at_
  split at at_
  · cases at_
    exact absurd member (inOrder.loose_unlisted List.mem_cons_self)
  · exact at_

/-- The members of a name stay in the order of their edges when a loose node is attached, as it is
listed last and its edge has the last number. -/
theorem ordered_attached {child : Nat} (inOrder : catalogue.InOrder (child :: loose)) (scope : Nat)
    (name : String) (outer : Nat) (other : String) :
    ((catalogue.attached scope child name).membersNamed outer other).Pairwise fun first second =>
      ∀ one last, (catalogue.attached scope child name).graph.edgeKey? one =
          some ⟨outer, first, .contains⟩ →
        (catalogue.attached scope child name).graph.edgeKey? last =
          some ⟨outer, second, .contains⟩ → one < last := by
  have before : (catalogue.membersNamed outer other).Pairwise fun first second =>
      ∀ one last, (catalogue.attached scope child name).graph.edgeKey? one =
          some ⟨outer, first, .contains⟩ →
        (catalogue.attached scope child name).graph.edgeKey? last =
          some ⟨outer, second, .contains⟩ → one < last :=
    (inOrder.ordered outer other).imp_of_mem fun firstMember secondMember less one last at_ atLast =>
      less one last (inOrder.edgeKey?_of_attached firstMember at_)
        (inOrder.edgeKey?_of_attached secondMember atLast)
  by_cases same : (⟨scope, name⟩ : MemberKey) = ⟨outer, other⟩
  · simp only [MemberKey.mk.injEq] at same
    obtain ⟨rfl, rfl⟩ := same
    have grown : (catalogue.attached scope child name).membersNamed scope name =
        catalogue.membersNamed scope name ++ [child] := Graph.listAt_appendAt_self _ _ _
    rw [grown, List.pairwise_append]
    refine ⟨before, by simp, fun first firstMember second single one last at_ atLast => ?_⟩
    obtain rfl := List.mem_singleton.mp single
    have newest : catalogue.graph.nextEdge = last := by
      rw [inOrder.edgeKey?_attached] at atLast
      split at atLast
      · assumption
      · exact absurd rfl (inOrder.loose_unrelated List.mem_cons_self atLast)
    exact newest ▸ inOrder.sound.lt_of_edgeKey? (inOrder.edgeKey?_of_attached firstMember at_)
  · have kept : (catalogue.attached scope child name).membersNamed outer other =
        catalogue.membersNamed outer other := Graph.listAt_appendAt_of_ne _ _ same
    rw [kept]
    exact before

/-- A loose node that becomes a member is the last of its name, and its edge has
the last number. -/
theorem attached {scope child : Nat} (inOrder : catalogue.InOrder (child :: loose))
    (once : child ∉ loose) (scopeThere : (catalogue.graph.key? scope).isSome) (name : String) :
    (catalogue.attached scope child name).InOrder loose := by
  have childThere := inOrder.loose_there List.mem_cons_self
  have keys : ∀ id, (catalogue.attached scope child name).graph.key? id =
      catalogue.graph.key? id := fun id => Graph.key?_withEdge id
  have numbers : (catalogue.attached scope child name).graph.nextNode = catalogue.graph.nextNode :=
    Graph.nextNode_withEdge
  have listed : ∀ {outer member : Nat} {other : String},
      member ∈ (catalogue.attached scope child name).membersNamed outer other ↔
        member ∈ catalogue.membersNamed outer other ∨
          ((⟨outer, other⟩ : MemberKey) = ⟨scope, name⟩ ∧ member = child) :=
    Graph.mem_listAt_appendAt
  constructor
  case sound => exact inOrder.sound.withEdge scopeThere childThere
  case loose_there =>
    intro id member
    rw [keys]
    exact inOrder.loose_there (List.mem_cons_of_mem _ member)
  case loose_unrelated =>
    intro id edge key member at_
    rw [inOrder.edgeKey?_attached] at at_
    split at at_
    · cases at_
      rintro rfl
      exact once member
    · exact inOrder.loose_unrelated (List.mem_cons_of_mem _ member) at_
  case loose_unlisted =>
    intro id outer other member
    rw [listed]
    rintro (old | ⟨_, rfl⟩)
    · exact inOrder.loose_unlisted (List.mem_cons_of_mem _ member) old
    · exact once member
  case listed_lt =>
    intro outer member other found
    rw [numbers]
    rcases listed.mp found with old | ⟨_, rfl⟩
    · exact inOrder.listed_lt old
    · obtain ⟨key, carried⟩ := Option.isSome_iff_exists.mp childThere
      exact inOrder.sound.lt_of_key? carried
  case ordered => exact inOrder.ordered_attached scope name

end InOrder

section Actions

variable {loose : List Nat}

/-- A child that is attached is listed last, as its edge of containment is the last one. -/
theorem ensures_attach_inOrder {catalogue : Catalogue} {scope child : Nat}
    (inOrder : catalogue.InOrder (child :: loose)) (once : child ∉ loose) :
    Action.Ensures (attach scope child) catalogue (fun _ after => after.InOrder loose)
      fun after => after.InOrder loose := by
  obtain ⟨key, carried⟩ := Option.isSome_iff_exists.mp (inOrder.loose_there List.mem_cons_self)
  by_cases scopeThere : (catalogue.graph.key? scope).isSome
  · exact ensures_attach scopeThere carried (inOrder.attached once scopeThere _)
  · have missing : catalogue.graph.nodeTable[scope]? = none := by
      simpa [Graph.key?] using scopeThere
    have refused : catalogue.graph.connect scope child .contains ∅ =
        .error (.nodeMissing scope) := by
      simp [Graph.connect, Graph.node, missing, bind, Except.bind]
    exact Action.ensures_bind (Action.ensures_changing_of_error refused
      (inOrder.settle (List.subset_cons_self _ _)))

/-- A node that is created is loose. -/
theorem ensures_insert_inOrder {catalogue : Catalogue} (inOrder : catalogue.InOrder loose)
    (key : EntityKey) (kind : EntityKind) (attributes : Attributes) :
    Action.Ensures (Action.changing fun graph => graph.insert key kind attributes) catalogue
      (fun id after => id ∉ loose ∧ after.InOrder (id :: loose))
      fun after => after.InOrder loose := by
  cases refused : catalogue.graph.insert key kind attributes with
  | error error => exact Action.ensures_changing_of_error refused inOrder
  | ok grown =>
    obtain ⟨fresh, family, rfl⟩ := Graph.insert_eq_ok refused
    refine Action.ensures_changing refused ⟨fun isLoose => ?_, inOrder.addNode attributes fresh family⟩
    have there := inOrder.loose_there isLoose
    rw [inOrder.sound.key?_nextNode] at there
    cases there

/-- Creating the scopes around a name keeps the members in order. -/
theorem keeps_ensureScope_inOrder (inner : List String) :
    Action.Keeps (InOrder · loose) (ensureScope inner) := by
  induction inner with
  | nil => exact Action.keeps_pure _
  | cons last outer further =>
    refine Action.keeps_bind Action.keeps_get fun catalogue => ?_
    cases catalogue.graph.nodeByKey? (.scope ⟨(last :: outer).reverse⟩) with
    | some id => exact Action.keeps_pure _
    | none =>
      refine Action.keeps_bind further fun scope before inOrder => ?_
      refine Action.ensures_bind ((ensures_insert_inOrder inOrder _ _ _).mono ?_ fun _ still => still)
      rintro id middle ⟨once, isLoose⟩
      refine Action.ensures_bind ((ensures_attach_inOrder isLoose once).mono ?_ fun _ still => still)
      exact fun _ after still => Action.ensures_pure still

/-- A node that is created is listed last in its scope. -/
theorem keeps_create_inOrder (mention : Mention) :
    Action.Keeps (InOrder · []) (create mention) := by
  intro before inOrder
  refine Action.ensures_bind ((ensures_insert_inOrder inOrder _ _ _).mono ?_ fun _ still => still)
  rintro id middle ⟨once, isLoose⟩
  by_cases declared : mention.key.family ≠ .placeholder
  · rw [if_pos declared]
    dsimp only
    refine Action.ensures_bind ((keeps_ensureScope_inOrder _ isLoose).mono ?_ ?_)
    · intro scope later stillLoose
      refine Action.ensures_bind
        ((ensures_attach_inOrder stillLoose once).mono ?_ fun _ still => still)
      exact fun _ after still => Action.ensures_pure still
    · exact fun after still => still.settle (List.subset_cons_self _ _)
  · rw [if_neg declared]
    exact Action.ensures_pure (isLoose.settle (List.subset_cons_self _ _))

/-- A change of the graph that makes no edge keeps the members in order. -/
theorem keeps_editing_inOrder {change : Graph → Except GraphError Graph} (request : Graph.Change)
    (asked : ∀ graph, change graph = request.perform graph)
    (quiet : ∀ graph changed, change graph = .ok changed → changed.nextEdge = graph.nextEdge) :
    Action.Keeps (InOrder · []) (Action.editing change) := by
  refine Action.keeps_editing fun before graph inOrder done => ?_
  have step := inOrder.sound.changed_of_perform ((asked _).symm.trans done)
  have sound := step.sound inOrder.sound
  have numbers := step.keepsNumbers inOrder.sound
  refine inOrder.changed sound (by simp) (fun at_ => numbers.edgeKey? ?_ at_) numbers.nextNode_le
  rw [← quiet before.graph graph done]
  exact sound.lt_of_edgeKey? at_

/-- Attributes have nothing to do with the order of members. -/
theorem keeps_setAttributes_inOrder (id : Nat) (attributes : Attributes) :
    Action.Keeps (InOrder · []) (Action.editing fun graph => graph.setAttributes id attributes) := by
  refine keeps_editing_inOrder (.setAttributes id attributes) (fun _ => rfl) fun graph changed done => ?_
  unfold Graph.setAttributes at done
  cases found : graph.node id <;> rw [found] at done <;> cases done
  rfl

/-- Kinds have nothing to do with the order of members. -/
theorem keeps_setKind_inOrder (id : Nat) (kind : EntityKind) :
    Action.Keeps (InOrder · []) (Action.editing fun graph => graph.setKind id kind) := by
  refine keeps_editing_inOrder (.setKind id kind) (fun _ => rfl) fun graph changed done => ?_
  unfold Graph.setKind at done
  cases found : graph.node id with
  | error error => rw [found] at done; cases done
  | ok node =>
    rw [found] at done
    by_cases family : node.key.family = kind.family
    · simp only [bind, Except.bind, family, ne_eq, not_true_eq_false, if_false] at done
      cases done
      rfl
    · simp [bind, Except.bind, family] at done

/-- A node that is removed leaves the other members in their order. -/
theorem keeps_removeNode_inOrder (id : Nat) :
    Action.Keeps (InOrder · []) (Action.editing fun graph => graph.removeNode id) := by
  refine keeps_editing_inOrder (.removeNode id) (fun _ => rfl) fun graph changed done => ?_
  unfold Graph.removeNode at done
  by_cases top : id = Graph.root
  · simp [top] at done
  · cases found : graph.node id with
    | error error => simp [top, found, bind, Except.bind] at done
    | ok node =>
      simp only [top, if_false, found, bind, Except.bind] at done
      cases done
      exact Graph.nextEdge_eraseEdges graph _

/-- A mention that is merged leaves the members in their order. -/
theorem keeps_mergeInto_inOrder (id : Nat) (mention : Mention) :
    Action.Keeps (InOrder · []) (mergeInto id mention) := by
  refine Action.keeps_bind (Action.keeps_reading _) fun existing => ?_
  refine Action.keeps_bind (keeps_setAttributes_inOrder _ _) fun _ => ?_
  dsimp only
  split
  · exact Action.keeps_bind (keeps_setKind_inOrder _ _) fun _ => Action.keeps_pure _
  · exact Action.keeps_pure _

/-- Registering a mention keeps members in order. -/
theorem keeps_register_inOrder (mention : Mention) :
    Action.Keeps (InOrder · []) (register mention) := by
  refine Action.keeps_bind Action.keeps_get fun catalogue => ?_
  cases catalogue.graph.nodeByKey? mention.key with
  | some id => exact keeps_mergeInto_inOrder id mention
  | none => exact keeps_create_inOrder mention

/-- Making a stand-in keeps members in order. -/
theorem keeps_placeholder_inOrder (spelling : String) :
    Action.Keeps (InOrder · []) (placeholder spelling) := by
  refine Action.keeps_bind Action.keeps_get fun catalogue => ?_
  cases catalogue.graph.nodeByKey? (.placeholder spelling) with
  | some id => exact Action.keeps_pure _
  | none =>
    intro before inOrder
    exact (ensures_insert_inOrder inOrder _ _ _).mono
      (fun _ _ created => created.2.settle (List.subset_cons_self _ _)) fun _ still => still

/-- Settling kinds keeps members in order. -/
theorem keeps_settleKinds_inOrder : Action.Keeps (InOrder · []) settleKinds := by
  refine Action.keeps_bind Action.keeps_get fun _ => Action.keeps_bind
    (Action.keeps_forM fun scope => ?_) fun _ => Action.keeps_bind Action.keeps_get fun _ =>
      Action.keeps_forM fun (id, kind) => ?_
  · refine Action.keeps_bind Action.keeps_get fun catalogue => ?_
    split
    · exact keeps_setKind_inOrder _ _
    · exact Action.keeps_pure _
  · refine Action.keeps_bind Action.keeps_get fun catalogue => ?_
    dsimp only
    split <;> split
    all_goals first | exact keeps_setKind_inOrder _ _ | exact Action.keeps_pure _

/-- Taking a node out of its scope keeps the members in order. -/
theorem keeps_detach_inOrder (id : Nat) : Action.Keeps (InOrder · []) (detach id) := by
  have swept : Action.Keeps (InOrder · []) (modify fun catalogue : Catalogue =>
      { catalogue with memberIndex := catalogue.memberIndex.filter fun key _ => key.scope ≠ id }) := by
    refine Action.keeps_modify fun before inOrder => inOrder.thinned fun scope name => ?_
    rw [listAt_filter]
    split
    · exact List.nil_sublist _
    · exact List.Sublist.refl _
  have rest := Action.keeps_bind swept fun _ => keeps_removeNode_inOrder id
  refine Action.keeps_bind Action.keeps_get fun catalogue => ?_
  cases catalogue.graph.parent? id with
  | none => exact rest
  | some scope =>
    refine Action.keeps_bind (Action.keeps_reading _) fun node => Action.keeps_bind
      (Action.keeps_modify fun before inOrder => inOrder.thinned fun outer name => ?_) fun _ => rest
    by_cases same : (⟨scope, node.key.name.simple⟩ : MemberKey) = ⟨outer, name⟩
    · rw [← same, Graph.listAt_removeAt_self, membersNamed, ← same]
      exact List.filter_sublist
    · rw [Graph.listAt_removeAt_of_ne _ _ same]
      exact List.Sublist.refl _

/-- Registering a moved node again keeps members in order. -/
theorem keeps_resettle_inOrder (former : EntityKey) (mention : Mention) :
    Action.Keeps (InOrder · []) (resettle former mention) :=
  Action.keeps_bind (keeps_register_inOrder mention) fun _ =>
    Action.keeps_modify fun _ inOrder => { inOrder with }

/-- Relocating scopes keeps members in order. -/
theorem keeps_relocate_inOrder (viewpoint : Viewpoint) (implied : List ScopedName) :
    Action.Keeps (InOrder · []) (relocate viewpoint implied) := by
  have moves : ∀ scope source target, Action.Keeps (InOrder · []) (moveSubtree scope source target) := by
    intro scope source target
    refine Action.keeps_bind Action.keeps_get fun catalogue => Action.keeps_bind
      (Action.keeps_mapM fun id => Action.keeps_reading _) fun nodes => ?_
    dsimp only
    split
    · exact Action.keeps_bind (Action.keeps_forM keeps_detach_inOrder) fun _ =>
        Action.keeps_forM fun move => keeps_resettle_inOrder move.1 move.2
    · exact Action.keeps_pure _
  refine Action.keeps_forM fun name => Action.keeps_bind Action.keeps_get fun catalogue => ?_
  cases catalogue.graph.nodeByKey? (.scope name) with
  | none => exact Action.keeps_pure _
  | some id =>
    refine Action.keeps_bind (Action.keeps_reading _) fun node => ?_
    split
    · cases catalogue.relocationTarget? viewpoint name with
      | none => exact Action.keeps_pure _
      | some target =>
        dsimp only
        split
        · exact moves id name target
        · exact Action.keeps_pure _
    · exact Action.keeps_pure _

/-- Every request keeps members in order. -/
theorem Request.keeps_inOrder (request : Request) :
    Action.Keeps (InOrder · []) request.perform := by
  cases request with
  | register mention =>
    exact Action.keeps_bind (keeps_register_inOrder mention) fun _ => Action.keeps_pure ()
  | placeholder spelling =>
    exact Action.keeps_bind (keeps_placeholder_inOrder spelling) fun _ => Action.keeps_pure ()
  | settleKinds => exact keeps_settleKinds_inOrder
  | relocate viewpoint implied => exact keeps_relocate_inOrder viewpoint implied

/-- Whatever has been asked for, members are in order. -/
theorem inOrder_afterRequests (requests : List Request) : (afterRequests requests).InOrder [] :=
  afterRequests_of_keeps InOrder.initial fun request _ => request.keeps_inOrder

end Actions

/-- The children of a scope stand in the order of their edges. -/
theorem children_ordered {graph : Graph} (sound : graph.Sound) (scope : Nat) :
    (graph.children scope).Pairwise fun first second => ∀ one other,
      graph.edgeKey? one = some ⟨scope, first, .contains⟩ →
        graph.edgeKey? other = some ⟨scope, second, .contains⟩ → one < other := by
  have increasing :=
    sound.edgesAmong_increasing (sound.leaving_increasing scope) (some .contains)
  rw [List.pairwise_map] at increasing
  have number : ∀ {edge : Edge}, edge ∈ graph.outgoing scope (some .contains) → ∀ id,
      graph.edgeKey? id = some ⟨scope, edge.target, .contains⟩ → id = edge.id := by
    intro edge leaves id at_
    obtain ⟨found, source, accepted⟩ := sound.mem_outgoing.mp leaves
    have same : edge.key = ⟨scope, edge.target, .contains⟩ := by
      simpa [Edge.key, source] using accepted
    exact sound.id_eq_of_edgeKey? at_ (same ▸ Graph.edgeKey?_of_edge found)
  rw [Graph.children, List.pairwise_map]
  refine increasing.imp_of_mem fun firstLeaves secondLeaves below one other at_ atOther => ?_
  rw [number firstLeaves one at_, number secondLeaves other atOther]
  exact below

variable {catalogue : Catalogue}

/-- Members that are listed in the order of their edges are the children of their
scope that have the name. -/
theorem InOrder.membersNamed_eq (inOrder : catalogue.InOrder []) (housed : catalogue.Housed [])
    (scope : Nat) (name : String) :
    catalogue.membersNamed scope name = (catalogue.graph.children scope).filter fun id =>
      (catalogue.graph.key? id).map (·.name.simple) = some name := by
  have sound := housed.sound
  have perm : (catalogue.membersNamed scope name).Perm ((catalogue.graph.children scope).filter
      fun id => (catalogue.graph.key? id).map (·.name.simple) = some name) := by
    refine (List.perm_ext_iff_of_nodup (housed.members_nodup scope name)
      ((sound.children_nodup scope).filter _)).mpr fun member => ?_
    rw [housed.mem_members, List.mem_filter, sound.mem_children, decide_eq_true_eq]
  refine perm.eq_of_pairwise (fun first second listed isChild before behind => ?_)
    (inOrder.ordered scope name) ((children_ordered sound scope).filter _)
  obtain ⟨one, at_⟩ := (housed.mem_members.mp listed).1
  obtain ⟨other, atOther⟩ := sound.mem_children.mp (List.mem_filter.mp isChild).1
  exact absurd (before one other at_ atOther) (Nat.lt_asymm (behind other one atOther at_))

section OwnMembers

/-- An accepted node of a name lies in a scope. -/
structure HasMember (catalogue : Catalogue) (accept : Node → Bool) (name : String)
    (scope id : Nat) : Prop where
  inside : catalogue.graph.Related scope .contains id
  named : (catalogue.graph.key? id).map (·.name.simple) = some name
  accepted : catalogue.Accepts accept id

variable {catalogue : Catalogue} {accept : Node → Bool} {name : String} {scope id : Nat}

/-- The members of a scope itself, those in unnamed namespaces left out. -/
theorem ownMembers_none (sound : catalogue.graph.Sound) (scope : Nat) :
    catalogue.ownMembers none accept name scope =
      (catalogue.membersNamed scope name).filter fun id =>
        (catalogue.graph.nodeTable[id]?).any accept := by
  have single : [Graph.root].Nodup := by simp
  have counted : 1 ≤ catalogue.graph.nodeCount := Graph.length_le_nodeCount single fun id listed => by
    rw [List.mem_singleton.mp listed]
    exact hasNode_root sound
  obtain ⟨depth, deep⟩ := Nat.exists_eq_add_of_le' counted
  rw [ownMembers, deep, directMembers]
  split
  · rename_i nothing
    exact (List.isEmpty_iff.mp nothing).symm
  · rfl

/-- The own members that a lookup finds are the members of the scope that it accepts. -/
theorem Housed.mem_ownMembers (housed : catalogue.Housed []) :
    id ∈ catalogue.ownMembers none accept name scope ↔
      catalogue.HasMember accept name scope id := by
  rw [ownMembers_none housed.sound, List.mem_filter, housed.mem_members, accepts_iff]
  exact ⟨fun ⟨⟨inside, named⟩, accepted⟩ => ⟨inside, named, accepted⟩,
    fun member => ⟨⟨member.inside, member.named⟩, member.accepted⟩⟩

/-- No own member is found twice. -/
theorem Housed.nodup_ownMembers (housed : catalogue.Housed []) (scope : Nat) :
    (catalogue.ownMembers none accept name scope).Nodup := by
  rw [ownMembers_none housed.sound]
  exact (housed.members_nodup scope name).filter _

/-- No own member is found exactly when the scope has none that is accepted. -/
theorem Housed.ownMembers_eq_nil (housed : catalogue.Housed []) :
    catalogue.ownMembers none accept name scope = [] ↔
      ∀ id, ¬ catalogue.HasMember accept name scope id := by
  simp only [List.eq_nil_iff_forall_not_mem, housed.mem_ownMembers]

/-- A scope with an accepted member of its own shows its own. -/
theorem HasMember.visibleMembers_eq (member : catalogue.HasMember accept name scope id)
    (housed : catalogue.Housed []) :
    catalogue.visibleMembers none accept name scope =
      catalogue.ownMembers none accept name scope := by
  have shown : catalogue.ownMembers none accept name scope ≠ [] := fun nothing =>
    housed.ownMembers_eq_nil.mp nothing id member
  simp [visibleMembers, shown]

/-- A member of a record is visible in it. -/
theorem HasMember.mem_visibleMembers (member : catalogue.HasMember accept name scope id)
    (housed : catalogue.Housed []) : id ∈ catalogue.visibleMembers none accept name scope := by
  rw [member.visibleMembers_eq housed]
  exact housed.mem_ownMembers.mpr member

end OwnMembers

/-- What a lookup finds is a node that lies in some scope, so neither the global
namespace nor a stand-in. -/
theorem Findable.declared {accept : Node → Bool} {id : Nat} (housed : catalogue.Housed [])
    (found : catalogue.Findable accept id) :
    id ≠ Graph.root ∧ ∃ node, catalogue.graph.nodeTable[id]? = some node ∧
      node.kind ≠ .placeholder := by
  obtain ⟨scope, name, listed⟩ := found.listed
  obtain ⟨_, key, carried, lies, _⟩ := housed.contains_iff.mp (housed.mem_members.mp listed).1
  obtain ⟨node, held, rfl⟩ := Graph.key?_eq_some.mp carried
  refine ⟨?_, node, held, fun standIn => lies.2 ?_⟩
  · rintro rfl
    exact lies.1 (Option.some.inj (carried.symm.trans housed.sound.root_key))
  · rw [← housed.sound.kind_family held, standIn]
    rfl

/-- Whatever was asked of a catalogue before, the members listed under a name are
the children of their scope that have it, in the order of containment, and no
lookup finds the global namespace, a stand-in or what is gone. -/
theorem members_are_children (requests : List Request) :
    (∀ scope name, (afterRequests requests).membersNamed scope name =
      ((afterRequests requests).graph.children scope).filter fun id =>
        ((afterRequests requests).graph.key? id).map (·.name.simple) = some name) ∧
    ∀ viewpoint accept spelling name scope id,
      id ∈ (afterRequests requests).resolve accept spelling scope ∨
          id ∈ (afterRequests requests).resolveFrom viewpoint accept spelling scope ∨
          id ∈ (afterRequests requests).lookupMember accept name scope →
        id ≠ Graph.root ∧ ∃ node, (afterRequests requests).graph.nodeTable[id]? = some node ∧
          node.kind ≠ .placeholder := by
  have housed := (tidy_afterRequests requests).housed
  refine ⟨(inOrder_afterRequests requests).membersNamed_eq housed, ?_⟩
  rintro viewpoint accept spelling name scope id (found | found | found)
  · exact (findable_of_mem_resolveWith found).declared housed
  · exact (findable_of_mem_resolveWith found).declared housed
  · exact (findable_of_mem_visibleMembers found).declared housed

end Catalogue

end DeclGraph

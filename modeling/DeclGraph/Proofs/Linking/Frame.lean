import DeclGraph.Proofs.Catalogue.Region
import DeclGraph.Proofs.Linking.Growth

/-!
# What the linking leaves to lookups as it is

Lookups read the bases of records and what aliases stand for. An edge changes what its source
leads to, and only when it is an edge to a base or says what an alias stands for. All other
additions leave every lookup as it is.
-/

namespace DeclGraph

namespace Graph

variable {graph : Graph} {key : EdgeKey} {attributes : Attributes}

/-- A new edge is listed last at its source. -/
theorem Sound.outgoing_addEdge (sound : graph.Sound) (id : Nat) (relation : Relation) :
    (graph.addEdge key attributes).outgoing id (some relation) =
      graph.outgoing id (some relation) ++
        if key.source = id ∧ key.relation = relation then
          [⟨graph.nextEdge, key.source, key.target, key.relation, attributes⟩]
        else [] := by
  have table : ∀ id : Nat, (graph.addEdge key attributes).edgeTable[id]? =
      if graph.nextEdge = id then
        some ⟨graph.nextEdge, key.source, key.target, key.relation, attributes⟩
      else graph.edgeTable[id]? := graph.edgeTable_addEdge
  have old : (listAt graph.leaving id).filterMap ((graph.addEdge key attributes).edgeTable[·]?) =
      (listAt graph.leaving id).filterMap (graph.edgeTable[·]?) := by
    refine List.filterMap_congr fun number member => ?_
    obtain ⟨_, at_, _⟩ := Option.map_eq_some_iff.mp (sound.mem_leaving.mp member)
    rw [table, if_neg (Nat.ne_of_gt (sound.lt_of_edgeKey? at_))]
  unfold outgoing edgesAmong
  by_cases here : key.source = id
  · have listed : listAt (graph.addEdge key attributes).leaving id =
        listAt graph.leaving id ++ [graph.nextEdge] := by
      rw [← here]
      exact listAt_appendAt_self _ _ _
    rw [listed, List.filterMap_append, old, List.filter_append]
    simp [table, here, List.filter_cons]
  · have listed : listAt (graph.addEdge key attributes).leaving id = listAt graph.leaving id :=
      listAt_appendAt_of_ne _ _ here
    rw [listed, old, if_neg fun both => here both.1, List.append_nil]

/-- Attributes that an edge absorbs change this edge where it is listed, and nothing else. -/
theorem Sound.outgoing_absorbing (sound : graph.Sound) (number id : Nat) (relation : Relation) :
    (graph.absorbing number attributes).outgoing id (some relation) =
      (graph.outgoing id (some relation)).map fun edge =>
        if edge.id = number then { edge with attributes := edge.attributes.absorb attributes }
        else edge := by
  let changed : Edge → Edge := fun edge =>
    if edge.id = number then { edge with attributes := edge.attributes.absorb attributes } else edge
  have table : ∀ other : Nat, (graph.absorbing number attributes).edgeTable[other]? =
      graph.edgeTable[other]?.map changed := by
    intro other
    rw [edgeTable_absorbing]
    cases found : graph.edgeTable[other]? with
    | none => simp
    | some edge =>
      obtain rfl := sound.edge_id found
      by_cases same : number = edge.id <;> simp [changed, same, eq_comm]
  have relations : ∀ edge, (changed edge).relation = edge.relation := by
    intro edge
    simp only [changed]
    split <;> rfl
  show ((listAt graph.leaving id).filterMap
      ((graph.absorbing number attributes).edgeTable[·]?)).filter _ = _
  rw [List.filterMap_congr fun other _ => table other, ← List.map_filterMap, List.filter_map]
  simp only [Function.comp_def, relations]
  rfl

/-- An edge from another node or of another relation changes no list of edges. -/
theorem Sound.outgoing_withEdge_of_ne (sound : graph.Sound) {id : Nat} {relation : Relation}
    (apart : key.source ≠ id ∨ key.relation ≠ relation) :
    (graph.withEdge key attributes).outgoing id (some relation) =
      graph.outgoing id (some relation) := by
  cases known : graph.edgeIndex[key]? with
  | none =>
    rw [withEdge_of_fresh known, sound.outgoing_addEdge, if_neg (by tauto), List.append_nil]
  | some number =>
    rw [withEdge_of_known known, sound.outgoing_absorbing]
    refine (List.map_congr_left fun edge member => if_neg ?_).trans (List.map_id _)
    rintro rfl
    obtain ⟨found, source, relations⟩ := sound.mem_outgoing.mp member
    have same := sound.edgeIndex_iff.mp known
    rw [edgeKey?_of_edge found] at same
    obtain rfl := Option.some.inj same
    rcases apart with other | other
    · exact other source
    · exact other (of_decide_eq_true relations)

/-- Members of scopes are listed in their order when other edges are added. -/
theorem Sound.children_withEdge (sound : graph.Sound) (other : key.relation ≠ .contains)
    (scope : Nat) : (graph.withEdge key attributes).children scope = graph.children scope := by
  rw [children, sound.outgoing_withEdge_of_ne (.inr other), children]

end Graph

namespace Catalogue

variable {catalogue middle after : Catalogue} {key : EdgeKey} {attributes : Attributes} {id : Nat}

/-- A node has the same bases in both catalogues and stands for the same. -/
structure LeadsAlike (before after : Catalogue) (id : Nat) : Prop where
  bases : after.bases id = before.bases id
  aliasTarget? : after.aliasTarget? id = before.aliasTarget? id

/-- A catalogue leads a record where it leads it itself. -/
theorem LeadsAlike.refl (catalogue : Catalogue) (id : Nat) : catalogue.LeadsAlike catalogue id :=
  ⟨rfl, rfl⟩

/-- Leading alike carries over from one change to the next. -/
theorem LeadsAlike.trans (first : catalogue.LeadsAlike middle id)
    (second : middle.LeadsAlike after id) : catalogue.LeadsAlike after id :=
  ⟨second.bases.trans first.bases, second.aliasTarget?.trans first.aliasTarget?⟩

/-- A record keeps its bases unless an inheritance edge of its own is made. -/
theorem bases_withEdge (sound : catalogue.graph.Sound)
    (apart : key.source ≠ id ∨ key.relation ≠ .inherits) :
    (catalogue.withEdge key attributes).bases id = catalogue.bases id := by
  have records : (catalogue.withEdge key attributes).isRecord = catalogue.isRecord := by
    funext other
    simp [isRecord, kind?, withEdge]
  rw [bases, records]
  show List.filter _ (((catalogue.graph.withEdge key attributes).outgoing _ _).map _) = _
  rw [sound.outgoing_withEdge_of_ne apart, bases]

/-- A use in another role says nothing about what an alias stands for. -/
theorem isAliasEdge_absorb {edge : Edge} {role : String} (other : role ≠ "alias") :
    isAliasEdge { edge with attributes := edge.attributes.absorb (roleAttributes role) } =
      isAliasEdge edge := by
  rw [Bool.eq_iff_iff]
  simp only [isAliasEdge, List.contains_iff_mem]
  exact mem_roles_absorb.trans (or_iff_left (Ne.symm other))

/-- An alias keeps its target when something is used in another role. -/
theorem aliasTarget?_withUse (sound : catalogue.graph.Sound) {role : String}
    (other : role ≠ "alias") {source target : Nat} :
    (catalogue.withEdge ⟨source, target, .usesType⟩ (roleAttributes role)).aliasTarget? id =
      catalogue.aliasTarget? id := by
  have edges :
      (catalogue.withEdge ⟨source, target, .usesType⟩ (roleAttributes role)).aliasTarget? id =
      (((catalogue.graph.withEdge ⟨source, target, .usesType⟩
        (roleAttributes role)).outgoing id (some .usesType)).find? isAliasEdge).map
          (·.target) := rfl
  rw [edges, aliasTarget?]
  cases known : catalogue.graph.edgeIndex[(⟨source, target, .usesType⟩ : EdgeKey)]? with
  | none =>
    have new : isAliasEdge ⟨catalogue.graph.nextEdge, source, target, .usesType,
        roleAttributes role⟩ = false := by
      simp [isAliasEdge, roleAttributes, Attributes.texts?, Value.texts?, Ne.symm other]
    rw [Graph.withEdge_of_fresh known, sound.outgoing_addEdge, List.find?_append]
    split
    · simp [new]
    · simp
  | some number =>
    rw [Graph.withEdge_of_known known, sound.outgoing_absorbing, List.find?_map, Option.map_map]
    have roles : (isAliasEdge ∘ fun edge : Edge => if edge.id = number then
        { edge with attributes := edge.attributes.absorb (roleAttributes role) } else edge) =
        isAliasEdge := by
      funext edge
      simp only [Function.comp_apply]
      split
      · exact isAliasEdge_absorb other
      · rfl
    rw [roles]
    refine Option.map_congr fun edge _ => ?_
    simp only [Function.comp_apply]
    split <;> rfl

/-- A stand-in changes nothing about what other nodes lead to. -/
theorem leadsAlike_withPlaceholder (sound : catalogue.graph.Sound) (spelling : String) (id : Nat) :
    catalogue.LeadsAlike (catalogue.withPlaceholder spelling) id where
  aliasTarget? := rfl
  bases := by
    have edges : (catalogue.withPlaceholder spelling).graph.outgoing id (some .inherits) =
        catalogue.graph.outgoing id (some .inherits) := rfl
    rw [bases, bases, edges]
    refine List.filter_congr fun target member => ?_
    obtain ⟨node, found⟩ := Graph.isSome_key?_iff.mp
      (sound.there_of_related (sound.mem_targets.mp member)).2
    rw [isRecord, kind?, nodeTable_withPlaceholder,
      if_neg (Nat.ne_of_gt (sound.node_lt found)), isRecord, kind?]

/-- Making an edge never lowers the number of edges. -/
theorem edgeCount_le_withEdge (catalogue : Catalogue) (key : EdgeKey) (attributes : Attributes) :
    catalogue.graph.edgeCount ≤ (catalogue.withEdge key attributes).graph.edgeCount := by
  show _ ≤ (catalogue.graph.withEdge key attributes).edgeTable.size
  unfold Graph.withEdge
  split
  · exact Nat.le_of_eq Std.ExtTreeMap.size_modify.symm
  · exact Std.ExtTreeMap.size_le_size_insert

end Catalogue

namespace Bond

variable {bond : Bond} {catalogue : Catalogue} {key : EdgeKey} {attributes : Attributes} {id : Nat}

/-- Whether edges for the reason say what lookups that pass their source go on to. -/
def leads : Bond → Bool
  | .inherits => true
  | .use role => role = "alias"
  | _ => false

/-- An edge changes what its source leads to at most, and that only if it is there to say so. -/
theorem Joins.leadsAlike (joins : bond.Joins catalogue key attributes)
    (sound : catalogue.graph.Sound) (apart : key.source ≠ id ∨ bond.leads = false) :
    catalogue.LeadsAlike (catalogue.withEdge key attributes) id := by
  constructor
  · refine Catalogue.bases_withEdge sound (apart.imp_right fun quiet inherits => ?_)
    rw [joins.relation_eq] at inherits
    cases bond <;> simp_all [relation, leads]
  · have untouched : key.source ≠ id ∨ key.relation ≠ .usesType →
        (catalogue.withEdge key attributes).aliasTarget? id = catalogue.aliasTarget? id := by
      intro other
      show (((catalogue.graph.withEdge key attributes).outgoing _ _).find? _).map _ = _
      rw [sound.outgoing_withEdge_of_ne other, Catalogue.aliasTarget?]
    rcases apart with other | quiet
    · exact untouched (.inl other)
    · by_cases uses : key.relation = .usesType
      · obtain ⟨role, rfl⟩ : ∃ role, bond = .use role := by
          have relation := joins.relation_eq
          cases bond <;> simp_all [Bond.relation]
        obtain ⟨rfl, _⟩ := joins.of_use rfl
        obtain ⟨source, target, relation⟩ := key
        obtain rfl : relation = .usesType := uses
        exact Catalogue.aliasTarget?_withUse sound (by simpa [leads] using quiet)
      · exact untouched (.inr uses)

end Bond

namespace Linking

namespace Grows

variable {bonds : List Bond} {before after : Linking}

/-- Additions that say nothing about it leave what a node leads to as it is. -/
theorem leadsAlike (grows : before.Grows bonds after) (start : before.catalogue.Housed [])
    (quiet : ∀ bond ∈ bonds, bond.leads = false) (id : Nat) :
    before.catalogue.LeadsAlike after.catalogue id := by
  induction grows with
  | refl => exact .refl _ id
  | edge sofar among joins further =>
    exact further.trans (joins.leadsAlike (sofar.housed start).sound (.inr (quiet _ among)))
  | @standIn middle spelling sofar _ further =>
    exact further.trans
      (Catalogue.leadsAlike_withPlaceholder (sofar.housed start).sound spelling id)
  | note _ _ further => exact further

/-- The index of members stays as it is while a catalogue grows. -/
theorem memberIndex (grows : before.Grows bonds after) :
    after.catalogue.memberIndex = before.catalogue.memberIndex := by
  induction grows with
  | refl => rfl
  | edge _ _ _ further => exact further
  | standIn _ _ further => exact further
  | note _ _ further => exact further

/-- Growth never lowers the number of nodes. -/
theorem nodeCount_le (grows : before.Grows bonds after) :
    before.catalogue.graph.nodeCount ≤ after.catalogue.graph.nodeCount := by
  induction grows with
  | refl => exact Nat.le_refl _
  | edge _ _ _ further => simpa [Catalogue.withEdge, Graph.nodeCount] using further
  | standIn _ _ further => exact Nat.le_trans further Std.ExtTreeMap.size_le_size_insert
  | note _ _ further => exact further

/-- Growth never lowers the number of edges. -/
theorem edgeCount_le (grows : before.Grows bonds after) :
    before.catalogue.graph.edgeCount ≤ after.catalogue.graph.edgeCount := by
  induction grows with
  | refl => exact Nat.le_refl _
  | edge _ _ _ further => exact Nat.le_trans further (Catalogue.edgeCount_le_withEdge _ _ _)
  | standIn _ _ further => exact further
  | note _ _ further => exact further

/-- Members of scopes are listed in the order in which they were. -/
theorem children_eq (grows : before.Grows bonds after) (start : before.catalogue.Housed [])
    (scope : Nat) :
    after.catalogue.graph.children scope = before.catalogue.graph.children scope := by
  induction grows with
  | refl => rfl
  | @edge _ bond _ _ sofar _ joins further =>
    refine ((sofar.housed start).sound.children_withEdge ?_ scope).trans further
    rw [joins.relation_eq]
    exact bond.relation_ne_contains
  | standIn _ _ further => exact further
  | note _ _ further => exact further

/-- A linking agrees with one that grew from it on every region whose nodes lead where they
led. -/
theorem agreeWithin (grows : before.Grows bonds after) (start : before.catalogue.Housed [])
    {names : String → Prop} {region : Nat → Prop}
    (there : ∀ {id : Nat}, region id → before.catalogue.HasNode id) (root : region Graph.root)
    (member : ∀ {scope id : Nat} {name : String}, region scope → names name →
      id ∈ before.catalogue.membersNamed scope name → region id)
    (base : ∀ {record base : Nat}, region record → base ∈ before.catalogue.bases record →
      region base)
    (target : ∀ {id target : Nat}, region id → before.catalogue.aliasTarget? id = some target →
      region target)
    (leads : ∀ {id : Nat}, region id → before.catalogue.LeadsAlike after.catalogue id) :
    before.catalogue.AgreeWithin names region after.catalogue where
  housed := start
  there := there
  root := root
  member := member
  base := base
  target := target
  nodes := by
    intro id hasNode
    obtain ⟨node, found⟩ := Graph.isSome_key?_iff.mp hasNode
    rw [found, grows.nodes_kept start found]
  memberIndex := grows.memberIndex
  parent? := grows.parent? start
  nodeCount_le := grows.nodeCount_le
  edgeCount_le := grows.edgeCount_le
  bases := fun within => (leads within).bases
  aliasTarget? := fun within => (leads within).aliasTarget?

/-- When nothing is added that says what nodes lead to, all lookups from nodes stay as they
are. -/
theorem agree (grows : before.Grows bonds after) (start : before.catalogue.Housed [])
    (quiet : ∀ bond ∈ bonds, bond.leads = false) :
    before.catalogue.AgreeWithin (fun _ => True) before.catalogue.HasNode after.catalogue := by
  have sound := start.sound
  refine grows.agreeWithin start id (Catalogue.hasNode_root sound) ?_
    (fun _ isBase => Catalogue.hasNode_of_mem_bases sound isBase)
    (fun _ found => Catalogue.hasNode_aliasTarget? sound found)
    fun _ => grows.leadsAlike start quiet _
  intro scope id name _ _ member
  exact (sound.there_of_related (start.mem_members.mp member).1).2

/-- Every node keeps the scope that it stands in. -/
theorem scopeOf_eq (grows : before.Grows bonds after) (start : before.catalogue.Housed [])
    (id : Nat) : after.catalogue.scopeOf id = before.catalogue.scopeOf id := by
  rw [Catalogue.scopeOf, grows.parent? start, Catalogue.scopeOf]

section Quiet

variable (grows : before.Grows bonds after) (start : before.catalogue.Housed [])
  (quiet : ∀ bond ∈ bonds, bond.leads = false)

include grows start quiet

/-- A node that was there keeps its template parameters. -/
theorem templateParameters_eq {id : Nat} (there : before.catalogue.HasNode id) :
    after.catalogue.templateParameters id = before.catalogue.templateParameters id :=
  (grows.agree start quiet).templateParameters_eq there

/-- An alias that was there stands for the same node as before. -/
theorem dealias_eq {id : Nat} (there : before.catalogue.HasNode id) :
    after.catalogue.dealias id = before.catalogue.dealias id :=
  (grows.agree start quiet).dealias_eq there

/-- A member is found in a scope as before. -/
theorem lookupMember_eq {accept : Node → Bool} {name : String} {scope : Nat}
    (there : before.catalogue.HasNode scope) :
    after.catalogue.lookupMember accept name scope =
      before.catalogue.lookupMember accept name scope :=
  (grows.agree start quiet).visibleMembers_eq there

/-- A name means the same from a scope as before. -/
theorem resolveFrom_eq {viewpoint : Viewpoint} {accept : Node → Bool} {spelling : String}
    {scope : Nat} (there : before.catalogue.HasNode scope) :
    after.catalogue.resolveFrom viewpoint accept spelling scope =
      before.catalogue.resolveFrom viewpoint accept spelling scope := by
  refine (grows.agree start quiet).resolveFrom_eq (fun _ _ => trivial) fun {around} outer => ?_
  rcases outer with rfl | encloses
  · exact there
  · exact start.sound.there_of_encloses encloses

end Quiet

end Grows

end Linking

end DeclGraph

import DeclGraph.Linking.Basic
import DeclGraph.Proofs.Attributes
import DeclGraph.Proofs.Catalogue.Housed
import DeclGraph.Proofs.Catalogue.Lookups

/-!
# What the linking adds

The linking takes nothing away. It adds edges between nodes of the graph, for a
few reasons, stand-ins, and notes of names that mean nothing known. One linking
grows from another by such additions, so that nodes stay as they are, containment
stays as it is, and a use of a type keeps its roles.
-/

namespace DeclGraph

/-- The roles in which an edge says that a type is used. -/
def Edge.roles (edge : Edge) : List String := (edge.attributes.texts? AttributeName.roles).getD []

/-- What a use of a type in a role carries. -/
def roleAttributes (role : String) : Attributes :=
  (∅ : Attributes).insert AttributeName.roles (.texts [role])

/-- Absorbing a role adds it to the roles noted. -/
theorem mem_roles_absorb {attributes : Attributes} {role other : String} :
    other ∈ ((attributes.absorb (roleAttributes role)).texts? AttributeName.roles).getD [] ↔
      other ∈ (attributes.texts? AttributeName.roles).getD [] ∨ other = role := by
  rw [Attributes.texts?, Attributes.getElem?_absorb]
  simp [roleAttributes, Attributes.absorbed, Value.texts?, Attributes.texts?]

namespace Graph

/-- A node uses another one in a role. -/
def UsedAs (graph : Graph) (source : Nat) (role : String) (target : Nat) : Prop :=
  ∃ edge : Edge, graph.edgeTable[edge.id]? = some edge ∧
    edge.key = ⟨source, target, .usesType⟩ ∧ role ∈ edge.roles

variable {graph : Graph} {key : EdgeKey} {attributes : Attributes}

/-- An edge that is added leaves the edges of other ends and relations alone. -/
theorem Sound.edgeTable_withEdge_of_ne (sound : graph.Sound) {edge : Edge}
    (apart : edge.key ≠ key) :
    (graph.withEdge key attributes).edgeTable[edge.id]? = some edge ↔
      graph.edgeTable[edge.id]? = some edge := by
  cases known : graph.edgeIndex[key]? with
  | some id =>
    have keyThere := sound.edgeIndex_iff.mp known
    rw [withEdge_of_known known, edgeTable_absorbing]
    by_cases same : id = edge.id
    · subst same
      rw [if_pos rfl]
      refine iff_of_false (fun found => ?_) fun found => ?_
      · obtain ⟨former, held, became⟩ := Option.map_eq_some_iff.mp found
        rw [edgeKey?_of_edge held] at keyThere
        exact apart (by rw [← became]; exact Option.some.inj keyThere)
      · rw [edgeKey?_of_edge found] at keyThere
        exact apart (Option.some.inj keyThere)
    · rw [if_neg same]
  | none =>
    rw [withEdge_of_fresh known, edgeTable_addEdge]
    by_cases new : graph.nextEdge = edge.id
    · rw [if_pos new]
      refine iff_of_false (fun found => ?_) fun found => ?_
      · cases found
        exact apart rfl
      · exact absurd (sound.edge_lt found) (by omega)
    · rw [if_neg new]

/-- An edge of other ends or of another relation changes no use of a type. -/
theorem Sound.usedAs_withEdge_of_ne (sound : graph.Sound) {source target : Nat} {role : String}
    (apart : key ≠ ⟨source, target, .usesType⟩) :
    (graph.withEdge key attributes).UsedAs source role target ↔
      graph.UsedAs source role target := by
  have ne : ∀ edge : Edge, edge.key = ⟨source, target, .usesType⟩ → edge.key ≠ key := by
    rintro edge ends rfl
    exact apart ends
  refine exists_congr fun edge => ?_
  constructor
  · rintro ⟨found, ends, listed⟩
    exact ⟨(sound.edgeTable_withEdge_of_ne (ne edge ends)).mp found, ends, listed⟩
  · rintro ⟨found, ends, listed⟩
    exact ⟨(sound.edgeTable_withEdge_of_ne (ne edge ends)).mpr found, ends, listed⟩

/-- There is one edge for the uses of a type by a node, and it tells the roles. -/
theorem Sound.usedAs_iff (sound : graph.Sound) {edge : Edge} {source target : Nat} {role : String}
    (found : graph.edgeTable[edge.id]? = some edge)
    (ends : edge.key = ⟨source, target, .usesType⟩) :
    graph.UsedAs source role target ↔ role ∈ edge.roles := by
  constructor
  · rintro ⟨other, otherFound, otherEnds, listed⟩
    have same : other.id = edge.id := sound.id_eq_of_edgeKey? (edgeKey?_of_edge otherFound)
      (by rw [edgeKey?_of_edge found, ends, otherEnds])
    rw [same, found] at otherFound
    obtain rfl := Option.some.inj otherFound
    exact listed
  · exact fun listed => ⟨edge, found, ends, listed⟩

variable {source target : Nat} {role other : String}

/-- A use in a role that is added to the edge of the uses adds this role. -/
theorem Sound.usedAs_absorbing (sound : graph.Sound) {id : Nat}
    (known : graph.edgeIndex[(⟨source, target, .usesType⟩ : EdgeKey)]? = some id) :
    (graph.absorbing id (roleAttributes role)).UsedAs source other target ↔
      graph.UsedAs source other target ∨ other = role := by
  obtain ⟨former, held, ends⟩ := edgeKey?_eq_some.mp (sound.edgeIndex_iff.mp known)
  obtain rfl : former.id = id := sound.edge_id held
  let next : Edge := { former with attributes := former.attributes.absorb (roleAttributes role) }
  have nextHeld : (graph.absorbing former.id (roleAttributes role)).edgeTable[next.id]? =
      some next := by
    rw [edgeTable_absorbing, if_pos rfl, held]
    rfl
  rw [(sound.absorbing former.id).usedAs_iff nextHeld ends, sound.usedAs_iff held ends]
  exact mem_roles_absorb

/-- The first use of a type by a node is in the one role. -/
theorem Sound.usedAs_addEdge (sound : graph.Sound)
    (fresh : graph.edgeIndex[(⟨source, target, .usesType⟩ : EdgeKey)]? = none) :
    (graph.addEdge ⟨source, target, .usesType⟩ (roleAttributes role)).UsedAs source other target ↔
      graph.UsedAs source other target ∨ other = role := by
  have nothing : ∀ edge : Edge, graph.edgeTable[edge.id]? = some edge →
      edge.key ≠ ⟨source, target, .usesType⟩ := by
    intro edge found ends
    have there := sound.edgeIndex_iff.mpr ((edgeKey?_of_edge found).trans (congrArg some ends))
    rw [fresh] at there
    cases there
  have only : ∀ listed : String, listed ∈ ((roleAttributes role).texts?
      AttributeName.roles).getD [] ↔ listed = role := by
    simp [roleAttributes, Attributes.texts?, Value.texts?]
  unfold UsedAs
  simp only [edgeTable_addEdge]
  constructor
  · rintro ⟨edge, found, ends, listed⟩
    split at found
    · cases found
      exact .inr ((only other).mp listed)
    · exact absurd ends (nothing edge found)
  · rintro (⟨edge, found, ends, _⟩ | new)
    · exact absurd ends (nothing edge found)
    · exact ⟨⟨graph.nextEdge, source, target, .usesType, roleAttributes role⟩, if_pos rfl, rfl,
        (only other).mpr new⟩

/-- Using a type in a role adds this role between the two nodes and nothing
else. -/
theorem Sound.usedAs_withEdge (sound : graph.Sound) {first second : Nat} :
    (graph.withEdge ⟨source, target, .usesType⟩ (roleAttributes role)).UsedAs first other second ↔
      graph.UsedAs first other second ∨ (first = source ∧ second = target ∧ other = role) := by
  by_cases same : first = source ∧ second = target
  · obtain ⟨rfl, rfl⟩ := same
    simp only [true_and]
    cases known : graph.edgeIndex[(⟨first, second, .usesType⟩ : EdgeKey)]? with
    | some id =>
      rw [withEdge_of_known known]
      exact sound.usedAs_absorbing known
    | none =>
      rw [withEdge_of_fresh known]
      exact sound.usedAs_addEdge known
  · have apart : (⟨source, target, .usesType⟩ : EdgeKey) ≠ ⟨first, second, .usesType⟩ := by
      rintro ends
      cases ends
      exact same ⟨rfl, rfl⟩
    rw [sound.usedAs_withEdge_of_ne apart, ← and_assoc]
    exact (or_iff_left fun new => same new.1).symm

end Graph

namespace Catalogue

variable {catalogue : Catalogue}

/-- The catalogue in which two nodes are related. -/
def withEdge (catalogue : Catalogue) (key : EdgeKey) (attributes : Attributes) : Catalogue :=
  { catalogue with graph := catalogue.graph.withEdge key attributes }

/-- An edge that contains nothing moves nothing. -/
theorem Housed.withEdge (housed : catalogue.Housed []) {key : EdgeKey} {attributes : Attributes}
    (sourceThere : catalogue.HasNode key.source) (targetThere : catalogue.HasNode key.target)
    (other : key.relation ≠ .contains) : (catalogue.withEdge key attributes).Housed [] := by
  have keys : ∀ id, (catalogue.withEdge key attributes).graph.key? id = catalogue.graph.key? id :=
    fun id => Graph.key?_withEdge id
  have related : ∀ {scope member : Nat},
      (catalogue.withEdge key attributes).graph.Related scope .contains member ↔
        catalogue.graph.Related scope .contains member := by
    intro scope member
    refine housed.sound.related_withEdge.trans (or_iff_left ?_)
    rintro rfl
    exact other rfl
  constructor
  case sound => exact housed.sound.withEdge sourceThere targetThere
  case loose_there => intro id isLoose; cases isLoose
  case contains_iff =>
    intro scope member
    rw [related]
    simp only [keys]
    exact housed.contains_iff
  case holder_there =>
    intro member held
    simp only [keys]
    exact housed.holder_there
  case mem_members =>
    intro scope member name
    rw [related, keys]
    exact housed.mem_members
  case members_nodup => exact housed.members_nodup

/-- The catalogue with one stand-in more. -/
def withPlaceholder (catalogue : Catalogue) (spelling : String) : Catalogue :=
  { catalogue with graph := catalogue.graph.addNode (.placeholder spelling) .placeholder ∅ }

/-- A new placeholder keeps everything housed. -/
theorem Housed.withPlaceholder (housed : catalogue.Housed []) {spelling : String}
    (fresh : catalogue.graph.nodeByKey? (.placeholder spelling) = none) :
    (catalogue.withPlaceholder spelling).Housed [] := by
  have newKey : (catalogue.withPlaceholder spelling).graph.key? catalogue.graph.nextNode =
      some (.placeholder spelling) :=
    (catalogue.graph.key?_addNode _ _ _ _).trans (if_pos rfl)
  exact (housed.addNode ∅ fresh rfl).settle rfl newKey fun lies => lies.2 rfl

/-- A new placeholder is stored under the next number, and all other nodes stay. -/
theorem nodeTable_withPlaceholder (catalogue : Catalogue) (spelling : String) (id : Nat) :
    (catalogue.withPlaceholder spelling).graph.nodeTable[id]? =
      if catalogue.graph.nextNode = id then
        some ⟨catalogue.graph.nextNode, .placeholder spelling, .placeholder, ∅⟩
      else catalogue.graph.nodeTable[id]? :=
  Graph.nodeTable_addNode catalogue.graph _ _ _ _

end Catalogue

/-- Whether a use of a type can lead to the node: a type or a stand-in. -/
def Node.isUsable (node : Node) : Bool := node.kind.isType || node.kind = .placeholder

/-- The family of placeholders has one kind. -/
theorem EntityKind.eq_placeholder {kind : EntityKind} (family : kind.family = .placeholder) :
    kind = .placeholder := by
  cases kind <;> simp_all [EntityKind.family]

/-- What carries the key of a stand-in is a stand-in. -/
theorem Catalogue.kind?_of_placeholder {catalogue : Catalogue} (sound : catalogue.graph.Sound)
    {spelling : String} {id : Nat}
    (carried : catalogue.graph.key? id = some (.placeholder spelling)) :
    catalogue.kind? id = some .placeholder := by
  obtain ⟨node, found, key⟩ := Graph.key?_eq_some.mp carried
  have family := sound.kind_family found
  rw [key] at family
  rw [kind?, found, Option.map_some, EntityKind.eq_placeholder family]

/-- A placeholder may be used as a type. -/
theorem Catalogue.isUsable_of_placeholder {catalogue : Catalogue} (sound : catalogue.graph.Sound)
    {id : Nat} {spelling : String}
    (carried : catalogue.graph.key? id = some (.placeholder spelling)) :
    catalogue.Accepts Node.isUsable id := by
  obtain ⟨node, found, kind⟩ := Option.map_eq_some_iff.mp (kind?_of_placeholder sound carried)
  exact ⟨node, found, by simp [Node.isUsable, kind]⟩

/-- What the linking adds an edge for. -/
inductive Bond where
  | use (role : String)
  | inherits
  | field
  | overloads
  | overrides
  | calls
deriving DecidableEq

namespace Bond

/-- The relation of the edge. -/
def relation : Bond → Relation
  | .use _ => .usesType
  | .inherits => .inherits
  | .field => .hasField
  | .overloads => .overloads
  | .overrides => .overrides
  | .calls => .calls

/-- Whether edges for the reason carry nothing. -/
def isBare : Bond → Bool
  | .overloads | .overrides => true
  | _ => false

/-- No bond is containment. -/
theorem relation_ne_contains (bond : Bond) : bond.relation ≠ .contains := by
  cases bond <;> simp [relation]

/-- An edge between nodes of the catalogue is there for the reason. -/
structure Joins (bond : Bond) (catalogue : Catalogue) (key : EdgeKey) (attributes : Attributes) :
    Prop where
  source_there : catalogue.HasNode key.source
  target_there : catalogue.HasNode key.target
  relation_eq : key.relation = bond.relation
  of_use : ∀ {role : String}, bond = .use role →
    attributes = roleAttributes role ∧ catalogue.Accepts Node.isUsable key.target
  of_inherits : bond = .inherits → key.target ≠ key.source
  of_bare : bond.isBare = true → attributes = ∅

variable {catalogue : Catalogue} {source target : Nat}

/-- A use joins a node of the graph to one that may be used. -/
theorem joins_use (role : String) (sourceThere : catalogue.HasNode source)
    (usable : catalogue.Accepts Node.isUsable target) :
    (Bond.use role).Joins catalogue ⟨source, target, .usesType⟩ (roleAttributes role) := by
  refine ⟨sourceThere, usable.hasNode, rfl, ?_, nofun, nofun⟩
  rintro other same
  cases same
  exact ⟨rfl, usable⟩

/-- Inheritance joins two different nodes of the graph. -/
theorem joins_inherits (attributes : Attributes) (sourceThere : catalogue.HasNode source)
    (targetThere : catalogue.HasNode target) (apart : target ≠ source) :
    Bond.inherits.Joins catalogue ⟨source, target, .inherits⟩ attributes :=
  ⟨sourceThere, targetThere, rfl, nofun, fun _ => apart, nofun⟩

/-- A call joins two nodes of the graph. -/
theorem joins_calls (attributes : Attributes) (sourceThere : catalogue.HasNode source)
    (targetThere : catalogue.HasNode target) :
    Bond.calls.Joins catalogue ⟨source, target, .calls⟩ attributes :=
  ⟨sourceThere, targetThere, rfl, nofun, nofun, nofun⟩

/-- Overloads and overrides are linked whenever both ends are there. -/
theorem joins_bare {bond : Bond} (bare : bond.isBare = true)
    (sourceThere : catalogue.HasNode source) (targetThere : catalogue.HasNode target) :
    bond.Joins catalogue ⟨source, target, bond.relation⟩ ∅ := by
  refine ⟨sourceThere, targetThere, rfl, ?_, ?_, fun _ => rfl⟩
  · rintro role rfl
    cases bare
  · rintro rfl
    cases bare

end Bond

namespace Linking

/-- A linking has come further than another by additions for the given
reasons. -/
inductive Grows (bonds : List Bond) (before : Linking) : Linking → Prop where
  | refl : Grows bonds before before
  | edge {middle : Linking} {bond : Bond} {key : EdgeKey} {attributes : Attributes}
    (sofar : Grows bonds before middle) (among : bond ∈ bonds)
    (joins : bond.Joins middle.catalogue key attributes) :
    Grows bonds before { middle with catalogue := middle.catalogue.withEdge key attributes }
  | standIn {middle : Linking} {spelling : String} (sofar : Grows bonds before middle)
    (fresh : middle.catalogue.graph.nodeByKey? (.placeholder spelling) = none) :
    Grows bonds before { middle with catalogue := middle.catalogue.withPlaceholder spelling }
  | note {middle : Linking} (sofar : Grows bonds before middle) (unresolved : Unresolved) :
    Grows bonds before { middle with unresolved := middle.unresolved ++ [unresolved] }

namespace Grows

variable {bonds : List Bond} {before middle after : Linking}

/-- Growth carries over from one change to the next. -/
theorem trans (first : before.Grows bonds middle) (second : middle.Grows bonds after) :
    before.Grows bonds after := by
  induction second with
  | refl => exact first
  | edge _ among joins further => exact .edge further among joins
  | standIn _ fresh further => exact .standIn further fresh
  | note _ unresolved further => exact .note further unresolved

/-- Growth by some bonds is growth by more. -/
theorem mono {more : List Bond} (grows : before.Grows bonds after) (fewer : bonds ⊆ more) :
    before.Grows more after := by
  induction grows with
  | refl => exact .refl
  | edge _ among joins further => exact .edge further (fewer among) joins
  | standIn _ fresh further => exact .standIn further fresh
  | note _ unresolved further => exact .note further unresolved

/-- A housed catalogue stays so while it grows. -/
theorem housed (grows : before.Grows bonds after) (start : before.catalogue.Housed []) :
    after.catalogue.Housed [] := by
  induction grows with
  | refl => exact start
  | @edge middle bond key attributes _ _ joins further =>
    refine further.withEdge joins.source_there joins.target_there ?_
    rw [joins.relation_eq]
    exact bond.relation_ne_contains
  | standIn _ fresh further => exact further.withPlaceholder fresh
  | note _ _ further => exact further

/-- Nodes stay as they are. -/
theorem nodes_kept (grows : before.Grows bonds after) (start : before.catalogue.Housed [])
    {id : Nat} {node : Node} (found : before.catalogue.graph.nodeTable[id]? = some node) :
    after.catalogue.graph.nodeTable[id]? = some node := by
  induction grows with
  | refl => exact found
  | edge _ _ _ further => simpa [Catalogue.withEdge] using further
  | @standIn middle spelling sofar fresh further =>
    have old : middle.catalogue.graph.nextNode ≠ id :=
      Nat.ne_of_gt ((sofar.housed start).sound.node_lt further)
    exact (middle.catalogue.nodeTable_withPlaceholder spelling id).trans (by rw [if_neg old, further])
  | note _ _ further => exact further

/-- What is new is a stand-in. -/
theorem nodes_new (grows : before.Grows bonds after) {id : Nat} {node : Node}
    (found : after.catalogue.graph.nodeTable[id]? = some node) :
    before.catalogue.graph.nodeTable[id]? = some node ∨
      ∃ spelling, node = ⟨id, .placeholder spelling, .placeholder, ∅⟩ := by
  induction grows with
  | refl => exact .inl found
  | edge _ _ _ further => exact further (by simpa [Catalogue.withEdge] using found)
  | @standIn middle spelling _ _ further =>
    have table := middle.catalogue.nodeTable_withPlaceholder spelling id
    rw [table] at found
    split at found
    · rename_i new
      subst new
      exact .inr ⟨spelling, (Option.some.inj found).symm⟩
    · exact further found
  | note _ _ further => exact further found

/-- What is not a stand-in was there before the linking. -/
theorem nodes_declared (grows : before.Grows bonds after) {id : Nat} {node : Node}
    (found : after.catalogue.graph.nodeTable[id]? = some node)
    (declared : node.kind ≠ .placeholder) : before.catalogue.graph.nodeTable[id]? = some node := by
  rcases grows.nodes_new found with old | ⟨spelling, rfl⟩
  · exact old
  · exact absurd rfl declared

/-- Nodes that are no stand-ins are the same before and after. -/
theorem mem_nodes_iff (grows : before.Grows bonds after) (start : before.catalogue.Housed [])
    {node : Node} (declared : node.kind ≠ .placeholder) :
    node ∈ after.catalogue.graph.nodes ↔ node ∈ before.catalogue.graph.nodes := by
  rw [(grows.housed start).sound.mem_nodes, start.sound.mem_nodes]
  exact ⟨fun found => grows.nodes_declared found declared, grows.nodes_kept start⟩

/-- A node keeps its key while a catalogue grows. -/
theorem keys_kept (grows : before.Grows bonds after) (start : before.catalogue.Housed [])
    {id : Nat} {key : EntityKey} (carried : before.catalogue.graph.key? id = some key) :
    after.catalogue.graph.key? id = some key := by
  obtain ⟨node, found, rfl⟩ := Graph.key?_eq_some.mp carried
  exact Graph.key?_of_node (grows.nodes_kept start found)

/-- A key that is carried after growth was carried before or is that of a placeholder. -/
theorem keys_new (grows : before.Grows bonds after) {id : Nat} {key : EntityKey}
    (carried : after.catalogue.graph.key? id = some key) :
    before.catalogue.graph.key? id = some key ∨ key.family = .placeholder := by
  obtain ⟨node, found, rfl⟩ := Graph.key?_eq_some.mp carried
  rcases grows.nodes_new found with old | ⟨spelling, rfl⟩
  · exact .inl (Graph.key?_of_node old)
  · exact .inr rfl

/-- A node stays in the graph while it grows. -/
theorem hasNode (grows : before.Grows bonds after) (start : before.catalogue.Housed []) {id : Nat}
    (there : before.catalogue.HasNode id) : after.catalogue.HasNode id := by
  obtain ⟨key, carried⟩ := Option.isSome_iff_exists.mp there
  rw [Catalogue.HasNode, grows.keys_kept start carried]
  rfl

/-- A node stays one that a lookup accepts. -/
theorem accepts (grows : before.Grows bonds after) (start : before.catalogue.Housed []) {id : Nat}
    {accept : Node → Bool} (accepted : before.catalogue.Accepts accept id) :
    after.catalogue.Accepts accept id := by
  obtain ⟨node, found, holds⟩ := accepted
  exact ⟨node, grows.nodes_kept start found, holds⟩

/-- Growth moves no scope. -/
theorem moved (grows : before.Grows bonds after) :
    after.catalogue.moved = before.catalogue.moved := by
  induction grows with
  | refl => rfl
  | edge _ _ _ further => exact further
  | standIn _ _ further => exact further
  | note _ _ further => exact further

/-- Additions for other reasons do not change a relation. -/
theorem related_iff (grows : before.Grows bonds after) (start : before.catalogue.Housed [])
    {relation : Relation} (apart : ∀ bond ∈ bonds, bond.relation ≠ relation)
    {source target : Nat} :
    after.catalogue.graph.Related source relation target ↔
      before.catalogue.graph.Related source relation target := by
  induction grows with
  | refl => rfl
  | edge sofar among joins further =>
    refine ((sofar.housed start).sound.related_withEdge.trans (or_iff_left ?_)).trans further
    rintro rfl
    exact apart _ among joins.relation_eq.symm
  | standIn _ _ further => exact further
  | note _ _ further => exact further

/-- Containment stays as it is. -/
theorem contains_iff (grows : before.Grows bonds after) (start : before.catalogue.Housed [])
    {scope member : Nat} :
    after.catalogue.graph.Related scope .contains member ↔
      before.catalogue.graph.Related scope .contains member :=
  grows.related_iff start fun bond _ => bond.relation_ne_contains

/-- The scopes of nodes stay as they are. -/
theorem parent? (grows : before.Grows bonds after) (start : before.catalogue.Housed []) (id : Nat) :
    after.catalogue.graph.parent? id = before.catalogue.graph.parent? id := by
  ext scope
  rw [(grows.housed start).parent?_eq_some, start.parent?_eq_some, grows.contains_iff start]

/-- A use of a type keeps its roles. -/
theorem usedAs_kept (grows : before.Grows bonds after) (start : before.catalogue.Housed [])
    {source target : Nat} {role : String}
    (used : before.catalogue.graph.UsedAs source role target) :
    after.catalogue.graph.UsedAs source role target := by
  induction grows with
  | refl => exact used
  | @edge middle bond key attributes sofar _ joins further =>
    have sound := (sofar.housed start).sound
    show (middle.catalogue.graph.withEdge key attributes).UsedAs source role target
    by_cases uses : key.relation = .usesType
    · obtain ⟨other, rfl⟩ : ∃ other, bond = .use other := by
        have relation := joins.relation_eq
        cases bond <;> simp_all [Bond.relation]
      obtain ⟨rfl, _⟩ := joins.of_use rfl
      obtain ⟨first, second, relation⟩ := key
      obtain rfl : relation = .usesType := uses
      exact sound.usedAs_withEdge.mpr (.inl further)
    · refine (sound.usedAs_withEdge_of_ne fun same => uses ?_).mpr further
      rw [same]
  | standIn _ _ further => exact further
  | note _ _ further => exact further

/-- Uses of types that are added lead to types and stand-ins. -/
theorem isUsable_of_usesType (grows : before.Grows bonds after)
    (start : before.catalogue.Housed []) (none : ∀ source target,
      ¬ before.catalogue.graph.Related source .usesType target)
    {source target : Nat} (related : after.catalogue.graph.Related source .usesType target) :
    after.catalogue.Accepts Node.isUsable target := by
  induction grows with
  | refl => exact absurd related (none source target)
  | @edge middle bond key attributes sofar among joins further =>
    have lasts : ∀ {id : Nat}, middle.catalogue.Accepts Node.isUsable id →
        (middle.catalogue.withEdge key attributes).Accepts Node.isUsable id :=
      (Grows.edge (.refl : middle.Grows bonds middle) among joins).accepts (sofar.housed start)
    rcases (sofar.housed start).sound.related_withEdge.mp related with old | rfl
    · exact lasts (further old)
    · obtain ⟨role, rfl⟩ : ∃ role, bond = .use role := by
        have relation := joins.relation_eq
        cases bond <;> simp_all [Bond.relation]
      exact lasts (joins.of_use rfl).2
  | @standIn middle spelling sofar fresh further =>
    exact (Grows.standIn (.refl : middle.Grows bonds middle) fresh).accepts (sofar.housed start)
      (further related)
  | note _ _ further => exact further related

end Grows

end Linking

end DeclGraph

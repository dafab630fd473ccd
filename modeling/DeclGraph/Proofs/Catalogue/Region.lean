import DeclGraph.Linking.Basic
import DeclGraph.Proofs.Catalogue.Detaching
import DeclGraph.Proofs.Catalogue.Spelled
import DeclGraph.Proofs.Linking.Parameters
import Mathlib.Data.List.Nodup

/-!
# Lookups within a region

A lookup passes scopes, the members of scopes by the names that it asks for, bases, and what
aliases stand for. Two catalogues that agree on a region that is closed under these steps
answer a lookup from there alike, whatever the later of them holds outside. It may also
hold more nodes and edges altogether: the bounds of the searches leave steps to spare.
-/

namespace DeclGraph

/-- Different nodes of a graph and one more are not more than it counts. -/
theorem Graph.length_lt_nodeCount {graph : Graph} {id : Nat} {ids : List Nat}
    (there : (graph.key? id).isSome) (new : id ∉ ids) (nodup : ids.Nodup)
    (allThere : ∀ other ∈ ids, (graph.key? other).isSome) : ids.length < graph.nodeCount := by
  have all := Graph.length_le_nodeCount (List.nodup_cons.mpr ⟨new, nodup⟩) fun other member => by
    rcases List.mem_cons.mp member with rfl | listed
    · exact there
    · exact allThere other listed
  rwa [List.length_cons] at all

/-- What encloses a node is a node. -/
theorem Graph.Sound.there_of_encloses {graph : Graph} (sound : graph.Sound) {scope id : Nat}
    (encloses : graph.Encloses scope id) : (graph.key? scope).isSome := by
  induction encloses with
  | directly related => exact (sound.there_of_related related).1
  | through _ _ outer => exact outer

/-- What lies in a scope lies in everything in which the scope lies. -/
theorem Graph.Encloses.trans {graph : Graph} {outer middle id : Nat}
    (first : graph.Encloses outer middle) (second : graph.Encloses middle id) :
    graph.Encloses outer id := by
  induction second with
  | directly related => exact .through first related
  | through _ related further => exact .through further related

/-- The names that a lookup asks scopes for before the last component of the spelling. -/
def Viewpoint.asked (viewpoint : Viewpoint) (spelling : String) : List String :=
  viewpoint.unit.unnamedNamespace :: (Spelling.components spelling).dropLast ++
    viewpoint.directives.flatMap fun directive => Spelling.components directive.opened

namespace Catalogue

/-- The later catalogue is as the earlier one as far as lookups of some names see that stay
within a region. -/
structure AgreeWithin (names : String → Prop) (region : Nat → Prop)
    (before after : Catalogue) : Prop where
  housed : before.Housed []
  there : ∀ {id : Nat}, region id → before.HasNode id
  root : region Graph.root
  member : ∀ {scope id : Nat} {name : String}, region scope → names name →
    id ∈ before.membersNamed scope name → region id
  base : ∀ {record base : Nat}, region record → base ∈ before.bases record → region base
  target : ∀ {id target : Nat}, region id → before.aliasTarget? id = some target → region target
  nodes : ∀ {id : Nat}, before.HasNode id →
    after.graph.nodeTable[id]? = before.graph.nodeTable[id]?
  memberIndex : after.memberIndex = before.memberIndex
  parent? : ∀ id, after.graph.parent? id = before.graph.parent? id
  nodeCount_le : before.graph.nodeCount ≤ after.graph.nodeCount
  edgeCount_le : before.graph.edgeCount ≤ after.graph.edgeCount
  bases : ∀ {id : Nat}, region id → after.bases id = before.bases id
  aliasTarget? : ∀ {id : Nat}, region id → after.aliasTarget? id = before.aliasTarget? id

section Bounds

variable {catalogue : Catalogue}

/-- The edges to bases from records that were not searched. -/
def unsearched (catalogue : Catalogue) (passed : List Nat) : List Edge :=
  catalogue.graph.edges.filter fun edge =>
    edge.relation = .inherits && !passed.contains edge.source

/-- Searching a record that was not searched uses up the edges to its bases. -/
theorem length_bases_add_unsearched_le (sound : catalogue.graph.Sound) {record : Nat}
    {passed : List Nat} (new : record ∉ passed) :
    (catalogue.bases record).length + (catalogue.unsearched (record :: passed)).length ≤
      (catalogue.unsearched passed).length := by
  have leaving : (catalogue.bases record).length ≤
      ((catalogue.unsearched passed).filter (·.source = record)).length := by
    have nodup : (catalogue.graph.outgoing record (some .inherits)).Nodup :=
      List.Nodup.of_map _ (sound.targets_nodup record .inherits)
    have among : catalogue.graph.outgoing record (some .inherits) ⊆
        (catalogue.unsearched passed).filter (·.source = record) := by
      intro edge leaves
      obtain ⟨found, rfl, relation⟩ := sound.mem_outgoing.mp leaves
      simp only [Option.all_some, decide_eq_true_eq] at relation
      simp [unsearched, sound.mem_edges, found, relation, new]
    refine Nat.le_trans (List.length_filter_le _ _) ?_
    rw [List.length_map]
    exact nodup.length_le_of_subset among
  have rest : catalogue.unsearched (record :: passed) =
      (catalogue.unsearched passed).filter fun edge => !decide (edge.source = record) := by
    rw [unsearched, unsearched, List.filter_filter]
    refine List.filter_congr fun edge _ => ?_
    by_cases same : edge.source = record <;> simp [same]
  have split := List.length_eq_length_filter_add (l := catalogue.unsearched passed)
    fun edge => decide (edge.source = record)
  rw [rest]
  omega

/-- Bases are searched for along edges, of which there are no more than the graph has. -/
theorem length_unsearched_le (catalogue : Catalogue) (passed : List Nat) :
    (catalogue.unsearched passed).length ≤ catalogue.graph.edgeCount := by
  refine Nat.le_trans (List.length_filter_le _ _) (Nat.le_of_eq ?_)
  rw [Graph.edges, values_eq_map_toList, List.length_map, Std.ExtTreeMap.length_toList]
  rfl

/-- All edges are enough for a search from the bases of a node. -/
theorem enough_for_bases (sound : catalogue.graph.Sound) (start : Nat) :
    (catalogue.bases start).length + (catalogue.unsearched [start]).length <
      catalogue.graph.edgeCount + 1 := by
  have used := length_bases_add_unsearched_le sound (List.not_mem_nil (a := start))
  have few := catalogue.length_unsearched_le []
  omega

end Bounds

/-- Nodes that were passed on the way outwards to a node. -/
structure Behind (catalogue : Catalogue) (id : Nat) (passed : List Nat) : Prop where
  nodup : passed.Nodup
  inside : ∀ former ∈ passed, catalogue.HasNode former ∧ catalogue.graph.Encloses id former

namespace Behind

variable {catalogue : Catalogue} {id scope : Nat} {passed : List Nat}

/-- At the start nothing has been passed. -/
theorem nil : catalogue.Behind id [] := ⟨List.nodup_nil, by simp⟩

variable (behind : catalogue.Behind id passed)

include behind

/-- No more nodes are passed than there are. -/
theorem length_le : passed.length ≤ catalogue.graph.nodeCount :=
  Graph.length_le_nodeCount behind.nodup fun former listed => (behind.inside former listed).1

variable (housed : catalogue.Housed [])

include housed

/-- A way outwards does not come back to where it is, as containment has no circles. -/
theorem not_mem : id ∉ passed := fun again =>
  housed.forest.not_encloses_self id (behind.inside id again).2

/-- Where a node has still to be passed, fewer were passed than there are. -/
theorem length_lt (there : catalogue.HasNode id) : passed.length < catalogue.graph.nodeCount :=
  Graph.length_lt_nodeCount there (behind.not_mem housed) behind.nodup fun former listed =>
    (behind.inside former listed).1

/-- One scope further, the node itself lies behind. -/
theorem outer (holds : catalogue.graph.Related scope .contains id) :
    catalogue.Behind scope (id :: passed) where
  nodup := List.nodup_cons.mpr ⟨behind.not_mem housed, behind.nodup⟩
  inside := by
    intro former listed
    rcases List.mem_cons.mp listed with rfl | earlier
    · exact ⟨(housed.sound.there_of_related holds).2, .directly holds⟩
    · exact ⟨(behind.inside former earlier).1, (behind.inside former earlier).2.outside holds⟩

end Behind

section Outward

variable {catalogue : Catalogue}

/-- What a scope shows, or else the namespaces opened in it. -/
def shownIn (catalogue : Catalogue) (unit : Option FilePath) (opened : Nat → List Nat)
    (accept : Node → Bool) (name : String) (scope : Nat) : List Nat :=
  let inScope := catalogue.visibleMembers unit accept name scope
  if inScope.isEmpty then
    distinct ((opened scope).flatMap (catalogue.visibleMembers unit accept name))
  else inScope

/-- The search outward gives what the first of the scopes shows that shows anything. -/
theorem searchOutward_eq (unit : Option FilePath) (opened : Nat → List Nat)
    (accept : Node → Bool) (name : String) (steps scope : Nat) :
    catalogue.searchOutward unit opened accept name steps scope =
      (((outwardFrom catalogue.graph steps scope).map
        (catalogue.shownIn unit opened accept name)).find?
          fun shown => !shown.isEmpty).getD [] := by
  induction steps generalizing scope with
  | zero => rfl
  | succ steps further =>
    show (if (catalogue.shownIn unit opened accept name scope).isEmpty then _
      else catalogue.shownIn unit opened accept name scope) = _
    rw [outwardFrom]
    cases catalogue.graph.parent? scope with
    | none => cases shown : catalogue.shownIn unit opened accept name scope <;> simp [shown]
    | some outer =>
      cases shown : catalogue.shownIn unit opened accept name scope <;> simp [shown, further]

end Outward

namespace AgreeWithin

variable {names : String → Prop} {region : Nat → Prop} {before after : Catalogue}
  (agree : before.AgreeWithin names region after)

include agree

/-- A node keeps its kind. -/
theorem kind?_eq {id : Nat} (there : before.HasNode id) : after.kind? id = before.kind? id := by
  rw [kind?, kind?, agree.nodes there]

/-- A node that is a record stays one. -/
theorem isRecord_eq {id : Nat} (there : before.HasNode id) :
    after.isRecord id = before.isRecord id := by
  rw [isRecord, isRecord, agree.kind?_eq there]

/-- The members of a name stay the same. -/
theorem membersNamed_eq (scope : Nat) (name : String) :
    after.membersNamed scope name = before.membersNamed scope name := by
  rw [membersNamed, membersNamed, agree.memberIndex]

/-- Members are nodes that lie in the scope. -/
theorem mem_membersNamed {scope id : Nat} {name : String}
    (member : id ∈ before.membersNamed scope name) :
    before.HasNode id ∧ before.graph.Related scope .contains id := by
  have related := (agree.housed.mem_members.mp member).1
  exact ⟨(agree.housed.sound.there_of_related related).2, related⟩

section Members

variable {unit : Option FilePath} {accept : Node → Bool} {name : String}

/-- Of the members of a name the same are accepted. -/
theorem accepted_eq (accept : Node → Bool) (scope : Nat) (name : String) :
    ((before.membersNamed scope name).filter fun id => after.graph.nodeTable[id]?.any accept) =
      (before.membersNamed scope name).filter fun id =>
        before.graph.nodeTable[id]?.any accept := by
  refine List.filter_congr fun id member => ?_
  rw [agree.nodes (agree.mem_membersNamed member).1]

/-- With enough steps for all scopes that do not lie around it, a scope shows the same
members. -/
theorem directMembers_eq {depth more scope : Nat} {around : List Nat} (le : depth ≤ more)
    (there : before.HasNode scope) (nodup : around.Nodup)
    (inside : ∀ outer ∈ around, before.HasNode outer ∧ before.graph.Encloses outer scope)
    (enough : before.graph.nodeCount ≤ depth + around.length) :
    after.directMembers unit accept name more scope =
      before.directMembers unit accept name depth scope := by
  induction depth generalizing more scope around with
  | zero =>
    have new : scope ∉ around := fun again =>
      agree.housed.forest.not_encloses_self scope (inside scope again).2
    have few := Graph.length_lt_nodeCount there new nodup fun outer member =>
      (inside outer member).1
    omega
  | succ depth deeper =>
    cases more with
    | zero => omega
    | succ more =>
      have new : scope ∉ around := fun again =>
        agree.housed.forest.not_encloses_self scope (inside scope again).2
      unfold directMembers
      simp only [agree.membersNamed_eq, agree.accepted_eq]
      split
      · cases unit with
        | none => rfl
        | some path =>
          refine List.flatMap_congr fun inner member => ?_
          obtain ⟨innerThere, holds⟩ := agree.mem_membersNamed member
          refine deeper (Nat.le_of_succ_le_succ le) innerThere
            (List.nodup_cons.mpr ⟨new, nodup⟩) ?_ (by rw [List.length_cons]; omega)
          intro outer listed
          rcases List.mem_cons.mp listed with rfl | further
          · exact ⟨there, .directly holds⟩
          · exact ⟨(inside outer further).1, .through (inside outer further).2 holds⟩
      · rfl

/-- The own members of a scope are found as before. -/
theorem ownMembers_eq {scope : Nat} (there : before.HasNode scope) :
    after.ownMembers unit accept name scope = before.ownMembers unit accept name scope :=
  agree.directMembers_eq agree.nodeCount_le there List.nodup_nil (by simp) (by simp)

/-- With enough steps for the queue and all edges that were not searched, the bases show the
same members. -/
theorem searchBases_eq {steps more : Nat} {passed queue : List Nat} (le : steps ≤ more)
    (within : ∀ record ∈ queue, region record)
    (enough : queue.length + (before.unsearched passed).length < steps) :
    after.searchBases unit accept name more passed queue =
      before.searchBases unit accept name steps passed queue := by
  induction steps generalizing more passed queue with
  | zero => omega
  | succ steps further =>
    cases more with
    | zero => omega
    | succ more =>
      cases queue with
      | nil => rfl
      | cons record queue =>
        have here := within record List.mem_cons_self
        have rest : ∀ other ∈ queue, region other := fun other member =>
          within other (List.mem_cons_of_mem _ member)
        rw [List.length_cons] at enough
        unfold searchBases
        simp only [agree.ownMembers_eq (agree.there here), agree.bases here]
        split
        · exact further (Nat.le_of_succ_le_succ le) rest (by omega)
        · rename_i new
          have used := length_bases_add_unsearched_le agree.housed.sound
            (show record ∉ passed by simpa using new)
          split
          · refine further (Nat.le_of_succ_le_succ le) ?_ (by rw [List.length_append]; omega)
            intro other member
            rcases List.mem_append.mp member with old | base
            · exact rest other old
            · exact agree.base here base
          · rfl

/-- What is visible in a scope of the region is what was visible before. -/
theorem visibleMembers_eq {scope : Nat} (within : region scope) :
    after.visibleMembers unit accept name scope = before.visibleMembers unit accept name scope := by
  have there := agree.there within
  unfold visibleMembers
  simp only [agree.ownMembers_eq there, agree.isRecord_eq there, agree.bases within]
  split
  · exact agree.searchBases_eq (Nat.add_le_add_right agree.edgeCount_le 1)
      (fun base member => agree.base within member) (enough_for_bases agree.housed.sound scope)
  · rfl

variable (named : names name) (unnamed : ∀ path, unit = some path → names path.unnamedNamespace)

include named unnamed

/-- What a scope of the region shows under the names lies in the region. -/
theorem within_of_mem_directMembers {depth scope id : Nat} (within : region scope)
    (member : id ∈ before.directMembers unit accept name depth scope) : region id := by
  induction depth generalizing scope with
  | zero => cases member
  | succ depth deeper =>
    unfold directMembers at member
    dsimp only at member
    split at member
    · cases unit with
      | none => cases member
      | some path =>
        obtain ⟨inner, isInner, found⟩ := List.mem_flatMap.mp member
        exact deeper (agree.member within (unnamed path rfl) isInner) found
    · exact agree.member within named (List.mem_filter.mp member).1

/-- The search through bases does not leave the region. -/
theorem within_of_mem_searchBases {steps : Nat} {passed queue : List Nat} {id : Nat}
    (within : ∀ record ∈ queue, region record)
    (member : id ∈ before.searchBases unit accept name steps passed queue) : region id := by
  induction steps generalizing passed queue with
  | zero => cases member
  | succ steps further =>
    cases queue with
    | nil => cases member
    | cons record queue =>
      have here := within record List.mem_cons_self
      have rest : ∀ other ∈ queue, region other := fun other listed =>
        within other (List.mem_cons_of_mem _ listed)
      unfold searchBases at member
      dsimp only at member
      split at member
      · exact further rest member
      · split at member
        · refine further (fun other listed => ?_) member
          rcases List.mem_append.mp listed with old | base
          · exact rest other old
          · exact agree.base here base
        · exact agree.within_of_mem_directMembers named unnamed here member

/-- What is visible in a scope of the region lies in the region. -/
theorem within_of_mem_visibleMembers {scope id : Nat} (within : region scope)
    (member : id ∈ before.visibleMembers unit accept name scope) : region id := by
  unfold visibleMembers at member
  dsimp only at member
  split at member
  · exact agree.within_of_mem_searchBases named unnamed
      (fun base listed => agree.base within listed) member
  · exact agree.within_of_mem_directMembers named unnamed within member

end Members

section Aliases

/-- With enough steps for all aliases that were not passed, aliases lead to the same end. -/
theorem followAliases_eq {steps more id : Nat} {passed : List Nat} (le : steps ≤ more)
    (within : region id) (nodup : passed.Nodup) (behind : ∀ former ∈ passed, before.HasNode former)
    (enough : before.graph.nodeCount ≤ steps + passed.length) :
    after.followAliases more passed id = before.followAliases steps passed id := by
  have there := agree.there within
  induction steps generalizing more id passed with
  | zero =>
    have again : id ∈ passed := by
      by_contra new
      have few := Graph.length_lt_nodeCount there new nodup behind
      omega
    cases more with
    | zero => rfl
    | succ more => simp [followAliases, again]
  | succ steps further =>
    cases more with
    | zero => omega
    | succ more =>
      unfold followAliases
      rw [agree.kind?_eq there, agree.aliasTarget? within]
      split
      · rename_i isAlias
        cases found : before.aliasTarget? id with
        | none => rfl
        | some next =>
          have new : id ∉ passed := by simpa using isAlias.2
          have nextWithin := agree.target within found
          refine further (Nat.le_of_succ_le_succ le) nextWithin
            (List.nodup_cons.mpr ⟨new, nodup⟩) ?_ (by rw [List.length_cons]; omega)
            (agree.there nextWithin)
          intro former member
          rcases List.mem_cons.mp member with rfl | earlier
          · exact there
          · exact behind former earlier
      · rfl

/-- In the region aliases lead where they have led. -/
theorem dealias_eq {id : Nat} (within : region id) : after.dealias id = before.dealias id :=
  agree.followAliases_eq agree.nodeCount_le within List.nodup_nil (by simp) (by simp)

/-- An alias of the region leads to a node of the region. -/
theorem within_dealias {id : Nat} (within : region id) : region (before.dealias id) := by
  unfold dealias
  generalize before.graph.nodeCount = steps
  generalize ([] : List Nat) = passed
  induction steps generalizing id passed with
  | zero => exact within
  | succ steps further =>
    unfold followAliases
    split
    · cases found : before.aliasTarget? id with
      | none => exact within
      | some next => exact further (agree.target within found) _
    · exact within

end Aliases

section Outward

/-- With enough steps for all nodes that were not passed, the way outwards is the same. -/
theorem outwardFrom_eq {steps more id : Nat} {passed : List Nat} (le : steps ≤ more)
    (there : before.HasNode id) (behind : before.Behind id passed)
    (enough : before.graph.nodeCount ≤ steps + passed.length) :
    outwardFrom after.graph more id = outwardFrom before.graph steps id := by
  have few := behind.length_lt agree.housed there
  induction steps generalizing more id passed with
  | zero => omega
  | succ steps further =>
    cases more with
    | zero => omega
    | succ more =>
      unfold outwardFrom
      rw [agree.parent?]
      cases found : before.graph.parent? id with
      | none => rfl
      | some scope =>
        have scopeThere := hasNode_of_parent? agree.housed.sound found
        have next := behind.outer agree.housed (agree.housed.sound.related_of_parent? found)
        exact congrArg (id :: ·) (further (Nat.le_of_succ_le_succ le) scopeThere next
          (by rw [List.length_cons]; omega) (next.length_lt agree.housed scopeThere))

/-- The way outwards from a node stays the same. -/
theorem wayOut_eq {id : Nat} (there : before.HasNode id) :
    outwardFrom after.graph (after.graph.nodeCount + 1) id =
      outwardFrom before.graph (before.graph.nodeCount + 1) id :=
  agree.outwardFrom_eq (Nat.add_le_add_right agree.nodeCount_le 1) there .nil (by simp)

/-- The same template parameters are in force. -/
theorem templateParameters_eq {id : Nat} (there : before.HasNode id) :
    after.templateParameters id = before.templateParameters id := by
  unfold templateParameters
  rw [agree.wayOut_eq there]
  congr 1
  refine List.filterMap_congr fun around member => ?_
  refine agree.nodes ?_
  rcases agree.housed.sound.encloses_of_mem_outwardFrom member with rfl | encloses
  · exact there
  · exact agree.housed.sound.there_of_encloses encloses

end Outward

section Spelled

variable {unit : Option FilePath} {accept : Node → Bool} {opened openedAfter : Nat → List Nat}
  {name : String} {scope : Nat}

/-- In the scope and around it the same namespaces of the region are opened. -/
structure OpensAlike (before : Catalogue) (region : Nat → Prop) (scope : Nat)
    (opened openedAfter : Nat → List Nat) : Prop where
  around : ∀ {around : Nat}, around = scope ∨ before.graph.Encloses around scope → region around
  same : ∀ {around : Nat}, around = scope ∨ before.graph.Encloses around scope →
    openedAfter around = opened around
  within : ∀ {around id : Nat}, around = scope ∨ before.graph.Encloses around scope →
    id ∈ opened around → region id

omit agree in
/-- Where nothing is opened the same is opened. -/
theorem OpensAlike.nothing (around : ∀ {around : Nat},
    around = scope ∨ before.graph.Encloses around scope → region around) :
    OpensAlike before region scope (fun _ => []) (fun _ => []) :=
  ⟨around, fun _ => rfl, fun _ member => by cases member⟩

/-- On the way outwards the same is shown in each scope. -/
theorem shownIn_eq {around : Nat} (outer : around = scope ∨ before.graph.Encloses around scope)
    (alike : OpensAlike before region scope opened openedAfter) :
    after.shownIn unit openedAfter accept name around =
      before.shownIn unit opened accept name around := by
  unfold shownIn
  rw [agree.visibleMembers_eq (alike.around outer), alike.same outer,
    List.flatMap_congr fun inner member => agree.visibleMembers_eq (alike.within outer member)]

/-- An unqualified name means the same. -/
theorem unqualified_eq (alike : OpensAlike before region scope opened openedAfter) :
    after.unqualified unit openedAfter accept name scope =
      before.unqualified unit opened accept name scope := by
  unfold unqualified
  rw [searchOutward_eq, searchOutward_eq, agree.wayOut_eq (agree.there (alike.around (.inl rfl))),
    List.map_congr_left fun around member =>
      agree.shownIn_eq (agree.housed.sound.encloses_of_mem_outwardFrom member) alike]

/-- What the first component of a spelled name means. -/
theorem first_eq (rooted : Bool) (alike : OpensAlike before region scope opened openedAfter) :
    (if rooted then after.visibleMembers unit accept name Graph.root
      else after.unqualified unit openedAfter accept name scope) =
    if rooted then before.visibleMembers unit accept name Graph.root
      else before.unqualified unit opened accept name scope := by
  rw [agree.visibleMembers_eq agree.root, agree.unqualified_eq alike]

variable (unnamed : ∀ path, unit = some path → names path.unnamedNamespace)

include unnamed

/-- What an unqualified name means lies in the region. -/
theorem within_of_mem_unqualified {id : Nat} (named : names name)
    (alike : OpensAlike before region scope opened openedAfter)
    (member : id ∈ before.unqualified unit opened accept name scope) : region id := by
  unfold unqualified at member
  rw [searchOutward_eq] at member
  cases shown : ((outwardFrom before.graph (before.graph.nodeCount + 1) scope).map
      (before.shownIn unit opened accept name)).find? fun shown => !shown.isEmpty with
  | none =>
    rw [shown] at member
    cases member
  | some found =>
    rw [shown] at member
    obtain ⟨around, onTheWay, rfl⟩ := List.mem_map.mp (List.mem_of_find?_eq_some shown)
    have outer := agree.housed.sound.encloses_of_mem_outwardFrom onTheWay
    replace member : id ∈ before.shownIn unit opened accept name around := member
    unfold shownIn at member
    dsimp only at member
    split at member
    · obtain ⟨inner, isOpened, visible⟩ := List.mem_flatMap.mp (mem_distinct.mp member)
      exact agree.within_of_mem_visibleMembers named unnamed (alike.within outer isOpened) visible
    · exact agree.within_of_mem_visibleMembers named unnamed (alike.around outer) member

/-- What the first name of a spelling means lies in the region. -/
theorem within_of_mem_first {id : Nat} (rooted : Bool) (named : names name)
    (alike : OpensAlike before region scope opened openedAfter)
    (member : id ∈ if rooted then before.visibleMembers unit accept name Graph.root
      else before.unqualified unit opened accept name scope) : region id := by
  cases rooted with
  | true => exact agree.within_of_mem_visibleMembers named unnamed agree.root member
  | false => exact agree.within_of_mem_unqualified unnamed named alike member

/-- Names that are looked up one in the other lead to the same scopes of the region. -/
theorem descend_eq {further : List String} {scopes : List Nat}
    (named : ∀ name ∈ further, names name) (within : ∀ id ∈ scopes, region id) :
    after.descend unit scopes further = before.descend unit scopes further ∧
      ∀ id ∈ before.descend unit scopes further, region id := by
  induction further generalizing scopes with
  | nil => exact ⟨rfl, within⟩
  | cons name rest next =>
    have here : (scopes.flatMap fun scope =>
        after.visibleMembers unit hasMembers name (after.dealias scope)) =
        scopes.flatMap fun scope =>
          before.visibleMembers unit hasMembers name (before.dealias scope) := by
      refine List.flatMap_congr fun id member => ?_
      rw [agree.dealias_eq (within id member),
        agree.visibleMembers_eq (agree.within_dealias (within id member))]
    unfold descend
    rw [here]
    refine next (fun other member => named other (List.mem_cons_of_mem _ member))
      fun id member => ?_
    obtain ⟨start, isStart, visible⟩ := List.mem_flatMap.mp member
    exact agree.within_of_mem_visibleMembers (named name List.mem_cons_self) unnamed
      (agree.within_dealias (within start isStart)) visible

variable {spelling : String}

/-- A spelled name means the same. -/
theorem resolveWith_eq
    (named : ∀ name ∈ (Spelling.components spelling).dropLast, names name)
    (alike : OpensAlike before region scope opened openedAfter) :
    after.resolveWith unit openedAfter accept spelling scope =
      before.resolveWith unit opened accept spelling scope := by
  unfold Spelling.components at named
  unfold resolveWith
  dsimp only
  cases components : (ScopedName.ofSpelling (Spelling.withoutArguments spelling)).segments with
  | nil => rfl
  | cons first further =>
    rw [components] at named
    cases further with
    | nil => exact agree.first_eq _ alike
    | cons second further =>
      have firstNamed : names first := named first (by simp)
      have furtherNamed : ∀ name ∈ (second :: further).dropLast, names name :=
        fun name member => named name (by
          rw [List.dropLast_cons_of_ne_nil (by simp)]
          simp [member])
      have starts : (if [':', ':'].isPrefixOf (Spelling.withoutArguments spelling).toList then
            after.visibleMembers unit hasMembers first Graph.root
          else after.unqualified unit openedAfter hasMembers first scope) =
          if [':', ':'].isPrefixOf (Spelling.withoutArguments spelling).toList then
            before.visibleMembers unit hasMembers first Graph.root
          else before.unqualified unit opened hasMembers first scope :=
        agree.first_eq _ alike
      obtain ⟨walks, walksWithin⟩ := agree.descend_eq unnamed furtherNamed fun id =>
        agree.within_of_mem_first unnamed _ firstNamed alike
      dsimp only at starts walks walksWithin ⊢
      rw [starts, walks]
      refine congrArg distinct (List.flatMap_congr fun id member => ?_)
      rw [agree.dealias_eq (walksWithin id member),
        agree.visibleMembers_eq (agree.within_dealias (walksWithin id member))]

/-- What a spelled name means lies in the region, if the last component is asked for too. -/
theorem within_of_mem_resolveWith {id : Nat}
    (named : ∀ name ∈ Spelling.components spelling, names name)
    (alike : OpensAlike before region scope opened openedAfter)
    (member : id ∈ before.resolveWith unit opened accept spelling scope) : region id := by
  unfold Spelling.components at named
  unfold resolveWith at member
  dsimp only at member
  cases components : (ScopedName.ofSpelling (Spelling.withoutArguments spelling)).segments with
  | nil =>
    rw [components] at member
    cases member
  | cons first further =>
    rw [components] at member named
    cases further with
    | nil => exact agree.within_of_mem_first unnamed _ (named first (by simp)) alike member
    | cons second further =>
      have furtherNamed : ∀ name ∈ second :: further, names name :=
        fun name listed => named name (List.mem_cons_of_mem _ listed)
      obtain ⟨_, walksWithin⟩ := agree.descend_eq unnamed
        (fun name listed => furtherNamed name (List.dropLast_subset _ listed)) fun id =>
        agree.within_of_mem_first unnamed _ (named first (by simp)) alike
      obtain ⟨inner, walked, visible⟩ := List.mem_flatMap.mp (mem_distinct.mp member)
      refine agree.within_of_mem_visibleMembers (furtherNamed _ ?_) unnamed
        (agree.within_dealias (walksWithin inner walked)) visible
      rw [List.getLastD_eq_getLast?, List.getLast?_eq_some_getLast (by simp)]
      exact List.getLast_mem _

end Spelled

section Viewed

variable {viewpoint : Viewpoint} {accept : Node → Bool} {spelling : String} {scope : Nat}

/-- The same namespaces are opened by the directives of a unit. -/
theorem opensAlike_openedIn (asked : ∀ name ∈ viewpoint.asked spelling, names name)
    (around : ∀ {around : Nat}, around = scope ∨ before.graph.Encloses around scope →
      region around) :
    OpensAlike before region scope (before.openedIn viewpoint) (after.openedIn viewpoint) := by
  have unnamed : ∀ path, some viewpoint.unit = some path → names path.unnamedNamespace := by
    rintro path same
    cases same
    exact asked _ List.mem_cons_self
  have named : ∀ directive ∈ viewpoint.directives,
      ∀ name ∈ Spelling.components directive.opened, names name :=
    fun directive among name member => asked name (List.mem_cons_of_mem _
      (List.mem_append_right _ (List.mem_flatMap.mpr ⟨directive, among, member⟩)))
  -- What lies around a scope further out lies around the scope.
  have nothing : ∀ {outer : Nat}, outer = scope ∨ before.graph.Encloses outer scope →
      OpensAlike before region outer (fun _ => []) (fun _ => []) := by
    intro outer isOuter
    refine .nothing fun {farther} isFarther => around ?_
    rcases isFarther with rfl | outside
    · exact isOuter
    · rcases isOuter with rfl | inside
      · exact .inr outside
      · exact .inr (outside.trans inside)
  refine ⟨around, fun {outer} isOuter => ?_, fun {outer id} isOuter member => ?_⟩
  · unfold openedIn
    rw [agree.nodes (agree.there (around isOuter))]
    cases before.graph.nodeTable[outer]? with
    | none => rfl
    | some node =>
      have each : ∀ directive ∈ viewpoint.directives.filter (·.scope = node.key.name),
          after.openedBy viewpoint.unit directive outer =
            before.openedBy viewpoint.unit directive outer := fun directive member =>
        agree.resolveWith_eq unnamed (fun name listed => named directive
          (List.mem_of_mem_filter member) name (List.dropLast_subset _ listed)) (nothing isOuter)
      dsimp only
      rw [List.flatMap_congr each]
  · unfold openedIn at member
    cases found : before.graph.nodeTable[outer]? with
    | none =>
      rw [found] at member
      cases member
    | some node =>
      rw [found] at member
      have listed := List.mem_of_mem_filter (mem_distinct.mp member)
      obtain ⟨directive, here, opens⟩ := List.mem_flatMap.mp listed
      exact agree.within_of_mem_resolveWith unnamed
        (named directive (List.mem_of_mem_filter here)) (nothing isOuter) opens

/-- What a spelled name means to a unit is the same. -/
theorem resolveFrom_eq (asked : ∀ name ∈ viewpoint.asked spelling, names name)
    (around : ∀ {around : Nat}, around = scope ∨ before.graph.Encloses around scope →
      region around) :
    after.resolveFrom viewpoint accept spelling scope =
      before.resolveFrom viewpoint accept spelling scope := by
  refine agree.resolveWith_eq ?_ (fun name member => asked name ?_)
    (agree.opensAlike_openedIn asked around)
  · rintro path same
    cases same
    exact asked _ List.mem_cons_self
  · exact List.mem_cons_of_mem _ (List.mem_append_left _ member)

end Viewed

end AgreeWithin

end Catalogue

end DeclGraph

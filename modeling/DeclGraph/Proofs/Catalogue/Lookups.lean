import DeclGraph.Catalogue.Lookup
import DeclGraph.Proofs.Graph.Reading

/-!
# What lookups find

Whatever a lookup finds is listed as a member of some scope, and is a node of the
graph that the lookup accepts. Aliases lead from nodes of the graph to nodes of
the graph.
-/

namespace DeclGraph

namespace Catalogue

variable {catalogue : Catalogue} {unit : Option FilePath} {accept : Node → Bool} {name : String}

/-- The number is that of a node. -/
def HasNode (catalogue : Catalogue) (id : Nat) : Prop := (catalogue.graph.key? id).isSome

/-- The number is that of an accepted node. -/
def Accepts (catalogue : Catalogue) (accept : Node → Bool) (id : Nat) : Prop :=
  ∃ node, catalogue.graph.nodeTable[id]? = some node ∧ accept node

/-- The number is one that a lookup can find: that of an accepted node which is
listed as a member. -/
structure Findable (catalogue : Catalogue) (accept : Node → Bool) (id : Nat) : Prop where
  listed : ∃ scope name, id ∈ catalogue.membersNamed scope name
  accepted : catalogue.Accepts accept id

/-- A lookup accepts a node when the node is there and fits. -/
theorem accepts_iff {id : Nat} :
    (catalogue.graph.nodeTable[id]?).any accept = true ↔ catalogue.Accepts accept id := by
  unfold Accepts
  cases catalogue.graph.nodeTable[id]? <;> simp

/-- What is not there has no entry. -/
theorem not_hasNode_iff {id : Nat} :
    ¬ catalogue.HasNode id ↔ catalogue.graph.nodeTable[id]? = none := by
  rw [HasNode, Graph.key?, Option.isSome_map, Option.not_isSome_iff_eq_none]

/-- What a lookup accepts is there. -/
theorem Accepts.hasNode {id : Nat} (accepted : catalogue.Accepts accept id) :
    catalogue.HasNode id := by
  obtain ⟨node, found, _⟩ := accepted
  exact Graph.isSome_key?_iff.mpr ⟨node, found⟩

/-- The root is there. -/
theorem hasNode_root (sound : catalogue.graph.Sound) : catalogue.HasNode Graph.root := by
  rw [HasNode, sound.root_key]
  rfl

/-- The scope of a node is there. -/
theorem hasNode_of_parent? (sound : catalogue.graph.Sound) {id scope : Nat}
    (found : catalogue.graph.parent? id = some scope) : catalogue.HasNode scope :=
  (sound.there_of_related (sound.related_of_parent? found)).1

/-- The scope that holds a node is there. -/
theorem hasNode_scopeOf (sound : catalogue.graph.Sound) (id : Nat) :
    catalogue.HasNode (catalogue.scopeOf id) := by
  unfold scopeOf
  cases found : catalogue.graph.parent? id with
  | none => exact hasNode_root sound
  | some scope => exact hasNode_of_parent? sound found

/-- A record derives from each of its bases. -/
theorem related_of_mem_bases (sound : catalogue.graph.Sound) {record base : Nat}
    (isBase : base ∈ catalogue.bases record) : catalogue.graph.Related record .inherits base :=
  sound.mem_targets.mp (List.mem_filter.mp isBase).1

/-- The bases of a record are there. -/
theorem hasNode_of_mem_bases (sound : catalogue.graph.Sound) {record base : Nat}
    (isBase : base ∈ catalogue.bases record) : catalogue.HasNode base :=
  (sound.there_of_related (related_of_mem_bases sound isBase)).2

/-- The target of an alias is there. -/
theorem hasNode_aliasTarget? (sound : catalogue.graph.Sound) {id target : Nat}
    (found : catalogue.aliasTarget? id = some target) : catalogue.HasNode target := by
  obtain ⟨edge, first, rfl⟩ := Option.map_eq_some_iff.mp found
  have listed := List.mem_of_find?_eq_some first
  exact (sound.there_of_related (sound.mem_targets.mp (List.mem_map.mpr ⟨edge, listed, rfl⟩))).2

/-- Following aliases from a node leads to a node. -/
theorem hasNode_followAliases (sound : catalogue.graph.Sound) {steps : Nat} {passed : List Nat}
    {id : Nat} (there : catalogue.HasNode id) :
    catalogue.HasNode (catalogue.followAliases steps passed id) := by
  induction steps generalizing passed id with
  | zero => exact there
  | succ steps further =>
    unfold followAliases
    split
    · split
      · rename_i target found
        exact further (hasNode_aliasTarget? sound found)
      · exact there
    · exact there

/-- An alias of the graph stands for a node of the graph. -/
theorem hasNode_dealias (sound : catalogue.graph.Sound) {id : Nat}
    (there : catalogue.HasNode id) : catalogue.HasNode (catalogue.dealias id) :=
  hasNode_followAliases sound there

/-- What is found among the members of a scope is accepted and listed as a member. -/
theorem findable_of_mem_directMembers {depth scope id : Nat}
    (member : id ∈ catalogue.directMembers unit accept name depth scope) :
    catalogue.Findable accept id := by
  induction depth generalizing scope with
  | zero => simp [directMembers] at member
  | succ depth deeper =>
    unfold directMembers at member
    dsimp only at member
    split at member
    · split at member
      · cases member
      · obtain ⟨inner, _, found⟩ := List.mem_flatMap.mp member
        exact deeper found
    · obtain ⟨listed, accepted⟩ := List.mem_filter.mp member
      exact ⟨⟨scope, name, listed⟩, accepts_iff.mp accepted⟩

/-- What is found among the own members of a scope is accepted and listed as a member. -/
theorem findable_of_mem_ownMembers {scope id : Nat}
    (member : id ∈ catalogue.ownMembers unit accept name scope) : catalogue.Findable accept id :=
  findable_of_mem_directMembers member

/-- What is found in the bases of a record is accepted and listed as a member. -/
theorem findable_of_mem_searchBases {steps : Nat} {passed queue : List Nat} {id : Nat}
    (member : id ∈ catalogue.searchBases unit accept name steps passed queue) :
    catalogue.Findable accept id := by
  induction steps generalizing passed queue with
  | zero => simp [searchBases] at member
  | succ steps further =>
    cases queue with
    | nil => simp [searchBases] at member
    | cons record queue =>
      unfold searchBases at member
      dsimp only at member
      split at member
      · exact further member
      · split at member
        · exact further member
        · exact findable_of_mem_ownMembers member

/-- What is visible in a scope is accepted and listed as a member. -/
theorem findable_of_mem_visibleMembers {scope id : Nat}
    (member : id ∈ catalogue.visibleMembers unit accept name scope) :
    catalogue.Findable accept id := by
  unfold visibleMembers at member
  dsimp only at member
  split at member
  · exact findable_of_mem_searchBases member
  · exact findable_of_mem_ownMembers member

/-- What is found on the walk outward is accepted and listed as a member. -/
theorem findable_of_mem_searchOutward {opened : Nat → List Nat} {steps scope id : Nat}
    (member : id ∈ catalogue.searchOutward unit opened accept name steps scope) :
    catalogue.Findable accept id := by
  induction steps generalizing scope with
  | zero => simp [searchOutward] at member
  | succ steps further =>
    have here : ∀ {found}, found ∈ (if (catalogue.visibleMembers unit accept name scope).isEmpty
          then distinct ((opened scope).flatMap (catalogue.visibleMembers unit accept name))
          else catalogue.visibleMembers unit accept name scope) →
        catalogue.Findable accept found := by
      intro found listed
      split at listed
      · obtain ⟨inner, _, visible⟩ := List.mem_flatMap.mp (mem_distinct.mp listed)
        exact findable_of_mem_visibleMembers visible
      · exact findable_of_mem_visibleMembers listed
    unfold searchOutward at member
    dsimp only at member
    generalize (if (catalogue.visibleMembers unit accept name scope).isEmpty
      then distinct ((opened scope).flatMap (catalogue.visibleMembers unit accept name))
      else catalogue.visibleMembers unit accept name scope) = found at member here
    split at member
    · split at member
      · exact further member
      · cases member
    · exact here member

/-- Whatever a name means is an accepted member of some scope. -/
theorem findable_of_mem_resolveWith {opened : Nat → List Nat} {spelling : String} {scope id : Nat}
    (member : id ∈ catalogue.resolveWith unit opened accept spelling scope) :
    catalogue.Findable accept id := by
  unfold resolveWith at member
  dsimp only at member
  split at member
  · cases member
  · split at member
    · exact findable_of_mem_visibleMembers member
    · exact findable_of_mem_searchOutward member
  · obtain ⟨inner, _, found⟩ := List.mem_flatMap.mp (mem_distinct.mp member)
    exact findable_of_mem_visibleMembers found

/-- What a name means is accepted. -/
theorem accepts_of_mem_resolveFrom {viewpoint : Viewpoint} {spelling : String} {scope id : Nat}
    (member : id ∈ catalogue.resolveFrom viewpoint accept spelling scope) :
    catalogue.Accepts accept id :=
  (findable_of_mem_resolveWith member).accepted

/-- What is found as a member is accepted. -/
theorem accepts_of_mem_lookupMember {scope id : Nat}
    (member : id ∈ catalogue.lookupMember accept name scope) : catalogue.Accepts accept id :=
  (findable_of_mem_visibleMembers member).accepted

end Catalogue

end DeclGraph

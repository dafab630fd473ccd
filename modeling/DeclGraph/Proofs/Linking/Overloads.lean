import DeclGraph.Linking.Overloads
import DeclGraph.Proofs.Linking.Step

/-!
# Overloads are mutual

The callables of one scope and one name form a group, and the pairs of a group
are linked in both directions.
-/

namespace DeclGraph

namespace Catalogue

/-- Where a node stands among the overloads. -/
def overloadKey (catalogue : Catalogue) (node : Node) : MemberKey :=
  ⟨catalogue.scopeOf node.id, node.key.name.simple⟩

/-- Numbers appended one after the other are listed in this order, each under
its key. -/
theorem listAt_foldl_appendAt {α β : Type} [Ord β] [Std.TransOrd β] [Std.LawfulEqOrd β]
    [DecidableEq β] (key : α → β) (number : α → Nat) (items : List α)
    (groups : Std.ExtTreeMap β (List Nat)) (at_ : β) :
    Graph.listAt (items.foldl (fun groups item => Graph.appendAt groups (key item) (number item))
        groups) at_ =
      Graph.listAt groups at_ ++ (items.filter fun item => key item = at_).map number := by
  induction items generalizing groups with
  | nil => simp
  | cons item rest further =>
    rw [List.foldl_cons, further]
    by_cases same : key item = at_
    · subst same
      simp [Graph.listAt_appendAt_self]
    · simp [Graph.listAt_appendAt_of_ne _ _ same, same]

/-- The callables that can be overloaded, by scope and name. -/
def overloadIndex (catalogue : Catalogue) : Std.ExtTreeMap MemberKey (List Nat) :=
  (catalogue.graph.nodes.filter fun node => node.kind.isOverloadable).foldl
    (fun groups node => Graph.appendAt groups (catalogue.overloadKey node) node.id) ∅

variable {catalogue : Catalogue}

/-- The index lists under a key the overloadable nodes that have it. -/
theorem mem_overloadIndex (sound : catalogue.graph.Sound) {at_ : MemberKey} {id : Nat} :
    id ∈ Graph.listAt catalogue.overloadIndex at_ ↔
      ∃ node, catalogue.graph.nodeTable[id]? = some node ∧ node.kind.isOverloadable ∧
        catalogue.overloadKey node = at_ := by
  rw [overloadIndex, listAt_foldl_appendAt catalogue.overloadKey (·.id)]
  simp only [Graph.listAt_empty, List.nil_append, List.mem_map, List.mem_filter, sound.mem_nodes,
    decide_eq_true_eq]
  constructor
  · rintro ⟨node, ⟨⟨found, overloadable⟩, same⟩, rfl⟩
    exact ⟨node, found, overloadable, same⟩
  · rintro ⟨node, found, overloadable, same⟩
    have number := sound.node_id found
    exact ⟨node, ⟨⟨by rwa [number], overloadable⟩, same⟩, number⟩

/-- The pairs that are linked are those of different callables with the same
scope and name. -/
theorem mem_overloadPairs (sound : catalogue.graph.Sound) {first second : Nat} :
    (first, second) ∈ catalogue.overloadGroups.flatMap pairsWithin ↔
      second ≠ first ∧ ∃ one other, catalogue.graph.nodeTable[first]? = some one ∧
        catalogue.graph.nodeTable[second]? = some other ∧ one.kind.isOverloadable ∧
        other.kind.isOverloadable ∧ catalogue.overloadKey one = catalogue.overloadKey other := by
  have groups : catalogue.overloadGroups = catalogue.overloadIndex.values := rfl
  rw [groups, List.mem_flatMap]
  constructor
  · rintro ⟨group, isGroup, pair⟩
    obtain ⟨firstIn, secondIn, apart⟩ := mem_pairsWithin.mp pair
    obtain ⟨at_, held⟩ := mem_values.mp isGroup
    have isList : Graph.listAt catalogue.overloadIndex at_ = group := by simp [Graph.listAt, held]
    rw [← isList, mem_overloadIndex sound] at firstIn secondIn
    obtain ⟨one, oneFound, oneOverloadable, oneKey⟩ := firstIn
    obtain ⟨other, otherFound, otherOverloadable, otherKey⟩ := secondIn
    exact ⟨apart, one, other, oneFound, otherFound, oneOverloadable, otherOverloadable,
      oneKey.trans otherKey.symm⟩
  · rintro ⟨apart, one, other, oneFound, otherFound, oneOverloadable, otherOverloadable, same⟩
    have firstIn := (mem_overloadIndex sound).mpr ⟨one, oneFound, oneOverloadable, rfl⟩
    have secondIn := (mem_overloadIndex sound).mpr ⟨other, otherFound, otherOverloadable, same.symm⟩
    refine ⟨_, ?_, mem_pairsWithin.mpr ⟨firstIn, secondIn, apart⟩⟩
    refine mem_values.mpr ⟨catalogue.overloadKey one, ?_⟩
    unfold Graph.listAt at firstIn ⊢
    cases held : catalogue.overloadIndex[catalogue.overloadKey one]? with
    | none => simp [held] at firstIn
    | some group => rfl

/-- The pairs of overloads hold both ways. -/
theorem overloadPairs_symm (sound : catalogue.graph.Sound) {first second : Nat}
    (pair : (first, second) ∈ catalogue.overloadGroups.flatMap pairsWithin) :
    (second, first) ∈ catalogue.overloadGroups.flatMap pairsWithin := by
  obtain ⟨apart, one, other, oneFound, otherFound, oneCan, otherCan, same⟩ :=
    (mem_overloadPairs sound).mp pair
  exact (mem_overloadPairs sound).mpr
    ⟨apart.symm, other, one, otherFound, oneFound, otherCan, oneCan, same.symm⟩

end Catalogue

namespace Linking

variable {before : Linking}

/-- Overloads link every two callables of one scope and name. -/
theorem succeeds_linkOverloads (housed : before.catalogue.Housed []) :
    Succeeds linkOverloads before fun _ after => before.Grows [.overloads] after ∧
      ∀ source target, after.catalogue.graph.Related source .overloads target ↔
        before.catalogue.graph.Related source .overloads target ∨
          (source, target) ∈ before.catalogue.overloadGroups.flatMap pairsWithin := by
  refine succeeds_bind (succeeds_get ?_)
  refine (succeeds_relateAll .overloads rfl Prod.fst Prod.snd housed
    fun pair member => ?_).weaken ?_
  · obtain ⟨_, one, other, oneFound, otherFound, _⟩ :=
      (Catalogue.mem_overloadPairs housed.sound).mp member
    exact ⟨Graph.isSome_key?_iff.mpr ⟨one, oneFound⟩,
      Graph.isSome_key?_iff.mpr ⟨other, otherFound⟩⟩
  · rintro _ after ⟨grows, related⟩
    refine ⟨grows, fun source target => ?_⟩
    have among : (∃ pair ∈ before.catalogue.overloadGroups.flatMap pairsWithin,
        pair.1 = source ∧ pair.2 = target) ↔
          (source, target) ∈ before.catalogue.overloadGroups.flatMap pairsWithin :=
      ⟨fun ⟨_, member, isSource, isTarget⟩ => isSource ▸ isTarget ▸ member,
        fun member => ⟨_, member, rfl, rfl⟩⟩
    rw [← among]
    exact related source target

end Linking

end DeclGraph

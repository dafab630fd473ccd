import DeclGraph.Proofs.Linking.Growth
import Mathlib.Logic.Relation

/-!
# Where aliases end

Following aliases from a node ends at a node that is no alias, at an alias that
stands for nothing, or on a cycle of aliases. The bound on the steps is never what
ends it, since no alias is passed twice.
-/

namespace DeclGraph

namespace Catalogue

/-- An alias stands for a node directly. -/
def StandsFor (catalogue : Catalogue) (id target : Nat) : Prop :=
  catalogue.kind? id = some .typeAlias ∧ catalogue.aliasTarget? id = some target

/-- A node at which aliases are followed no further. -/
inductive EndsAt (catalogue : Catalogue) (id : Nat) : Prop where
  | concrete (other : catalogue.kind? id ≠ some .typeAlias)
  | nowhere (nothing : catalogue.aliasTarget? id = none)
  | around (cycle : Relation.TransGen catalogue.StandsFor id id)

variable {catalogue : Catalogue} {id : Nat}

/-- What stands for a node uses it as what it stands for. -/
theorem StandsFor.related (sound : catalogue.graph.Sound) {target : Nat}
    (stands : catalogue.StandsFor id target) : catalogue.graph.Related id .usesType target := by
  obtain ⟨edge, first, rfl⟩ := Option.map_eq_some_iff.mp stands.2
  exact sound.mem_targets.mp (List.mem_map.mpr ⟨edge, List.mem_of_find?_eq_some first, rfl⟩)

/-- A node that uses another one as what it stands for stands for something. -/
theorem aliasTarget?_isSome_of_usedAs (sound : catalogue.graph.Sound) {target : Nat}
    (used : catalogue.graph.UsedAs id "alias" target) : (catalogue.aliasTarget? id).isSome := by
  obtain ⟨edge, found, ends, inRole⟩ := used
  have relation : edge.relation = .usesType := congrArg EdgeKey.relation ends
  have leaves : edge ∈ catalogue.graph.outgoing id (some .usesType) :=
    sound.mem_outgoing.mpr ⟨found, congrArg EdgeKey.source ends, by simp [relation]⟩
  rw [aliasTarget?, Option.isSome_map, List.find?_isSome]
  exact ⟨edge, leaves, by simpa [isAliasEdge, Edge.roles] using inRole⟩

/-- With enough steps for all nodes that were not passed, aliases are followed to an
end. -/
theorem endsAt_followAliases (sound : catalogue.graph.Sound) {steps : Nat} {passed : List Nat}
    (there : catalogue.HasNode id) (nodup : passed.Nodup)
    (behind : ∀ former ∈ passed, catalogue.HasNode former ∧
      Relation.TransGen catalogue.StandsFor former id)
    (enough : catalogue.graph.nodeCount ≤ steps + passed.length) :
    catalogue.EndsAt (catalogue.followAliases steps passed id) := by
  induction steps generalizing passed id with
  | zero =>
    by_cases again : id ∈ passed
    · exact .around (behind id again).2
    · -- All nodes were passed, and yet here is another one.
      have all := Graph.length_le_nodeCount (List.nodup_cons.mpr ⟨again, nodup⟩) fun former member => by
        rcases List.mem_cons.mp member with rfl | earlier
        · exact there
        · exact (behind former earlier).1
      rw [List.length_cons] at all
      omega
  | succ steps further =>
    unfold followAliases
    by_cases again : passed.contains id
    · rw [if_neg (by simp_all)]
      exact .around (behind id (by simpa using again)).2
    · by_cases isAlias : catalogue.kind? id = some .typeAlias
      · rw [if_pos ⟨isAlias, by simpa using again⟩]
        cases target : catalogue.aliasTarget? id with
        | none => exact .nowhere target
        | some next =>
          have stands : catalogue.StandsFor id next := ⟨isAlias, target⟩
          refine further (hasNode_aliasTarget? sound target)
            (List.nodup_cons.mpr ⟨by simpa using again, nodup⟩) ?_
            (by rw [List.length_cons]; omega)
          intro former member
          rcases List.mem_cons.mp member with rfl | earlier
          · exact ⟨there, .single stands⟩
          · exact ⟨(behind former earlier).1, (behind former earlier).2.tail stands⟩
      · rw [if_neg fun both => isAlias both.1]
        exact .concrete isAlias

/-- Following aliases ends at a node of the graph that is no alias, that stands for
nothing or that lies on a cycle of aliases. -/
theorem endsAt_dealias (sound : catalogue.graph.Sound) (there : catalogue.HasNode id) :
    catalogue.EndsAt (catalogue.dealias id) :=
  endsAt_followAliases sound there List.nodup_nil (by simp) (by simp)

/-- Aliases are followed from one to the next. -/
theorem standsFor_of_followAliases {steps : Nat} {passed : List Nat} {last : Nat}
    (follows : catalogue.followAliases steps passed id = last) :
    Relation.ReflTransGen catalogue.StandsFor id last := by
  induction steps generalizing passed id with
  | zero => exact follows ▸ .refl
  | succ steps further =>
    unfold followAliases at follows
    split at follows
    · rename_i isAlias
      cases target : catalogue.aliasTarget? id with
      | none =>
        rw [target] at follows
        exact follows ▸ .refl
      | some next =>
        rw [target] at follows
        exact .head ⟨isAlias.1, target⟩ (further follows)
    · exact follows ▸ .refl

/-- What an alias stands for in the end, other than an alias, some alias uses. -/
theorem exists_standsFor_dealias (isAlias : catalogue.kind? id = some .typeAlias)
    (other : catalogue.kind? (catalogue.dealias id) ≠ some .typeAlias) :
    ∃ before, catalogue.StandsFor before (catalogue.dealias id) := by
  have follows : Relation.ReflTransGen catalogue.StandsFor id (catalogue.dealias id) :=
    standsFor_of_followAliases rfl
  rcases follows.cases_tail with same | ⟨before, _, stands⟩
  · rw [same] at other
    exact absurd isAlias other
  · exact ⟨before, stands⟩

end Catalogue

end DeclGraph

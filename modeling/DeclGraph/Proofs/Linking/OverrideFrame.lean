import DeclGraph.Proofs.Graph.Scans
import DeclGraph.Proofs.Linking.Frame
import DeclGraph.Proofs.Linking.Overrides

/-!
# What overrides are worked out from

Overrides are worked out from the methods, the bases of records and the callables
in them. A linking that grows by nothing that says what nodes lead to keeps all of
these, and so the overrides. The graph grows, and with it the bounds of the
search and of the depth; but what was enough stays enough, and more than enough
changes nothing.
-/

namespace DeclGraph

namespace Catalogue

/-- Steps that agree on the items of a list agree on the list. -/
theorem mapM_congr {α β : Type} {items : List α} {step stepToo : α → StateM OverrideMemo β}
    (alike : ∀ item ∈ items, step item = stepToo item) : items.mapM step = items.mapM stepToo := by
  induction items with
  | nil => rfl
  | cons item rest further =>
    rw [List.mapM_cons, List.mapM_cons, alike item List.mem_cons_self,
      further fun other among => alike other (List.mem_cons_of_mem _ among)]

/-- Candidates are selected by what is accepted of them. -/
theorem selected_congr {accepts acceptsToo : Node → StateM OverrideMemo Bool}
    {candidates : List Node}
    (alike : ∀ candidate ∈ candidates, accepts candidate = acceptsToo candidate) :
    selected accepts candidates = selected acceptsToo candidates := by
  induction candidates with
  | nil => rfl
  | cons candidate rest further =>
    unfold selected
    rw [alike candidate List.mem_cons_self,
      further fun other among => alike other (List.mem_cons_of_mem _ among)]

/-- Whether a candidate is overridden hangs on its marks, and else on what it overrides. -/
theorem isOverridden_congr {isExplicit : Bool} {inherited inheritedToo : Nat → StateM OverrideMemo Bool}
    {candidate : Node} (alike : inherited candidate.id = inheritedToo candidate.id) :
    isOverridden isExplicit inherited candidate = isOverridden isExplicit inheritedToo candidate := by
  unfold isOverridden
  rw [alike]

end Catalogue

namespace Linking.Grows

open Catalogue

variable {bonds : List Bond} {before after : Linking} (grows : before.Grows bonds after)
  (start : before.catalogue.Housed [])

include grows start

/-- Nodes that are no stand-ins are listed as they were. -/
theorem filter_nodes_eq {keeps : Node → Bool}
    (declared : ∀ node, keeps node = true → node.kind ≠ .placeholder) :
    after.catalogue.graph.nodes.filter keeps = before.catalogue.graph.nodes.filter keeps := by
  refine eq_of_increasing (·.id) (increasing_filter (grows.housed start).sound.nodes_increasing _)
    (increasing_filter start.sound.nodes_increasing _) fun node => ?_
  rw [List.mem_filter, List.mem_filter]
  exact and_congr_left fun kept => grows.mem_nodes_iff start (declared node kept)

/-- The methods that override by their marks are the same. -/
theorem overridingMethods_eq :
    after.catalogue.overridingMethods = before.catalogue.overridingMethods := by
  unfold overridingMethods
  rw [grows.filter_nodes_eq start]
  intro node isMethod standIn
  simp [standIn] at isMethod

/-- A node that was there has the key that it had. -/
theorem key?_eq {id : Nat} (there : before.catalogue.HasNode id) :
    after.catalogue.graph.key? id = before.catalogue.graph.key? id := by
  obtain ⟨key, carried⟩ := Option.isSome_iff_exists.mp there
  rw [carried, grows.keys_kept start carried]

/-- The callables in a record are those that were in it. -/
theorem callableIn?_eq {name signature : String} {record : Nat}
    (there : before.catalogue.HasNode record) :
    after.catalogue.callableIn? name signature record =
      before.catalogue.callableIn? name signature record := by
  have housed := grows.housed start
  ext candidate
  rw [callableIn?_eq_some housed.sound, callableIn?_eq_some start.sound, grows.key?_eq start there]
  refine and_congr_left ?_
  rintro ⟨key, _, carries⟩
  refine ⟨fun found => grows.nodes_declared found fun standIn => ?_, grows.nodes_kept start⟩
  have family := housed.sound.kind_family found
  rw [carries, standIn] at family
  cases family

section Quiet

variable (quiet : ∀ bond ∈ bonds, bond.leads = false)

include quiet

/-- Every record has the bases that it had. -/
theorem bases_eq (record : Nat) : after.catalogue.bases record = before.catalogue.bases record :=
  (grows.leadsAlike start quiet record).bases

/-- The bases behind a record that was there are the same. -/
theorem basesBehind_eq {name signature : String} {record : Nat}
    (there : before.catalogue.HasNode record) :
    after.catalogue.basesBehind name signature record =
      before.catalogue.basesBehind name signature record := by
  rw [basesBehind, grows.callableIn?_eq start there, grows.bases_eq start quiet, basesBehind]

/-- With enough steps for the queue and all edges that were not searched, the same records are
passed in the same order. -/
theorem searched_eq {name signature : String} {steps more : Nat} {passed queue : List Nat}
    (le : steps ≤ more) (there : ∀ record ∈ queue, before.catalogue.HasNode record)
    (enough : queue.length + (before.catalogue.unsearched passed).length < steps) :
    after.catalogue.searched name signature more passed queue =
      before.catalogue.searched name signature steps passed queue := by
  induction steps generalizing more passed queue with
  | zero => omega
  | succ steps further =>
    cases more with
    | zero => omega
    | succ more =>
      cases queue with
      | nil => rfl
      | cons record queue =>
        have here := there record List.mem_cons_self
        have rest : ∀ other ∈ queue, before.catalogue.HasNode other := fun other member =>
          there other (List.mem_cons_of_mem _ member)
        have fewer := Nat.le_of_succ_le_succ le
        rw [List.length_cons] at enough
        unfold searched
        rw [grows.basesBehind_eq start quiet here]
        split
        · exact further fewer rest (by omega)
        · rename_i new
          have used := length_queue_add_unsearched_le name signature start.sound queue
            (show record ∉ passed by simpa using new)
          rw [further fewer ?_ (by omega)]
          intro other member
          rcases List.mem_append.mp member with old | base
          · exact rest other old
          · exact hasNode_of_mem_basesBehind start.sound base

/-- A method has the candidates that it had. -/
theorem candidates_eq (method : Node) :
    after.catalogue.candidates method = before.catalogue.candidates method := by
  unfold candidates
  dsimp only
  have queued : ∀ record ∈ before.catalogue.bases (before.catalogue.scopeOf method.id),
      before.catalogue.HasNode record := fun record => hasNode_of_mem_bases start.sound
  have le := Nat.add_le_add_right grows.edgeCount_le 1
  rw [grows.scopeOf_eq start, grows.bases_eq start quiet,
    grows.searched_eq start quiet le queued (enough_for_bases start.sound _)]
  refine List.filterMap_congr fun record passed => grows.callableIn?_eq start ?_
  exact (of_mem_searched before.catalogue.HasNode
    (fun _ base => hasNode_of_mem_basesBehind start.sound) queued passed).1

/-- With enough depth for all methods that are not being worked out, a method is worked out
alike. -/
theorem overriddenBy_eq {depth more method : Nat} {active : List Nat} (le : depth ≤ more)
    (there : before.catalogue.HasNode method) (nodup : active.Nodup)
    (activeThere : ∀ asking ∈ active, before.catalogue.HasNode asking)
    (enough : before.catalogue.graph.nodeCount < depth + active.length) :
    after.catalogue.overriddenBy more active method =
      before.catalogue.overriddenBy depth active method := by
  induction depth generalizing more active method with
  | zero =>
    have few := Graph.length_le_nodeCount nodup activeThere
    omega
  | succ depth deeper =>
    cases more with
    | zero => omega
    | succ more =>
      obtain ⟨node, held⟩ := Graph.isSome_key?_iff.mp there
      obtain rfl := start.sound.node_id held
      unfold overriddenBy
      refine bind_congr fun memo => ?_
      cases memo[node.id]? with
      | some known => rfl
      | none =>
        by_cases again : node.id ∈ active
        · simp [again]
        · simp only [List.contains_iff_mem, again, if_false, held, grows.nodes_kept start held,
            searchOverridden_eq start.sound, searchOverridden_eq (grows.housed start).sound]
          refine congrArg (· >>= _) ?_
          show selected _ (after.catalogue.candidates node) =
            selected _ (before.catalogue.candidates node)
          rw [grows.candidates_eq start quiet]
          refine selected_congr fun base among => isOverridden_congr ?_
          have activeThereToo : ∀ asking ∈ node.id :: active, before.catalogue.HasNode asking := by
            intro asking member
            rcases List.mem_cons.mp member with rfl | former
            · exact there
            · exact activeThere asking former
          rw [deeper (Nat.le_of_succ_le_succ le) (hasNode_of_mem_candidates start.sound among)
            (List.nodup_cons.mpr ⟨again, nodup⟩) activeThereToo (by rw [List.length_cons]; omega)]

/-- A method that was there overrides what it did. -/
theorem overriddenMethods_eq {method : Nat} (there : before.catalogue.HasNode method) :
    after.catalogue.overriddenMethods method = before.catalogue.overriddenMethods method :=
  grows.overriddenBy_eq start quiet (Nat.add_le_add_right grows.nodeCount_le 1) there
    List.nodup_nil (by simp) (by simp)

/-- Methods that are worked out in an order override what they did. -/
theorem overridesInOrder_eq {methods : List Nat}
    (there : ∀ method ∈ methods, before.catalogue.HasNode method) :
    after.catalogue.overridesInOrder methods = before.catalogue.overridesInOrder methods := by
  unfold overridesInOrder
  rw [mapM_congr fun method member => ?_]
  rw [grows.overriddenMethods_eq start quiet (there method member)]

/-- The table lists what it listed. -/
theorem overrideTable_eq :
    after.catalogue.overrideTable = before.catalogue.overrideTable := by
  rw [Catalogue.overrideTable_eq, Catalogue.overrideTable_eq, grows.overridingMethods_eq start]
  exact grows.overridesInOrder_eq start quiet fun _ =>
    hasNode_of_mem_overridingMethods start.sound

end Quiet

end Linking.Grows

end DeclGraph

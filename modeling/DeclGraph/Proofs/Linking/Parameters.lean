import DeclGraph.Proofs.Graph.Forest
import DeclGraph.Proofs.Linking.Growth

/-!
# Template parameters in force

A template parameter is in force in the template that declares it and in everything
that lies in the template. The linking changes nothing about that, so that what hid a
name while it was linked still does in the end.
-/

namespace DeclGraph

/-- The node or a scope around it declares a template parameter of the name. -/
def Graph.ParameterInForce (graph : Graph) (id : Nat) (name : String) : Prop :=
  ∃ around node, (around = id ∨ graph.Encloses around id) ∧
    graph.nodeTable[around]? = some node ∧
    name ∈ (node.attributes.texts? AttributeName.templateParameters).getD []

/-- What lies on the way outwards from a node lies around it. -/
theorem Graph.Sound.encloses_of_mem_outwardFrom {graph : Graph} (sound : graph.Sound) {steps : Nat}
    {id around : Nat} (member : around ∈ outwardFrom graph steps id) :
    around = id ∨ graph.Encloses around id := by
  induction steps generalizing id with
  | zero => cases member
  | succ steps further =>
    unfold outwardFrom at member
    cases found : graph.parent? id with
    | none =>
      rw [found] at member
      exact .inl (List.mem_singleton.mp member)
    | some scope =>
      rw [found] at member
      have holds := sound.related_of_parent? found
      rcases List.mem_cons.mp member with rfl | outside
      · exact .inl rfl
      · rcases further outside with rfl | outer
        · exact .inr (.directly holds)
        · exact .inr (.through outer holds)

/-- What the linking takes for template parameters is in force. -/
theorem Catalogue.parameterInForce_of_mem {catalogue : Catalogue} (sound : catalogue.graph.Sound)
    {id : Nat} {name : String} (member : name ∈ catalogue.templateParameters id) :
    catalogue.graph.ParameterInForce id name := by
  obtain ⟨node, around, declares⟩ := List.mem_flatMap.mp member
  obtain ⟨number, onTheWay, found⟩ := List.mem_filterMap.mp around
  exact ⟨number, node, sound.encloses_of_mem_outwardFrom onTheWay, found, declares⟩

namespace Linking

variable {bonds : List Bond} {before after : Linking}

/-- A scope goes on enclosing a node while a catalogue grows. -/
theorem Grows.encloses_kept (grows : before.Grows bonds after) (start : before.catalogue.Housed [])
    {scope id : Nat} (encloses : before.catalogue.graph.Encloses scope id) :
    after.catalogue.graph.Encloses scope id := by
  induction encloses with
  | directly related => exact .directly ((grows.contains_iff start).mpr related)
  | through _ related outer => exact .through outer ((grows.contains_iff start).mpr related)

/-- Growth encloses nothing that was not enclosed. -/
theorem Grows.encloses_iff (grows : before.Grows bonds after) (start : before.catalogue.Housed [])
    {scope id : Nat} :
    after.catalogue.graph.Encloses scope id ↔ before.catalogue.graph.Encloses scope id := by
  refine ⟨fun encloses => ?_, grows.encloses_kept start⟩
  induction encloses with
  | directly related => exact .directly ((grows.contains_iff start).mp related)
  | through _ related further => exact .through further ((grows.contains_iff start).mp related)

/-- What was in force stays in force. -/
theorem Grows.parameterInForce_kept (grows : before.Grows bonds after)
    (start : before.catalogue.Housed []) {id : Nat} {name : String}
    (inForce : before.catalogue.graph.ParameterInForce id name) :
    after.catalogue.graph.ParameterInForce id name := by
  obtain ⟨around, node, encloses, found, declares⟩ := inForce
  exact ⟨around, node, encloses.imp_right (grows.encloses_kept start),
    grows.nodes_kept start found, declares⟩

end Linking

end DeclGraph

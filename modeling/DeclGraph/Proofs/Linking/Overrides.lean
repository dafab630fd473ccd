import DeclGraph.Proofs.Linking.OverrideMemo
import DeclGraph.Proofs.Linking.Step

/-!
# Linking overrides

The methods of objects are related to what was worked out that they override, and nothing else
is.
-/

namespace DeclGraph

namespace Catalogue

variable {catalogue : Catalogue}

/-- The table is worked out in the order of the methods' numbers. -/
theorem overrideTable_eq :
    catalogue.overrideTable = catalogue.overridesInOrder catalogue.overridingMethods := rfl

/-- The methods that can override others are the methods of objects. -/
theorem mem_overridingMethods (sound : catalogue.graph.Sound) {method : Nat} :
    method ∈ catalogue.overridingMethods ↔
      ∃ node, catalogue.graph.nodeTable[method]? = some node ∧ node.IsInstanceMethod := by
  simp only [overridingMethods, List.mem_map, List.mem_filter, sound.mem_nodes]
  constructor
  · rintro ⟨node, ⟨found, fits⟩, rfl⟩
    exact ⟨node, found, by simpa [Node.IsInstanceMethod] using fits⟩
  · rintro ⟨node, found, fits⟩
    obtain rfl := sound.node_id found
    exact ⟨node, ⟨found, by simpa [Node.IsInstanceMethod] using fits⟩, rfl⟩

/-- Every overriding method is a node of the graph. -/
theorem hasNode_of_mem_overridingMethods (sound : catalogue.graph.Sound) {method : Nat}
    (member : method ∈ catalogue.overridingMethods) : catalogue.HasNode method := by
  obtain ⟨node, found, _⟩ := (mem_overridingMethods sound).mp member
  exact Graph.isSome_key?_iff.mpr ⟨node, found⟩

/-- Lists that are related item by item have a partner for every item. -/
theorem exists_partner {α β : Type} {related : α → β → Prop} {items : List α} {others : List β}
    (all : List.Forall₂ related items others) {item : α} (member : item ∈ items) :
    ∃ other ∈ others, related item other := by
  induction all with
  | nil => cases member
  | cons held _ further =>
    rcases List.mem_cons.mp member with rfl | later
    · exact ⟨_, List.mem_cons_self, held⟩
    · obtain ⟨other, among, heldToo⟩ := further later
      exact ⟨other, List.mem_cons_of_mem _ among, heldToo⟩

/-- Worked out in some order, every method is listed with what was worked out. -/
theorem exists_mem_inOrder (sound : catalogue.graph.Sound) {methods : List Nat}
    (there : ∀ method ∈ methods, catalogue.HasNode method) {method : Nat}
    (member : method ∈ methods) :
    ∃ found, (method, found) ∈ catalogue.overridesInOrder methods := by
  obtain ⟨⟨_, found⟩, listed, rfl, _⟩ := exists_partner (workedOut_inOrder sound there) member
  exact ⟨found, listed⟩

/-- Whatever is listed was worked out for one of the methods. -/
theorem workedOut_of_mem_inOrder (sound : catalogue.graph.Sound) {methods : List Nat}
    (there : ∀ method ∈ methods, catalogue.HasNode method) {method : Nat} {found : List Nat}
    (listed : (method, found) ∈ catalogue.overridesInOrder methods) :
    method ∈ methods ∧ catalogue.WorkedOut method found := by
  obtain ⟨_, member, rfl, settled⟩ := exists_partner (workedOut_inOrder sound there).flip listed
  exact ⟨member, settled⟩

/-- For a method that asks in no circle, the table lists everything that it overrides. -/
theorem mem_overrideTable_of_noCircle (sound : catalogue.graph.Sound) {method base : Nat}
    (noCircle : catalogue.AsksInNoCircle method) :
    (∃ found, (method, found) ∈ catalogue.overrideTable ∧ base ∈ found) ↔
      method ∈ catalogue.overridingMethods ∧ catalogue.Overrides method base := by
  have there : ∀ method ∈ catalogue.overridingMethods, catalogue.HasNode method := fun _ =>
    hasNode_of_mem_overridingMethods sound
  constructor
  · rintro ⟨found, listed, member⟩
    obtain ⟨isMethod, settled⟩ := workedOut_of_mem_inOrder sound there listed
    exact ⟨isMethod, settled.overrides sound (there _ isMethod) member⟩
  · rintro ⟨isMethod, overrides⟩
    obtain ⟨found, listed⟩ := exists_mem_inOrder sound there isMethod
    obtain ⟨_, settled⟩ := workedOut_of_mem_inOrder sound there listed
    exact ⟨found, listed, settled.mem_of_overrides sound noCircle overrides⟩

/-- Every method and everything it overrides is a node of the graph. -/
theorem hasNode_overrideTable (sound : catalogue.graph.Sound) {method : Nat} {found : List Nat}
    (listed : (method, found) ∈ catalogue.overrideTable) :
    catalogue.HasNode method ∧ ∀ id ∈ found, catalogue.HasNode id := by
  obtain ⟨member, settled⟩ := workedOut_of_mem_inOrder sound
    (fun _ => hasNode_of_mem_overridingMethods sound) listed
  have there := hasNode_of_mem_overridingMethods sound member
  exact ⟨there, fun id among => (settled.overrides sound there among).hasNode sound⟩

end Catalogue

namespace Linking

variable {before : Linking}

/-- Methods are related to those that the table lists for them. -/
theorem succeeds_linkOverrides (housed : before.catalogue.Housed []) :
    Succeeds linkOverrides before fun _ after => before.Grows [.overrides] after ∧
      ∀ method base, after.catalogue.graph.Related method .overrides base ↔
        before.catalogue.graph.Related method .overrides base ∨
          ∃ found, (method, found) ∈ before.catalogue.overrideTable ∧ base ∈ found := by
  refine succeeds_bind (succeeds_get ?_)
  refine (succeeds_forM_behind (fun earlier linking => before.Grows [.overrides] linking ∧
    ∀ method base, linking.catalogue.graph.Related method .overrides base ↔
      before.catalogue.graph.Related method .overrides base ∨
        ∃ found, (method, found) ∈ earlier ∧ base ∈ found) ?_ ⟨.refl, by simp⟩)
  rintro earlier ⟨overrider, overridden⟩ later linking split ⟨grows, related⟩
  have housedHere := grows.housed housed
  obtain ⟨overriderThere, allThere⟩ := Catalogue.hasNode_overrideTable housed.sound
    (show (overrider, overridden) ∈ before.catalogue.overrideTable by simp [split])
  refine (succeeds_relateAll .overrides rfl (fun _ => overrider) id housedHere
    fun base listed => ?_).weaken ?_
  · exact ⟨grows.hasNode housed overriderThere, grows.hasNode housed (allThere base listed)⟩
  · rintro _ after ⟨more, relatedToo⟩
    refine ⟨grows.trans more, fun method base => (relatedToo method base).trans ?_⟩
    have former : linking.catalogue.graph.Related method Bond.overrides.relation base ↔ _ :=
      related method base
    rw [former]
    simp only [id, List.mem_append, List.mem_singleton, Prod.mk.injEq]
    grind

end Linking

end DeclGraph

import DeclGraph.Proofs.Assembly.Overrides

/-!
# Overrides and the order of methods

What is worked out for one method stays in the memo for the others, and the methods are worked
out in the order of their numbers. Neither shows in the overrides of a method as long as nothing
that it leads to is asked for on its own behalf, whatever else inherits in circles. Of the other
methods nothing is worked out that they do not override, and nothing is left out that is marked.
-/

namespace DeclGraph

namespace Catalogue

/-- How far it does not show that methods are worked out in an order, with one memo for all. -/
structure MemoTransparent (catalogue : Catalogue) (methods : List Nat) : Prop where
  all_listed : (catalogue.overridesInOrder methods).map (·.1) = methods
  justified : ∀ {method : Nat} {found : List Nat},
    (method, found) ∈ catalogue.overridesInOrder methods →
      ∀ base ∈ found, catalogue.Overrides method base
  marked : ∀ {method base : Node} {found : List Nat},
    (method.id, found) ∈ catalogue.overridesInOrder methods → method ∈ catalogue.graph.nodes →
      base ∈ catalogue.candidates method → base.IsInstanceMethod → method.MarksOverride base →
        base.id ∈ found
  alone : ∀ {method : Nat} {found : List Nat},
    (method, found) ∈ catalogue.overridesInOrder methods → catalogue.AsksInNoCircle method →
      found = catalogue.overriddenAlone method

variable {catalogue : Catalogue}

/-- Where no method leads round in a circle to itself, the memo does not change what is found. -/
theorem memoTransparent (sound : catalogue.graph.Sound) {methods : List Nat}
    (among : methods ⊆ catalogue.overridingMethods) : catalogue.MemoTransparent methods := by
  have there : ∀ method ∈ methods, catalogue.HasNode method := fun method member =>
    hasNode_of_mem_overridingMethods sound (among member)
  constructor
  case all_listed =>
    have entries := workedOut_inOrder sound there
    generalize catalogue.overridesInOrder methods = table at entries
    clear among there
    induction entries with
    | nil => rfl
    | cons entry _ further => simp [entry.1, further]
  case justified =>
    intro method found listed base member
    obtain ⟨isMethod, settled⟩ := workedOut_of_mem_inOrder sound there listed
    exact settled.overrides sound (there method isMethod) member
  case marked =>
    intro method base found listed isNode isCandidate ofObjects marks
    obtain ⟨_, settled⟩ := workedOut_of_mem_inOrder sound there listed
    exact settled.mem_of_marks (sound.mem_nodes.mp isNode) isCandidate ofObjects marks
  case alone =>
    intro method found listed noCircle
    obtain ⟨isMethod, settled⟩ := workedOut_of_mem_inOrder sound there listed
    exact settled.unique sound (there method isMethod)
      (workedOut_overriddenAlone sound (there method isMethod)) noCircle

end Catalogue

namespace Assembly

/-- Whatever units were offered, the overrides of the finished graph are those that were worked
out after overloads were linked. In whatever order they are worked out, the methods override what
they override when they are worked out alone, if they ask in no circle. -/
theorem offered_overridesAlone (settings : Settings) (units : List SourceUnit) :
    let assembly := (empty settings).offered units
    ∃ prepared linking, assembly.Finishes prepared linking ∧
      ∃ stages : Linking.Stages (seenReferences assembly.units.values) ⟨prepared, []⟩ linking,
        let catalogue := stages.overloaded.catalogue
        (∀ methods, methods ⊆ catalogue.overridingMethods → catalogue.MemoTransparent methods) ∧
        ∀ method base, linking.catalogue.graph.Related method .overrides base ↔
          ∃ found, (method, found) ∈ catalogue.overridesInOrder catalogue.overridingMethods ∧
            base ∈ found := by
  intro assembly
  obtain ⟨prepared, linking, finishing⟩ := exists_finishing settings units
  obtain ⟨stages⟩ := finishing.stages
  refine ⟨prepared, linking, finishing.finishes, stages, ?_, ?_⟩
  · exact fun methods among =>
      Catalogue.memoTransparent (stages.housed_overloaded finishing.housed).sound among
  · intro method base
    rw [← Catalogue.overrideTable_eq]
    exact stages.overrides_iff finishing.housed finishing.unlinked

/-- A record with a virtual method. -/
def virtualBase : List Declaration := [recordWith "V" [] 1, methodIn "V" 2 { isVirtual := true }]

/-- A template that derives from the virtual base and from another template. -/
def primaryTemplate : List Declaration :=
  [{ recordWith "A" ["V", "B<T>"] 3 with templateParameters := ["T"] }, methodIn "A" 4]

/-- A specialisation of the other template that derives from the former one. -/
def specialisation : List Declaration := [recordWith "B" ["A<char>"] 5, methodIn "B" 6]

/-- For every method in the graph finished from units, the names of those that it overrides
there, and of those that it overrides when it is worked out alone. -/
def overridesBesideAlone? (units : List SourceUnit) :
    Option (List (ScopedName × List ScopedName × List ScopedName)) := do
  let pending := ((empty {}).offered units).units.values
  let prepared := ((prepare pending).run.run ((empty {}).offered units).catalogue).2
  let linking ← (Linking.run prepared pending).toOption
  let catalogue := linking.catalogue
  let methods := catalogue.overridingMethods.filterMap (catalogue.graph.nodeTable[·]?)
  let names (ids : List Nat) : List ScopedName :=
    (ids.filterMap (catalogue.graph.nodeTable[·]?)).map (·.key.name)
  return methods.map fun method =>
    (method.key.name,
      names ((catalogue.graph.outgoing method.id (some .overrides)).map (·.target)),
      names (catalogue.overriddenAlone method.id))

/-- Two records that are each other's base, since their template arguments are dropped: the
method of the second overrides the one of the first when it is worked out alone, and also when it
comes first in the unit, but not when it is asked for on behalf of the former. -/
theorem overridesBesideAlone?_circle :
    let unit := hierarchyUnit (virtualBase ++ primaryTemplate ++ specialisation)
    let turned := hierarchyUnit (virtualBase ++ specialisation ++ primaryTemplate)
    (empty {}).accepted [unit] = [unit] ∧
      overridesBesideAlone? [unit] = some [(⟨["V", "f"]⟩, [], []),
        (⟨["A", "f"]⟩, [⟨["V", "f"]⟩], [⟨["V", "f"]⟩]), (⟨["B", "f"]⟩, [], [⟨["A", "f"]⟩])] ∧
      overridesBesideAlone? [turned] = some [(⟨["V", "f"]⟩, [], []),
        (⟨["B", "f"]⟩, [⟨["A", "f"]⟩], [⟨["A", "f"]⟩]),
        (⟨["A", "f"]⟩, [⟨["V", "f"]⟩], [⟨["V", "f"]⟩])] := by
  refine ⟨?_, ?_, ?_⟩ <;> decide +kernel

end Assembly

end DeclGraph

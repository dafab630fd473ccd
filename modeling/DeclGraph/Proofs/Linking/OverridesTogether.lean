import DeclGraph.Proofs.Catalogue.Counterparts
import DeclGraph.Proofs.Linking.Overrides

/-!
# Overrides side by side

In catalogues that correspond, counterparts are candidates for counterparts, and override them.
-/

namespace DeclGraph

namespace Catalogue.Corresponds

variable {first second : Catalogue} (corresponds : first.Corresponds second)
  {one other base baseToo record recordToo : Nat} {name signature : String}

include corresponds

/-- Records derive from the counterparts of what their counterparts derive from. -/
theorem derives (derives : first.graph.Derives one base)
    (same : first.graph.Counterparts second.graph one other)
    (sameBase : first.graph.Counterparts second.graph base baseToo) :
    second.graph.Derives other baseToo := by
  rw [← mem_bases corresponds.housed.sound] at derives
  rw [← mem_bases corresponds.housedToo.sound]
  exact (List.rel_mem corresponds.unique sameBase (corresponds.bases same)).mp derives

/-- Counterparts hold the counterparts of a callable. -/
theorem callableIn? {callable : Node}
    (found : first.callableIn? name signature record = some callable)
    (same : first.graph.Counterparts second.graph record recordToo) {callableToo : Nat}
    (sameCallable : first.graph.Counterparts second.graph callable.id callableToo) :
    second.callableIn? name signature recordToo = some { callable with id := callableToo } := by
  obtain ⟨held, key, carried, callableKey⟩ :=
    (callableIn?_eq_some corresponds.housed.sound).mp found
  refine (callableIn?_eq_some corresponds.housedToo.sound).mpr
    ⟨corresponds.node sameCallable held, key, ?_, callableKey⟩
  obtain ⟨keyToo, carriedToo, recordCarries⟩ := same
  rw [carried] at carriedToo
  rwa [Option.some.inj carriedToo]

/-- Where one record has no such method, its counterpart has none either. -/
theorem callableIn?_eq_none (nothing : first.callableIn? name signature record = none)
    (same : first.graph.Counterparts second.graph record recordToo) :
    second.callableIn? name signature recordToo = none := by
  rw [Option.eq_none_iff_forall_not_mem]
  intro callable found
  have held := ((callableIn?_eq_some corresponds.housedToo.sound).mp found).1
  obtain ⟨id, sameCallable⟩ := corresponds.symm.exists_counterpart
    (Graph.isSome_key?_iff.mpr ⟨callable, held⟩)
  have there := corresponds.symm.callableIn? found same.symm sameCallable
  rw [nothing] at there
  cases there

/-- A counterpart reaches the counterparts of the bases that its record reaches. -/
theorem reachesBase (reached : first.graph.ReachesBase
      (fun passed => first.callableIn? name signature passed = none) one base)
    (same : first.graph.Counterparts second.graph one other)
    (sameBase : first.graph.Counterparts second.graph base baseToo) :
    second.graph.ReachesBase
      (fun passed => second.callableIn? name signature passed = none) other baseToo := by
  induction reached generalizing baseToo with
  | direct derives => exact .direct (corresponds.derives derives same sameBase)
  | behind _ through derives further =>
    obtain ⟨recordToo, sameRecord⟩ := corresponds.exists_counterpart
      (corresponds.housed.sound.there_of_related derives.1).1
    exact .behind (further sameRecord) (corresponds.callableIn?_eq_none through sameRecord)
      (corresponds.derives derives sameRecord sameBase)

/-- The candidates of a method have counterparts that are candidates. -/
theorem candidates {method candidate : Node} {methodToo candidateToo : Nat}
    (among : candidate ∈ first.candidates method)
    (same : first.graph.Counterparts second.graph method.id methodToo)
    (sameCandidate : first.graph.Counterparts second.graph candidate.id candidateToo) :
    { candidate with id := candidateToo } ∈ second.candidates { method with id := methodToo } := by
  obtain ⟨record, apart, reached, found⟩ := (mem_candidates corresponds.housed.sound).mp among
  have scope := corresponds.scopeOf same
  obtain ⟨_, key, carried, _⟩ := (callableIn?_eq_some corresponds.housed.sound).mp found
  obtain ⟨recordToo, carriedToo⟩ := corresponds.exists_key carried
  have sameRecord : first.graph.Counterparts second.graph record recordToo :=
    ⟨key, carried, carriedToo⟩
  refine (mem_candidates corresponds.housedToo.sound).mpr ⟨recordToo, ?_,
    corresponds.reachesBase reached scope sameRecord,
    corresponds.callableIn? found sameRecord sameCandidate⟩
  exact (not_congr (Relator.rel_eq corresponds.unique sameRecord scope)).mp apart

/-- Counterparts override counterparts. -/
theorem overrides (overrides : first.Overrides one base)
    (same : first.graph.Counterparts second.graph one other)
    (sameBase : first.graph.Counterparts second.graph base baseToo) :
    second.Overrides other baseToo := by
  induction overrides generalizing other baseToo with
  | marked found among ofObjects marks =>
    exact .marked (corresponds.node same found) (corresponds.candidates among same sameBase)
      ofObjects marks
  | inherited found among ofObjects further deeper =>
    obtain ⟨farther, sameFarther⟩ := corresponds.exists_counterpart
      (further.hasNode corresponds.housed.sound)
    exact .inherited (corresponds.node same found) (corresponds.candidates among same sameBase)
      ofObjects (deeper sameBase sameFarther)

/-- A method overrides another exactly when their counterparts do. -/
theorem overrides_iff (same : first.graph.Counterparts second.graph one other)
    (sameBase : first.graph.Counterparts second.graph base baseToo) :
    first.Overrides one base ↔ second.Overrides other baseToo :=
  ⟨fun overrides => corresponds.overrides overrides same sameBase,
    fun overrides => corresponds.symm.overrides overrides same.symm sameBase.symm⟩

/-- What a method asks for has a counterpart that its counterpart asks for. -/
theorem exists_asks (asks : first.Asks one base)
    (same : first.graph.Counterparts second.graph one other) :
    ∃ baseToo, first.graph.Counterparts second.graph base baseToo ∧ second.Asks other baseToo := by
  cases asks with
  | unmarked found among ofObjects unmarked =>
    obtain ⟨baseToo, sameBase⟩ := corresponds.exists_counterpart
      (hasNode_of_mem_candidates corresponds.housed.sound among)
    exact ⟨baseToo, sameBase, .unmarked (corresponds.node same found)
      (corresponds.candidates among same sameBase) ofObjects unmarked⟩

/-- A counterpart asks for the counterparts of what its method asks for. -/
theorem exists_asksOn (asks : Relation.TransGen first.Asks one base)
    (same : first.graph.Counterparts second.graph one other) :
    ∃ baseToo, first.graph.Counterparts second.graph base baseToo ∧
      Relation.TransGen second.Asks other baseToo := by
  induction asks with
  | single asks =>
    obtain ⟨baseToo, sameBase, asksToo⟩ := corresponds.exists_asks asks same
    exact ⟨baseToo, sameBase, .single asksToo⟩
  | tail _ asks further =>
    obtain ⟨middle, sameMiddle, asksOn⟩ := further
    obtain ⟨baseToo, sameBase, asksToo⟩ := corresponds.exists_asks asks sameMiddle
    exact ⟨baseToo, sameBase, .tail asksOn asksToo⟩

/-- What asks in no circle has a counterpart that does not either. -/
theorem asksInNoCircle (noCircle : first.AsksInNoCircle one)
    (same : first.graph.Counterparts second.graph one other) : second.AsksInNoCircle other := by
  intro target reached circle
  have origin : ∃ id, second.graph.Counterparts first.graph target id ∧
      Relation.ReflTransGen first.Asks one id := by
    rcases Relation.reflTransGen_iff_eq_or_transGen.mp reached with rfl | asksOn
    · exact ⟨one, same.symm, .refl⟩
    · obtain ⟨id, sameTarget, asks⟩ := corresponds.symm.exists_asksOn asksOn same.symm
      exact ⟨id, sameTarget, asks.to_reflTransGen⟩
  obtain ⟨id, sameTarget, asks⟩ := origin
  obtain ⟨again, sameAgain, circleToo⟩ := corresponds.symm.exists_asksOn circle sameTarget
  obtain rfl : id = again := corresponds.unique.1 sameTarget.symm sameAgain.symm
  exact noCircle asks circleToo

/-- Counterparts are listed for counterparts that ask in no circle, in whatever order everything
was worked out. -/
theorem mem_overrideTable_iff (same : first.graph.Counterparts second.graph one other)
    (sameBase : first.graph.Counterparts second.graph base baseToo)
    (noCircle : first.AsksInNoCircle one) :
    (∃ found, (one, found) ∈ first.overrideTable ∧ base ∈ found) ↔
      ∃ found, (other, found) ∈ second.overrideTable ∧ baseToo ∈ found := by
  have methods : one ∈ first.overridingMethods ↔ other ∈ second.overridingMethods := by
    obtain ⟨node, found⟩ := Graph.isSome_key?_iff.mp same.there.1
    rw [mem_overridingMethods corresponds.housed.sound,
      mem_overridingMethods corresponds.housedToo.sound, found, corresponds.node same found]
    simp [Node.IsInstanceMethod]
  rw [mem_overrideTable_of_noCircle corresponds.housed.sound noCircle,
    mem_overrideTable_of_noCircle corresponds.housedToo.sound
      (corresponds.asksInNoCircle noCircle same), methods, corresponds.overrides_iff same sameBase]

end Catalogue.Corresponds

end DeclGraph

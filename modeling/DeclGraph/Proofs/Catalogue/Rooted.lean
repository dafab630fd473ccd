import DeclGraph.Proofs.Catalogue.Region
import DeclGraph.Proofs.Spelling.Qualified

/-!
# Names that start at the global namespace

A separator in front of a qualified name makes its first component be looked up in the
global namespace alone. Without it the search starts in the scope of the reference and
gets to the global namespace only if nothing on the way shows the component.
-/

namespace DeclGraph

namespace Catalogue

variable {catalogue : Catalogue}

/-- Every scope but the global namespace lies in a scope. -/
theorem Housed.parent?_cases (housed : catalogue.Housed []) {scope : Nat} {name : ScopedName}
    (carried : catalogue.graph.key? scope = some (.scope name)) :
    (scope = Graph.root ∧ catalogue.graph.parent? scope = none) ∨
      (scope ≠ Graph.root ∧ ∃ outer outerName, catalogue.graph.parent? scope = some outer ∧
        catalogue.graph.key? outer = some (.scope outerName)) := by
  have sound := housed.sound
  by_cases global : EntityKey.scope name = .global
  · rw [global] at carried
    refine .inl ⟨sound.id_eq_of_key? carried sound.root_key, ?_⟩
    rw [Option.eq_none_iff_forall_not_mem]
    intro outer found
    obtain ⟨_, key, held, lies, _⟩ :=
      housed.contains_iff.mp (housed.parent?_eq_some.mp found)
    rw [carried] at held
    exact lies.1 (Option.some.inj held).symm
  · obtain ⟨outer, outerKey, related⟩ :=
      housed.exists_holder carried ⟨global, by simp [EntityKey.scope]⟩
    refine .inr ⟨?_, outer, _, housed.parent?_eq_some.mpr related, outerKey⟩
    rintro rfl
    rw [sound.root_key] at carried
    exact global (Option.some.inj carried).symm

/-- The scope of a node is a scope. -/
theorem Housed.key?_scopeOf (housed : catalogue.Housed []) (id : Nat) :
    ∃ name, catalogue.graph.key? (catalogue.scopeOf id) = some (.scope name) := by
  unfold scopeOf
  cases found : catalogue.graph.parent? id with
  | none => exact ⟨.global, housed.sound.root_key⟩
  | some scope =>
    obtain ⟨_, key, _, _, scopeKey⟩ := housed.contains_iff.mp (housed.parent?_eq_some.mp found)
    exact ⟨_, scopeKey⟩

/-- Seen from a scope, nothing but the global namespace shows a name: no other scope that
is searched does and, as far as they are searched, no opened namespace. -/
structure ShownAtRoot (catalogue : Catalogue) (viewpoint : Viewpoint) (accept : Node → Bool)
    (simple : String) (scope : Nat) : Prop where
  inner : ∀ around, around = scope ∨ catalogue.graph.Encloses around scope →
    around ≠ Graph.root →
      catalogue.visibleMembers (some viewpoint.unit) accept simple around = [] ∧
      ∀ opened ∈ catalogue.openedIn viewpoint around,
        catalogue.visibleMembers (some viewpoint.unit) accept simple opened = []
  outermost : catalogue.visibleMembers (some viewpoint.unit) accept simple Graph.root = [] →
    ∀ opened ∈ catalogue.openedIn viewpoint Graph.root,
      catalogue.visibleMembers (some viewpoint.unit) accept simple opened = []

variable {viewpoint : Viewpoint} {accept : Node → Bool} {simple : String}

/-- With enough steps for all scopes that were not passed, the search comes to the global
namespace. -/
theorem ShownAtRoot.searchOutward_eq (housed : catalogue.Housed []) {steps start scope : Nat}
    {name : ScopedName} (shown : catalogue.ShownAtRoot viewpoint accept simple start)
    (carried : catalogue.graph.key? scope = some (.scope name))
    (around : scope = start ∨ catalogue.graph.Encloses scope start) {passed : List Nat}
    (behind : catalogue.Behind scope passed)
    (enough : catalogue.graph.nodeCount < steps + passed.length) :
    catalogue.searchOutward (some viewpoint.unit) (catalogue.openedIn viewpoint) accept simple
      steps scope = catalogue.visibleMembers (some viewpoint.unit) accept simple Graph.root := by
  have few := behind.length_le
  induction steps generalizing scope name passed with
  | zero => omega
  | succ steps further =>
    unfold searchOutward
    dsimp only
    have silent : ∀ {opened : List Nat}, (∀ inner ∈ opened,
        catalogue.visibleMembers (some viewpoint.unit) accept simple inner = []) →
        distinct (opened.flatMap
          (catalogue.visibleMembers (some viewpoint.unit) accept simple)) = [] := by
      intro opened all
      rw [List.flatMap_eq_nil_iff.mpr all]
      rfl
    rcases housed.parent?_cases carried with ⟨rfl, outermost⟩ | ⟨notRoot, outer, outerName, found, outerKey⟩
    · rw [outermost]
      cases visible : catalogue.visibleMembers (some viewpoint.unit) accept simple Graph.root with
      | nil => simp [silent (shown.outermost visible)]
      | cons first others => simp
    · obtain ⟨nothing, openedNothing⟩ := shown.inner scope around notRoot
      have holds := housed.parent?_eq_some.mp found
      have next := behind.outer housed holds
      simp only [nothing, List.isEmpty_nil, if_true, silent openedNothing, found]
      refine further outerKey ?_ next (by rw [List.length_cons]; omega) next.length_le
      rcases around with rfl | outside
      · exact .inr (.directly holds)
      · exact .inr (outside.outside holds)

/-- What a node is looked up for as the first component of a name. -/
def firstAccept (accept : Node → Bool) (name : ScopedName) : Node → Bool :=
  if name.segments.length = 1 then accept else hasMembers

/-- A name means the same with a separator in front and without one, when nothing but the
global namespace shows its first component. -/
theorem resolveFrom_rooted (housed : catalogue.Housed []) {name scopeName : ScopedName}
    (qualified : Spelling.IsQualified name) {scope : Nat}
    (carried : catalogue.graph.key? scope = some (.scope scopeName))
    (shown : catalogue.ShownAtRoot viewpoint (firstAccept accept name) (name.segments.headD "")
      scope) :
    catalogue.resolveFrom viewpoint accept name.display scope =
      catalogue.resolveFrom viewpoint accept ("::" ++ name.display) Graph.root := by
  have outward := shown.searchOutward_eq housed carried (.inl rfl) .nil
    (Nat.lt_succ_self catalogue.graph.nodeCount)
  unfold resolveFrom resolveWith unqualified
  simp only [qualified.withoutArguments_display, qualified.withoutArguments_rooted,
    qualified.readable.ofSpelling_display, qualified.readable.ofSpelling_rooted,
    qualified.display_not_rooted, qualified.rooted_isRooted]
  match segments : name.segments with
  | [] => rfl
  | [first] =>
    simp only [firstAccept, segments, List.length_singleton, if_true, List.headD_cons] at outward
    simpa using outward
  | first :: second :: rest =>
    simp only [firstAccept, segments, List.length_cons, List.headD_cons] at outward
    rw [if_neg (by omega)] at outward
    simp [outward]

end Catalogue

end DeclGraph

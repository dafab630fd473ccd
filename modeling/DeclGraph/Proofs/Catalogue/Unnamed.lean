import DeclGraph.Proofs.Catalogue.Region
import DeclGraph.Proofs.Catalogue.Shadowing

/-!
# Privacy of unnamed namespaces

The unnamed namespace of a file is kept as a member with a name that no source text spells. So
a lookup on behalf of a unit enters the unnamed namespaces of that unit, and of other units it
sees only those in which it starts. The nodes of which this can be said are a region: lookups
that ask for no name of an unnamed namespace do not leave it.
-/

namespace DeclGraph

namespace FilePath

/-- The name of an unnamed namespace starts with a parenthesis. -/
theorem unnamedNamespace_toList_head? (path : FilePath) :
    path.unnamedNamespace.toList.head? = some '(' := by
  simp [unnamedNamespace]

end FilePath

/-- A spelled name has the unnamed namespaces of some file as a component. -/
def Spelling.NamesUnnamed (spelling : String) : Prop :=
  ∃ path : FilePath, path.unnamedNamespace ∈ Spelling.components spelling

/-- A lookup asks for unnamed namespaces of its own unit only, unless others are spelled. -/
theorem Viewpoint.own_of_mem_asked {viewpoint : Viewpoint} {spelling : String}
    (unspelled : ¬ Spelling.NamesUnnamed spelling)
    (unopened : ∀ directive ∈ viewpoint.directives, ¬ Spelling.NamesUnnamed directive.opened) :
    ∀ name ∈ viewpoint.asked spelling, ∀ path : FilePath,
      name = path.unnamedNamespace → name = viewpoint.unit.unnamedNamespace := by
  rintro name member path rfl
  rcases List.mem_cons.mp member with own | spelled
  · exact own
  · rcases List.mem_append.mp spelled with component | ofDirective
    · exact absurd ⟨path, List.dropLast_subset _ component⟩ unspelled
    · obtain ⟨directive, among, component⟩ := List.mem_flatMap.mp ofDirective
      exact absurd ⟨path, component⟩ (unopened directive among)

namespace Catalogue

variable {catalogue : Catalogue}

/-- A node carries the name of the unnamed namespaces of a file. -/
def IsUnnamedOf (catalogue : Catalogue) (path : FilePath) (id : Nat) : Prop :=
  (catalogue.graph.key? id).map (·.name.simple) = some path.unnamedNamespace

/-- No unnamed namespace of another file hides a node from a unit that looks from a scope:
each one at or around the node is the unit's own, or lies at or around the scope. -/
def Unhidden (catalogue : Catalogue) (unit : FilePath) (scope id : Nat) : Prop :=
  ∀ {around : Nat} {path : FilePath}, around = id ∨ catalogue.graph.Encloses around id →
    catalogue.IsUnnamedOf path around →
      catalogue.IsUnnamedOf unit around ∨ around = scope ∨
        catalogue.graph.Encloses around scope

/-- Nothing lies around the global namespace. -/
theorem Housed.not_encloses_root (housed : catalogue.Housed []) (around : Nat) :
    ¬ catalogue.graph.Encloses around Graph.root := by
  intro encloses
  cases encloses with
  | directly related => exact housed.ne_root_of_related related rfl
  | through _ related => exact housed.ne_root_of_related related rfl

/-- Everything at or around the scope is unhidden. -/
theorem unhidden_of_around {unit : FilePath} {scope around : Nat}
    (outer : around = scope ∨ catalogue.graph.Encloses around scope) :
    catalogue.Unhidden unit scope around := by
  intro farther path isFarther _
  rcases isFarther with rfl | encloses
  · exact .inr outer
  · rcases outer with rfl | further
    · exact .inr (.inr encloses)
    · exact .inr (.inr (encloses.trans further))

/-- The name of no member leads from what is unhidden to what is hidden, unless it is that of the
unnamed namespaces of another file. -/
theorem Housed.unhidden_member (housed : catalogue.Housed []) {unit : FilePath}
    {start scope id : Nat} {name : String}
    (named : ∀ path : FilePath, name = path.unnamedNamespace → name = unit.unnamedNamespace)
    (unhidden : catalogue.Unhidden unit start scope)
    (member : id ∈ catalogue.membersNamed scope name) : catalogue.Unhidden unit start id := by
  obtain ⟨holds, simple⟩ := housed.mem_members.mp member
  intro around path outer unnamed
  rcases outer with rfl | encloses
  · rw [IsUnnamedOf, simple, Option.some.injEq] at unnamed
    exact .inl (by rw [IsUnnamedOf, simple, named path unnamed])
  · refine unhidden ?_ unnamed
    -- What lies around a member lies at or around its scope.
    cases encloses with
    | directly related => exact .inl (housed.single_scope related holds)
    | through outer related =>
      cases housed.single_scope related holds
      exact .inr outer

/-- Where only containment relates nodes, what is unhidden from a unit is closed under lookups
that ask for no name of the unnamed namespaces of other files. -/
theorem Tidy.agreeWithin_unhidden (tidy : catalogue.Tidy) (unit : FilePath) (scope : Nat) :
    catalogue.AgreeWithin
      (fun name => ∀ path : FilePath, name = path.unnamedNamespace →
        name = unit.unnamedNamespace)
      (fun id => catalogue.HasNode id ∧ catalogue.Unhidden unit scope id) catalogue where
  housed := tidy.housed
  there := fun within => within.1
  root := by
    have sound := tidy.housed.sound
    refine ⟨hasNode_root sound, fun {around path} outer unnamed => ?_⟩
    rcases outer with rfl | encloses
    · rw [IsUnnamedOf, sound.root_key, Option.map_some, Option.some.injEq] at unnamed
      have first := path.unnamedNamespace_toList_head?
      rw [← unnamed] at first
      cases first
    · exact absurd encloses (tidy.housed.not_encloses_root around)
  member := fun within named member =>
    ⟨(tidy.housed.sound.there_of_related (tidy.housed.mem_members.mp member).1).2,
      tidy.housed.unhidden_member named within.2 member⟩
  base := by
    intro record base _ member
    rw [tidy.unlinked.bases_eq_nil tidy.housed.sound] at member
    cases member
  target := by
    intro id target _ found
    rw [tidy.unlinked.aliasTarget?_eq_none tidy.housed.sound] at found
    cases found
  nodes := fun _ => rfl
  memberIndex := rfl
  parent? := fun _ => rfl
  nodeCount_le := Nat.le_refl _
  edgeCount_le := Nat.le_refl _
  bases := fun _ => rfl
  aliasTarget? := fun _ => rfl

section Missing

variable {unit : Option FilePath} {opened : Nat → List Nat} {accept : Node → Bool}
  {name spelling : String} {scope : Nat}

/-- What is no scope of the graph shows nothing. -/
theorem Housed.visibleMembers_of_missing (housed : catalogue.Housed [])
    (missing : ¬ catalogue.HasNode scope) :
    catalogue.visibleMembers unit accept name scope = [] := by
  have memberless : ∀ name, catalogue.membersNamed scope name = [] := by
    intro name
    rw [List.eq_nil_iff_forall_not_mem]
    intro id member
    exact missing (housed.sound.there_of_related (housed.mem_members.mp member).1).1
  have own : catalogue.ownMembers unit accept name scope = [] := by
    unfold ownMembers
    cases catalogue.graph.nodeCount with
    | zero => rfl
    | succ depth => cases unit <;> simp [directMembers, memberless]
  have noRecord : catalogue.isRecord scope = false := by
    rw [isRecord, kind?, not_hasNode_iff.mp missing]
    rfl
  unfold visibleMembers
  rw [own, noRecord]
  rfl

/-- A name means nothing in what is no scope of the graph. -/
theorem Housed.unqualified_of_missing (housed : catalogue.Housed [])
    (missing : ¬ catalogue.HasNode scope) (unopened : opened scope = []) :
    catalogue.unqualified unit opened accept name scope = [] := by
  have outermost : catalogue.graph.parent? scope = none := by
    rw [Option.eq_none_iff_forall_not_mem]
    intro outer found
    exact missing (housed.sound.there_of_related (housed.sound.related_of_parent? found)).2
  unfold unqualified searchOutward
  simp [housed.visibleMembers_of_missing missing, unopened, outermost, distinct]

/-- A descent from nowhere ends nowhere. -/
theorem descend_nil (names : List String) : catalogue.descend unit [] names = [] := by
  induction names with
  | nil => rfl
  | cons name names further => simpa [descend] using further

/-- In what is no scope of the graph, a spelled name means nothing or what it means in the global
namespace. -/
theorem Housed.resolveWith_of_missing (housed : catalogue.Housed [])
    (missing : ¬ catalogue.HasNode scope) (unopened : opened scope = []) {id : Nat}
    (member : id ∈ catalogue.resolveWith unit opened accept spelling scope) :
    id ∈ catalogue.resolveWith unit opened accept spelling Graph.root := by
  unfold resolveWith at member ⊢
  dsimp only at member ⊢
  simp only [housed.unqualified_of_missing missing unopened] at member
  -- A name that starts at the global namespace is looked up there from everywhere.
  cases rooted : [':', ':'].isPrefixOf (Spelling.withoutArguments spelling).toList with
  | true => simpa [rooted] using member
  | false =>
    rw [rooted] at member
    cases segments : (ScopedName.ofSpelling (Spelling.withoutArguments spelling)).segments with
    | nil => simp [segments] at member
    | cons first further =>
      cases further with
      | nil => simp [segments] at member
      | cons second further => simp [segments, descend_nil] at member

end Missing

/-- Unnamed namespaces are private to their files. After every history of requests, what a
spelled name means to a unit lies in no unnamed namespace but those kept under the unit's own name
and those that are the scope from which the unit looks or lie around it, if neither the name nor a
directive of the unit spells an unnamed namespace. -/
theorem resolveFrom_keepsUnnamedPrivate (requests : List Request) (viewpoint : Viewpoint)
    (accept : Node → Bool) (spelling : String) (scope : Nat)
    (unspelled : ¬ Spelling.NamesUnnamed spelling)
    (unopened : ∀ directive ∈ viewpoint.directives, ¬ Spelling.NamesUnnamed directive.opened)
    {id around : Nat} {path : FilePath}
    (found : id ∈ (afterRequests requests).resolveFrom viewpoint accept spelling scope)
    (outer : around = id ∨ (afterRequests requests).graph.Encloses around id)
    (unnamed : (afterRequests requests).IsUnnamedOf path around) :
    (afterRequests requests).IsUnnamedOf viewpoint.unit around ∨ around = scope ∨
      (afterRequests requests).graph.Encloses around scope := by
  have tidy := tidy_afterRequests requests
  have asked := Viewpoint.own_of_mem_asked unspelled unopened
  have agree := tidy.agreeWithin_unhidden viewpoint.unit scope
  -- What the name means from a scope that is unhidden together with all scopes around it.
  have within : ∀ {start : Nat}, id ∈ (afterRequests requests).resolveFrom viewpoint accept
      spelling start → (∀ {farther : Nat}, farther = start ∨
        (afterRequests requests).graph.Encloses farther start →
          (afterRequests requests).HasNode farther ∧
            (afterRequests requests).Unhidden viewpoint.unit scope farther) →
      (afterRequests requests).Unhidden viewpoint.unit scope id := by
    intro start member outside
    refine (agree.within_of_mem_resolveWith ?_ (fun name component path same => ?_)
      (agree.opensAlike_openedIn asked outside) member).2
    · rintro path same other named
      cases same
      exact asked _ List.mem_cons_self _ named
    · exact absurd ⟨path, same ▸ component⟩ unspelled
  by_cases there : (afterRequests requests).HasNode scope
  · refine within found (fun isOuter => ⟨?_, unhidden_of_around isOuter⟩) outer unnamed
    rcases isOuter with rfl | encloses
    · exact there
    · exact tidy.housed.sound.there_of_encloses encloses
  · refine within (tidy.housed.resolveWith_of_missing there ?_ found) (fun isOuter => ?_)
      outer unnamed
    · unfold openedIn
      rw [not_hasNode_iff.mp there]
    · rcases isOuter with rfl | encloses
      · exact agree.root
      · exact absurd encloses (tidy.housed.not_encloses_root _)

section TwoFiles

/-- Two files that each keep a class of one name in their unnamed namespace. -/
def twoFiles : List Request :=
  [.register (scopeMention ["(anonymous a.cpp)"] .namespaceScope false),
    .register (scopeMention ["(anonymous a.cpp)", "T"] .classRecord false),
    .register (scopeMention ["(anonymous b.cpp)"] .namespaceScope false),
    .register (scopeMention ["(anonymous b.cpp)", "T"] .classRecord false)]

/-- The second file sees its own class, which lies in its unnamed namespace. -/
theorem resolveFrom_keepsUnnamedPrivate_twoFiles :
    ¬ Spelling.NamesUnnamed "T" ∧
      (∀ directive ∈ ([] : List Directive), ¬ Spelling.NamesUnnamed directive.opened) ∧
      (afterRequests twoFiles).resolveFrom ⟨.ofText "b.cpp", []⟩ (fun _ => true) "T"
        Graph.root = [4] ∧
      (afterRequests twoFiles).graph.Encloses 3 4 ∧
      (afterRequests twoFiles).IsUnnamedOf (.ofText "b.cpp") 3 ∧
      ((afterRequests twoFiles).IsUnnamedOf (.ofText "b.cpp") 3 ∨ 3 = Graph.root ∨
        (afterRequests twoFiles).graph.Encloses 3 Graph.root) := by
  have unspelled : ¬ Spelling.NamesUnnamed "T" := by
    have component : Spelling.components "T" = ["T"] := by decide +kernel
    rintro ⟨path, member⟩
    rw [component, List.mem_singleton] at member
    have first := path.unnamedNamespace_toList_head?
    rw [member] at first
    revert first
    decide
  have found : (afterRequests twoFiles).resolveFrom ⟨.ofText "b.cpp", []⟩ (fun _ => true) "T"
      Graph.root = [4] := by decide +kernel
  have inside : (afterRequests twoFiles).graph.Encloses 3 4 :=
    .directly ((tidy_afterRequests twoFiles).housed.sound.related_of_parent? (by decide +kernel))
  have unnamed : (afterRequests twoFiles).IsUnnamedOf (.ofText "b.cpp") 3 := by
    unfold IsUnnamedOf
    decide +kernel
  exact ⟨unspelled, by simp, found, inside, unnamed,
    resolveFrom_keepsUnnamedPrivate twoFiles ⟨.ofText "b.cpp", []⟩ (fun _ => true) "T" Graph.root
      unspelled (by simp) (by rw [found]; exact List.mem_singleton_self 4) (.inr inside) unnamed⟩

end TwoFiles

end Catalogue

end DeclGraph

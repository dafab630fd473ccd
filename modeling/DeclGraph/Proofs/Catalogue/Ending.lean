import DeclGraph.Proofs.Catalogue.Inherited
import DeclGraph.Proofs.Catalogue.Region
import DeclGraph.Proofs.Catalogue.Rooted
import DeclGraph.Proofs.Catalogue.Searches

/-!
# Why lookups end

The bounds of the searches are never what ends a lookup. Members of unnamed namespaces end since
containment is a forest, the search of bases and the following of aliases since nothing is passed
twice, the way outward at the global namespace, and the names in directives since they are looked
up from a viewpoint without directives.
-/

namespace DeclGraph

namespace Catalogue

variable {catalogue : Catalogue} {unit : Option FilePath} {accept : Node → Bool} {name : String}

section Members

/-- A search for members looks into the anonymous namespace of the unit where the scope has none
itself. -/
theorem directMembers_succ (steps scope : Nat) :
    catalogue.directMembers unit accept name (steps + 1) scope =
      if (catalogue.acceptedNamed accept name scope).isEmpty then
        match unit with
        | none => []
        | some path =>
          (catalogue.membersNamed scope path.unnamedNamespace).flatMap
            (catalogue.directMembers unit accept name steps)
      else catalogue.acceptedNamed accept name scope := rfl

/-- With enough steps for all scopes that do not lie around it, the search of a scope comes to
its end. -/
theorem Housed.membersSearch_directMembers (housed : catalogue.Housed []) {steps scope : Nat}
    {around : List Nat} (there : steps = 0 → catalogue.HasNode scope) (nodup : around.Nodup)
    (inside : ∀ outer ∈ around, catalogue.HasNode outer ∧ catalogue.graph.Encloses outer scope)
    (enough : catalogue.graph.nodeCount ≤ steps + around.length) :
    catalogue.MembersSearch unit accept name scope
      (catalogue.directMembers unit accept name steps scope) := by
  have new : scope ∉ around := fun again =>
    housed.forest.not_encloses_self scope (inside scope again).2
  induction steps generalizing scope around with
  | zero =>
    have few := Graph.length_lt_nodeCount (there rfl) new nodup fun outer listed =>
      (inside outer listed).1
    omega
  | succ steps deeper =>
    rw [directMembers_succ]
    by_cases nothing : catalogue.acceptedNamed accept name scope = []
    · rw [if_pos (List.isEmpty_iff.mpr nothing)]
      cases unit with
      | none => exact .nobody nothing rfl
      | some path =>
        have holds : ∀ {inner : Nat},
            inner ∈ catalogue.membersNamed scope path.unnamedNamespace →
            catalogue.graph.Related scope .contains inner :=
          fun member => (housed.mem_members.mp member).1
        refine .unnamed nothing rfl (fun inner member => housed.parent?_eq_some.mpr (holds member))
          (fun inner member => housed.forest.deeper (holds member)) fun inner member => ?_
        have ends := housed.sound.there_of_related (holds member)
        have within : ∀ outer ∈ scope :: around,
            catalogue.HasNode outer ∧ catalogue.graph.Encloses outer inner := by
          intro outer listed
          rcases List.mem_cons.mp listed with rfl | further
          · exact ⟨ends.1, .directly (holds member)⟩
          · exact ⟨(inside outer further).1, .through (inside outer further).2 (holds member)⟩
        exact deeper (fun _ => ends.2) (List.nodup_cons.mpr ⟨new, nodup⟩) within
          (by rw [List.length_cons]; omega)
          fun again => housed.forest.not_encloses_self inner (within inner again).2
    · rw [if_neg fun isEmpty => nothing (List.isEmpty_iff.mp isEmpty)]
      exact .here nothing

/-- The search for the members of a scope comes to its end. -/
theorem Housed.membersSearch (housed : catalogue.Housed []) (unit : Option FilePath)
    (accept : Node → Bool) (name : String) (scope : Nat) :
    catalogue.MembersSearch unit accept name scope
      (catalogue.ownMembers unit accept name scope) := by
  refine housed.membersSearch_directMembers (fun noSteps => ?_) List.nodup_nil (by simp) (by simp)
  have counted := Graph.length_lt_nodeCount (hasNode_root housed.sound) List.not_mem_nil
    List.nodup_nil nofun
  omega

end Members

section Bases

/-- The records that are searched are different from each other and from those before. -/
theorem BasesSearch.nodup {passed queue searched found : List Nat}
    (search : catalogue.BasesSearch unit accept name passed queue searched found) :
    searched.Nodup ∧ searched.Disjoint passed := by
  induction search with
  | exhausted => exact ⟨List.nodup_nil, List.disjoint_nil_left _⟩
  | again _ _ further => exact further
  | here new _ _ => exact ⟨List.nodup_singleton _, List.singleton_disjoint.mpr new⟩
  | behind new _ _ further =>
    obtain ⟨notAgain, apart⟩ := List.disjoint_cons_right.mp further.2
    exact ⟨List.nodup_cons.mpr ⟨notAgain, further.1⟩, List.disjoint_cons_left.mpr ⟨new, apart⟩⟩

/-- With enough steps for the queue and all edges that were not searched, the search of bases
comes to its end. -/
theorem Housed.exists_basesSearch (housed : catalogue.Housed []) (unit : Option FilePath)
    (accept : Node → Bool) (name : String) {steps : Nat} {passed queue : List Nat}
    (enough : queue.length + (catalogue.unsearched passed).length < steps) :
    ∃ searched, catalogue.BasesSearch unit accept name passed queue searched
      (catalogue.searchBases unit accept name steps passed queue) := by
  induction steps generalizing passed queue with
  | zero => omega
  | succ steps further =>
    cases queue with
    | nil => exact ⟨[], .exhausted⟩
    | cons record queue =>
      rw [List.length_cons] at enough
      unfold searchBases
      by_cases known : record ∈ passed
      · rw [if_pos (List.contains_iff_mem.mpr known)]
        obtain ⟨searched, search⟩ := further
          (show queue.length + (catalogue.unsearched passed).length < steps by omega)
        exact ⟨searched, .again known search⟩
      · rw [if_neg fun contained => known (List.contains_iff_mem.mp contained)]
        have members := housed.membersSearch unit accept name record
        dsimp only
        by_cases nothing : catalogue.ownMembers unit accept name record = []
        · -- The edges to its bases pay for the bases that join the queue.
          have used := length_bases_add_unsearched_le housed.sound known
          rw [if_pos (List.isEmpty_iff.mpr nothing)]
          have enoughLeft : (queue ++ catalogue.bases record).length +
              (catalogue.unsearched (record :: passed)).length < steps := by
            rw [List.length_append]
            omega
          obtain ⟨searched, search⟩ := further enoughLeft
          exact ⟨record :: searched, .behind known (nothing ▸ members) search⟩
        · rw [if_neg fun isEmpty => nothing (List.isEmpty_iff.mp isEmpty)]
          exact ⟨[record], .here known members nothing⟩

/-- The search for what is visible in a scope comes to its end. -/
theorem Housed.visibleSearch (housed : catalogue.Housed []) (unit : Option FilePath)
    (accept : Node → Bool) (name : String) (scope : Nat) :
    catalogue.VisibleSearch unit accept name scope
      (catalogue.visibleMembers unit accept name scope) := by
  have members := housed.membersSearch unit accept name scope
  unfold visibleMembers
  dsimp only
  by_cases nothing : catalogue.ownMembers unit accept name scope = []
  · by_cases isRecord : catalogue.isRecord scope = true
    · rw [if_pos (by simp [nothing, isRecord])]
      obtain ⟨searched, search⟩ := housed.exists_basesSearch unit accept name
        (enough_for_bases housed.sound scope)
      have once := List.nodup_cons.mpr ⟨List.disjoint_singleton.mp search.nodup.2, search.nodup.1⟩
      exact .inherited (nothing ▸ members) isRecord search once
    · rw [if_neg (by simp [isRecord])]
      exact .own members (.inr (Bool.eq_false_iff.mpr isRecord))
  · rw [if_neg (by simp [nothing])]
    exact .own members (.inl nothing)

end Bases

section Aliases

/-- The aliases that are passed are different from each other and from those before. -/
theorem AliasChase.nodup {passed followed : List Nat} {id last : Nat}
    (chase : catalogue.AliasChase passed id followed last) :
    followed.Nodup ∧ followed.Disjoint passed := by
  induction chase with
  | concrete _ => exact ⟨List.nodup_nil, List.disjoint_nil_left _⟩
  | again _ _ => exact ⟨List.nodup_nil, List.disjoint_nil_left _⟩
  | nowhere _ new _ => exact ⟨List.nodup_singleton _, List.singleton_disjoint.mpr new⟩
  | further _ new _ _ rest =>
    obtain ⟨notAgain, apart⟩ := List.disjoint_cons_right.mp rest.2
    exact ⟨List.nodup_cons.mpr ⟨notAgain, rest.1⟩, List.disjoint_cons_left.mpr ⟨new, apart⟩⟩

/-- What has a kind is there. -/
theorem hasNode_of_kind? {id : Nat} {kind : EntityKind} (known : catalogue.kind? id = some kind) :
    catalogue.HasNode id := by
  obtain ⟨node, found, _⟩ := Option.map_eq_some_iff.mp known
  exact Graph.isSome_key?_iff.mpr ⟨node, found⟩

/-- With enough steps for all nodes that were not passed, following aliases comes to its end. -/
theorem exists_aliasChase {steps id : Nat} {passed : List Nat} (nodup : passed.Nodup)
    (there : ∀ former ∈ passed, catalogue.HasNode former)
    (enough : catalogue.graph.nodeCount ≤ steps + passed.length) :
    ∃ followed, catalogue.AliasChase passed id followed
      (catalogue.followAliases steps passed id) := by
  induction steps generalizing passed id with
  | zero =>
    refine ⟨[], ?_⟩
    by_cases isAlias : catalogue.kind? id = some .typeAlias
    · -- All nodes were passed.
      refine .again isAlias ?_
      by_contra new
      have few := Graph.length_lt_nodeCount (hasNode_of_kind? isAlias) new nodup there
      omega
    · exact .concrete isAlias
  | succ steps further =>
    by_cases isAlias : catalogue.kind? id = some .typeAlias
    · by_cases known : id ∈ passed
      · rw [followAliases, if_neg fun both => by simp_all]
        exact ⟨[], .again isAlias known⟩
      · rw [followAliases, if_pos ⟨isAlias, by simpa using known⟩]
        cases stands : catalogue.aliasTarget? id with
        | none => exact ⟨[id], .nowhere isAlias known stands⟩
        | some target =>
          have passedThere : ∀ former ∈ id :: passed, catalogue.HasNode former :=
            List.forall_mem_cons.mpr ⟨hasNode_of_kind? isAlias, there⟩
          have enoughLeft : catalogue.graph.nodeCount ≤ steps + (id :: passed).length := by
            rw [List.length_cons]
            omega
          obtain ⟨followed, rest⟩ :=
            further (List.nodup_cons.mpr ⟨known, nodup⟩) passedThere enoughLeft
          exact ⟨id :: followed, .further isAlias known stands rest⟩
    · rw [followAliases, if_neg fun both => isAlias both.1]
      exact ⟨[], .concrete isAlias⟩

/-- An alias is followed to its end, and no alias is passed twice. -/
theorem dealiasing_dealias (catalogue : Catalogue) (id : Nat) :
    catalogue.Dealiasing id (catalogue.dealias id) := by
  have enough : catalogue.graph.nodeCount ≤ catalogue.graph.nodeCount + ([] : List Nat).length :=
    Nat.le_refl _
  obtain ⟨followed, chase⟩ := exists_aliasChase List.nodup_nil nofun enough
  exact ⟨chase, chase.nodup.1⟩

end Aliases

section Outward

variable {opens : Nat → List Nat → Prop} {opened : Nat → List Nat}

/-- The search in one place of the walk outward comes to its end if that for what is opened there
does. -/
theorem Housed.placeSearch (housed : catalogue.Housed []) (unit : Option FilePath)
    (accept : Node → Bool) (name : String) {scope : Nat} (ends : opens scope (opened scope)) :
    catalogue.PlaceSearch unit accept name opens scope
      (catalogue.shownIn unit opened accept name scope) := by
  have visible := housed.visibleSearch unit accept name scope
  unfold shownIn
  dsimp only
  by_cases nothing : catalogue.visibleMembers unit accept name scope = []
  · rw [if_pos (List.isEmpty_iff.mpr nothing)]
    exact .opened (nothing ▸ visible) ends fun inner _ => housed.visibleSearch unit accept name inner
  · rw [if_neg fun isEmpty => nothing (List.isEmpty_iff.mp isEmpty)]
    exact .own visible nothing

/-- A declared node is the global namespace or lies in a scope. -/
theorem Housed.root_or_related (housed : catalogue.Housed []) {id : Nat}
    (declared : catalogue.IsDeclared id) :
    (id = Graph.root ∧ catalogue.graph.parent? id = none) ∨
      ∃ outer, catalogue.graph.parent? id = some outer ∧ catalogue.IsDeclared outer := by
  obtain ⟨key, carried, family⟩ := declared
  by_cases global : key = .global
  · rw [global] at carried
    rcases housed.parent?_cases carried with top | ⟨notRoot, _⟩
    · exact .inl top
    · exact absurd (housed.sound.id_eq_of_key? carried housed.sound.root_key) notRoot
  · obtain ⟨outer, outerKey, related⟩ := housed.exists_holder carried ⟨global, family⟩
    exact .inr ⟨outer, housed.parent?_eq_some.mpr related, _, outerKey, by
      simp [EntityKey.holder, EntityKey.scope]⟩

/-- The walk outward goes on in the scope around one where nothing is shown. -/
theorem searchOutward_succ (steps scope : Nat) :
    catalogue.searchOutward unit opened accept name (steps + 1) scope =
      if (catalogue.shownIn unit opened accept name scope).isEmpty then
        match catalogue.graph.parent? scope with
        | some outer => catalogue.searchOutward unit opened accept name steps outer
        | none => []
      else catalogue.shownIn unit opened accept name scope := rfl

/-- With enough steps for all scopes that were not passed, the search outward comes to its end. -/
theorem Housed.outwardSearch_searchOutward (housed : catalogue.Housed []) {steps scope : Nat}
    (ends : ∀ scope, opens scope (opened scope)) (declared : catalogue.IsDeclared scope)
    {passed : List Nat} (behind : catalogue.Behind scope passed)
    (enough : catalogue.graph.nodeCount < steps + passed.length) :
    catalogue.OutwardSearch unit accept name opens scope
      (catalogue.searchOutward unit opened accept name steps scope) := by
  have few := behind.length_le
  induction steps generalizing scope passed with
  | zero => omega
  | succ steps further =>
    have place := housed.placeSearch unit accept name (ends scope)
    rw [searchOutward_succ]
    by_cases nothing : catalogue.shownIn unit opened accept name scope = []
    · rw [if_pos (List.isEmpty_iff.mpr nothing)]
      rw [nothing] at place
      rcases housed.root_or_related declared with ⟨rfl, alone⟩ | ⟨outer, lies, outerDeclared⟩
      · rw [alone]
        exact .outermost place alone
      · rw [lies]
        have holds := housed.parent?_eq_some.mp lies
        have next := behind.outer housed holds
        exact .around place lies (housed.forest.deeper holds) (further outerDeclared next
          (by rw [List.length_cons]; omega) next.length_le)
    · rw [if_neg fun isEmpty => nothing (List.isEmpty_iff.mp isEmpty)]
      exact .here place nothing

/-- The search for an unqualified name comes to its end at the root. -/
theorem Housed.unqualifiedSearch (housed : catalogue.Housed []) (unit : Option FilePath)
    (accept : Node → Bool) (name : String) (scope : Nat)
    (ends : ∀ scope, opens scope (opened scope)) :
    catalogue.UnqualifiedSearch unit accept name opens scope
      (catalogue.unqualified unit opened accept name scope) := by
  unfold unqualified
  by_cases declared : catalogue.IsDeclared scope
  · exact .declared declared (housed.outwardSearch_searchOutward ends declared .nil
      (Nat.lt_succ_self _))
  · have alone : catalogue.graph.parent? scope = none := by
      rw [Option.eq_none_iff_forall_not_mem]
      intro outer lies
      obtain ⟨_, key, carried, inScope, _⟩ :=
        housed.contains_iff.mp (housed.parent?_eq_some.mp lies)
      exact declared ⟨key, carried, inScope.2⟩
    have place := housed.placeSearch unit accept name (ends scope)
    rw [searchOutward_succ, alone]
    by_cases nothing : catalogue.shownIn unit opened accept name scope = []
    · rw [if_pos (List.isEmpty_iff.mpr nothing)]
      exact .astray declared alone (nothing ▸ place)
    · rw [if_neg fun isEmpty => nothing (List.isEmpty_iff.mp isEmpty)]
      exact .astray declared alone place

end Outward

section Spelled

variable {opens : Nat → List Nat → Prop} {opened : Nat → List Nat}

/-- The search behind an alias comes to its end. -/
theorem Housed.dealiasedSearch (housed : catalogue.Housed []) (unit : Option FilePath)
    (accept : Node → Bool) (name : String) (id : Nat) :
    catalogue.DealiasedSearch unit accept name id
      (catalogue.visibleMembers unit accept name (catalogue.dealias id)) :=
  ⟨dealiasing_dealias catalogue id, housed.visibleSearch unit accept name _⟩

/-- The descent along some names comes to its end. -/
theorem Housed.descent (housed : catalogue.Housed []) (unit : Option FilePath)
    (scopes : List Nat) (names : List String) :
    catalogue.Descent unit scopes names (catalogue.descend unit scopes names) := by
  induction names generalizing scopes with
  | nil => exact .done
  | cons name names further =>
    exact .next (fun id _ => housed.dealiasedSearch unit hasMembers name id) (further _)

/-- The search for the first name of a spelling comes to its end. -/
theorem Housed.firstSearch (housed : catalogue.Housed []) (unit : Option FilePath)
    (accept : Node → Bool) (name : String) (rooted : Bool) (scope : Nat)
    (ends : ∀ scope, opens scope (opened scope)) :
    catalogue.FirstSearch unit accept name opens rooted scope
      (if rooted then catalogue.visibleMembers unit accept name Graph.root
        else catalogue.unqualified unit opened accept name scope) := by
  cases rooted with
  | true => exact .global rfl (housed.visibleSearch unit accept name Graph.root)
  | false => exact .relative rfl (housed.unqualifiedSearch unit accept name scope ends)

/-- A lookup comes to its end if the search for opened namespaces does in every scope. -/
theorem Housed.lookup (housed : catalogue.Housed []) (unit : Option FilePath)
    (accept : Node → Bool) (spelling : String) (scope : Nat)
    (ends : ∀ scope, opens scope (opened scope)) :
    catalogue.Lookup unit accept opens spelling scope
      (catalogue.resolveWith unit opened accept spelling scope) := by
  have first := fun accept name =>
    housed.firstSearch unit accept name (startsAtRoot spelling) scope ends
  have split : (ScopedName.ofSpelling (Spelling.withoutArguments spelling)).segments =
      Spelling.components spelling := by
    unfold Spelling.components
    rfl
  unfold resolveWith
  dsimp only
  rw [split]
  cases components : Spelling.components spelling with
  | nil => exact .nameless components
  | cons name further =>
    cases further with
    | nil => exact .simple components (first accept name)
    | cons second further =>
      exact .qualified components (first hasMembers name) (housed.descent unit _ _)
        fun id _ => housed.dealiasedSearch unit accept _ id

end Spelled

section Viewed

/-- Nothing is looked up to find what is opened where there are no directives. -/
theorem opening_undirected {viewpoint : Option Viewpoint}
    (undirected : ∀ seenFrom ∈ viewpoint, seenFrom.directives = [])
    (means : Viewpoint → String → Nat → List Nat → Prop) (scope : Nat) :
    catalogue.Opening means viewpoint scope [] := by
  cases viewpoint with
  | none => exact .nobody
  | some seenFrom => exact .undirected (undirected seenFrom rfl)

/-- Without directives a lookup comes to its end within any number of levels. -/
theorem Housed.lookupWithin_undirected (housed : catalogue.Housed []) (levels : Nat)
    {viewpoint : Option Viewpoint}
    (undirected : ∀ seenFrom ∈ viewpoint, seenFrom.directives = []) (accept : Node → Bool)
    (spelling : String) (scope : Nat) :
    catalogue.LookupWithin levels viewpoint accept spelling scope
      (catalogue.resolveWith (viewpoint.map (·.unit)) (fun _ => []) accept spelling scope) := by
  have ends : ∀ means scope, catalogue.Opening means viewpoint scope [] :=
    opening_undirected undirected
  cases levels with
  | zero => exact housed.lookup _ accept spelling scope (ends _)
  | succ levels => exact housed.lookup _ accept spelling scope (ends _)

/-- Without directives nothing is opened anywhere. -/
theorem openedIn_undirected {viewpoint : Viewpoint} (undirected : viewpoint.directives = []) :
    catalogue.openedIn viewpoint = fun _ => [] := by
  funext scope
  unfold openedIn
  cases catalogue.graph.nodeTable[scope]? with
  | none => rfl
  | some node => simp [undirected, distinct]

/-- The names in directives are looked up without directives, and no further ones for them. -/
theorem Housed.opening (housed : catalogue.Housed []) (levels : Nat) (viewpoint : Viewpoint)
    (scope : Nat) :
    catalogue.Opening (fun bare => catalogue.LookupWithin levels (some bare) isNamespace)
      (some viewpoint) scope (catalogue.openedIn viewpoint scope) := by
  by_cases undirected : viewpoint.directives = []
  · rw [openedIn_undirected undirected]
    exact .undirected undirected
  · unfold openedIn
    cases found : catalogue.graph.nodeTable[scope]? with
    | none => exact .missing undirected found
    | some node =>
      refine .directed undirected found fun directive _ => ?_
      exact housed.lookupWithin_undirected levels (by simp) isNamespace directive.opened scope

/-- Every lookup in the catalogue comes to an end by the rules of its searches, with the result of
the bounded searches. From a viewpoint with directives there is one level of lookups within a
lookup, and otherwise there is none. -/
structure LookupsEnd (catalogue : Catalogue) : Prop where
  dealias : ∀ id last, catalogue.Dealiasing id last ↔ catalogue.dealias id = last
  lookupMember : ∀ accept name scope found,
    catalogue.VisibleSearch none accept name scope found ↔
      catalogue.lookupMember accept name scope = found
  resolve : ∀ accept spelling scope found,
    catalogue.LookupWithin 0 none accept spelling scope found ↔
      catalogue.resolve accept spelling scope = found
  resolveFrom : ∀ viewpoint accept spelling scope found,
    catalogue.LookupWithin 1 (some viewpoint) accept spelling scope found ↔
      catalogue.resolveFrom viewpoint accept spelling scope = found
  undirected : ∀ viewpoint accept spelling scope found, viewpoint.directives = [] →
    (catalogue.LookupWithin 0 (some viewpoint) accept spelling scope found ↔
      catalogue.resolveFrom viewpoint accept spelling scope = found)

/-- In a housed catalogue every lookup comes to its end, those for directives within one level. -/
theorem Housed.lookupsEnd (housed : catalogue.Housed []) : catalogue.LookupsEnd where
  dealias id last := by
    have ends := catalogue.dealiasing_dealias id
    exact ⟨fun dealiasing => ends.unique dealiasing, fun same => same ▸ ends⟩
  lookupMember accept name scope found := by
    have ends := housed.visibleSearch none accept name scope
    exact ⟨fun search => ends.unique search, fun same => same ▸ ends⟩
  resolve accept spelling scope found := by
    have nobody : ∀ seenFrom ∈ (none : Option Viewpoint), seenFrom.directives = [] := nofun
    have ends := housed.lookupWithin_undirected 0 nobody accept spelling scope
    exact ⟨fun lookup => ends.unique lookup, fun same => same ▸ ends⟩
  resolveFrom viewpoint accept spelling scope found := by
    have ends : catalogue.LookupWithin 1 (some viewpoint) accept spelling scope
        (catalogue.resolveFrom viewpoint accept spelling scope) :=
      housed.lookup _ accept spelling scope (housed.opening 0 viewpoint)
    exact ⟨fun lookup => ends.unique lookup, fun same => same ▸ ends⟩
  undirected viewpoint accept spelling scope found undirected := by
    have ends : catalogue.LookupWithin 0 (some viewpoint) accept spelling scope
        (catalogue.resolveFrom viewpoint accept spelling scope) := by
      rw [Catalogue.resolveFrom, openedIn_undirected undirected]
      exact housed.lookupWithin_undirected 0 (by simpa using undirected) accept spelling scope
    exact ⟨fun lookup => ends.unique lookup, fun same => same ▸ ends⟩

/-- Whatever is declared, moved and related, in whatever circles, every lookup comes to an end by
the rules of its searches, which know no bound: unnamed namespaces are searched ever deeper, no
base and no alias is passed twice, the way outward ends at the global namespace, and lookups of
names in directives hold no further ones. A build changes its catalogue by nothing but such
steps, see `Assembly.Reached.arises_finishing`. -/
theorem lookups_end (steps : List LinkedStep) : (afterLinkedSteps steps).LookupsEnd :=
  (housed_afterLinkedSteps steps).lookupsEnd

end Viewed

section Circles

/-- A unit that opens a namespace. -/
def circularViewpoint : Viewpoint := ⟨.ofText "a.cpp", [⟨.global, "N", 1⟩]⟩

/-- The step that relates two nodes for a reason for which the linking does. -/
def LinkedStep.ofBond (source target : Nat) (bond : Bond) (attributes : Attributes) : LinkedStep :=
  .relate source target bond.relation attributes bond.relation_ne_contains

/-- The records `A` and `B` derive from each other, the aliases `X` and `Y` stand for each other,
and the namespace `N` holds a field two unnamed namespaces deep. -/
def circular : List LinkedStep :=
  let unnamed := circularViewpoint.unit.unnamedNamespace
  [.request (.register (scopeMention ["A"] .structRecord false)),
    .request (.register (scopeMention ["B"] .structRecord false)),
    .request (.register ⟨.typeAlias ⟨["X"]⟩, .typeAlias, ∅, true, false⟩),
    .request (.register ⟨.typeAlias ⟨["Y"]⟩, .typeAlias, ∅, true, false⟩),
    .request (.register ⟨.field ⟨["N", unnamed, unnamed, "m"]⟩, .field, ∅, true, false⟩),
    .ofBond 1 2 .inherits ∅, .ofBond 2 1 .inherits ∅,
    .ofBond 3 4 (.use "alias") (roleAttributes "alias"),
    .ofBond 4 3 (.use "alias") (roleAttributes "alias")]

/-- From the record `A`, the field is found in the opened namespace, after all records. -/
example : (afterLinkedSteps circular).resolveFrom circularViewpoint (fun _ => true) "m" 1 = [5] := by
  decide +kernel

end Circles

end Catalogue

end DeclGraph

import DeclGraph.Proofs.Catalogue.Members
import DeclGraph.Proofs.Catalogue.Spelled
import DeclGraph.Proofs.Spelling.Qualified

/-!
# Absolute names

As long as only containment relates the nodes, whatever is declared is found by its name with a
separator in front. The name is read back as it was written, and the search goes down through
the scopes that the name says. It may take along aliases of the names of these scopes, in which
nothing lies.
-/

namespace DeclGraph

/-- A name of bare segments, with a separator in front, has no template arguments to leave out. -/
theorem ScopedName.withoutArguments_rooted {name : ScopedName} (nonempty : name.segments ≠ [])
    (bare : ∀ segment ∈ name.segments, IsBare segment) :
    Spelling.withoutArguments ("::" ++ name.display) = "::" ++ name.display := by
  refine Spelling.withoutArguments_eq_self (readable_of_bare nonempty bare).trim_display.2 ?_
  intro c member
  have plain : c = ':' ∨ ∃ segment ∈ name.segments, c ∈ segment.toList := by
    rw [String.toList_append, toList_display nonempty, List.mem_append] at member
    rcases member with front | behind
    · exact .inl (by simpa using front)
    · exact Spelling.mem_joined behind
  rcases plain with rfl | ⟨segment, listed, inside⟩
  · decide
  · have unmarked := (bare segment listed).unmarked c inside
    simp only [List.mem_cons, not_or] at unmarked
    exact ⟨unmarked.1, unmarked.2.1⟩

namespace Catalogue

variable {catalogue : Catalogue} {accept : Node → Bool} {id : Nat}

/-- An accepted node is a member of the scope that its name says. -/
theorem Housed.exists_hasMember (housed : catalogue.Housed []) {key : EntityKey}
    (carried : catalogue.graph.key? id = some key) (lies : key.LiesInScope)
    {front : List String} {last : String} (segments : key.name.segments = front ++ [last])
    (accepted : catalogue.Accepts accept id) :
    ∃ scope, catalogue.graph.key? scope = some (.scope ⟨front⟩) ∧
      catalogue.HasMember accept last scope id := by
  obtain ⟨scope, scopeKey, inside⟩ := housed.exists_holder carried lies
  rw [EntityKey.holder, segments, List.dropLast_concat] at scopeKey
  refine ⟨scope, scopeKey, inside, ?_, accepted⟩
  rw [carried, Option.map_some, ScopedName.simple, segments, List.getLastD_concat]

/-- Names can be looked up in every scope. -/
theorem accepts_hasMembers (sound : catalogue.graph.Sound) {name : ScopedName}
    (carried : catalogue.graph.key? id = some (.scope name)) :
    catalogue.Accepts hasMembers id := by
  obtain ⟨node, found, key⟩ := Graph.key?_eq_some.mp carried
  refine ⟨node, found, ?_⟩
  have family : node.kind.family = .scope := by
    rw [sound.kind_family found, key]
    rfl
  unfold hasMembers
  cases kind : node.kind <;> simp_all [EntityKind.family, EntityKind.isRecord]

/-- The last name is looked up in each scope to which the others lead. -/
theorem descend_concat (unit : Option FilePath) (scopes : List Nat) (names : List String)
    (name : String) :
    catalogue.descend unit scopes (names ++ [name]) =
      (catalogue.descend unit scopes names).flatMap fun scope =>
        catalogue.visibleMembers unit hasMembers name (catalogue.dealias scope) := by
  induction names generalizing scopes with
  | nil => rfl
  | cons first names further => exact further _

/-- The search of one name after the other comes to the scope that they name. -/
theorem Tidy.mem_descend (tidy : catalogue.Tidy) {first : String} {names : List String}
    {scope : Nat} (carried : catalogue.graph.key? scope = some (.scope ⟨first :: names⟩)) :
    scope ∈ catalogue.descend none
      (catalogue.visibleMembers none hasMembers first Graph.root) names := by
  have housed := tidy.housed
  have lies : (EntityKey.scope ⟨first :: names⟩).LiesInScope :=
    EntityKey.scope_liesInScope (List.cons_ne_nil _ _)
  have accepted := accepts_hasMembers housed.sound carried
  induction names using List.reverseRecOn generalizing scope with
  | nil =>
    obtain ⟨outer, outerKey, member⟩ :=
      housed.exists_hasMember carried lies (List.nil_append [first]).symm accepted
    obtain rfl : outer = Graph.root := housed.sound.id_eq_of_key? outerKey housed.sound.root_key
    exact member.mem_visibleMembers housed
  | append_singleton names last further =>
    obtain ⟨outer, outerKey, member⟩ :=
      housed.exists_hasMember carried lies (List.cons_append : first :: names ++ [last] = _).symm accepted
    rw [descend_concat, List.mem_flatMap]
    refine ⟨outer, further outerKey (EntityKey.scope_liesInScope (List.cons_ne_nil _ _))
      (accepts_hasMembers housed.sound outerKey), ?_⟩
    rw [tidy.unlinked.dealias_eq housed.sound]
    exact member.mem_visibleMembers housed

/-- The absolute name of an accepted node leads to it, and to nothing twice. -/
theorem Tidy.mem_resolve_absolute (tidy : catalogue.Tidy) {key : EntityKey}
    (carried : catalogue.graph.key? id = some key) (lies : key.LiesInScope)
    (nonempty : key.name.segments ≠ [])
    (bare : ∀ segment ∈ key.name.segments, ScopedName.IsBare segment)
    (accepted : catalogue.Accepts accept id) (scope : Nat) :
    id ∈ catalogue.resolve accept ("::" ++ key.name.display) scope ∧
      (catalogue.resolve accept ("::" ++ key.name.display) scope).Nodup := by
  have housed := tidy.housed
  obtain ⟨front, last, segments⟩ : ∃ front last, key.name.segments = front ++ [last] :=
    ⟨_, _, (List.dropLast_append_getLast nonempty).symm⟩
  obtain ⟨holder, holderKey, member⟩ := housed.exists_hasMember carried lies segments accepted
  have rooted : [':', ':'].isPrefixOf ("::" ++ key.name.display).toList = true := by
    simp [String.toList_append, List.isPrefixOf]
  unfold resolve resolveWith
  simp only [ScopedName.withoutArguments_rooted nonempty bare,
    (ScopedName.readable_of_bare nonempty bare).ofSpelling_rooted, rooted, if_true, segments]
  cases front with
  | nil =>
    obtain rfl : holder = Graph.root := housed.sound.id_eq_of_key? holderKey housed.sound.root_key
    refine ⟨member.mem_visibleMembers housed, ?_⟩
    show (catalogue.visibleMembers none accept last Graph.root).Nodup
    rw [member.visibleMembers_eq housed]
    exact housed.nodup_ownMembers _
  | cons first names =>
    have further : ∃ second rest, names ++ [last] = second :: rest :=
      List.exists_cons_of_ne_nil (by simp)
    obtain ⟨second, rest, whole⟩ := further
    rw [List.cons_append, whole]
    dsimp only
    rw [← whole, List.dropLast_concat, List.getLastD_concat]
    refine ⟨mem_distinct.mpr (List.mem_flatMap.mpr ⟨holder, tidy.mem_descend holderKey, ?_⟩),
      nodup_distinct _⟩
    rw [tidy.unlinked.dealias_eq housed.sound]
    exact member.mem_visibleMembers housed

/-- Whatever was asked of a catalogue before, a declared entity is all that its name with a
separator in front means to a lookup that accepts nothing else. -/
theorem resolve_absolute (requests : List Request) {accept : Node → Bool} {id : Nat} {node : Node}
    (held : (afterRequests requests).graph.nodeTable[id]? = some node)
    (declared : node.kind ≠ .placeholder) (nonempty : node.key.name.segments ≠ [])
    (bare : ∀ segment ∈ node.key.name.segments, ScopedName.IsBare segment)
    (accepted : accept node)
    (only : ∀ other, (afterRequests requests).Accepts accept other → other = id) (scope : Nat) :
    (afterRequests requests).resolve accept ("::" ++ node.key.name.display) scope = [id] := by
  have tidy := tidy_afterRequests requests
  have lies : node.key.LiesInScope := by
    refine ⟨fun global => nonempty (by rw [global]; rfl), fun standIn => declared ?_⟩
    have family := tidy.housed.sound.kind_family held
    rw [standIn] at family
    cases kind : node.kind <;> simp_all [EntityKind.family]
  obtain ⟨found, nodup⟩ := tidy.mem_resolve_absolute (Graph.key?_of_node held) lies nonempty bare
    ⟨node, held, accepted⟩ scope
  exact eq_singleton_of_nodup nodup found fun other member =>
    only other (findable_of_mem_resolveWith member).accepted

section Overloaded

/-- A record, an alias of the same name beside it, and two operators of the record. -/
def overloadedOperator : List Request :=
  [.register ⟨.scope ⟨["E", "P"]⟩, .classRecord, ∅, true, false⟩,
    .register ⟨.typeAlias ⟨["E", "P"]⟩, .typeAlias, ∅, true, false⟩,
    .register ⟨.callable ⟨["E", "P", "operator new"]⟩ "(int)", .method, ∅, true, false⟩,
    .register ⟨.callable ⟨["E", "P", "operator new"]⟩ "(char)", .method, ∅, true, false⟩]

/-- The second operator is found from within the alias. -/
theorem resolve_absolute_overloadedOperator :
    let key := EntityKey.callable ⟨["E", "P", "operator new"]⟩ "(char)"
    let catalogue := afterRequests overloadedOperator
    catalogue.graph.key? 5 = some key ∧
      (∀ segment ∈ key.name.segments, ScopedName.IsBare segment) ∧
      (∀ other, catalogue.Accepts (fun node => node.key = key) other → other = 5) ∧
      catalogue.resolve (fun node => node.key = key) "::E::P::operator new" 3 = [5] := by
  intro key catalogue
  have sound := (tidy_afterRequests overloadedOperator).housed.sound
  have carried : catalogue.graph.key? 5 = some key := by decide +kernel
  have bare : ∀ segment ∈ key.name.segments, ScopedName.IsBare segment := by decide +kernel
  have only : ∀ other, catalogue.Accepts (fun node => node.key = key) other → other = 5 := by
    rintro other ⟨node, found, same⟩
    have otherKey := Graph.key?_of_node found
    rw [of_decide_eq_true same] at otherKey
    exact sound.id_eq_of_key? otherKey carried
  obtain ⟨node, held, carries⟩ := Graph.key?_eq_some.mp carried
  have declared : node.kind ≠ .placeholder := by
    intro standIn
    have family := sound.kind_family held
    rw [standIn, carries] at family
    cases family
  have found := resolve_absolute overloadedOperator held declared (by rw [carries]; decide)
    (carries ▸ bare) (decide_eq_true carries) only 3
  have display : "::" ++ key.name.display = "::E::P::operator new" := by decide +kernel
  rw [carries, display] at found
  exact ⟨carried, bare, only, found⟩

end Overloaded

end Catalogue

end DeclGraph

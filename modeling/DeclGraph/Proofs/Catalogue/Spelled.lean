import DeclGraph.Catalogue.Relocation
import DeclGraph.Proofs.Catalogue.Lookups
import DeclGraph.Proofs.Catalogue.Named
import Mathlib.Data.List.Induction

/-!
# What spelled names mean before linking

As long as only containment relates its nodes, what a spelled name means in a
catalogue can be told from the names that are known. A lookup of a scope then
finds one node at most, its search of a scope depends on the names in the scope
alone, and the bounds of the searches never cut one short.
-/

namespace DeclGraph

/-- Whether a spelled name starts at the global namespace. -/
def Spelling.isRooted (spelling : String) : Bool :=
  [':', ':'].isPrefixOf (Spelling.withoutArguments spelling).toList

/-- The simple names of which a spelled name consists. -/
@[irreducible] def Spelling.components (spelling : String) : List String :=
  (ScopedName.ofSpelling (Spelling.withoutArguments spelling)).segments

namespace Catalogue

/-- A catalogue as it is before linking: names say where entities lie and of
which families they are. -/
structure BeforeLinking (catalogue : Catalogue) : Prop where
  housed : catalogue.Housed []
  unlinked : catalogue.Unlinked
  named : WellNamed catalogue.graph.profile?

/-- The number is that of a declared entity of a name. -/
def Named (catalogue : Catalogue) (id : Nat) (name : ScopedName) : Prop :=
  ∃ key, catalogue.graph.key? id = some key ∧ key.family ≠ .placeholder ∧ key.name = name

/-- Whether kinds are accepted of which there is one entity of a name at most. -/
def Singular (accept : EntityKind → Bool) : Prop :=
  ∀ kind, accept kind → kind.family ≠ .callable ∧ kind.family ≠ .placeholder

/-- Whether an entity of an accepted kind is known under a name. -/
def Carries (known : EntityKey → Option Profile) (accept : EntityKind → Bool)
    (name : ScopedName) : Prop :=
  ∃ key profile, known key = some profile ∧ key.name = name ∧ key.family ≠ .placeholder ∧
    accept profile.kind

/-- A lookup has found what some name means, if it means anything. -/
inductive Answers (catalogue : Catalogue) (means : ScopedName → Prop) : List Nat → Prop where
  | nothing (meansNothing : ∀ name, ¬ means name) : Answers catalogue means []
  | one {id : Nat} {name : ScopedName} (named : catalogue.Named id name)
    (only : ∀ other, means other ↔ other = name) : Answers catalogue means [id]

namespace Answers

variable {catalogue : Catalogue} {means : ScopedName → Prop} {found : List Nat}

/-- What a name means may be told in another way. -/
theorem congr {other : ScopedName → Prop} (answers : catalogue.Answers means found)
    (same : ∀ name, means name ↔ other name) : catalogue.Answers other found := by
  rwa [show other = means from funext fun name => propext (same name).symm]

/-- Nothing is found exactly when no name is meant. -/
theorem isEmpty_iff (answers : catalogue.Answers means found) :
    found.isEmpty ↔ ∀ name, ¬ means name := by
  cases answers with
  | nothing meansNothing => simpa using meansNothing
  | one _ only =>
    simp only [List.isEmpty_cons, Bool.false_eq_true, only, false_iff]
    exact fun never => never _ rfl

/-- An answer has no repetitions. -/
theorem distinct_eq (answers : catalogue.Answers means found) : distinct found = found := by
  cases answers <;> rfl

/-- What is found by looking up one name after the other. -/
theorem flatMap {further : ScopedName → ScopedName → Prop} {look : Nat → List Nat}
    (answers : catalogue.Answers means found)
    (next : ∀ {id : Nat} {name : ScopedName}, catalogue.Named id name → means name →
      catalogue.Answers (further name) (look id)) :
    catalogue.Answers (fun last => ∃ name, means name ∧ further name last)
      (found.flatMap look) := by
  cases answers with
  | nothing meansNothing => exact .nothing fun _ ⟨name, held, _⟩ => meansNothing name held
  | @one id name named only =>
    rw [List.flatMap_singleton]
    refine (next named ((only name).mpr rfl)).congr fun last => ?_
    simp [only]

end Answers

/-- What the lookup of a simple name in a scope shows on behalf of a unit: the
accepted member of that name or, where there is none, what the unit's unnamed
namespace in the scope shows. -/
inductive Shows (known : EntityKey → Option Profile) (unit : FilePath)
    (accept : EntityKind → Bool) (simple : String) : ScopedName → ScopedName → Prop where
  | member {scope : ScopedName} (there : Carries known accept (scope.child simple)) :
    Shows known unit accept simple scope (scope.child simple)
  | unnamed {scope found : ScopedName} (absent : ¬ Carries known accept (scope.child simple))
    (inside : Shows known unit accept simple (scope.child unit.unnamedNamespace) found) :
    Shows known unit accept simple scope found

namespace Shows

variable {known : EntityKey → Option Profile} {unit : FilePath} {accept : EntityKind → Bool}
  {simple : String} {scope found : ScopedName}

/-- A scope with an accepted member of the name shows no more than that. -/
theorem iff_of_carries (there : Carries known accept (scope.child simple)) :
    Shows known unit accept simple scope found ↔ found = scope.child simple := by
  constructor
  · rintro (_ | ⟨absent, _⟩)
    · rfl
    · exact absurd there absent
  · rintro rfl
    exact .member there

/-- A scope without an accepted member of the name shows what the unnamed namespace of the
unit in it does. -/
theorem unnamed_iff (absent : ¬ Carries known accept (scope.child simple)) :
    Shows known unit accept simple (scope.child unit.unnamedNamespace) found ↔
      Shows known unit accept simple scope found := by
  constructor
  · exact .unnamed absent
  · rintro (⟨there⟩ | ⟨_, inside⟩)
    · exact absurd there absent
    · exact inside

end Shows

/-- What the search for a simple name finds that starts in a scope and goes on
outward until something is shown. -/
inductive Finds (known : EntityKey → Option Profile) (unit : FilePath)
    (accept : EntityKind → Bool) (simple : String) : ScopedName → ScopedName → Prop where
  | here {scope found : ScopedName} (shown : Shows known unit accept simple scope found) :
    Finds known unit accept simple scope found
  | outward {scope outer found : ScopedName}
    (absent : ∀ other, ¬ Shows known unit accept simple scope other)
    (around : scope.parent? = some outer) (further : Finds known unit accept simple outer found) :
    Finds known unit accept simple scope found

/-- Whether names can be looked up in entities of a kind. -/
def scoping (kind : EntityKind) : Bool :=
  kind = .namespaceScope || kind.isRecord || kind = .typeAlias

/-- Whether a kind is that of namespaces. -/
def opening (kind : EntityKind) : Bool := kind = .namespaceScope

/-- Where simple names lead that are looked up one in the other. -/
def Walks (known : EntityKey → Option Profile) (unit : FilePath) :
    List String → ScopedName → ScopedName → Prop
  | [], scope, found => found = scope
  | simple :: further, scope, found =>
    ∃ middle, Shows known unit scoping simple scope middle ∧ Walks known unit further middle found

/-- What the first component of a spelled name means in a scope. -/
def Begins (known : EntityKey → Option Profile) (unit : FilePath) (rooted : Bool)
    (accept : EntityKind → Bool) (simple : String) (scope found : ScopedName) : Prop :=
  if rooted then Shows known unit accept simple .global found
  else Finds known unit accept simple scope found

/-- What a spelled name means in a scope. -/
def Means (known : EntityKey → Option Profile) (unit : FilePath) (rooted : Bool)
    (accept : EntityKind → Bool) : List String → ScopedName → ScopedName → Prop
  | [], _, _ => False
  | [simple], scope, found => Begins known unit rooted accept simple scope found
  | first :: further, scope, found =>
    ∃ inner, (∃ start, Begins known unit rooted scoping first scope start ∧
      Walks known unit further.dropLast start inner) ∧
        Shows known unit accept (further.getLastD "") inner found

/-- The namespace that a directive of a unit opens. -/
def Opens (known : EntityKey → Option Profile) (unit : FilePath) (directive : Directive)
    (opened : ScopedName) : Prop :=
  (known (.scope directive.scope)).isSome ∧
    Means known unit (Spelling.isRooted directive.opened) opening
      (Spelling.components directive.opened) directive.scope opened

/-- One entity of a name at most is a scope. -/
theorem singular_scoping : Singular scoping := by
  intro kind scopes
  cases kind <;> simp_all [scoping, EntityKind.family, EntityKind.isRecord]

/-- One entity of a name at most can be opened. -/
theorem singular_opening : Singular opening := by
  intro kind opens
  cases kind <;> simp_all [opening, EntityKind.family]

section

variable {catalogue : Catalogue} {unit : FilePath} {accept : EntityKind → Bool} {simple : String}

/-- Where only containment relates nodes no record has bases. -/
theorem Unlinked.bases_eq_nil (unlinked : catalogue.Unlinked) (sound : catalogue.graph.Sound)
    (record : Nat) : catalogue.bases record = [] := by
  rw [List.eq_nil_iff_forall_not_mem]
  intro base member
  cases unlinked _ _ _ (related_of_mem_bases sound member)

/-- Where only containment relates nodes no alias stands for another entity. -/
theorem Unlinked.aliasTarget?_eq_none (unlinked : catalogue.Unlinked)
    (sound : catalogue.graph.Sound) (node : Nat) : catalogue.aliasTarget? node = none := by
  rw [Option.eq_none_iff_forall_not_mem]
  intro target found
  obtain ⟨edge, first, same⟩ := Option.map_eq_some_iff.mp found
  have listed := List.mem_of_find?_eq_some first
  cases unlinked _ _ _ (sound.mem_targets.mp (List.mem_map.mpr ⟨edge, listed, same⟩))

/-- Without links no alias leads anywhere else. -/
theorem Unlinked.dealias_eq (unlinked : catalogue.Unlinked) (sound : catalogue.graph.Sound)
    (node : Nat) : catalogue.dealias node = node := by
  have noTarget := unlinked.aliasTarget?_eq_none sound node
  unfold dealias
  cases catalogue.graph.nodeCount with
  | zero => rfl
  | succ steps => simp [followAliases, noTarget]

namespace BeforeLinking

/-- Before the linking the graph is sound. -/
theorem sound (before : catalogue.BeforeLinking) : catalogue.graph.Sound := before.housed.sound

/-- Before the linking every key is one that a declaration has. -/
theorem plain (before : catalogue.BeforeLinking) {id : Nat} {key : EntityKey}
    (carried : catalogue.graph.key? id = some key) : key.Plain :=
  before.named.plain (before.sound.profile?_isSome.mpr ⟨id, carried⟩)

/-- Of two declared entities of one name both are scopes if one is, and then they are one. -/
theorem eq_scope (before : catalogue.BeforeLinking) {id : Nat} {name : ScopedName}
    (scopeKnown : (catalogue.graph.profile? (.scope name)).isSome)
    (named : catalogue.Named id name) :
    catalogue.graph.key? id = some (.scope name) := by
  obtain ⟨key, carried, declared, rfl⟩ := named
  have known := before.sound.profile?_isSome.mpr ⟨id, carried⟩
  have family : key.family = .scope := before.named.one_family known scopeKnown declared
    (by simp [EntityKey.scope]) rfl
  have same : key = .scope key.name := (before.plain carried).eq_of_name
    (EntityKey.plain_scope _) family rfl (by simp [family]) declared
  rw [carried, ← same]

/-- What has a name with segments lies in the scope that the name says. -/
theorem exists_scope (before : catalogue.BeforeLinking) {id : Nat} {scope : ScopedName}
    (named : catalogue.Named id (scope.child simple)) :
    ∃ holder, catalogue.graph.key? holder = some (.scope scope) ∧
      catalogue.graph.Related holder .contains id := by
  obtain ⟨key, carried, declared, name⟩ := named
  have lies : key.LiesInScope :=
    (before.plain carried).liesInScope declared (by simp [name])
  obtain ⟨holder, holderKey, related⟩ := before.housed.exists_holder carried lies
  refine ⟨holder, ?_, related⟩
  rw [holderKey]
  simp [EntityKey.holder, name]

/-- The scope of what has a name is known. -/
theorem known_scope (before : catalogue.BeforeLinking) {id : Nat} {scope : ScopedName}
    (named : catalogue.Named id (scope.child simple)) :
    (catalogue.graph.profile? (.scope scope)).isSome := by
  obtain ⟨holder, holderKey, _⟩ := before.exists_scope named
  exact before.sound.profile?_isSome.mpr ⟨holder, holderKey⟩

/-- A scope that is known has a node. -/
theorem named_of_known (before : catalogue.BeforeLinking) {name : ScopedName}
    (known : (catalogue.graph.profile? (.scope name)).isSome) : ∃ id, catalogue.Named id name := by
  obtain ⟨id, carried⟩ := before.sound.profile?_isSome.mp known
  exact ⟨id, .scope name, carried, by simp [EntityKey.scope], rfl⟩

/-- The members of a scope under a simple name are the entities of the name. -/
theorem mem_membersNamed (before : catalogue.BeforeLinking) {scope id : Nat} {outer : ScopedName}
    (named : catalogue.Named scope outer) :
    id ∈ catalogue.membersNamed scope simple ↔ catalogue.Named id (outer.child simple) := by
  rw [before.housed.mem_members]
  constructor
  · rintro ⟨related, last⟩
    obtain ⟨_, key, carried, lies, holds⟩ := before.housed.contains_iff.mp related
    obtain ⟨scopeKey, scopeCarried, _, rfl⟩ := named
    rw [holds] at scopeCarried
    cases scopeCarried
    rw [carried, Option.map_some, Option.some.injEq] at last
    have someSegment : key.name.segments ≠ [] := fun nothing =>
      lies.1 ((before.plain carried).named lies.2 nothing)
    refine ⟨key, carried, lies.2, ?_⟩
    have enclosing : key.name.parent? = some ⟨key.name.segments.dropLast⟩ := by
      simp [ScopedName.parent?, ScopedName.isGlobal, someSegment]
    rw [← last]
    exact (ScopedName.child_simple_of_parent? enclosing).symm
  · intro member
    obtain ⟨holder, holderKey, related⟩ := before.exists_scope member
    have scopeKey := before.eq_scope (before.known_scope member) named
    have same := before.sound.id_eq_of_key? holderKey scopeKey
    subst same
    obtain ⟨key, carried, _, name⟩ := member
    exact ⟨related, by simp [carried, name]⟩

/-- The scopes around a declared entity are as many nodes as its name has segments. -/
theorem exists_around (before : catalogue.BeforeLinking) {segments : List String} {id : Nat}
    (named : catalogue.Named id ⟨segments⟩) :
    ∃ ids : List Nat, ids.length = segments.length + 1 ∧ ids.Nodup ∧
      ∀ id ∈ ids, ∃ inner, catalogue.Named id inner ∧
        inner.segments.length ≤ segments.length := by
  induction segments using List.reverseRecOn generalizing id with
  | nil => exact ⟨[id], rfl, by simp, by simpa using ⟨_, named, rfl⟩⟩
  | append_singleton outer last further =>
    obtain ⟨holder, holderNamed⟩ := before.named_of_known
      (before.known_scope (show catalogue.Named id (ScopedName.child ⟨outer⟩ last) from named))
    obtain ⟨ids, long, nodup, around⟩ := further holderNamed
    refine ⟨id :: ids, by simp [long], List.nodup_cons.mpr ⟨fun listed => ?_, nodup⟩, ?_⟩
    · -- All nodes further out have shorter names.
      obtain ⟨inner, ⟨key, carried, _, rfl⟩, short⟩ := around id listed
      obtain ⟨_, carriedToo, _, whole⟩ := named
      rw [carried] at carriedToo
      cases carriedToo
      simp only [whole, List.length_append, List.length_singleton] at short
      omega
    · intro other member
      rcases List.mem_cons.mp member with rfl | listed
      · exact ⟨_, named, Nat.le_refl _⟩
      · obtain ⟨inner, innerNamed, short⟩ := around other listed
        exact ⟨inner, innerNamed, by simp; omega⟩

/-- A name has fewer segments than there are nodes, as each of its scopes has one. -/
theorem length_lt_nodeCount (before : catalogue.BeforeLinking) {id : Nat} {name : ScopedName}
    (named : catalogue.Named id name) : name.segments.length < catalogue.graph.nodeCount := by
  obtain ⟨ids, long, nodup, there⟩ :=
    before.exists_around (show catalogue.Named id ⟨name.segments⟩ from named)
  have count := Graph.length_le_nodeCount nodup fun other member => by
    obtain ⟨_, ⟨_, carried, _⟩, _⟩ := there other member
    rw [carried]
    rfl
  omega

/-- The accepted nodes of a name are what the name carries. -/
theorem carries_iff (before : catalogue.BeforeLinking) {name : ScopedName} :
    Carries catalogue.graph.profile? accept name ↔ ∃ id, catalogue.Named id name ∧
      catalogue.Accepts (fun node => accept node.kind) id := by
  constructor
  · rintro ⟨key, profile, known, rfl, declared, accepted⟩
    obtain ⟨id, node, found, rfl, rfl⟩ := before.sound.profile?_eq_some.mp known
    exact ⟨id, ⟨node.key, Graph.key?_of_node found, declared, rfl⟩, node, found, accepted⟩
  · rintro ⟨id, ⟨key, carried, declared, rfl⟩, node, found, accepted⟩
    rw [Graph.key?_of_node found] at carried
    cases carried
    exact ⟨node.key, node.profile, before.sound.profile?_of_node found, rfl, declared, accepted⟩

/-- There is one accepted node of a name at most. -/
theorem unique (before : catalogue.BeforeLinking) (singular : Singular accept) {name : ScopedName}
    {first second : Nat} (firstNamed : catalogue.Named first name)
    (secondNamed : catalogue.Named second name)
    (accepted : catalogue.Accepts (fun node => accept node.kind) first) : first = second := by
  obtain ⟨key, carried, declared, rfl⟩ := firstNamed
  obtain ⟨other, otherCarried, otherDeclared, sameName⟩ := secondNamed
  obtain ⟨node, found, accepts⟩ := accepted
  have family := before.sound.kind_family found
  rw [Graph.key?_of_node found] at carried
  cases carried
  have sameFamily := before.named.one_family
    (before.sound.profile?_isSome.mpr ⟨first, Graph.key?_of_node found⟩)
    (before.sound.profile?_isSome.mpr ⟨second, otherCarried⟩) declared otherDeclared sameName.symm
  have same := (before.plain (Graph.key?_of_node found)).eq_of_name (before.plain otherCarried)
    sameFamily sameName.symm (family ▸ (singular _ accepts).1) declared
  exact before.sound.id_eq_of_key? (Graph.key?_of_node found) (same ▸ otherCarried)

/-- A scope that shows something is known. -/
theorem known_of_shows (before : catalogue.BeforeLinking) {scope found : ScopedName}
    (shown : Shows catalogue.graph.profile? unit accept simple scope found) :
    (catalogue.graph.profile? (.scope scope)).isSome := by
  induction shown with
  | member there =>
    obtain ⟨_, named, _⟩ := before.carries_iff.mp there
    exact before.known_scope named
  | unnamed _ _ inner =>
    obtain ⟨_, named⟩ := before.named_of_known inner
    exact before.known_scope named

/-- A scope is the only member of its simple name in the scope around it. -/
theorem membersNamed_eq_singleton (before : catalogue.BeforeLinking) {scope : Nat}
    {outer : ScopedName} (named : catalogue.Named scope outer)
    (known : (catalogue.graph.profile? (.scope (outer.child simple))).isSome) :
    ∃ id, catalogue.membersNamed scope simple = [id] := by
  obtain ⟨id, idNamed⟩ := before.named_of_known known
  refine ⟨id, eq_singleton_of_nodup (before.housed.members_nodup _ _)
    ((before.mem_membersNamed named).mpr idNamed) fun other listed => ?_⟩
  have otherNamed := (before.mem_membersNamed named).mp listed
  exact before.sound.id_eq_of_key? (before.eq_scope known otherNamed)
    (before.eq_scope known idNamed)

/-- Where a scope has no accepted member of the name, looking into the unnamed namespace of the
unit finds what the scope shows. -/
theorem answers_unnamed (before : catalogue.BeforeLinking) {scope : Nat} {outer : ScopedName}
    (named : catalogue.Named scope outer)
    (absent : ¬ Carries catalogue.graph.profile? accept (outer.child simple))
    {look : Nat → List Nat}
    (deeper : ∀ {id : Nat}, catalogue.Named id (outer.child unit.unnamedNamespace) →
      catalogue.Answers (Shows catalogue.graph.profile? unit accept simple
        (outer.child unit.unnamedNamespace)) (look id)) :
    catalogue.Answers (Shows catalogue.graph.profile? unit accept simple outer)
      ((catalogue.membersNamed scope unit.unnamedNamespace).flatMap look) := by
  have inner : ∀ id ∈ catalogue.membersNamed scope unit.unnamedNamespace, catalogue.Answers
      (Shows catalogue.graph.profile? unit accept simple outer) (look id) := fun id listed =>
    (deeper ((before.mem_membersNamed named).mp listed)).congr fun _ => Shows.unnamed_iff absent
  by_cases any : ∃ found, Shows catalogue.graph.profile? unit accept simple outer found
  · obtain ⟨found, shown⟩ := any
    obtain ⟨id, only⟩ := before.membersNamed_eq_singleton named
      (before.known_of_shows ((Shows.unnamed_iff absent).mpr shown))
    rw [only] at inner ⊢
    rw [List.flatMap_singleton]
    exact inner id (by simp)
  · have nothing : ∀ name, ¬ Shows catalogue.graph.profile? unit accept simple outer name :=
      fun name shown => any ⟨name, shown⟩
    have empty : (catalogue.membersNamed scope unit.unnamedNamespace).flatMap look = [] := by
      rw [List.flatMap_eq_nil_iff]
      intro id listed
      exact List.isEmpty_iff.mp ((inner id listed).isEmpty_iff.mpr nothing)
    rw [empty]
    exact .nothing nothing

/-- The lookup in a scope finds what the scope shows. -/
theorem answers_directMembers (before : catalogue.BeforeLinking) (singular : Singular accept)
    (unit : FilePath) (simple : String) {depth scope : Nat} {outer : ScopedName}
    (named : catalogue.Named scope outer)
    (enough : catalogue.graph.nodeCount ≤ depth + outer.segments.length) :
    catalogue.Answers (Shows catalogue.graph.profile? unit accept simple outer)
      (catalogue.directMembers (some unit) (fun node => accept node.kind) simple depth scope) := by
  induction depth generalizing scope outer with
  | zero =>
    have short := before.length_lt_nodeCount named
    omega
  | succ depth deeper =>
    unfold directMembers
    dsimp only
    have member : ∀ {id : Nat}, id ∈ (catalogue.membersNamed scope simple).filter (fun id =>
        catalogue.graph.nodeTable[id]?.any fun node => accept node.kind) ↔
        catalogue.Named id (outer.child simple) ∧
          catalogue.Accepts (fun node => accept node.kind) id := by
      intro id
      rw [List.mem_filter, before.mem_membersNamed named, accepts_iff]
    have nodup := (before.housed.members_nodup scope simple).filter fun id =>
      catalogue.graph.nodeTable[id]?.any fun node => accept node.kind
    generalize (catalogue.membersNamed scope simple).filter (fun id =>
      catalogue.graph.nodeTable[id]?.any fun node => accept node.kind) = members at member nodup
    cases members with
    | nil =>
      have absent : ¬ Carries catalogue.graph.profile? accept (outer.child simple) := by
        intro there
        obtain ⟨id, held⟩ := before.carries_iff.mp there
        exact List.not_mem_nil (member.mpr held)
      simp only [List.isEmpty_nil, if_true]
      exact before.answers_unnamed named absent fun idNamed => deeper idNamed (by simp; omega)
    | cons id others =>
      obtain ⟨idNamed, accepted⟩ := member.mp (List.mem_cons_self : id ∈ id :: others)
      have alone : others = [] := by
        rw [List.eq_nil_iff_forall_not_mem]
        intro other listed
        have otherNamed := (member.mp (List.mem_cons_of_mem _ listed)).1
        have same := before.unique singular idNamed otherNamed accepted
        exact (List.nodup_cons.mp nodup).1 (same ▸ listed)
      subst alone
      simp only [List.isEmpty_cons, Bool.false_eq_true, if_false]
      exact .one idNamed fun _ =>
        Shows.iff_of_carries (before.carries_iff.mpr ⟨id, idNamed, accepted⟩)

/-- Before linking no record has bases. -/
theorem bases_eq_nil (before : catalogue.BeforeLinking) (record : Nat) :
    catalogue.bases record = [] :=
  before.unlinked.bases_eq_nil before.sound record

/-- Before linking no alias stands for another entity. -/
theorem dealias_eq (before : catalogue.BeforeLinking) (node : Nat) :
    catalogue.dealias node = node :=
  before.unlinked.dealias_eq before.sound node

/-- What is visible in a scope answers what the name means there. -/
theorem answers_visibleMembers (before : catalogue.BeforeLinking) (singular : Singular accept)
    (unit : FilePath) (simple : String) {scope : Nat} {outer : ScopedName}
    (named : catalogue.Named scope outer) :
    catalogue.Answers (Shows catalogue.graph.profile? unit accept simple outer)
      (catalogue.visibleMembers (some unit) (fun node => accept node.kind) simple scope) := by
  have own := before.answers_directMembers singular unit simple named
    (Nat.le_add_right _ _)
  have noBases : catalogue.visibleMembers (some unit) (fun node => accept node.kind) simple scope =
      catalogue.ownMembers (some unit) (fun node => accept node.kind) simple scope := by
    unfold visibleMembers
    simp only [before.bases_eq_nil, searchBases]
    split
    · rename_i empty
      simp only [Bool.and_eq_true, List.isEmpty_iff] at empty
      exact empty.1.symm
    · rfl
  rw [noBases]
  exact own

/-- The scope around a declared entity, if there is one, has the name that its own says. -/
theorem parent?_cases (before : catalogue.BeforeLinking) {id : Nat} {name : ScopedName}
    (named : catalogue.Named id name) :
    (name.parent? = none ∧ catalogue.graph.parent? id = none) ∨
      ∃ outer holder, name.parent? = some outer ∧ catalogue.graph.parent? id = some holder ∧
        catalogue.Named holder outer := by
  cases enclosing : name.parent? with
  | none =>
    have top : name.segments = [] := by
      simpa [ScopedName.parent?, ScopedName.isGlobal] using enclosing
    obtain ⟨key, carried, declared, rfl⟩ := named
    have isGlobal := (before.plain carried).named declared top
    refine .inl ⟨rfl, ?_⟩
    rw [Option.eq_none_iff_forall_not_mem]
    intro holder found
    obtain ⟨_, other, otherCarried, lies, _⟩ :=
      before.housed.contains_iff.mp (before.housed.parent?_eq_some.mp found)
    rw [carried] at otherCarried
    cases otherCarried
    exact lies.1 isGlobal
  | some outer =>
    rw [← ScopedName.child_simple_of_parent? enclosing] at named
    obtain ⟨holder, holderKey, related⟩ := before.exists_scope named
    exact .inr ⟨outer, holder, rfl, before.housed.parent?_eq_some.mpr related,
      .scope outer, holderKey, by simp [EntityKey.scope], rfl⟩

/-- The search outward finds what the names say. -/
theorem answers_searchOutward (before : catalogue.BeforeLinking) (singular : Singular accept)
    (unit : FilePath) (simple : String) {steps scope : Nat} {name : ScopedName}
    (named : catalogue.Named scope name)
    (enough : name.segments.length < steps) :
    catalogue.Answers (Finds catalogue.graph.profile? unit accept simple name)
      (catalogue.searchOutward (some unit) (fun _ => []) (fun node => accept node.kind) simple
        steps scope) := by
  induction steps generalizing scope name with
  | zero => omega
  | succ steps further =>
    have here := before.answers_visibleMembers singular unit simple named
    unfold searchOutward
    dsimp only
    generalize catalogue.visibleMembers (some unit) (fun node => accept node.kind) simple scope =
      inScope at here
    have found : (if inScope.isEmpty then distinct (([] : List Nat).flatMap
        (catalogue.visibleMembers (some unit) (fun node => accept node.kind) simple))
        else inScope) = inScope := by
      cases inScope <;> rfl
    rw [found]
    cases here with
    | nothing absent =>
      simp only [List.isEmpty_nil, if_true]
      obtain ⟨top, noParent⟩ | ⟨outer, holder, around, parent, holderNamed⟩ :=
        before.parent?_cases named
      · rw [noParent]
        refine .nothing ?_
        rintro other (shown | ⟨_, around, _⟩)
        · exact absent _ shown
        · rw [top] at around
          cases around
      · rw [parent]
        have shorter : outer.segments.length < steps := by
          have whole := congrArg (fun name => name.segments.length)
            (ScopedName.child_simple_of_parent? around)
          simp only [ScopedName.child_segments, List.length_append, List.length_singleton] at whole
          omega
        refine (further holderNamed shorter).congr fun other => ⟨.outward absent around, ?_⟩
        rintro (shown | ⟨_, aroundToo, beyond⟩)
        · exact absurd shown (absent _)
        · rw [around] at aroundToo
          cases aroundToo
          exact beyond
    | @one id shown idNamed only =>
      simp only [List.isEmpty_cons, Bool.false_eq_true, if_false]
      refine .one idNamed fun other => ⟨?_, ?_⟩
      · rintro (shownToo | ⟨absent, _, _⟩)
        · exact (only _).mp shownToo
        · exact absurd ((only _).mpr rfl) (absent _)
      · rintro rfl
        exact .here ((only _).mpr rfl)

/-- Looking up one name in the other finds where the names lead. -/
theorem answers_descend (before : catalogue.BeforeLinking) (unit : FilePath) (names : List String)
    {means : ScopedName → Prop} {scopes : List Nat} (answers : catalogue.Answers means scopes) :
    catalogue.Answers (fun last => ∃ start, means start ∧
      Walks catalogue.graph.profile? unit names start last)
      (catalogue.descend (some unit) scopes names) := by
  induction names generalizing means scopes with
  | nil => exact answers.congr fun name => by simp [Walks]
  | cons simple names further =>
    have first : catalogue.Answers (fun middle => ∃ start, means start ∧
        Shows catalogue.graph.profile? unit scoping simple start middle)
        (scopes.flatMap fun scope => catalogue.visibleMembers (some unit) hasMembers simple
          (catalogue.dealias scope)) := by
      refine answers.flatMap fun {id name} named _ => ?_
      rw [before.dealias_eq]
      exact before.answers_visibleMembers singular_scoping unit simple named
    refine (further first).congr fun last => ?_
    constructor
    · rintro ⟨middle, ⟨start, held, shown⟩, walk⟩
      exact ⟨start, held, middle, shown, walk⟩
    · rintro ⟨start, held, middle, shown, walk⟩
      exact ⟨middle, ⟨start, held, shown⟩, walk⟩

/-- The root has the name of the global namespace. -/
theorem named_root (before : catalogue.BeforeLinking) : catalogue.Named Graph.root .global :=
  ⟨.global, before.sound.root_key, by simp [EntityKey.global, EntityKey.scope], rfl⟩

/-- The first component of a spelled name is looked up as the names say. -/
theorem answers_first (before : catalogue.BeforeLinking) (singular : Singular accept)
    (unit : FilePath) (rooted : Bool) (simple : String) {scope : Nat} {name : ScopedName}
    (named : catalogue.Named scope name) :
    catalogue.Answers (Begins catalogue.graph.profile? unit rooted accept simple name)
      (if rooted then
        catalogue.visibleMembers (some unit) (fun node => accept node.kind) simple Graph.root
      else catalogue.unqualified (some unit) (fun _ => []) (fun node => accept node.kind) simple
        scope) := by
  cases rooted with
  | true =>
    have shown := before.answers_visibleMembers singular unit simple before.named_root
    exact shown.congr fun found => by simp [Begins]
  | false =>
    have short := before.length_lt_nodeCount named
    have found := before.answers_searchOutward singular unit simple named
      (Nat.lt_succ_of_lt short)
    exact found.congr fun found => by simp [Begins]

/-- The lookup of a spelled name finds what the name means. -/
theorem answers_resolveWith (before : catalogue.BeforeLinking) (singular : Singular accept)
    (unit : FilePath) (spelling : String) {scope : Nat} {name : ScopedName}
    (named : catalogue.Named scope name) :
    catalogue.Answers (Means catalogue.graph.profile? unit (Spelling.isRooted spelling) accept
        (Spelling.components spelling) name)
      (catalogue.resolveWith (some unit) (fun _ => []) (fun node => accept node.kind) spelling
        scope) := by
  unfold resolveWith Spelling.components
  dsimp only
  cases components : (ScopedName.ofSpelling (Spelling.withoutArguments spelling)).segments with
  | nil => exact .nothing fun _ means => means
  | cons first further =>
    cases further with
    | nil => exact before.answers_first singular unit (Spelling.isRooted spelling) first named
    | cons second further =>
      have begins := before.answers_first singular_scoping unit (Spelling.isRooted spelling) first
        named
      have last := (before.answers_descend unit (second :: further).dropLast begins).flatMap
        fun {id inner} innerNamed _ => before.answers_visibleMembers singular unit
          ((second :: further).getLastD "") innerNamed
      simp only [before.dealias_eq]
      rw [← last.distinct_eq] at last
      exact last

/-- A directive stands in the scope that it names, also if that is the global namespace. -/
theorem directiveScope?_eq (before : catalogue.BeforeLinking) (directive : Directive) :
    catalogue.directiveScope? directive =
      catalogue.graph.nodeByKey? (.scope directive.scope) := by
  unfold directiveScope?
  cases known : catalogue.graph.nodeByKey? (.scope directive.scope) with
  | some id => rfl
  | none =>
    have notGlobal : directive.scope.isGlobal = false := by
      rw [Bool.eq_false_iff]
      intro top
      have isGlobal : EntityKey.scope directive.scope = .global :=
        (EntityKey.plain_scope _).named (by simp [EntityKey.scope])
          (List.isEmpty_iff.mp top)
      rw [isGlobal, before.sound.nodeByKey?_eq_some.mpr before.sound.root_key] at known
      cases known
    simp [notGlobal]

/-- A directive gives a name one other name at most: that in the namespace it opens. -/
theorem namesThrough_cases (before : catalogue.BeforeLinking) (unit : FilePath)
    (name : ScopedName) (directive : Directive) :
    (catalogue.namesThrough unit name directive = [] ∧
      ∀ opened, ¬ Opens catalogue.graph.profile? unit directive opened) ∨
    ∃ opened, catalogue.namesThrough unit name directive = [opened.child name.simple] ∧
      ∀ other, Opens catalogue.graph.profile? unit directive other ↔ other = opened := by
  unfold namesThrough
  rw [before.directiveScope?_eq]
  cases known : catalogue.graph.nodeByKey? (.scope directive.scope) with
  | none =>
    refine .inl ⟨rfl, fun opened opens => ?_⟩
    have there := opens.1
    rw [before.sound.profile?_eq_none.mpr known] at there
    cases there
  | some scope =>
    have scopeKey := before.sound.nodeByKey?_eq_some.mp known
    have there := before.sound.profile?_isSome.mpr ⟨scope, scopeKey⟩
    have answers : catalogue.Answers (Opens catalogue.graph.profile? unit directive)
        (catalogue.openedBy unit directive scope) := by
      refine (before.answers_resolveWith singular_opening unit directive.opened
        ⟨_, scopeKey, by simp [EntityKey.scope], rfl⟩).congr fun opened => ?_
      simp only [Opens, there, true_and]
      rfl
    dsimp only
    generalize catalogue.openedBy unit directive scope = found at answers
    cases answers with
    | nothing meansNothing => exact .inl ⟨rfl, meansNothing⟩
    | @one id opened named only =>
      obtain ⟨_, carried, _, rfl⟩ := named
      obtain ⟨node, held, rfl⟩ := Graph.key?_eq_some.mp carried
      exact .inr ⟨node.key.name, by simp [held], only⟩

end BeforeLinking

end

end Catalogue

end DeclGraph

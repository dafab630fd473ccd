import DeclGraph.Proofs.Catalogue.Counterparts
import DeclGraph.Proofs.Catalogue.Ending

/-!
# Lookups in corresponding catalogues

A lookup finds counterparts in corresponding catalogues. They come in the same order, but for
callables, of which several can have one name in one scope. The searches are followed by their
rules, two at a time: what one of them does next tells what the other does.
-/

namespace DeclGraph

namespace Catalogue

/-- Two lookups accept counterparts alike. -/
def AcceptAlike (first second : Catalogue) (accept acceptToo : Node → Bool) : Prop :=
  ∀ ⦃one other : Nat⦄ ⦃node : Node⦄, first.graph.Counterparts second.graph one other →
    first.graph.nodeTable[one]? = some node → acceptToo { node with id := other } = accept node

/-- Two lookups find counterparts, and those of some kinds in the same order. -/
abbrev FoundAlike (first second : Catalogue) (ordered : EntityKind → Bool)
    (found other : List Nat) : Prop :=
  ListedAlike (first.graph.Counterparts second.graph) (fun id => (first.kind? id).any ordered)
    (fun id => (second.kind? id).any ordered) found other

/-- Of what is accepted, nothing that has to come in order is a callable. -/
def OrderedAlone (accept : Node → Bool) (ordered : EntityKind → Bool) : Prop :=
  ∀ node : Node, accept node → ordered node.kind → node.kind.isCallable = false

variable {first second : Catalogue} {accept acceptToo : Node → Bool}
  {ordered : EntityKind → Bool} {unit : Option FilePath} {name : String}
  {scope scopeToo one other : Nat} {found foundToo : List Nat}

/-- What does not ask for more than the kind of a node accepts counterparts alike. -/
theorem acceptAlike_of_kind (accepts : EntityKind → Bool) :
    AcceptAlike first second (fun node => accepts node.kind) fun node => accepts node.kind :=
  fun _ _ _ _ _ => rfl

/-- What has members is no callable. -/
theorem orderedAlone_hasMembers : OrderedAlone hasMembers fun _ => true := by
  intro node accepted _
  cases kind : node.kind <;>
    simp_all [hasMembers, EntityKind.isRecord, EntityKind.isCallable, EntityKind.family]

/-- A namespace is no callable. -/
theorem orderedAlone_isNamespace : OrderedAlone isNamespace fun _ => true := by
  intro node accepted _
  have namespaceScope : node.kind = .namespaceScope := by simpa [isNamespace] using accepted
  rw [namespaceScope]
  rfl

/-- Types are no callables. -/
theorem not_isCallable_of_isType {kind : EntityKind} (type : kind.isType) :
    kind.isCallable = false := by
  cases kind <;> simp_all [EntityKind.isType, EntityKind.isCallable, EntityKind.family]

/-- What accepts types only accepts no callable. -/
theorem orderedAlone_isType (isType : ∀ node, accept node → node.kind.isType) :
    OrderedAlone accept fun _ => true :=
  fun node accepted _ => not_isCallable_of_isType (isType node accepted)

/-- Where everything has to come in order, it does. -/
theorem FoundAlike.forall₂_nodes (alike : FoundAlike first second (fun _ => true) found foundToo) :
    List.Forall₂ (first.graph.Counterparts second.graph) found foundToo := by
  have there : ∀ {catalogue : Catalogue} {id : Nat} {key : EntityKey},
      catalogue.graph.key? id = some key → (catalogue.kind? id).any (fun _ => true) = true := by
    intro catalogue id key carried
    obtain ⟨node, held, _⟩ := Graph.key?_eq_some.mp carried
    rw [kind?, held]
    rfl
  refine alike.forall₂ (fun one listed => ?_) fun other listed => ?_
  · obtain ⟨_, _, _, carried, _⟩ := alike.onto one listed
    exact there carried
  · obtain ⟨_, _, _, _, carried⟩ := alike.back other listed
    exact there carried

/-- Members of one scope and one name that are no callables are one. -/
theorem Housed.eq_of_membersNamed {catalogue : Catalogue} (housed : catalogue.Housed [])
    (named : WellNamed catalogue.graph.profile?) {scope one another : Nat} {name : String}
    (member : one ∈ catalogue.membersNamed scope name)
    (memberToo : another ∈ catalogue.membersNamed scope name)
    (notCallable : (catalogue.kind? one).any (·.isCallable) = false) : one = another := by
  obtain ⟨inScope, simple⟩ := housed.mem_members.mp member
  obtain ⟨inScopeToo, simpleToo⟩ := housed.mem_members.mp memberToo
  obtain ⟨_, key, carried, lies, _⟩ := housed.contains_iff.mp inScope
  obtain ⟨_, keyToo, carriedToo, liesToo, _⟩ := housed.contains_iff.mp inScopeToo
  obtain ⟨outer, scopeKey, keyName⟩ := housed.child_of_related named carried inScope
  obtain ⟨outerToo, scopeKeyToo, keyNameToo⟩ := housed.child_of_related named carriedToo inScopeToo
  have sameOuter : outer = outerToo := by
    rw [scopeKey] at scopeKeyToo
    cases scopeKeyToo
    rfl
  have sameSimple : key.name.simple = keyToo.name.simple := by
    rw [carried] at simple
    rw [carriedToo, ← simple] at simpleToo
    exact (Option.some.inj simpleToo).symm
  have sameName : key.name = keyToo.name := by rw [keyName, keyNameToo, sameOuter, sameSimple]
  have known := housed.sound.profile?_isSome.mpr ⟨one, carried⟩
  have knownToo := housed.sound.profile?_isSome.mpr ⟨another, carriedToo⟩
  have family : key.family ≠ .callable := by
    obtain ⟨node, held, rfl⟩ := Graph.key?_eq_some.mp carried
    rw [kind?, held] at notCallable
    rw [← housed.sound.kind_family held]
    simpa [EntityKind.isCallable] using notCallable
  have sameKey := (named.plain known).eq_of_name (named.plain knownToo)
    (named.one_family known knownToo lies.2 liesToo.2 sameName) sameName family lies.2
  exact housed.sound.id_eq_of_key? carried (sameKey ▸ carriedToo)

/-- All members of a scope are nodes. -/
theorem Housed.acceptedNamed_all {catalogue : Catalogue} (housed : catalogue.Housed [])
    (name : String) (scope : Nat) :
    catalogue.acceptedNamed (fun _ => true) name scope = catalogue.membersNamed scope name := by
  refine List.filter_eq_self.mpr fun id listed => accepts_iff.mpr ?_
  obtain ⟨node, held⟩ := Graph.isSome_key?_iff.mp
    (housed.sound.there_of_related (housed.mem_members.mp listed).1).2
  exact ⟨node, held, rfl⟩

/-- A search of a callable finds nothing. -/
theorem MembersSearch.eq_nil_of_callable {catalogue : Catalogue}
    (search : catalogue.MembersSearch unit accept name scope found) (housed : catalogue.Housed [])
    (callable : (catalogue.kind? scope).any (!·.isCallable) = false) : found = [] := by
  have nothing : ∀ name, catalogue.membersNamed scope name = [] := by
    intro name
    refine List.eq_nil_iff_forall_not_mem.mpr fun member listed => ?_
    obtain ⟨_, key, _, _, scopeKey⟩ := housed.contains_iff.mp (housed.mem_members.mp listed).1
    obtain ⟨node, held, carries⟩ := Graph.key?_eq_some.mp scopeKey
    rw [kind?, held, Option.map_some, Option.any_some, EntityKind.isCallable,
      housed.sound.kind_family held, carries] at callable
    simp [EntityKey.holder, EntityKey.scope] at callable
  cases search with
  | here shown =>
    refine absurd ?_ shown
    rw [acceptedNamed, nothing, List.filter_nil]
  | nobody _ _ => rfl
  | unnamed _ _ _ _ _ => rw [nothing, List.flatMap_nil]

namespace Corresponds

variable (corresponds : first.Corresponds second)

include corresponds

section Members

variable (same : first.graph.Counterparts second.graph scope scopeToo)

include same

/-- Counterparts have the same name among the members of their scopes. -/
theorem mem_membersNamed_iff (sameMember : first.graph.Counterparts second.graph one other) :
    one ∈ first.membersNamed scope name ↔ other ∈ second.membersNamed scopeToo name := by
  rw [corresponds.housed.mem_members, corresponds.housedToo.mem_members,
    corresponds.contains_iff sameMember same]
  obtain ⟨key, oneKey, otherKey⟩ := sameMember
  rw [oneKey, otherKey]

/-- Counterparts are accepted alike among the members of their scopes. -/
theorem mem_acceptedNamed_iff (accepts : AcceptAlike first second accept acceptToo)
    (sameMember : first.graph.Counterparts second.graph one other) :
    one ∈ first.acceptedNamed accept name scope ↔
      other ∈ second.acceptedNamed acceptToo name scopeToo := by
  obtain ⟨key, oneKey, _⟩ := id sameMember
  obtain ⟨node, held, _⟩ := Graph.key?_eq_some.mp oneKey
  unfold acceptedNamed
  rw [List.mem_filter, List.mem_filter, corresponds.mem_membersNamed_iff same sameMember, held,
    corresponds.node sameMember held, Option.any_some, Option.any_some, accepts sameMember held]

/-- The accepted members of one name are counterparts. -/
theorem acceptedNamed (name : String) (accepts : AcceptAlike first second accept acceptToo)
    (alone : OrderedAlone accept ordered) :
    FoundAlike first second ordered (first.acceptedNamed accept name scope)
      (second.acceptedNamed acceptToo name scopeToo) := by
  have there : ∀ {catalogue : Catalogue} {accept : Node → Bool} {scope id : Nat},
      id ∈ catalogue.acceptedNamed accept name scope → catalogue.Accepts accept id :=
    fun listed => accepts_iff.mp (List.mem_filter.mp listed).2
  have onto : ∀ one ∈ first.acceptedNamed accept name scope,
      ∃ other ∈ second.acceptedNamed acceptToo name scopeToo,
        first.graph.Counterparts second.graph one other := by
    intro one listed
    obtain ⟨other, sameMember⟩ := corresponds.exists_counterpart (there listed).hasNode
    exact ⟨other, (corresponds.mem_acceptedNamed_iff same accepts sameMember).mp listed, sameMember⟩
  have back : ∀ other ∈ second.acceptedNamed acceptToo name scopeToo,
      ∃ one ∈ first.acceptedNamed accept name scope,
        first.graph.Counterparts second.graph one other := by
    intro other listed
    obtain ⟨one, sameMember⟩ := corresponds.symm.exists_counterpart (there listed).hasNode
    have sameToo := sameMember.symm
    exact ⟨one, (corresponds.mem_acceptedNamed_iff same accepts sameToo).mpr listed, sameToo⟩
  have alike : SameListed (first.graph.Counterparts second.graph) _ _ := ⟨onto, back⟩
  refine ⟨alike, (alike.filter fun held => ?_).forall₂_of_single corresponds.unique ?_ ?_ ?_⟩
  · rw [corresponds.kind?_eq held]
  · exact ((corresponds.housed.members_nodup scope name).filter _).filter _
  · exact ((corresponds.housedToo.members_nodup scopeToo name).filter _).filter _
  · intro one listed another listedToo
    obtain ⟨among, isOrdered⟩ := List.mem_filter.mp listed
    obtain ⟨amongToo, _⟩ := List.mem_filter.mp listedToo
    obtain ⟨node, held, accepted⟩ := there among
    refine corresponds.housed.eq_of_membersNamed corresponds.named (List.mem_filter.mp among).1
      (List.mem_filter.mp amongToo).1 ?_
    rw [kind?, held] at isOrdered ⊢
    exact alone node accepted isOrdered

/-- Members of one name are counterparts, callables in any order. -/
theorem membersNamed (name : String) : FoundAlike first second (!·.isCallable)
    (first.membersNamed scope name) (second.membersNamed scopeToo name) := by
  have all : AcceptAlike first second (fun _ => true) fun _ => true := fun _ _ _ _ _ => rfl
  have alone : OrderedAlone (fun _ => true) (!·.isCallable) :=
    fun _ _ ordered => by simpa using ordered
  have alike := corresponds.acceptedNamed same name all alone
  rwa [corresponds.housed.acceptedNamed_all, corresponds.housedToo.acceptedNamed_all] at alike

end Members

section Searches

variable (accepts : AcceptAlike first second accept acceptToo)
  (alone : OrderedAlone accept ordered)

include accepts alone

/-- The searches through the members of counterparts find the same, by induction on the nesting of
anonymous namespaces. -/
theorem membersSearch (search : first.MembersSearch unit accept name scope found)
    (searchToo : second.MembersSearch unit acceptToo name scopeToo foundToo)
    (same : first.graph.Counterparts second.graph scope scopeToo) :
    FoundAlike first second ordered found foundToo := by
  induction search generalizing scopeToo foundToo with
  | here shown =>
    have alike := corresponds.acceptedNamed same name accepts alone
    cases searchToo with
    | here _ => exact alike
    | nobody nothing _ => exact absurd (alike.eq_nil_iff.mpr nothing) shown
    | unnamed nothing _ _ _ _ => exact absurd (alike.eq_nil_iff.mpr nothing) shown
  | nobody nothing noUnit =>
    have alike := corresponds.acceptedNamed same name accepts alone
    cases searchToo with
    | here shown => exact absurd (alike.eq_nil_iff.mp nothing) shown
    | nobody _ _ => exact ListedAlike.nil
    | unnamed _ ofUnit _ _ _ => exact absurd (noUnit.symm.trans ofUnit) nofun
  | unnamed nothing ofUnit _ _ each deeper =>
    have alike := corresponds.acceptedNamed same name accepts alone
    cases searchToo with
    | here shown => exact absurd (alike.eq_nil_iff.mp nothing) shown
    | nobody _ noUnit => exact absurd (noUnit.symm.trans ofUnit) nofun
    | unnamed _ ofUnitToo _ _ eachToo =>
      obtain rfl := Option.some.inj (ofUnit.symm.trans ofUnitToo)
      -- Callables of the name of an unnamed namespace hold nothing.
      refine (corresponds.membersNamed same _).flatMap
        (fun inner listed innerToo listedToo held =>
          deeper inner listed (eachToo innerToo listedToo) held) ?_ ?_
      · exact fun inner listed callable =>
          (each inner listed).eq_nil_of_callable corresponds.housed callable
      · exact fun inner listed callable =>
          (eachToo inner listed).eq_nil_of_callable corresponds.housedToo callable

/-- The searches through the bases of counterparts pass the same records in the same order and find
the same. -/
theorem basesSearch {passed passedToo queue queueToo searched searchedToo : List Nat}
    (search : first.BasesSearch unit accept name passed queue searched found)
    (searchToo : second.BasesSearch unit acceptToo name passedToo queueToo searchedToo foundToo)
    (samePassed : List.Forall₂ (first.graph.Counterparts second.graph) passed passedToo)
    (sameQueue : List.Forall₂ (first.graph.Counterparts second.graph) queue queueToo) :
    FoundAlike first second ordered found foundToo := by
  induction search generalizing passedToo queueToo searchedToo foundToo with
  | exhausted =>
    cases sameQueue
    cases searchToo
    exact .nil
  | again known _ further =>
    cases sameQueue with
    | cons held rest =>
      have knownToo := (List.rel_mem corresponds.unique held samePassed).mp known
      cases searchToo with
      | again _ searchRest => exact further searchRest samePassed rest
      | here new _ _ => exact absurd knownToo new
      | behind new _ _ => exact absurd knownToo new
  | here new members shown =>
    cases sameQueue with
    | cons held rest =>
      have newToo := (not_congr (List.rel_mem corresponds.unique held samePassed)).mp new
      cases searchToo with
      | again known _ => exact absurd known newToo
      | here _ membersToo _ => exact corresponds.membersSearch accepts alone members membersToo held
      | behind _ nothing _ =>
        have alike := corresponds.membersSearch accepts alone members nothing held
        exact absurd (alike.eq_nil_iff.mpr rfl) shown
  | behind new members _ further =>
    cases sameQueue with
    | cons held rest =>
      have newToo := (not_congr (List.rel_mem corresponds.unique held samePassed)).mp new
      cases searchToo with
      | again known _ => exact absurd known newToo
      | here _ membersToo shown =>
        have alike := corresponds.membersSearch accepts alone members membersToo held
        exact absurd (alike.eq_nil_iff.mp rfl) shown
      | behind _ _ searchRest =>
        exact further searchRest (.cons held samePassed)
          (List.rel_append rest (corresponds.bases held))

/-- What is visible in counterparts is the same. -/
theorem visibleSearch (search : first.VisibleSearch unit accept name scope found)
    (searchToo : second.VisibleSearch unit acceptToo name scopeToo foundToo)
    (same : first.graph.Counterparts second.graph scope scopeToo) :
    FoundAlike first second ordered found foundToo := by
  have isRecord := corresponds.isRecord_eq same
  cases search with
  | own members last =>
    cases searchToo with
    | own membersToo _ => exact corresponds.membersSearch accepts alone members membersToo same
    | inherited nothing isRecordToo _ _ =>
      have alike := corresponds.membersSearch accepts alone members nothing same
      rcases last with shown | noRecord
      · exact absurd (alike.eq_nil_iff.mpr rfl) shown
      · exact absurd (noRecord.symm.trans (isRecord.trans isRecordToo)) nofun
  | inherited nothing isRecordHere bases _ =>
    cases searchToo with
    | own members last =>
      have alike := corresponds.membersSearch accepts alone nothing members same
      rcases last with shown | noRecord
      · exact absurd (alike.eq_nil_iff.mp rfl) shown
      · exact absurd (noRecord.symm.trans (isRecord.symm.trans isRecordHere)) nofun
    | inherited _ _ basesToo _ =>
      exact corresponds.basesSearch accepts alone bases basesToo (.cons same .nil)
        (corresponds.bases same)

end Searches

section Aliases

/-- Aliases that correspond lead to targets that correspond, by induction on the chase in the first
catalogue. -/
theorem aliasChase {passed passedToo followed followedToo : List Nat} {last lastToo : Nat}
    (chase : first.AliasChase passed one followed last)
    (chaseToo : second.AliasChase passedToo other followedToo lastToo)
    (samePassed : List.Forall₂ (first.graph.Counterparts second.graph) passed passedToo)
    (same : first.graph.Counterparts second.graph one other) :
    first.graph.Counterparts second.graph last lastToo := by
  induction chase generalizing passedToo other followedToo with
  | concrete concrete =>
    rw [corresponds.kind?_eq same] at concrete
    cases chaseToo with
    | concrete _ => exact same
    | again _ _ => exact same
    | nowhere _ _ _ => exact same
    | further isAlias _ _ _ => exact absurd isAlias concrete
  | again _ known =>
    have knownToo := (List.rel_mem corresponds.unique same samePassed).mp known
    cases chaseToo with
    | concrete _ => exact same
    | again _ _ => exact same
    | nowhere _ _ _ => exact same
    | further _ new _ _ => exact absurd knownToo new
  | nowhere _ _ nothing =>
    have stands := corresponds.aliasTarget? same
    rw [nothing] at stands
    cases chaseToo with
    | concrete _ => exact same
    | again _ _ => exact same
    | nowhere _ _ _ => exact same
    | further _ _ standsToo _ =>
      rw [standsToo] at stands
      cases stands
  | further isAlias new stands _ further =>
    have newToo := (not_congr (List.rel_mem corresponds.unique same samePassed)).mp new
    have leads := corresponds.aliasTarget? same
    rw [stands] at leads
    rw [corresponds.kind?_eq same] at isAlias
    cases chaseToo with
    | concrete concrete => exact absurd isAlias concrete
    | again _ known => exact absurd known newToo
    | nowhere _ _ nothing =>
      rw [nothing] at leads
      cases leads
    | further _ _ standsToo rest =>
      rw [standsToo] at leads
      cases leads with
      | some held => exact further rest (.cons same samePassed) held

/-- Counterparts stand for counterparts in the end. -/
theorem dealias (same : first.graph.Counterparts second.graph one other) :
    first.graph.Counterparts second.graph (first.dealias one) (second.dealias other) := by
  obtain ⟨chase, _⟩ := dealiasing_dealias first one
  obtain ⟨chaseToo, _⟩ := dealiasing_dealias second other
  exact corresponds.aliasChase chase chaseToo .nil same

end Aliases

section Spelled

/-- What is visible behind aliases that correspond is the same. -/
theorem dealiasedSearch (accepts : AcceptAlike first second accept acceptToo)
    (alone : OrderedAlone accept ordered)
    (search : first.DealiasedSearch unit accept name one found)
    (searchToo : second.DealiasedSearch unit acceptToo name other foundToo)
    (same : first.graph.Counterparts second.graph one other) :
    FoundAlike first second ordered found foundToo := by
  obtain ⟨⟨chase, _⟩, visible⟩ := search
  obtain ⟨⟨chaseToo, _⟩, visibleToo⟩ := searchToo
  exact corresponds.visibleSearch accepts alone visible visibleToo
    (corresponds.aliasChase chase chaseToo .nil same)

/-- The descent along some names through scopes that correspond ends in scopes that correspond. -/
theorem descent {scopes scopesToo : List Nat} {names : List String}
    (descent : first.Descent unit scopes names found)
    (descentToo : second.Descent unit scopesToo names foundToo)
    (same : List.Forall₂ (first.graph.Counterparts second.graph) scopes scopesToo) :
    List.Forall₂ (first.graph.Counterparts second.graph) found foundToo := by
  induction descent generalizing scopesToo with
  | done =>
    cases descentToo with
    | done => exact same
  | next each _ further =>
    cases descentToo with
    | next eachToo rest =>
      refine further rest (forall₂_flatMap same fun scope listed scopeToo listedToo held => ?_)
      exact (corresponds.dealiasedSearch (fun _ _ _ _ _ => rfl) orderedAlone_hasMembers
        (each scope listed) (eachToo scopeToo listedToo) held).forall₂_nodes

variable {opens opensToo : Nat → List Nat → Prop}
  (opening : ∀ {scope scopeToo : Nat} {spaces spacesToo : List Nat}, opens scope spaces →
    opensToo scopeToo spacesToo → first.graph.Counterparts second.graph scope scopeToo →
      List.Forall₂ (first.graph.Counterparts second.graph) spaces spacesToo)

include opening

section First

variable (accepts : AcceptAlike first second accept acceptToo)
  (alone : OrderedAlone accept ordered)

include accepts alone

/-- What is shown in one place of the walk outward is the same, with what is opened there. -/
theorem placeSearch (search : first.PlaceSearch unit accept name opens scope found)
    (searchToo : second.PlaceSearch unit acceptToo name opensToo scopeToo foundToo)
    (same : first.graph.Counterparts second.graph scope scopeToo) :
    FoundAlike first second ordered found foundToo := by
  cases search with
  | own visible shown =>
    cases searchToo with
    | own visibleToo _ => exact corresponds.visibleSearch accepts alone visible visibleToo same
    | opened nothing _ _ =>
      have alike := corresponds.visibleSearch accepts alone visible nothing same
      exact absurd (alike.eq_nil_iff.mpr rfl) shown
  | opened nothing opened each =>
    cases searchToo with
    | own visible shown =>
      have alike := corresponds.visibleSearch accepts alone nothing visible same
      exact absurd (alike.eq_nil_iff.mp rfl) shown
    | opened _ openedToo eachToo =>
      -- The opened namespaces come in order, so everything is marked.
      have spaces : ListedAlike (first.graph.Counterparts second.graph) (fun _ => true)
          (fun _ => true) _ _ := .of_forall₂ (fun _ => rfl) (opening opened openedToo same)
      refine (spaces.flatMap (fun inner listed innerToo listedToo held => ?_) nofun
        nofun).withoutRepeats corresponds.unique
      exact corresponds.visibleSearch accepts alone (each inner listed) (eachToo innerToo listedToo)
        held

/-- The walks outward from counterparts pass counterparts and end with the same. -/
theorem outwardSearch (search : first.OutwardSearch unit accept name opens scope found)
    (searchToo : second.OutwardSearch unit acceptToo name opensToo scopeToo foundToo)
    (same : first.graph.Counterparts second.graph scope scopeToo) :
    FoundAlike first second ordered found foundToo := by
  have place : ∀ {scope scopeToo : Nat} {found foundToo : List Nat},
      first.PlaceSearch unit accept name opens scope found →
      second.PlaceSearch unit acceptToo name opensToo scopeToo foundToo →
      first.graph.Counterparts second.graph scope scopeToo →
        FoundAlike first second ordered found foundToo :=
    corresponds.placeSearch opening accepts alone
  induction search generalizing scopeToo foundToo with
  | here here shown =>
    cases searchToo with
    | here hereToo _ => exact place here hereToo same
    | outermost nothing _ => exact absurd ((place here nothing same).eq_nil_iff.mpr rfl) shown
    | around nothing _ _ _ => exact absurd ((place here nothing same).eq_nil_iff.mpr rfl) shown
  | outermost nothing alone =>
    cases searchToo with
    | here here shown => exact absurd ((place nothing here same).eq_nil_iff.mp rfl) shown
    | outermost _ _ => exact .nil
    | around _ lies _ _ =>
      have outer := corresponds.parent? same
      rw [alone, lies] at outer
      cases outer
  | around nothing lies _ _ further =>
    have outer := corresponds.parent? same
    rw [lies] at outer
    cases searchToo with
    | here here shown => exact absurd ((place nothing here same).eq_nil_iff.mp rfl) shown
    | outermost _ alone =>
      rw [alone] at outer
      cases outer
    | around _ liesToo _ rest =>
      rw [liesToo] at outer
      cases outer with
      | some held => exact further rest held

/-- An unqualified name means the same from counterparts. -/
theorem unqualifiedSearch (search : first.UnqualifiedSearch unit accept name opens scope found)
    (searchToo : second.UnqualifiedSearch unit acceptToo name opensToo scopeToo foundToo)
    (same : first.graph.Counterparts second.graph scope scopeToo) :
    FoundAlike first second ordered found foundToo := by
  have isDeclared : first.IsDeclared scope ↔ second.IsDeclared scopeToo := by
    obtain ⟨key, firstKey, secondKey⟩ := same
    simp [IsDeclared, firstKey, secondKey]
  cases search with
  | declared declared outward =>
    cases searchToo with
    | declared _ outwardToo =>
      exact corresponds.outwardSearch opening accepts alone outward outwardToo same
    | astray stray _ _ => exact absurd (isDeclared.mp declared) stray
  | astray stray _ place =>
    cases searchToo with
    | declared declared _ => exact absurd (isDeclared.mpr declared) stray
    | astray _ _ placeToo =>
      exact corresponds.placeSearch opening accepts alone place placeToo same

/-- The first name of a spelling means the same from counterparts. -/
theorem firstSearch {rooted : Bool}
    (search : first.FirstSearch unit accept name opens rooted scope found)
    (searchToo : second.FirstSearch unit acceptToo name opensToo rooted scopeToo foundToo)
    (same : first.graph.Counterparts second.graph scope scopeToo) :
    FoundAlike first second ordered found foundToo := by
  cases search with
  | global isRooted visible =>
    cases searchToo with
    | global _ visibleToo =>
      exact corresponds.visibleSearch accepts alone visible visibleToo corresponds.root
    | relative notRooted _ => exact absurd (notRooted.symm.trans isRooted) nofun
  | relative notRooted unqualified =>
    cases searchToo with
    | global isRooted _ => exact absurd (notRooted.symm.trans isRooted) nofun
    | relative _ unqualifiedToo =>
      exact corresponds.unqualifiedSearch opening accepts alone unqualified unqualifiedToo same

end First

/-- A spelling means the same from counterparts when the same is opened in both. -/
theorem lookup {spelling : String} (accepts : AcceptAlike first second accept acceptToo)
    (alone : OrderedAlone accept ordered)
    (lookup : first.Lookup unit accept opens spelling scope found)
    (lookupToo : second.Lookup unit acceptToo opensToo spelling scopeToo foundToo)
    (same : first.graph.Counterparts second.graph scope scopeToo) :
    FoundAlike first second ordered found foundToo := by
  cases lookup with
  | nameless nothing =>
    cases lookupToo with
    | nameless _ => exact .nil
    | simple components _ => exact absurd (nothing.symm.trans components) nofun
    | qualified components _ _ _ => exact absurd (nothing.symm.trans components) nofun
  | simple components search =>
    cases lookupToo with
    | nameless nothing => exact absurd (nothing.symm.trans components) nofun
    | simple componentsToo searchToo =>
      obtain ⟨rfl, _⟩ := List.cons.inj (components.symm.trans componentsToo)
      exact corresponds.firstSearch opening accepts alone search searchToo same
    | qualified componentsToo _ _ _ => exact absurd (components.symm.trans componentsToo) nofun
  | qualified components search descent last =>
    cases lookupToo with
    | nameless nothing => exact absurd (nothing.symm.trans components) nofun
    | simple componentsToo _ => exact absurd (components.symm.trans componentsToo) nofun
    | qualified componentsToo searchToo descentToo lastToo =>
      obtain ⟨rfl, rest⟩ := List.cons.inj (components.symm.trans componentsToo)
      obtain ⟨rfl, rfl⟩ := List.cons.inj rest
      have scopes := (corresponds.firstSearch opening (fun _ _ _ _ _ => rfl)
        orderedAlone_hasMembers search searchToo same).forall₂_nodes
      have inner : ListedAlike (first.graph.Counterparts second.graph) (fun _ => true)
          (fun _ => true) _ _ :=
        .of_forall₂ (fun _ => rfl) (corresponds.descent descent descentToo scopes)
      refine (inner.flatMap (fun id listed idToo listedToo held => ?_) nofun
        nofun).withoutRepeats corresponds.unique
      exact corresponds.dealiasedSearch accepts alone (last id listed) (lastToo idToo listedToo)
        held

end Spelled

section Viewed

/-- Counterparts open counterparts, in the order of the directives. -/
theorem opening {means meansToo : Viewpoint → String → Nat → List Nat → Prop}
    {viewpoint : Option Viewpoint} {spaces spacesToo : List Nat}
    (each : ∀ {seenFrom : Viewpoint} {spelling : String} {found foundToo : List Nat},
      means seenFrom spelling scope found → meansToo seenFrom spelling scopeToo foundToo →
        List.Forall₂ (first.graph.Counterparts second.graph) found foundToo)
    (opens : first.Opening means viewpoint scope spaces)
    (opensToo : second.Opening meansToo viewpoint scopeToo spacesToo)
    (same : first.graph.Counterparts second.graph scope scopeToo) :
    List.Forall₂ (first.graph.Counterparts second.graph) spaces spacesToo := by
  cases opens with
  | nobody =>
    cases opensToo with
    | nobody => exact .nil
  | undirected nothing =>
    cases opensToo with
    | undirected _ => exact .nil
    | missing _ _ => exact .nil
    | directed directed _ _ => exact absurd nothing directed
  | missing _ missing =>
    obtain ⟨key, carried, _⟩ := same
    rw [Graph.key?, missing] at carried
    cases carried
  | directed directed there means =>
    have thereToo := corresponds.node same there
    cases opensToo with
    | undirected nothing => exact absurd nothing directed
    | missing _ missing =>
      rw [missing] at thereToo
      cases thereToo
    | directed _ found meansToo =>
      obtain rfl := Option.some.inj (thereToo.symm.trans found)
      refine forall₂_distinct corresponds.unique (List.rel_filter (fun {inner innerToo} held => ?_)
        (forall₂_flatMap (List.forall₂_same.mpr fun _ _ => rfl) ?_))
      · simp [show inner = scope ↔ innerToo = scopeToo from
          Relator.rel_eq corresponds.unique held same]
      · rintro directive listed _ listedToo rfl
        exact each (means directive listed) (meansToo directive listedToo)

/-- A spelling means the same from counterparts within any number of levels of directives. -/
theorem lookupWithin {levels : Nat} {viewpoint : Option Viewpoint} {spelling : String}
    (accepts : AcceptAlike first second accept acceptToo) (alone : OrderedAlone accept ordered)
    (lookup : first.LookupWithin levels viewpoint accept spelling scope found)
    (lookupToo : second.LookupWithin levels viewpoint acceptToo spelling scopeToo foundToo)
    (same : first.graph.Counterparts second.graph scope scopeToo) :
    FoundAlike first second ordered found foundToo := by
  induction levels generalizing viewpoint accept acceptToo spelling scope scopeToo ordered found
    foundToo with
  | zero =>
    refine corresponds.lookup (fun opens opensToo held => ?_) accepts alone lookup lookupToo same
    exact corresponds.opening (fun impossible => impossible.elim) opens opensToo held
  | succ levels within =>
    refine corresponds.lookup (fun opens opensToo held => ?_) accepts alone lookup lookupToo same
    refine corresponds.opening (fun means meansToo => ?_) opens opensToo held
    exact (within (fun _ _ _ _ _ => rfl) orderedAlone_isNamespace means meansToo
      held).forall₂_nodes

variable (accepts : AcceptAlike first second accept acceptToo)
  (alone : OrderedAlone accept ordered)
  (same : first.graph.Counterparts second.graph scope scopeToo)

include accepts alone same

/-- A spelled name means counterparts in counterparts. -/
theorem resolveFrom (viewpoint : Viewpoint) (spelling : String) :
    FoundAlike first second ordered (first.resolveFrom viewpoint accept spelling scope)
      (second.resolveFrom viewpoint acceptToo spelling scopeToo) :=
  corresponds.lookupWithin accepts alone
    ((corresponds.housed.lookupsEnd.resolveFrom viewpoint _ spelling _ _).mpr rfl)
    ((corresponds.housedToo.lookupsEnd.resolveFrom viewpoint _ spelling _ _).mpr rfl) same

/-- A member is looked up in counterparts with the same result. -/
theorem lookupMember (name : String) :
    FoundAlike first second ordered (first.lookupMember accept name scope)
      (second.lookupMember acceptToo name scopeToo) :=
  corresponds.visibleSearch accepts alone
    ((corresponds.housed.lookupsEnd.lookupMember _ name _ _).mpr rfl)
    ((corresponds.housedToo.lookupsEnd.lookupMember _ name _ _).mpr rfl) same

end Viewed

section Entities

/-- The entity of a key has counterparts, wherever it was moved. -/
theorem nodeByKey? (key : EntityKey) :
    Option.Rel (first.graph.Counterparts second.graph) (first.nodeByKey? key)
      (second.nodeByKey? key) := by
  have settles : ∀ hops key, second.settledKey? hops key = first.settledKey? hops key := by
    intro hops
    induction hops with
    | zero =>
      intro key
      unfold settledKey?
      rw [corresponds.moved]
    | succ hops further =>
      intro key
      unfold settledKey?
      simp only [corresponds.moved, further]
  rw [Catalogue.nodeByKey?, Catalogue.nodeByKey?, ← corresponds.moved, settles]
  cases first.settledKey? first.moved.size key with
  | none => exact .none
  | some settled =>
    show Option.Rel _ (first.graph.nodeByKey? settled) (second.graph.nodeByKey? settled)
    have sound := corresponds.housed.sound
    have soundToo := corresponds.housedToo.sound
    cases known : first.graph.nodeByKey? settled with
    | some one =>
      have carried := sound.nodeByKey?_eq_some.mp known
      obtain ⟨other, carriedToo⟩ := corresponds.exists_key carried
      rw [soundToo.nodeByKey?_eq_some.mpr carriedToo]
      exact .some ⟨settled, carried, carriedToo⟩
    | none =>
      cases knownToo : second.graph.nodeByKey? settled with
      | none => exact .none
      | some other =>
        obtain ⟨one, carried⟩ :=
          corresponds.symm.exists_key (soundToo.nodeByKey?_eq_some.mp knownToo)
        rw [sound.nodeByKey?_eq_some.mpr carried] at known
        cases known

/-- The members of counterparts are counterparts. -/
theorem children (same : first.graph.Counterparts second.graph scope scopeToo) :
    SameListed (first.graph.Counterparts second.graph) (first.graph.children scope)
      (second.graph.children scopeToo) where
  onto := by
    intro one listed
    have related := corresponds.housed.sound.mem_targets.mp listed
    obtain ⟨other, held⟩ := corresponds.exists_counterpart
      (corresponds.housed.sound.there_of_related related).2
    exact ⟨other, corresponds.housedToo.sound.mem_targets.mpr
      ((corresponds.contains_iff held same).mp related), held⟩
  back := by
    intro other listed
    have related := corresponds.housedToo.sound.mem_targets.mp listed
    obtain ⟨one, held⟩ := corresponds.symm.exists_counterpart
      (corresponds.housedToo.sound.there_of_related related).2
    exact ⟨one, corresponds.housed.sound.mem_targets.mpr
      ((corresponds.contains_iff held.symm same).mpr related), held.symm⟩

/-- With enough steps on both sides, the way outwards leads through counterparts. -/
theorem wayOutwards {steps stepsToo : Nat} {passed passedToo : List Nat}
    (same : first.graph.Counterparts second.graph one other)
    (behind : first.Behind one passed) (behindToo : second.Behind other passedToo)
    (enough : first.graph.nodeCount ≤ steps + passed.length)
    (enoughToo : second.graph.nodeCount ≤ stepsToo + passedToo.length) :
    List.Forall₂ (first.graph.Counterparts second.graph)
      (outwardFrom first.graph steps one) (outwardFrom second.graph stepsToo other) := by
  have left := behind.length_lt corresponds.housed same.there.1
  have leftToo := behindToo.length_lt corresponds.housedToo same.there.2
  induction steps generalizing stepsToo passed passedToo one other with
  | zero => omega
  | succ steps further =>
    obtain ⟨stepsToo, rfl⟩ := Nat.exists_eq_add_one.mpr (show 0 < stepsToo by omega)
    have lies := corresponds.parent? same
    unfold outwardFrom
    generalize outer : first.graph.parent? one = scope at lies
    generalize outerToo : second.graph.parent? other = scopeToo at lies
    cases lies with
    | none => exact .cons same .nil
    | some held =>
      have next := behind.outer corresponds.housed
        (corresponds.housed.parent?_eq_some.mp outer)
      have nextToo := behindToo.outer corresponds.housedToo
        (corresponds.housedToo.parent?_eq_some.mp outerToo)
      exact .cons same (further held next nextToo (by rw [List.length_cons]; omega)
        (by rw [List.length_cons]; omega) (next.length_lt corresponds.housed held.there.1)
        (nextToo.length_lt corresponds.housedToo held.there.2))

/-- The same template parameters are in force in counterparts. -/
theorem templateParameters (same : first.graph.Counterparts second.graph one other) :
    first.templateParameters one = second.templateParameters other := by
  have around : List.Forall₂ (first.graph.Counterparts second.graph)
      (outwardFrom first.graph (first.graph.nodeCount + 1) one)
      (outwardFrom second.graph (second.graph.nodeCount + 1) other) :=
    corresponds.wayOutwards same .nil .nil (by simp) (by simp)
  unfold Catalogue.templateParameters
  generalize outwardFrom first.graph _ one = scopes at around
  generalize outwardFrom second.graph _ other = scopesToo at around
  induction around with
  | nil => rfl
  | @cons scope scopeToo _ _ held _ further =>
    obtain ⟨key, carried, _⟩ := id held
    obtain ⟨node, there, _⟩ := Graph.key?_eq_some.mp carried
    rw [List.filterMap_cons_some there, List.filterMap_cons_some (corresponds.node held there),
      List.flatMap_cons, List.flatMap_cons, further]

end Entities

end Corresponds

end Catalogue

end DeclGraph

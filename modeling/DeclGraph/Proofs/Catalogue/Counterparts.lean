import DeclGraph.Proofs.Catalogue.Detaching
import DeclGraph.Proofs.Catalogue.Named
import DeclGraph.Proofs.Linking.Frame
import Mathlib.Data.List.Forall2
import Mathlib.Logic.Relator

/-!
# Counterparts

Two catalogues can hold the same entities although their nodes have other numbers and were
created in another order. Nodes of the same key are counterparts. Catalogues correspond when
counterparts say the same, lie in counterparts, have counterparts as bases in the same order, and
use counterparts in the same order and roles. Only the order in which callables of one name were
created is left open.
-/

namespace DeclGraph

section Lists

variable {α : Type} {same : α → α → Prop} {marked markedToo further furtherToo : α → Bool}
  {found other : List α}

/-- Two lists list the same. -/
structure SameListed (same : α → α → Prop) (found other : List α) : Prop where
  onto : ∀ item ∈ found, ∃ partner ∈ other, same item partner
  back : ∀ partner ∈ other, ∃ item ∈ found, same item partner

/-- Two lists list the same, and what is marked they list in the same order. -/
structure ListedAlike (same : α → α → Prop) (marked markedToo : α → Bool)
    (found other : List α) : Prop extends SameListed same found other where
  inOrder : List.Forall₂ same (found.filter marked) (other.filter markedToo)

/-- Lists that are gathered from partners are related item by item when each part is. -/
theorem forall₂_flatMap {β : Type} {alike : β → β → Prop} {look lookToo : α → List β}
    (all : List.Forall₂ same found other)
    (each : ∀ item ∈ found, ∀ partner ∈ other, same item partner →
      List.Forall₂ alike (look item) (lookToo partner)) :
    List.Forall₂ alike (found.flatMap look) (other.flatMap lookToo) := by
  induction all with
  | nil => exact .nil
  | cons held _ step =>
    rw [List.flatMap_cons, List.flatMap_cons]
    refine List.rel_append (each _ List.mem_cons_self _ List.mem_cons_self held) (step ?_)
    exact fun item listed partner listedToo =>
      each item (List.mem_cons_of_mem _ listed) partner (List.mem_cons_of_mem _ listedToo)

/-- Items that add nothing need not be looked at. -/
theorem flatMap_filter {items : List α} {look : α → List α}
    (nothing : ∀ item ∈ items, marked item = false → look item = []) :
    (items.filter marked).flatMap look = items.flatMap look := by
  induction items with
  | nil => rfl
  | cons item rest step =>
    have ahead := step fun later listed => nothing later (List.mem_cons_of_mem _ listed)
    cases mark : marked item with
    | true => rw [List.filter_cons_of_pos mark, List.flatMap_cons, List.flatMap_cons, ahead]
    | false =>
      rw [List.filter_cons_of_neg (by simp [mark]), List.flatMap_cons,
        nothing item List.mem_cons_self mark, ahead, List.nil_append]

/-- Filtering what is added without repetitions comes to adding what the filter leaves. -/
theorem distinct_append_filter {items before : List Nat} {marks : Nat → Bool} :
    (items.foldl addNew before).filter marks = (items.filter marks).foldl addNew
      (before.filter marks) := by
  induction items generalizing before with
  | nil => rfl
  | cons item rest step =>
    rw [List.foldl_cons, step, addNew]
    cases mark : marks item with
    | true =>
      rw [List.filter_cons_of_pos mark, List.foldl_cons, addNew]
      simp only [List.contains_iff_mem, List.mem_filter, mark, and_true]
      split <;> simp [mark]
    | false =>
      rw [List.filter_cons_of_neg (by simp [mark])]
      split <;> simp [mark]

/-- Dropping repeats and keeping what is marked can be done in either order. -/
theorem filter_distinct (items : List Nat) (marks : Nat → Bool) :
    (distinct items).filter marks = distinct (items.filter marks) := distinct_append_filter

/-- Lists that correspond item by item still do without repetitions, since an item has one partner.
-/
theorem forall₂_distinct {same : Nat → Nat → Prop} (unique : Relator.BiUnique same)
    {found other : List Nat} (all : List.Forall₂ same found other) :
    List.Forall₂ same (distinct found) (distinct other) := by
  refine List.rel_foldl ?_ List.Forall₂.nil all
  intro before beforeToo sofar item partner held
  have known : item ∈ before ↔ partner ∈ beforeToo := List.rel_mem unique held sofar
  unfold addNew
  simp only [List.contains_iff_mem, known]
  split
  · exact sofar
  · exact List.rel_append sofar (.cons held .nil)

/-- What is found first in lists that are related item by item is related. -/
theorem rel_find? (marks : ∀ {item partner}, same item partner → marked item = markedToo partner)
    (all : List.Forall₂ same found other) :
    Option.Rel same (found.find? marked) (other.find? markedToo) := by
  induction all with
  | nil => exact .none
  | @cons item partner _ _ held _ step =>
    rw [List.find?_cons, List.find?_cons, ← marks held]
    cases marked item with
    | true => exact .some held
    | false => exact step

/-- The first items of lists that correspond have each other for partners. -/
theorem rel_head? (all : List.Forall₂ same found other) :
    Option.Rel same found.head? other.head? := by
  cases all with
  | nil => exact .none
  | cons held _ => exact .some held

namespace SameListed

/-- Two empty lists list the same. -/
theorem nil : SameListed same [] [] := ⟨nofun, nofun⟩

/-- Two partners list the same. -/
theorem single {item partner : α} (held : same item partner) :
    SameListed same [item] [partner] := by
  constructor <;> simpa using held

/-- Partners are listed together. -/
theorem mem_iff (alike : SameListed same found other) (unique : Relator.BiUnique same)
    {item partner : α} (held : same item partner) : item ∈ found ↔ partner ∈ other := by
  constructor
  · intro listed
    obtain ⟨another, listedToo, heldToo⟩ := alike.onto item listed
    exact unique.2 held heldToo ▸ listedToo
  · intro listed
    obtain ⟨another, listedToo, heldToo⟩ := alike.back partner listed
    exact unique.1 held heldToo ▸ listedToo

/-- Of two lists that list the same both are empty or neither is. -/
theorem eq_nil_iff (alike : SameListed same found other) : found = [] ↔ other = [] := by
  simp only [List.eq_nil_iff_forall_not_mem]
  constructor
  · intro nothing partner listed
    obtain ⟨item, member, _⟩ := alike.back partner listed
    exact nothing item member
  · intro nothing item listed
    obtain ⟨partner, member, _⟩ := alike.onto item listed
    exact nothing partner member

/-- What is marked in lists that list the same is the same. -/
theorem filter (alike : SameListed same found other)
    (marks : ∀ {item partner}, same item partner → marked item = markedToo partner) :
    SameListed same (found.filter marked) (other.filter markedToo) where
  onto := by
    intro item listed
    obtain ⟨among, mark⟩ := List.mem_filter.mp listed
    obtain ⟨partner, amongToo, held⟩ := alike.onto item among
    exact ⟨partner, List.mem_filter.mpr ⟨amongToo, (marks held).symm.trans mark⟩, held⟩
  back := by
    intro partner listed
    obtain ⟨amongToo, mark⟩ := List.mem_filter.mp listed
    obtain ⟨item, among, held⟩ := alike.back partner amongToo
    exact ⟨item, List.mem_filter.mpr ⟨among, (marks held).trans mark⟩, held⟩

/-- Where nothing but one item can be listed, there is only one order. -/
theorem forall₂_of_single (alike : SameListed same found other)
    (unique : Relator.BiUnique same) (nodup : found.Nodup) (nodupToo : other.Nodup)
    (single : ∀ item ∈ found, ∀ another ∈ found, item = another) :
    List.Forall₂ same found other := by
  have alone : ∀ {items : List α}, items.Nodup →
      (∀ item ∈ items, ∀ another ∈ items, item = another) → ∀ {item}, item ∈ items →
        items = [item] := by
    intro items nodup single item listed
    cases items with
    | nil => cases listed
    | cons head rest =>
      have nothing : rest = [] := List.eq_nil_iff_forall_not_mem.mpr fun later behind =>
        (List.nodup_cons.mp nodup).1
          (single later (List.mem_cons_of_mem _ behind) head List.mem_cons_self ▸ behind)
      rw [nothing] at listed ⊢
      rw [List.mem_singleton.mp listed]
  have singleToo : ∀ partner ∈ other, ∀ another ∈ other, partner = another := by
    intro partner listed another listedToo
    obtain ⟨item, member, held⟩ := alike.back partner listed
    obtain ⟨itemToo, memberToo, heldToo⟩ := alike.back another listedToo
    obtain rfl := single item member itemToo memberToo
    exact unique.2 held heldToo
  cases found with
  | nil =>
    have nothing : other = [] := List.eq_nil_iff_forall_not_mem.mpr fun partner listed => by
      obtain ⟨_, member, _⟩ := alike.back partner listed
      cases member
    rw [nothing]
    exact .nil
  | cons item rest =>
    obtain ⟨partner, listed, held⟩ := alike.onto item List.mem_cons_self
    rw [alone nodup single List.mem_cons_self, alone nodupToo singleToo listed]
    exact .cons held .nil

end SameListed

namespace ListedAlike

/-- Two empty lists are alike. -/
theorem nil : ListedAlike same marked markedToo [] [] := ⟨⟨nofun, nofun⟩, .nil⟩

/-- Lists that correspond item by item are alike if partners are marked alike. -/
theorem of_forall₂ (marks : ∀ {item partner}, same item partner → marked item = markedToo partner)
    (all : List.Forall₂ same found other) : ListedAlike same marked markedToo found other where
  inOrder := List.rel_filter (fun {item partner} held => by simp [marks held]) all
  onto := by
    clear marks
    induction all with
    | nil => nofun
    | cons held _ step => simp_all
  back := by
    clear marks
    induction all with
    | nil => nofun
    | cons held _ step => simp_all

/-- What is marked throughout comes in the same order. -/
theorem forall₂ (alike : ListedAlike same marked markedToo found other)
    (all : ∀ item ∈ found, marked item = true) (allToo : ∀ item ∈ other, markedToo item = true) :
    List.Forall₂ same found other := by
  have inOrder := alike.inOrder
  rwa [List.filter_eq_self.mpr all, List.filter_eq_self.mpr allToo] at inOrder

/-- Lists that are gathered item by item are alike when what is not marked adds nothing. -/
theorem flatMap {look lookToo : α → List α}
    (alike : ListedAlike same marked markedToo found other)
    (each : ∀ item ∈ found, ∀ partner ∈ other, same item partner →
      ListedAlike same further furtherToo (look item) (lookToo partner))
    (nothing : ∀ item ∈ found, marked item = false → look item = [])
    (nothingToo : ∀ item ∈ other, markedToo item = false → lookToo item = []) :
    ListedAlike same further furtherToo (found.flatMap look) (other.flatMap lookToo) where
  onto := by
    intro item listed
    obtain ⟨scope, among, inScope⟩ := List.mem_flatMap.mp listed
    obtain ⟨scopeToo, amongToo, held⟩ := alike.onto scope among
    obtain ⟨partner, member, heldToo⟩ := (each scope among scopeToo amongToo held).onto item inScope
    exact ⟨partner, List.mem_flatMap.mpr ⟨scopeToo, amongToo, member⟩, heldToo⟩
  back := by
    intro partner listed
    obtain ⟨scopeToo, amongToo, inScope⟩ := List.mem_flatMap.mp listed
    obtain ⟨scope, among, held⟩ := alike.back scopeToo amongToo
    obtain ⟨item, member, heldToo⟩ :=
      (each scope among scopeToo amongToo held).back partner inScope
    exact ⟨item, List.mem_flatMap.mpr ⟨scope, among, member⟩, heldToo⟩
  inOrder := by
    rw [← flatMap_filter nothing, ← flatMap_filter nothingToo, List.filter_flatMap,
      List.filter_flatMap]
    refine forall₂_flatMap alike.inOrder fun item listed partner listedToo held => ?_
    exact (each item (List.mem_filter.mp listed).1 partner (List.mem_filter.mp listedToo).1
      held).inOrder

/-- What is found first is related when only what is marked is looked for. -/
theorem find? {wanted wantedToo : α → Bool}
    (alike : ListedAlike same marked markedToo found other)
    (wants : ∀ {item partner}, same item partner → wanted item = wantedToo partner)
    (marks : ∀ item, wanted item → marked item) (marksToo : ∀ item, wantedToo item → markedToo item) :
    Option.Rel same (found.find? wanted) (other.find? wantedToo) := by
  have among : ∀ {items : List α} {wanted marked : α → Bool},
      (∀ item, wanted item → marked item) →
        items.find? wanted = (items.filter marked).find? wanted := by
    intro items wanted marked marks
    rw [List.find?_filter]
    refine congrArg (List.find? · items) (funext fun item => ?_)
    cases mark : wanted item with
    | true => simp [marks item mark]
    | false => simp
  rw [among marks, among marksToo]
  exact rel_find? wants alike.inOrder

/-- Lists that are alike stay so without repetitions. -/
theorem withoutRepeats {same : Nat → Nat → Prop} {marked markedToo : Nat → Bool}
    {found other : List Nat} (unique : Relator.BiUnique same)
    (alike : ListedAlike same marked markedToo found other) :
    ListedAlike same marked markedToo (distinct found) (distinct other) where
  onto := by simpa only [mem_distinct] using alike.onto
  back := by simpa only [mem_distinct] using alike.back
  inOrder := by
    rw [filter_distinct, filter_distinct]
    exact forall₂_distinct unique alike.inOrder

end ListedAlike

end Lists

namespace Graph

/-- Nodes of two graphs are counterparts when they carry the same key. -/
def Counterparts (first second : Graph) (one other : Nat) : Prop :=
  ∃ key, first.key? one = some key ∧ second.key? other = some key

/-- What the edges of a relation that leave a node lead to, with what they carry. -/
def leads (graph : Graph) (id : Nat) (relation : Relation) : List (Nat × Attributes) :=
  (graph.outgoing id (some relation)).map fun edge => (edge.target, edge.attributes)

/-- A list of what edges lead to, to which an edge was added. -/
def addLead (leads : List (Nat × Attributes)) (target : Nat) (attributes : Attributes) :
    List (Nat × Attributes) :=
  if target ∈ leads.map (·.1) then
    leads.map fun lead => if lead.1 = target then (target, lead.2.absorb attributes) else lead
  else leads ++ [(target, attributes)]

variable {first second : Graph} {one other : Nat} {key : EdgeKey} {attributes : Attributes}

/-- Having the same key is mutual. -/
theorem Counterparts.symm (same : first.Counterparts second one other) :
    second.Counterparts first other one := by
  obtain ⟨key, firstKey, secondKey⟩ := same
  exact ⟨key, secondKey, firstKey⟩

/-- Counterparts are nodes. -/
theorem Counterparts.there (same : first.Counterparts second one other) :
    (first.key? one).isSome ∧ (second.key? other).isSome := by
  obtain ⟨key, firstKey, secondKey⟩ := same
  rw [firstKey, secondKey]
  exact ⟨rfl, rfl⟩

/-- A node has one counterpart at most, since no two nodes of a graph have one key. -/
theorem biUnique_counterparts (sound : first.Sound) (soundToo : second.Sound) :
    Relator.BiUnique (first.Counterparts second) := by
  constructor
  · rintro one another other ⟨key, oneKey, otherKey⟩ ⟨keyToo, anotherKey, otherKeyToo⟩
    obtain rfl := Option.some.inj (otherKey.symm.trans otherKeyToo)
    exact sound.id_eq_of_key? oneKey anotherKey
  · rintro one other another ⟨key, oneKey, otherKey⟩ ⟨keyToo, oneKeyToo, anotherKey⟩
    obtain rfl := Option.some.inj (oneKey.symm.trans oneKeyToo)
    exact soundToo.id_eq_of_key? otherKey anotherKey

/-- An edge that is there with its ends leads to its target. -/
theorem Sound.related_iff_leads {graph : Graph} (sound : graph.Sound) {source target : Nat}
    {relation : Relation} : graph.Related source relation target ↔
      target ∈ (graph.leads source relation).map (·.1) := by
  rw [← sound.mem_targets, leads, List.map_map]
  rfl

/-- What is not in the graph leads nowhere. -/
theorem Sound.leads_eq_nil {graph : Graph} (sound : graph.Sound) {id : Nat}
    (missing : graph.key? id = none) (relation : Relation) : graph.leads id relation = [] := by
  refine List.eq_nil_iff_forall_not_mem.mpr fun lead listed => ?_
  have related := sound.related_iff_leads.mpr (List.mem_map_of_mem listed)
  have there := (sound.there_of_related related).1
  rw [missing] at there
  cases there

/-- An edge changes nothing about where other nodes and relations lead. -/
theorem Sound.leads_withEdge_of_ne {graph : Graph} (sound : graph.Sound) {id : Nat}
    {relation : Relation} (apart : key.source ≠ id ∨ key.relation ≠ relation) :
    (graph.withEdge key attributes).leads id relation = graph.leads id relation := by
  rw [leads, sound.outgoing_withEdge_of_ne apart, leads]

/-- An edge that is added is added to what its source leads to. -/
theorem Sound.leads_withEdge {graph : Graph} (sound : graph.Sound) (key : EdgeKey)
    (attributes : Attributes) :
    (graph.withEdge key attributes).leads key.source key.relation =
      addLead (graph.leads key.source key.relation) key.target attributes := by
  have known : key.target ∈ (graph.leads key.source key.relation).map (·.1) ↔
      ∃ id, graph.edgeIndex[key]? = some id := by
    rw [← sound.related_iff_leads, Related]
    simp only [sound.edgeIndex_iff]
  unfold addLead
  cases there : graph.edgeIndex[key]? with
  | none =>
    rw [if_neg (by rw [known, there]; simp), withEdge_of_fresh there, leads,
      sound.outgoing_addEdge, if_pos ⟨rfl, rfl⟩, List.map_append]
    rfl
  | some number =>
    rw [if_pos (known.mpr ⟨number, there⟩), withEdge_of_known there, leads,
      sound.outgoing_absorbing, leads, List.map_map, List.map_map]
    refine List.map_congr_left fun edge listed => ?_
    obtain ⟨found, source, relation⟩ := sound.mem_outgoing.mp listed
    have held := sound.edgeIndex_iff.mp there
    have same : edge.id = number ↔ edge.target = key.target := by
      constructor
      · rintro rfl
        rw [edgeKey?_of_edge found] at held
        rw [← Option.some.inj held]
        rfl
      · intro target
        refine sound.id_eq_of_edgeKey? (edgeKey?_of_edge found) (held.trans ?_)
        rw [Edge.key, source, target, show edge.relation = key.relation by simpa using relation]
    simp only [Function.comp_apply, same]
    split
    · rename_i target
      rw [target]
    · rfl

/-- What edges lead to are counterparts, and the edges carry the same. -/
def LeadAlike (first second : Graph) (lead other : Nat × Attributes) : Prop :=
  first.Counterparts second lead.1 other.1 ∧ lead.2 = other.2

/-- Edges that lead alike lead to counterparts. -/
theorem forall₂_targets {leads leadsToo : List (Nat × Attributes)}
    (alike : List.Forall₂ (first.LeadAlike second) leads leadsToo) :
    List.Forall₂ (first.Counterparts second) (leads.map (·.1)) (leadsToo.map (·.1)) :=
  List.rel_map (fun _ _ held => held.1) alike

/-- A lead that is added to counterparts is added alike, as a new one or to the one that is there.
-/
theorem forall₂_addLead (unique : Relator.BiUnique (first.Counterparts second))
    {leads leadsToo : List (Nat × Attributes)}
    (alike : List.Forall₂ (first.LeadAlike second) leads leadsToo)
    (same : first.Counterparts second one other) (attributes : Attributes) :
    List.Forall₂ (first.LeadAlike second) (addLead leads one attributes)
      (addLead leadsToo other attributes) := by
  have known : one ∈ leads.map (·.1) ↔ other ∈ leadsToo.map (·.1) :=
    List.rel_mem unique same (forall₂_targets alike)
  unfold addLead
  simp only [known]
  split
  · refine List.rel_map (fun lead leadToo held => ?_) alike
    have target : lead.1 = one ↔ leadToo.1 = other := Relator.rel_eq unique held.1 same
    simp only [target]
    split
    · exact ⟨same, congrArg (·.absorb attributes) held.2⟩
    · exact held
  · exact List.rel_append alike (.cons ⟨same, rfl⟩ .nil)

end Graph

namespace Catalogue

/-- Two catalogues hold the same entities, say the same of them and relate them in the same way,
with bases and uses of types in the same order. Overrides are left out. -/
structure Corresponds (first second : Catalogue) : Prop where
  housed : first.Housed []
  housedToo : second.Housed []
  named : WellNamed first.graph.profile?
  profile : ∀ key, first.graph.profile? key = second.graph.profile? key
  moved : first.moved = second.moved
  leads : ∀ {relation : Relation}, relation = .inherits ∨ relation = .usesType →
    ∀ {one other : Nat}, first.graph.Counterparts second.graph one other →
      List.Forall₂ (first.graph.LeadAlike second.graph) (first.graph.leads one relation)
        (second.graph.leads other relation)
  related : ∀ {relation : Relation}, relation ≠ .overrides → ∀ {one other target targetToo : Nat},
    first.graph.Counterparts second.graph one other →
    first.graph.Counterparts second.graph target targetToo →
      (first.graph.Related one relation target ↔ second.graph.Related other relation targetToo)

namespace Corresponds

variable {first second : Catalogue} (corresponds : first.Corresponds second)

include corresponds

/-- Counterparts are unique. -/
theorem unique : Relator.BiUnique (first.graph.Counterparts second.graph) :=
  Graph.biUnique_counterparts corresponds.housed.sound corresponds.housedToo.sound

/-- Correspondence is mutual. -/
theorem symm : second.Corresponds first where
  housed := corresponds.housedToo
  housedToo := corresponds.housed
  named := by
    rw [← show first.graph.profile? = second.graph.profile? from funext corresponds.profile]
    exact corresponds.named
  profile key := (corresponds.profile key).symm
  moved := corresponds.moved.symm
  leads := by
    intro relation leading one other same
    refine (corresponds.leads leading same.symm).flip.imp fun lead leadToo held => ?_
    exact ⟨held.1.symm, held.2.symm⟩
  related := fun apart _ _ _ _ same sameTarget =>
    (corresponds.related apart same.symm sameTarget.symm).symm

/-- What is known to one catalogue is known to the other. -/
theorem exists_key {one : Nat} {key : EntityKey} (carried : first.graph.key? one = some key) :
    ∃ other, second.graph.key? other = some key := by
  have known := corresponds.housed.sound.profile?_isSome.mpr ⟨one, carried⟩
  rw [corresponds.profile] at known
  exact corresponds.housedToo.sound.profile?_isSome.mp known

/-- Every node has a counterpart. -/
theorem exists_counterpart {one : Nat} (there : first.HasNode one) :
    ∃ other, first.graph.Counterparts second.graph one other := by
  obtain ⟨key, carried⟩ := Option.isSome_iff_exists.mp there
  obtain ⟨other, carriedToo⟩ := corresponds.exists_key carried
  exact ⟨other, key, carried, carriedToo⟩

/-- The roots of two catalogues are counterparts. -/
theorem root : first.graph.Counterparts second.graph Graph.root Graph.root :=
  ⟨.global, corresponds.housed.sound.root_key, corresponds.housedToo.sound.root_key⟩

section Nodes

variable {one other : Nat} (same : first.graph.Counterparts second.graph one other)

include same

/-- Counterparts differ in nothing but their numbers. -/
theorem node {node : Node} (found : first.graph.nodeTable[one]? = some node) :
    second.graph.nodeTable[other]? = some { node with id := other } := by
  obtain ⟨key, oneKey, otherKey⟩ := same
  obtain rfl : node.key = key := Option.some.inj ((Graph.key?_of_node found).symm.trans oneKey)
  have known := corresponds.housed.sound.profile?_of_node found
  rw [corresponds.profile] at known
  exact corresponds.housedToo.sound.nodeTable_of_profile? otherKey known

/-- Counterparts are of one kind. -/
theorem kind?_eq : first.kind? one = second.kind? other := by
  obtain ⟨key, oneKey, _⟩ := id same
  obtain ⟨node, found, _⟩ := Graph.key?_eq_some.mp oneKey
  rw [kind?, kind?, found, corresponds.node same found]
  rfl

/-- Counterparts are both records or neither is. -/
theorem isRecord_eq : first.isRecord one = second.isRecord other := by
  rw [isRecord, isRecord, corresponds.kind?_eq same]

/-- Counterparts lie in counterparts. -/
theorem contains_iff {scope scopeToo : Nat}
    (sameScope : first.graph.Counterparts second.graph scope scopeToo) :
    first.graph.Related scope .contains one ↔ second.graph.Related scopeToo .contains other :=
  corresponds.related (by decide) sameScope same

/-- Counterparts lie in scopes that are counterparts. -/
theorem parent? : Option.Rel (first.graph.Counterparts second.graph) (first.graph.parent? one)
    (second.graph.parent? other) := by
  have partner : ∀ {scope : Nat}, first.graph.parent? one = some scope →
      ∃ scopeToo, second.graph.parent? other = some scopeToo ∧
        first.graph.Counterparts second.graph scope scopeToo := by
    intro scope lies
    have related := corresponds.housed.parent?_eq_some.mp lies
    obtain ⟨scopeToo, sameScope⟩ := corresponds.exists_counterpart
      (corresponds.housed.sound.there_of_related related).1
    exact ⟨scopeToo, corresponds.housedToo.parent?_eq_some.mpr
      ((corresponds.contains_iff same sameScope).mp related), sameScope⟩
  cases lies : first.graph.parent? one with
  | some scope =>
    obtain ⟨scopeToo, liesToo, sameScope⟩ := partner lies
    rw [liesToo]
    exact .some sameScope
  | none =>
    cases liesToo : second.graph.parent? other with
    | none => exact .none
    | some scopeToo =>
      have related := corresponds.housedToo.parent?_eq_some.mp liesToo
      obtain ⟨scope, sameScope⟩ := corresponds.symm.exists_counterpart
        (corresponds.housedToo.sound.there_of_related related).1
      have relatedToo := (corresponds.contains_iff same sameScope.symm).mpr related
      rw [corresponds.housed.parent?_eq_some.mpr relatedToo] at lies
      cases lies

/-- The scopes that hold counterparts are counterparts, also where that is the root for want of
another. -/
theorem scopeOf :
    first.graph.Counterparts second.graph (first.scopeOf one) (second.scopeOf other) := by
  have lies := corresponds.parent? same
  rw [Catalogue.scopeOf, Catalogue.scopeOf]
  generalize first.graph.parent? one = scope at lies
  generalize second.graph.parent? other = scopeToo at lies
  cases lies with
  | some held => exact held
  | none => exact corresponds.root

/-- The bases of counterparts are counterparts, in the same order. -/
theorem bases : List.Forall₂ (first.graph.Counterparts second.graph) (first.bases one)
    (second.bases other) := by
  have targets := Graph.forall₂_targets (corresponds.leads (.inl rfl) same)
  simp only [Graph.leads, List.map_map] at targets
  exact List.rel_filter (fun {one other} held => by simp [corresponds.isRecord_eq held]) targets

/-- The targets of aliases that are counterparts are counterparts. -/
theorem aliasTarget? : Option.Rel (first.graph.Counterparts second.graph) (first.aliasTarget? one)
    (second.aliasTarget? other) := by
  have isAlias : ∀ catalogue : Catalogue, ∀ id, catalogue.aliasTarget? id =
      ((catalogue.graph.leads id .usesType).find? fun lead =>
        ((lead.2.texts? AttributeName.roles).getD []).contains "alias").map (·.1) := by
    intro catalogue id
    rw [Catalogue.aliasTarget?, Graph.leads, List.find?_map, Option.map_map]
    rfl
  rw [isAlias, isAlias]
  have found : Option.Rel (first.graph.LeadAlike second.graph) (List.find? _ _) (List.find? _ _) :=
    rel_find? (fun {lead leadToo} held =>
        show (((lead.2.texts? AttributeName.roles).getD []).contains "alias") = _ by rw [held.2])
      (corresponds.leads (.inr rfl) same)
  generalize List.find? _ _ = lead at found ⊢
  generalize List.find? _ _ = leadToo at found ⊢
  cases found with
  | some held => exact .some held.1
  | none => exact .none

end Nodes

end Corresponds

end Catalogue

end DeclGraph

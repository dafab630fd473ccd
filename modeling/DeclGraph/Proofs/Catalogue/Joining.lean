import DeclGraph.Proofs.Catalogue.Counterparts

/-!
# Additions to corresponding catalogues

Catalogues that correspond still do when counterparts are related and the same stand-in is added
to both. Whole lists of pairs can be related too, in any order, unless what they are related by
says in what order lookups go on. Before anything is linked, the same entities are enough.
-/

namespace DeclGraph

namespace Catalogue

/-- The catalogue after some pairs of nodes were related and nothing else. -/
structure Joined (relation : Relation) (pairs : List (Nat × Nat)) (before after : Catalogue) :
    Prop where
  housed : after.Housed []
  moved : after.moved = before.moved
  key? : ∀ id, after.graph.key? id = before.graph.key? id
  profile? : ∀ key, after.graph.profile? key = before.graph.profile? key
  leads : ∀ {other : Relation}, other ≠ relation → ∀ id,
    after.graph.leads id other = before.graph.leads id other
  related : ∀ {source target : Nat} {other : Relation},
    after.graph.Related source other target ↔
      before.graph.Related source other target ∨ other = relation ∧ (source, target) ∈ pairs

namespace Joined

variable {relation : Relation} {pairs further : List (Nat × Nat)} {before middle after : Catalogue}

/-- No join changes nothing. -/
theorem refl (housed : before.Housed []) : Joined relation [] before before where
  housed := housed
  moved := rfl
  key? _ := rfl
  profile? _ := rfl
  leads _ _ := rfl
  related := by simp

/-- Joins that follow each other are one join of all their pairs. -/
theorem trans (joined : Joined relation pairs before middle)
    (rest : Joined relation further middle after) :
    Joined relation (pairs ++ further) before after where
  housed := rest.housed
  moved := rest.moved.trans joined.moved
  key? id := (rest.key? id).trans (joined.key? id)
  profile? key := (rest.profile? key).trans (joined.profile? key)
  leads apart id := (rest.leads apart id).trans (joined.leads apart id)
  related := by
    intro source target other
    rw [rest.related, joined.related, List.mem_append, or_assoc, and_or_left]

/-- A join takes no node away. -/
theorem hasNode (joined : Joined relation pairs before after) {id : Nat}
    (there : before.HasNode id) : after.HasNode id := by
  rwa [HasNode, joined.key?]

/-- One more edge joins two nodes. -/
theorem withEdge (housed : before.Housed []) {source target : Nat} {relation : Relation}
    (sourceThere : before.HasNode source) (targetThere : before.HasNode target)
    (apart : relation ≠ .contains) (attributes : Attributes) :
    Joined relation [(source, target)] before
      (before.withEdge ⟨source, target, relation⟩ attributes) where
  housed := housed.withEdge sourceThere targetThere apart
  moved := rfl
  key? id := Graph.key?_withEdge id
  profile? key := Graph.profile?_withEdge _ _ key
  leads other id := housed.sound.leads_withEdge_of_ne (.inr other.symm)
  related := by
    intro first second other
    refine housed.sound.related_withEdge.trans (or_congr_right ?_)
    simp only [EdgeKey.mk.injEq, List.mem_singleton, Prod.mk.injEq]
    tauto

end Joined

variable {first second firstAfter secondAfter : Catalogue}

/-- Catalogues without links correspond when they hold the same entities. -/
theorem corresponds_of_unlinked (housed : first.Housed []) (housedToo : second.Housed [])
    (unlinked : first.Unlinked) (unlinkedToo : second.Unlinked)
    (named : WellNamed first.graph.profile?)
    (profile : ∀ key, first.graph.profile? key = second.graph.profile? key)
    (moved : first.moved = second.moved) : first.Corresponds second := by
  have nothing : ∀ {catalogue : Catalogue}, catalogue.Housed [] → catalogue.Unlinked →
      ∀ {relation : Relation}, relation ≠ .contains → ∀ id,
        catalogue.graph.leads id relation = [] := by
    intro catalogue housed unlinked relation apart id
    refine List.eq_nil_iff_forall_not_mem.mpr fun lead listed => apart ?_
    exact unlinked _ _ _ (housed.sound.related_iff_leads.mpr (List.mem_map_of_mem listed))
  refine ⟨housed, housedToo, named, profile, moved, ?_, ?_⟩
  · intro relation leading one other _
    have apart : relation ≠ .contains := by
      rintro rfl
      simp at leading
    rw [nothing housed unlinked apart, nothing housedToo unlinkedToo apart]
    exact .nil
  · intro relation _ one other target targetToo same sameTarget
    by_cases inside : relation = .contains
    · obtain ⟨key, oneKey, otherKey⟩ := same
      obtain ⟨targetKey, targetCarries, targetCarriesToo⟩ := sameTarget
      rw [inside]
      simp only [housed.contains_iff, housedToo.contains_iff, oneKey, otherKey, targetCarries,
        targetCarriesToo, List.not_mem_nil]
    · exact iff_of_false (fun related => inside (unlinked _ _ _ related))
        fun related => inside (unlinkedToo _ _ _ related)

namespace Corresponds

variable (corresponds : first.Corresponds second) {relation : Relation}

include corresponds

/-- Where counterparts are related in the same way, catalogues correspond as before. -/
theorem joined {pairs pairsToo : List (Nat × Nat)} (joined : Joined relation pairs first firstAfter)
    (joinedToo : Joined relation pairsToo second secondAfter)
    (leads : relation = .inherits ∨ relation = .usesType → ∀ {one other : Nat},
      first.graph.Counterparts second.graph one other →
        List.Forall₂ (first.graph.LeadAlike second.graph) (firstAfter.graph.leads one relation)
          (secondAfter.graph.leads other relation))
    (alike : relation ≠ .overrides → ∀ {one other target targetToo : Nat},
      first.graph.Counterparts second.graph one other →
      first.graph.Counterparts second.graph target targetToo →
        ((one, target) ∈ pairs ↔ (other, targetToo) ∈ pairsToo)) :
    firstAfter.Corresponds secondAfter := by
  have counterparts : firstAfter.graph.Counterparts secondAfter.graph =
      first.graph.Counterparts second.graph := by
    funext one other
    simp only [Graph.Counterparts, joined.key?, joinedToo.key?]
  refine ⟨joined.housed, joinedToo.housed, ?_, ?_, ?_, ?_, ?_⟩
  · rw [funext joined.profile?]
    exact corresponds.named
  · intro key
    rw [joined.profile?, joinedToo.profile?, corresponds.profile]
  · rw [joined.moved, joinedToo.moved, corresponds.moved]
  · intro leading isLeading one other same
    unfold Graph.LeadAlike
    rw [counterparts] at same ⊢
    by_cases here : leading = relation
    · subst here
      exact leads isLeading same
    · rw [joined.leads here, joinedToo.leads here]
      exact corresponds.leads isLeading same
  · intro other apart one oneToo target targetToo same sameTarget
    rw [counterparts] at same sameTarget
    rw [joined.related, joinedToo.related, corresponds.related apart same sameTarget]
    refine or_congr_right (and_congr_right ?_)
    rintro rfl
    exact alike apart same sameTarget

/-- Nodes that are related in both catalogues lead to counterparts. -/
theorem leads_withEdge {source sourceToo target targetToo : Nat}
    (same : first.graph.Counterparts second.graph source sourceToo)
    (sameTarget : first.graph.Counterparts second.graph target targetToo)
    (isLeading : relation = .inherits ∨ relation = .usesType) (attributes : Attributes)
    {one other : Nat} (held : first.graph.Counterparts second.graph one other) :
    List.Forall₂ (first.graph.LeadAlike second.graph)
      ((first.graph.withEdge ⟨source, target, relation⟩ attributes).leads one relation)
      ((second.graph.withEdge ⟨sourceToo, targetToo, relation⟩ attributes).leads other relation) := by
  have sound := corresponds.housed.sound
  have soundToo := corresponds.housedToo.sound
  have leads := corresponds.leads isLeading held
  by_cases here : source = one
  · subst here
    obtain rfl : sourceToo = other := corresponds.unique.2 same held
    have added := sound.leads_withEdge ⟨source, target, relation⟩ attributes
    have addedToo := soundToo.leads_withEdge ⟨sourceToo, targetToo, relation⟩ attributes
    rw [added, addedToo]
    exact Graph.forall₂_addLead corresponds.unique leads sameTarget attributes
  · have hereToo : sourceToo ≠ other := fun equal => here (corresponds.unique.1 same (equal ▸ held))
    rw [sound.leads_withEdge_of_ne (.inl here), soundToo.leads_withEdge_of_ne (.inl hereToo)]
    exact leads

/-- Counterparts can be related in both catalogues. -/
theorem withEdge {source sourceToo target targetToo : Nat}
    (same : first.graph.Counterparts second.graph source sourceToo)
    (sameTarget : first.graph.Counterparts second.graph target targetToo)
    (apart : relation ≠ .contains) (attributes : Attributes) :
    (first.withEdge ⟨source, target, relation⟩ attributes).Corresponds
      (second.withEdge ⟨sourceToo, targetToo, relation⟩ attributes) := by
  refine corresponds.joined
    (.withEdge corresponds.housed same.there.1 sameTarget.there.1 apart attributes)
    (.withEdge corresponds.housedToo same.there.2 sameTarget.there.2 apart attributes)
    (fun isLeading _ _ held => corresponds.leads_withEdge same sameTarget isLeading attributes held)
    fun _ _ _ _ _ held heldToo => ?_
  simp only [List.mem_singleton, Prod.mk.injEq]
  exact and_congr (Relator.rel_eq corresponds.unique held same)
    (Relator.rel_eq corresponds.unique heldToo sameTarget)

section StandIn

variable {spelling : String}
  (fresh : first.graph.nodeByKey? (.placeholder spelling) = none)

include fresh

/-- What has no stand-in in the one catalogue has none in the other. -/
theorem fresh_placeholder : second.graph.nodeByKey? (.placeholder spelling) = none := by
  rw [← corresponds.housedToo.sound.profile?_eq_none, ← corresponds.profile,
    corresponds.housed.sound.profile?_eq_none]
  exact fresh

/-- In the catalogues with a stand-in more, the stand-ins are counterparts, and otherwise the same
nodes are as before. -/
theorem counterparts_withPlaceholder {one other : Nat} :
    (first.withPlaceholder spelling).graph.Counterparts (second.withPlaceholder spelling).graph
        one other ↔
      first.graph.Counterparts second.graph one other ∨
        one = first.graph.nextNode ∧ other = second.graph.nextNode := by
  have sound := corresponds.housed.sound
  have soundToo := corresponds.housedToo.sound
  have freshToo := corresponds.fresh_placeholder fresh
  have keys : ∀ {graph : Graph}, graph.Sound → ∀ {id : Nat} {key : EntityKey},
        (graph.addNode (.placeholder spelling) .placeholder ∅).key? id = some key ↔
          graph.key? id = some key ∨ id = graph.nextNode ∧ key = .placeholder spelling := by
    intro graph sound id key
    rw [Graph.key?_addNode]
    split
    · rename_i new
      subst new
      simp [sound.key?_nextNode, eq_comm]
    · rename_i old
      simp [Ne.symm old]
  have unknown : ∀ {graph : Graph}, graph.Sound →
      graph.nodeByKey? (.placeholder spelling) = none → ∀ id : Nat,
        graph.key? id ≠ some (.placeholder spelling) := by
    intro graph sound fresh id carried
    rw [sound.nodeByKey?_eq_some.mpr carried] at fresh
    cases fresh
  unfold Graph.Counterparts
  simp only [withPlaceholder, keys sound, keys soundToo]
  constructor
  · rintro ⟨key, old | ⟨rfl, rfl⟩, oldToo | ⟨rfl, same⟩⟩
    · exact .inl ⟨key, old, oldToo⟩
    · exact absurd (same ▸ old) (unknown sound fresh one)
    · exact absurd oldToo (unknown soundToo freshToo other)
    · exact .inr ⟨rfl, rfl⟩
  · rintro (⟨key, old, oldToo⟩ | ⟨rfl, rfl⟩)
    · exact ⟨key, .inl old, .inl oldToo⟩
    · exact ⟨_, .inr ⟨rfl, rfl⟩, .inr ⟨rfl, rfl⟩⟩

/-- The same stand-in can be added to both catalogues. -/
theorem withPlaceholder :
    (first.withPlaceholder spelling).Corresponds (second.withPlaceholder spelling) := by
  have sound := corresponds.housed.sound
  have soundToo := corresponds.housedToo.sound
  have freshToo := corresponds.fresh_placeholder fresh
  have profiles : ∀ key, (first.withPlaceholder spelling).graph.profile? key =
      if .placeholder spelling = key then some ⟨.placeholder, ∅⟩ else first.graph.profile? key :=
    sound.profile?_addNode ∅ fresh rfl
  have profilesToo : ∀ key, (second.withPlaceholder spelling).graph.profile? key =
      if .placeholder spelling = key then some ⟨.placeholder, ∅⟩ else second.graph.profile? key :=
    soundToo.profile?_addNode ∅ freshToo rfl
  -- Nothing is related to a stand-in that is new.
  have alone : ∀ {graph : Graph}, graph.Sound → ∀ {source target : Nat} {relation : Relation},
      source = graph.nextNode ∨ target = graph.nextNode → ¬ graph.Related source relation target := by
    intro graph sound source target relation new related
    have there := sound.there_of_related related
    rcases new with rfl | rfl <;> simp [sound.key?_nextNode] at there
  refine ⟨corresponds.housed.withPlaceholder fresh, corresponds.housedToo.withPlaceholder freshToo,
    ?_, ?_, corresponds.moved, ?_, ?_⟩
  · refine corresponds.named.of_known fun {key} known => ?_
    rw [profiles] at known
    split at known
    · rename_i new
      exact .inr (new ▸ rfl)
    · exact .inl known
  · intro key
    rw [profiles, profilesToo, corresponds.profile]
  · intro relation isLeading one other same
    show List.Forall₂ _ (first.graph.leads one relation) (second.graph.leads other relation)
    rcases (corresponds.counterparts_withPlaceholder fresh).mp same with old | ⟨rfl, rfl⟩
    · refine (corresponds.leads isLeading old).imp fun _ _ alike => ⟨?_, alike.2⟩
      exact (corresponds.counterparts_withPlaceholder fresh).mpr (.inl alike.1)
    · rw [sound.leads_eq_nil sound.key?_nextNode, soundToo.leads_eq_nil soundToo.key?_nextNode]
      exact .nil
  · intro relation apart one other target targetToo same sameTarget
    show first.graph.Related one relation target ↔ second.graph.Related other relation targetToo
    rcases (corresponds.counterparts_withPlaceholder fresh).mp same with old | ⟨new, newToo⟩
    · rcases (corresponds.counterparts_withPlaceholder fresh).mp sameTarget with
        oldTarget | ⟨new, newToo⟩
      · exact corresponds.related apart old oldTarget
      · exact iff_of_false (alone sound (.inr new)) (alone soundToo (.inr newToo))
    · exact iff_of_false (alone sound (.inl new)) (alone soundToo (.inl newToo))

end StandIn

end Corresponds

end Catalogue

end DeclGraph

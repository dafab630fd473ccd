import DeclGraph.Proofs.Catalogue.Apart
import DeclGraph.Proofs.Catalogue.Carrying
import DeclGraph.Proofs.Catalogue.Settling
import DeclGraph.Proofs.Merging.Aspect

/-!
# Relocations side by side

One catalogue is relocated on behalf of all units, another on behalf of some. The two keep agreeing
on the names in which no simple name occurs of a scope that is moved in the one only: such a move
takes away and brings in only names in which that simple name does occur, and carries nothing
else. What is declared together with all scopes around it is never moved at all.
-/

namespace DeclGraph

namespace Catalogue

/-- Whether a scope is declared, as are all scopes around it. -/
def isAnchored (catalogue : Catalogue) (name : ScopedName) : Bool :=
  (List.range name.segments.length).all fun count =>
    catalogue.isDeclaredScope ⟨name.segments.take (count + 1)⟩

/-- A scope is anchored when every front of its name is that of a declared scope. -/
theorem isAnchored_iff {catalogue : Catalogue} {name : ScopedName} :
    catalogue.isAnchored name ↔ ∀ front, front ≠ [] → front <+: name.segments →
      catalogue.isDeclaredScope ⟨front⟩ := by
  simp only [isAnchored, List.all_eq_true, List.mem_range]
  constructor
  · intro all front someSegment isPrefix
    have short := isPrefix.length_le
    have long := List.length_pos_iff.mpr someSegment
    have cut : name.segments.take (front.length - 1 + 1) = front := by
      rw [show front.length - 1 + 1 = front.length by omega]
      exact List.prefix_iff_eq_take.mp isPrefix |>.symm
    have declared := all (front.length - 1) (by omega)
    rwa [cut] at declared
  · intro all count short
    refine all _ ?_ (List.take_prefix _ _)
    rw [← List.length_pos_iff, List.length_take]
    omega

/-- What the relocation of the catalogue `start` keeps as long as it moves no more than some
strays whose names avoid some simple names, and scopes of one of these simple names. -/
structure Steady (start : Catalogue) (shunned : List String) (strays : ScopedName → Prop)
    (catalogue : Catalogue) : Prop where
  before : catalogue.BeforeLinking
  anchored : ∀ {name : ScopedName}, name.segments ≠ [] → start.isAnchored name →
    catalogue.isDeclaredScope name
  avoids : ∀ {stray : ScopedName} {key : EntityKey}, strays stray → key.isBelow stray →
    (catalogue.graph.profile? key).isSome → key.name.Avoids shunned

/-- Two lists of moves carry whatever avoids some simple names to one place, which avoids them
too. -/
def CarryAlike (shunned : List String) (moves others : List Move) : Prop :=
  ∀ key : EntityKey, key.name.Avoids shunned →
    key.carried moves = key.carried others ∧ (key.carried others).name.Avoids shunned

namespace CarryAlike

variable {shunned : List String}

/-- Without moves everything stays in its place. -/
theorem nil : CarryAlike shunned [] [] := fun _ avoids => ⟨rfl, avoids⟩

/-- What is carried alike by moves and then by further moves is carried alike by both. -/
theorem append {moves others further furtherOthers : List Move}
    (alike : CarryAlike shunned moves others)
    (next : CarryAlike shunned further furtherOthers) :
    CarryAlike shunned (moves ++ further) (others ++ furtherOthers) := by
  intro key avoids
  obtain ⟨same, between⟩ := alike key avoids
  rw [EntityKey.carried_append, EntityKey.carried_append, same]
  exact next _ between

end CarryAlike

variable {start catalogue after : Catalogue} {shunned : List String}
  {strays : ScopedName → Prop} {viewpoint : Viewpoint} {source target : ScopedName}

/-- What is known of a scope that is to be moved, and of the place it is moved to. -/
structure Relocatable (catalogue : Catalogue) (viewpoint : Viewpoint)
    (source target : ScopedName) : Prop where
  implied : (catalogue.graph.profile? (.scope source)).any
    (·.attributes.isSet AttributeName.implied)
  means : catalogue.relocationTarget? viewpoint source = some target

/-- What is to be moved can be moved there. -/
theorem relocatable_of_moveOf? (place : catalogue.moveOf? viewpoint source = some target) :
    catalogue.Relocatable viewpoint source target := by
  unfold moveOf? at place
  split at place
  · exact ⟨‹_›, (Option.filter_eq_some_iff.mp place).1⟩
  · cases place

namespace Relocatable

variable (relocatable : catalogue.Relocatable viewpoint source target)

include relocatable

/-- The global namespace is never moved. -/
theorem source_ne : source.segments ≠ [] :=
  (segments_of_relocationTarget? relocatable.means).1

/-- Nothing is moved to the global namespace. -/
theorem target_ne : target.segments ≠ [] :=
  (segments_of_relocationTarget? relocatable.means).2

/-- What is to be moved is known. -/
theorem source_known : (catalogue.graph.profile? (.scope source)).isSome := by
  obtain ⟨profile, known, _⟩ := (Option.any_eq_true _ _).mp relocatable.implied
  rw [known]
  rfl

/-- What is to be moved is not declared. -/
theorem not_isDeclaredScope : ¬ catalogue.isDeclaredScope source := by
  obtain ⟨profile, known, implied⟩ := (Option.any_eq_true _ _).mp relocatable.implied
  simp [isDeclaredScope_eq, known, implied]

/-- A scope keeps its simple name when it is moved. -/
theorem simple : target.simple = source.simple := simple_of_relocationTarget? relocatable.means

/-- The place to which a scope is to be moved is known. -/
theorem target_known : (catalogue.graph.profile? (.scope target)).isSome :=
  known_of_relocationTarget? relocatable.means

/-- The scopes around the place are known. -/
theorem around (housed : catalogue.Housed []) (scope : EntityKey)
    (isAround : scope.isScopeAround target.segments.dropLast) :
    (catalogue.graph.profile? scope).isSome := by
  obtain ⟨id, targetKey⟩ := housed.sound.profile?_isSome.mp relocatable.target_known
  exact housed.sound.profile?_isSome.mpr
    (housed.around_there targetKey (by simp [EntityKey.scope]) isAround)

/-- What is known after the move was moved, or was known before. -/
theorem origin (housed : catalogue.Housed []) (moved : catalogue.Moved after source target)
    {key : EntityKey} (there : (after.graph.profile? key).isSome) :
    (∃ former, former.isBelow source ∧ (catalogue.graph.profile? former).isSome ∧
      former.moved source target = key) ∨ (catalogue.graph.profile? key).isSome := by
  rw [moved.profile] at there
  exact WellNamed.origin_of_moved (relocatable.around housed) relocatable.target_ne there

/-- A move leaves alone what is neither below the scope nor below its new place. -/
theorem profile_other (housed : catalogue.Housed []) (moved : catalogue.Moved after source target)
    {key : EntityKey} (notSource : ¬ key.isBelow source) (notTarget : ¬ key.isBelow target) :
    after.graph.profile? key = catalogue.graph.profile? key := by
  rw [moved.profile]
  unfold profileMoved?
  simp only [notSource, notTarget]
  by_cases isAround : key.isScopeAround target.segments.dropLast
  · obtain ⟨profile, there⟩ := Option.isSome_iff_exists.mp (relocatable.around housed key isAround)
    simp [there]
  · simp [isAround]

/-- A move leaves a catalogue as one is before the linking. -/
theorem beforeLinking (before : catalogue.BeforeLinking)
    (moved : catalogue.Moved after source target)
    (fits : MoveFits catalogue.graph.profile? source target) : after.BeforeLinking where
  housed := moved.housed
  unlinked := moved.unlinked before.unlinked
  named := by
    rw [show after.graph.profile? = _ from funext moved.profile]
    exact before.named.moved (relocatable.around before.housed) relocatable.source_ne
      relocatable.target_ne fits

end Relocatable

namespace Steady

/-- What is to be moved is not anchored: it is implied, and what is anchored stays declared. -/
theorem not_isAnchored (steady : Steady start shunned strays catalogue)
    (relocatable : catalogue.Relocatable viewpoint source target) :
    ¬ start.isAnchored source := by
  exact fun anchored =>
    relocatable.not_isDeclaredScope (steady.anchored relocatable.source_ne anchored)

/-- What is anchored is never moved. -/
theorem moveOf?_eq_none (steady : Steady start shunned strays catalogue)
    (anchored : start.isAnchored source) (viewpoint : Viewpoint) :
    catalogue.moveOf? viewpoint source = none := by
  rw [Option.eq_none_iff_forall_ne_some]
  intro target place
  exact steady.not_isAnchored (relocatable_of_moveOf? place) anchored

/-- The relocation of what is anchored makes no move. -/
theorem moveMade?_eq_none (steady : Steady start shunned strays catalogue)
    (anchored : start.isAnchored source) (viewpoint : Viewpoint) :
    catalogue.moveMade? viewpoint source = none := by
  unfold moveMade?
  rw [steady.moveOf?_eq_none anchored]

/-- A declared scope is still declared after a move of other scopes, whatever was merged
into it. -/
theorem isDeclaredScope_of_moved {name : ScopedName}
    (moved : catalogue.Moved after source target) (declared : catalogue.isDeclaredScope name)
    (notSource : ¬ (EntityKey.scope name).isBelow source) : after.isDeclaredScope name := by
  rw [isDeclaredScope_eq] at declared ⊢
  rw [moved.profile]
  cases held : catalogue.graph.profile? (.scope name) with
  | none => simp [held] at declared
  | some profile =>
    rw [held, Option.any_some, Bool.not_eq_true'] at declared
    unfold profileMoved?
    simp only [notSource, held]
    split
    · rename_i merged _
      show (!(Mention.joined _ profile).attributes.isSet AttributeName.implied) = true
      rw [Mention.joined_implied_isSet, declared]
      rfl
    · simp [declared]

/-- A move that may happen keeps a catalogue steady. -/
theorem moved (steady : Steady start shunned strays catalogue)
    (strayAvoids : ∀ {stray : ScopedName}, strays stray → stray.Avoids shunned)
    (relocatable : catalogue.Relocatable viewpoint source target)
    (moved : catalogue.Moved after source target)
    (fits : MoveFits catalogue.graph.profile? source target)
    (may : source.simple ∈ shunned ∨ strays source ∧ target.Avoids shunned) :
    Steady start shunned strays after := by
  have before := relocatable.beforeLinking steady.before moved fits
  have someSegment := relocatable.source_ne
  refine ⟨before, fun {name} nameNe anchored => ?_, fun {stray key} isStray below there => ?_⟩
  · refine isDeclaredScope_of_moved moved (steady.anchored nameNe anchored) fun below => ?_
    -- Otherwise the moved scope would be anchored too.
    refine steady.not_isAnchored relocatable ?_
    rw [isAnchored_iff] at anchored ⊢
    exact fun front frontNe isPrefix =>
      anchored front frontNe (isPrefix.trans (EntityKey.prefix_of_isBelow below))
  · rcases relocatable.origin steady.before.housed moved there with
      ⟨former, formerBelow, formerThere, rfl⟩ | old
    · rcases may with isShunned | ⟨sourceStray, targetAvoids⟩
      · -- The new place is below the stray, or the stray is below the new place.
        have targetShunned : target.simple ∈ shunned := relocatable.simple ▸ isShunned
        have strayPrefix := EntityKey.prefix_of_isBelow below
        have targetBelow : (former.moved source target).isBelow target :=
          EntityKey.isBelow_moved someSegment formerBelow
        have targetPrefix := EntityKey.prefix_of_isBelow targetBelow
        have targetAvoids : target.Avoids shunned := by
          rcases List.prefix_or_prefix_of_prefix strayPrefix targetPrefix with inStray | inTarget
          · exact steady.avoids isStray (EntityKey.scope_isBelow inStray) relocatable.target_known
          · exact (strayAvoids isStray).around inTarget
        exact absurd targetShunned (targetAvoids.simple relocatable.target_ne)
      · exact EntityKey.avoids_moved targetAvoids
          (steady.avoids sourceStray formerBelow formerThere)
    · exact steady.avoids isStray below old

end Steady

section TwoCatalogues

variable {first second firstAfter secondAfter : Catalogue}

/-- How far two relocations have come that agree apart from some names. -/
structure SideBySide (start : Catalogue) (shunned : List String) (strays : ScopedName → Prop)
    (first second : Catalogue) : Prop where
  firstSteady : Steady start shunned strays first
  secondSteady : Steady start shunned strays second
  agree : AgreeApart shunned first.graph.profile? second.graph.profile?

/-- A scope whose name avoids the simple names is to be moved to the same place in both. -/
theorem SideBySide.moveOf?_eq (both : SideBySide start shunned strays first second)
    (unnamed : viewpoint.unit.unnamedNamespace ∉ shunned)
    (avoids : ∀ directive ∈ viewpoint.directives, directive.Avoids shunned) {name : ScopedName}
    (nameAvoids : name.Avoids shunned) (someSegment : name.segments ≠ []) :
    second.moveOf? viewpoint name = first.moveOf? viewpoint name := by
  unfold moveOf?
  rw [both.agree (.scope name) nameAvoids,
    relocationTarget?_eq both.firstSteady.before both.secondSteady.before both.agree
      unnamed avoids (nameAvoids.simple someSegment)]

/-- A stray that is to be moved to the same place in both fits there in both or in neither. -/
theorem SideBySide.moveFits_iff (both : SideBySide start shunned strays first second)
    (isStray : strays source) (targetAvoids : target.Avoids shunned) :
    MoveFits second.graph.profile? source target ↔ MoveFits first.graph.profile? source target :=
  ⟨both.agree.symm.moveFits targetAvoids (both.firstSteady.avoids isStray),
    both.agree.moveFits targetAvoids (both.secondSteady.avoids isStray)⟩

/-- Both relocations move an anchored scope or a stray of the unit that both serve alike: none of
them does, or both move it to one place, which avoids the simple names. -/
theorem SideBySide.moveMade?_eq (both : SideBySide start shunned strays first second)
    (strayAvoids : ∀ {stray : ScopedName}, strays stray → stray.Avoids shunned)
    (unnamed : viewpoint.unit.unnamedNamespace ∉ shunned)
    (avoids : ∀ directive ∈ viewpoint.directives, directive.Avoids shunned) {name : ScopedName}
    (own : start.isAnchored name ∨ strays name) :
    second.moveMade? viewpoint name = first.moveMade? viewpoint name ∧
      ∀ move, first.moveMade? viewpoint name = some move →
        strays name ∧ move.target.Avoids shunned := by
  have firstSound := both.firstSteady.before.sound
  have secondSound := both.secondSteady.before.sound
  by_cases anchored : start.isAnchored name
  · have firstStays := both.firstSteady.moveMade?_eq_none anchored viewpoint
    rw [firstStays, both.secondSteady.moveMade?_eq_none anchored viewpoint]
    exact ⟨rfl, nofun⟩
  · have isStray := own.resolve_left anchored
    have nameAvoids := strayAvoids isStray
    have someSegment : name.segments ≠ [] := by
      intro nothing
      exact anchored (by simp [isAnchored, nothing])
    have place := both.moveOf?_eq unnamed avoids nameAvoids someSegment
    have targetAvoids : ∀ {target : ScopedName}, first.moveOf? viewpoint name = some target →
        target.Avoids shunned := fun means =>
      avoids_of_relocationTarget? both.firstSteady.before unnamed avoids
        (nameAvoids.simple someSegment) (relocatable_of_moveOf? means).means
    refine ⟨Option.ext fun move => ?_, fun move made => ?_⟩
    · rw [moveMade?_eq_some firstSound, moveMade?_eq_some secondSound, place]
      refine and_congr_right fun _ => and_congr_right fun means => ?_
      exact both.moveFits_iff isStray (targetAvoids means)
    · exact ⟨isStray, targetAvoids ((moveMade?_eq_some firstSound).mp made).2.1⟩

/-- A scope that both relocations move alike is moved in both or in neither, and they stay side by
side. -/
theorem SideBySide.makes_both (both : SideBySide start shunned strays first second)
    (strayAvoids : ∀ {stray : ScopedName}, strays stray → stray.Avoids shunned)
    {name : ScopedName}
    (alike : second.moveMade? viewpoint name = first.moveMade? viewpoint name)
    (makes : first.Makes firstAfter (first.moveMade? viewpoint name))
    (makesToo : second.Makes secondAfter (second.moveMade? viewpoint name))
    (may : ∀ move, first.moveMade? viewpoint name = some move →
      strays name ∧ move.target.Avoids shunned) :
    SideBySide start shunned strays firstAfter secondAfter := by
  rw [alike] at makesToo
  cases made : first.moveMade? viewpoint name with
  | none =>
    rw [made] at makes makesToo
    obtain rfl : firstAfter = first := makes
    obtain rfl : secondAfter = second := makesToo
    exact both
  | some move =>
    obtain ⟨isStray, targetAvoids⟩ := may move made
    obtain ⟨rfl, place, fits⟩ := (moveMade?_eq_some both.firstSteady.before.sound).mp made
    obtain ⟨_, placeToo, fitsToo⟩ :=
      (moveMade?_eq_some both.secondSteady.before.sound).mp (alike.trans made)
    rw [made] at makes makesToo
    have mayMove : move.source.simple ∈ shunned ∨
        strays move.source ∧ move.target.Avoids shunned := .inr ⟨isStray, targetAvoids⟩
    refine ⟨both.firstSteady.moved strayAvoids (relocatable_of_moveOf? place) makes fits mayMove,
      both.secondSteady.moved strayAvoids (relocatable_of_moveOf? placeToo) makesToo fitsToo
        mayMove, ?_⟩
    rw [show firstAfter.graph.profile? = _ from funext makes.profile,
      show secondAfter.graph.profile? = _ from funext makesToo.profile]
    exact both.agree.moved (strayAvoids isStray)

end TwoCatalogues

end Catalogue

end DeclGraph

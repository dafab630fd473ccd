import DeclGraph.Proofs.Catalogue.Relocating

/-!
# Names of entities

In a well-named catalogue a scoped name says of which family an entity is, so that
two entities of one name are callables that differ in their signatures. Moving a
scope keeps a catalogue well named: what is moved fits to everything that is known
under its new name, and what shared a name before the move shares one behind it.
-/

namespace DeclGraph

namespace EntityKey

/-- The keys that declarations have: nothing but the global namespace is without a
name, and nothing but a callable has a signature. Stand-ins may have any name. -/
structure Plain (key : EntityKey) : Prop where
  named : key.family ≠ .placeholder → key.name.segments = [] → key = .global
  unsigned : key.family ≠ .callable → key.family ≠ .placeholder → key.signature = none

variable {source target : ScopedName} {key other : EntityKey}

/-- The key of a scope is one that a declaration has. -/
theorem plain_scope (name : ScopedName) : (scope name).Plain where
  named := by
    intro _ nothing
    obtain ⟨segments⟩ := name
    cases nothing
    rfl
  unsigned := fun _ _ => rfl

/-- A stand-in may have any name. -/
theorem plain_of_placeholder (standIn : key.family = .placeholder) : key.Plain where
  named := fun declared => absurd standIn declared
  unsigned := fun _ declared => absurd standIn declared

/-- A key is its family, its name and its signature. -/
theorem eq_of_parts (family : key.family = other.family) (name : key.name = other.name)
    (signature : key.signature = other.signature) : key = other := by
  cases key
  cases other
  simp_all

/-- Apart from callables, a family and a name determine a plain key. -/
theorem Plain.eq_of_name (plain : key.Plain) (otherPlain : other.Plain)
    (family : key.family = other.family) (name : key.name = other.name)
    (notCallable : key.family ≠ .callable) (declared : key.family ≠ .placeholder) :
    key = other := by
  have unsigned := plain.unsigned notCallable declared
  have otherUnsigned := otherPlain.unsigned (family ▸ notCallable) (family ▸ declared)
  exact eq_of_parts family name (unsigned.trans otherUnsigned.symm)

/-- A plain key of something declared lies in a scope, unless it is global. -/
theorem Plain.liesInScope (plain : key.Plain) (declared : key.family ≠ .placeholder)
    (someSegment : key.name.segments ≠ []) : key.LiesInScope := by
  refine ⟨?_, declared⟩
  rintro rfl
  exact someSegment rfl

/-- A move gives plain keys to what has plain keys. -/
theorem Plain.moved (plain : key.Plain) (sourceSegment : source.segments ≠ [])
    (targetSegment : target.segments ≠ []) (below : key.isBelow source) :
    (key.moved source target).Plain where
  named := by
    intro _ nothing
    have movedBelow : (key.moved source target).isBelow target :=
      isBelow_moved sourceSegment below
    obtain ⟨rest, split⟩ := prefix_of_isBelow movedBelow
    rw [nothing, List.append_eq_nil_iff] at split
    exact absurd split.1 targetSegment
  unsigned := plain.unsigned

/-- What has one name after a move had one name before. -/
theorem name_eq_of_moved (below : key.isBelow source) (otherBelow : other.isBelow source)
    (same : (key.moved source target).name = (other.moved source target).name) :
    key.name = other.name := by
  have back : ∀ former : EntityKey, former.isBelow source → former.name =
      source.descend ((former.moved source target).name.segments.drop target.segments.length) := by
    intro former formerBelow
    have undone : (former.moved source target).moved target source = former :=
      moved_moved formerBelow
    exact congrArg EntityKey.name undone.symm
  rw [back key below, back other otherBelow, same]

end EntityKey

namespace Catalogue

/-- Whether names say of which families entities are. -/
structure WellNamed (known : EntityKey → Option Profile) : Prop where
  plain : ∀ {key : EntityKey}, (known key).isSome → key.Plain
  one_family : ∀ {first second : EntityKey}, (known first).isSome → (known second).isSome →
    first.family ≠ .placeholder → second.family ≠ .placeholder → first.name = second.name →
      first.family = second.family

namespace WellNamed

variable {known after : EntityKey → Option Profile} {source target : ScopedName}

/-- Names stay as they are when nothing but stand-ins is new. -/
theorem of_known (wellNamed : WellNamed known)
    (old : ∀ {key : EntityKey}, (after key).isSome →
      (known key).isSome ∨ key.family = .placeholder) : WellNamed after where
  plain := by
    intro key there
    rcases old there with before | standIn
    · exact wellNamed.plain before
    · exact EntityKey.plain_of_placeholder standIn
  one_family := by
    intro first second firstThere secondThere firstDeclared secondDeclared sameName
    apply wellNamed.one_family _ _ firstDeclared secondDeclared sameName
    · exact (old firstThere).resolve_right firstDeclared
    · exact (old secondThere).resolve_right secondDeclared

/-- What is known after a move was moved, or was known before: the scopes around the
new name are there already. -/
theorem origin_of_moved {key : EntityKey}
    (around : ∀ scope : EntityKey, scope.isScopeAround target.segments.dropLast →
      (known scope).isSome)
    (targetSegment : target.segments ≠ [])
    (there : (profileMoved? known source target key).isSome) :
    (∃ former, former.isBelow source ∧ (known former).isSome ∧
      former.moved source target = key) ∨ (known key).isSome := by
  unfold profileMoved? at there
  dsimp only at there
  by_cases came : key.isBelow target ∧ (known (key.moved target source)).isSome
  · left
    refine ⟨key.moved target source, ?_, came.2, EntityKey.moved_moved came.1⟩
    exact EntityKey.isBelow_moved targetSegment came.1
  · right
    have notCame : (if key.isBelow target then known (key.moved target source) else none) =
        none := by
      by_cases below : key.isBelow target
      · rw [if_pos below, ← Option.not_isSome_iff_eq_none]
        exact fun known_ => came ⟨below, known_⟩
      · rw [if_neg below]
    rw [notCame] at there
    by_cases isAround : key.isScopeAround target.segments.dropLast
    · exact around key isAround
    · rw [if_neg isAround, Option.or_none] at there
      by_cases below : key.isBelow source
      · simp [below] at there
      · rwa [if_neg below] at there

/-- A move keeps names: what is moved agrees with what is known under its new name, and
with what is moved along. -/
theorem moved (wellNamed : WellNamed known)
    (around : ∀ scope : EntityKey, scope.isScopeAround target.segments.dropLast →
      (known scope).isSome)
    (sourceSegment : source.segments ≠ []) (targetSegment : target.segments ≠ [])
    (fits : MoveFits known source target) : WellNamed (profileMoved? known source target) := by
  -- What is moved agrees with whatever carries its new name.
  have agrees : ∀ {former key : EntityKey}, former.isBelow source → (known former).isSome →
      (known key).isSome → former.family ≠ .placeholder → key.family ≠ .placeholder →
      key.name = (former.moved source target).name → key.family = former.family := by
    intro former key below formerKnown keyKnown formerDeclared declared sameName
    obtain ⟨profile, held⟩ := Option.isSome_iff_exists.mp formerKnown
    obtain ⟨other, otherHeld⟩ := Option.isSome_iff_exists.mp keyKnown
    have compatible := fits former profile below held key other otherHeld sameName
    rw [Mention.compatible_iff] at compatible
    rcases compatible with standIn | standIn | ⟨same, _⟩
    · exact absurd standIn declared
    · exact absurd standIn formerDeclared
    · exact same
  constructor
  case plain =>
    intro key there
    rcases origin_of_moved around targetSegment there with
      ⟨former, below, formerKnown, rfl⟩ | old
    · exact (wellNamed.plain formerKnown).moved sourceSegment targetSegment below
    · exact wellNamed.plain old
  case one_family =>
    intro first second firstThere secondThere firstDeclared secondDeclared sameName
    rcases origin_of_moved around targetSegment firstThere with
        ⟨former, below, formerKnown, rfl⟩ | firstOld <;>
      rcases origin_of_moved around targetSegment secondThere with
        ⟨other, otherBelow, otherKnown, rfl⟩ | secondOld
    · show former.family = other.family
      apply wellNamed.one_family formerKnown otherKnown firstDeclared secondDeclared
      exact EntityKey.name_eq_of_moved below otherBelow sameName
    · show former.family = second.family
      exact (agrees below formerKnown secondOld firstDeclared secondDeclared sameName.symm).symm
    · show first.family = other.family
      exact agrees otherBelow otherKnown firstOld secondDeclared firstDeclared sameName
    · exact wellNamed.one_family firstOld secondOld firstDeclared secondDeclared sameName

end WellNamed

variable {catalogue : Catalogue}

/-- What lies in a scope has the name of the scope and then its simple name. -/
theorem Housed.child_of_related (housed : catalogue.Housed [])
    (named : WellNamed catalogue.graph.profile?) {scope member : Nat} {key : EntityKey}
    (carried : catalogue.graph.key? member = some key)
    (related : catalogue.graph.Related scope .contains member) :
    ∃ outer, catalogue.graph.key? scope = some (.scope outer) ∧
      key.name = outer.child key.name.simple := by
  obtain ⟨_, keyToo, carriedToo, lies, scopeKey⟩ := housed.contains_iff.mp related
  rw [carried] at carriedToo
  cases carriedToo
  have plain := named.plain (housed.sound.profile?_isSome.mpr ⟨_, carried⟩)
  have someSegment : key.name.segments ≠ [] := fun nothing =>
    lies.1 (plain.named lies.2 nothing)
  refine ⟨_, scopeKey, (ScopedName.child_simple_of_parent? ?_).symm⟩
  simp [ScopedName.parent?, ScopedName.isGlobal, someSegment]

/-- A scope to which another is moved is declared. -/
theorem declared_of_relocationTarget? {viewpoint : Viewpoint} {name target : ScopedName}
    (found : catalogue.relocationTarget? viewpoint name = some target) :
    catalogue.isDeclaredScope target := by
  unfold relocationTarget? at found
  cases outer : name.parent? with
  | none => simp [outer] at found
  | some scope =>
    simp only [outer] at found
    exact List.find?_some found

/-- The scope to which an implied scope is to be moved is known. -/
theorem known_of_relocationTarget? {viewpoint : Viewpoint} {name target : ScopedName}
    (found : catalogue.relocationTarget? viewpoint name = some target) :
    (catalogue.graph.profile? (.scope target)).isSome := by
  have declared := declared_of_relocationTarget? found
  unfold isDeclaredScope at declared
  unfold Graph.profile?
  cases index : catalogue.graph.nodeByKey? (.scope target) with
  | none => simp [index] at declared
  | some id =>
    cases held : catalogue.graph.nodeTable[id]? with
    | none => simp [index, held] at declared
    | some node => simp [held]

/-- Whatever becomes of a scope that is to be moved, names stay. -/
theorem MovedTo.wellNamed {after : Catalogue} {viewpoint : Viewpoint} {name : ScopedName}
    (moved : catalogue.MovedTo after name (catalogue.moveOf? viewpoint name))
    (housed : catalogue.Housed []) (wellNamed : WellNamed catalogue.graph.profile?) :
    WellNamed after.graph.profile? := by
  cases place : catalogue.moveOf? viewpoint name with
  | none =>
    rw [place] at moved
    have same : after = catalogue := moved
    rwa [same]
  | some target =>
    rw [place] at moved
    by_cases fits : MoveFits catalogue.graph.profile? name target
    · have means : catalogue.relocationTarget? viewpoint name = some target := by
        unfold moveOf? at place
        split at place
        · exact (Option.filter_eq_some_iff.mp place).1
        · cases place
      obtain ⟨sourceSegment, targetSegment⟩ := segments_of_relocationTarget? means
      obtain ⟨id, targetKey⟩ := housed.sound.profile?_isSome.mp (known_of_relocationTarget? means)
      have around : ∀ scope : EntityKey, scope.isScopeAround target.segments.dropLast →
          (catalogue.graph.profile? scope).isSome := by
        intro scope isAround
        exact housed.sound.profile?_isSome.mpr
          (housed.around_there targetKey (by simp [EntityKey.scope]) isAround)
      rw [show after.graph.profile? = _ from funext (moved.1 fits).profile]
      exact wellNamed.moved around sourceSegment targetSegment fits
    · rw [moved.2 fits]
      exact wellNamed

end Catalogue

end DeclGraph

import DeclGraph.Proofs.Catalogue.SideBySide

/-!
# Where a moved scope lands

A move takes the moved scope out of the catalogue before its nodes are registered under their new
names. If the scope that it is moved to lies outside, that scope is not touched: its node stays
registered under its key, and what is moved is merged into it. If the scope lies inside of the
moved one it is taken out too and is moved along, and under its key a new node stands, which is
implied only.
-/

namespace DeclGraph

namespace Catalogue

variable {before after : Catalogue} {viewpoint : Viewpoint} {source target : ScopedName}

/-- After a move the numbers of what lay below the scope are free, and all other numbers mean what
they meant. -/
def KeepsOutside (before after : Catalogue) (source : ScopedName) : Prop :=
  ∀ id key, before.graph.key? id = some key →
    after.graph.key? id = if key.isBelow source then none else some key

/-- Registering a moved node again gives no number another meaning, and takes none away. -/
theorem ensures_resettle_numbers {earlier : Graph} (housed : before.Housed [])
    (since : NumbersSince earlier before) (former : EntityKey) (mention : Mention) :
    Action.Ensures (resettle former mention) before
      (fun _ after => after.Housed [] ∧ NumbersSince earlier after ∧
        ∀ {id : Nat} {key : EntityKey}, before.graph.key? id = some key →
          after.graph.key? id = some key)
      fun _ => True := by
  have kept : Action.Ensures (resettle former mention) before
      (fun _ after => after.Housed [] ∧ ∀ {id : Nat} {key : EntityKey},
        before.graph.key? id = some key → after.graph.key? id = some key) fun _ => True := by
    unfold resettle
    refine Action.ensures_bind ((ensures_register housed mention).mono ?_ fun _ _ => trivial)
    rintro _ middle ⟨_, still, registered⟩
    refine Action.ensures_modify ⟨?_, registered.keys_kept⟩
    exact ⟨still.sound, still.loose_there, still.contains_iff, still.holder_there,
      still.mem_members, still.members_nodup⟩
  refine (kept.and (keeps_resettle_numbersSince earlier former mention since)).mono ?_
    fun _ _ => trivial
  exact fun _ after both => ⟨both.1.1, both.2, both.1.2⟩

/-- What is outside of a moved scope keeps its number, and no number of what is inside is used
again. -/
theorem ensures_moveSubtree_keepsOutside {scope : Nat} (housed : before.Housed [])
    (sourceSegment : source.segments ≠ [])
    (scopeKey : before.graph.key? scope = some (.scope source)) :
    Action.Ensures (moveSubtree scope source target) before
      (fun _ after => MoveFits before.graph.profile? source target →
        before.KeepsOutside after source)
      fun _ => True := by
  refine ensures_moveSubtree housed sourceSegment scopeKey
    (fun notFits fits => absurd fits notFits) fun {nodes middle gone} _ _ taken => ?_
  have middleHoused := taken.without.housed
  have registered : Action.Ensures
      (nodes.forM fun node => resettle node.key (movedMention source target node)) middle
      (fun _ after => after.Housed [] ∧ NumbersSince middle.graph after ∧
        ∀ {id : Nat} {key : EntityKey}, middle.graph.key? id = some key →
          after.graph.key? id = some key) fun _ => True := by
    refine Action.ensures_forM_invariant (fun after => after.Housed [] ∧
      NumbersSince middle.graph after ∧ ∀ {id : Nat} {key : EntityKey},
        middle.graph.key? id = some key → after.graph.key? id = some key)
      (fun node _ current held => ?_)
      ⟨middleHoused, ⟨middleHoused.sound, .refl middle.graph⟩, fun carried => carried⟩
    obtain ⟨still, since, kept⟩ := held
    refine (ensures_resettle_numbers still since _ _).mono ?_ fun _ _ => trivial
    exact fun _ next both => ⟨both.1, both.2.1, fun carried => both.2.2 (kept carried)⟩
  refine registered.mono (fun _ after held _ id key carried => ?_) fun _ _ => trivial
  obtain ⟨_, since, kept⟩ := held
  obtain ⟨node, found, rfl⟩ := Graph.key?_eq_some.mp carried
  by_cases inside : node.key.isBelow source
  · rw [if_pos inside]
    -- The number was freed, and no later node has got it.
    refine Option.eq_none_iff_forall_ne_some.mpr fun other again => ?_
    have old := Nat.lt_of_lt_of_le (housed.sound.lt_of_key? carried) taken.numbers.nextNode_le
    obtain ⟨left, stillThere, _⟩ := Graph.key?_eq_some.mp (since.numbers.key? old again)
    exact (taken.without.nodeTable.mp stillThere).2 ((taken.below carried).mpr inside)
  · rw [if_neg inside]
    refine kept (Graph.key?_of_node (taken.without.nodeTable.mpr ⟨found, fun isGone => ?_⟩))
    exact inside ((taken.below carried).mp isGone)

/-- The key of a scope is below another scope exactly when its name is within that of the other. -/
theorem scope_isBelow_iff {name : ScopedName} :
    (EntityKey.scope name).isBelow source ↔ name.isWithin source := by
  rw [ScopedName.isWithin, List.isPrefixOf_iff_prefix]
  exact ⟨EntityKey.prefix_of_isBelow, EntityKey.scope_isBelow⟩

/-- A name within a scope is that of the scope, or the name around it is within the scope. -/
theorem isWithin_iff_parent {name : ScopedName} (other : name ≠ source) :
    name.isWithin source ↔ ∃ outer, name.parent? = some outer ∧ outer.isWithin source := by
  obtain ⟨segments⟩ := name
  simp only [ScopedName.isWithin, List.isPrefixOf_iff_prefix]
  rcases List.eq_nil_or_concat segments with rfl | ⟨front, last, rfl⟩
  · simp only [ScopedName.parent?, ScopedName.isGlobal]
    constructor
    · exact fun nothing => absurd (congrArg ScopedName.mk (List.prefix_nil.mp nothing).symm) other
    · rintro ⟨outer, impossible, -⟩
      cases impossible
  · rw [List.concat_eq_append] at other ⊢
    have around : (⟨front ++ [last]⟩ : ScopedName).parent? = some ⟨front⟩ := by
      simp [ScopedName.parent?, ScopedName.isGlobal]
    have notSame : source.segments ≠ front ++ [last] := fun same =>
      other (congrArg ScopedName.mk same.symm)
    rw [List.prefix_concat_iff, around]
    simp [notSame]

/-- The move of an implied scope to the declared scope that its name means in a unit, and what
becomes of that scope. -/
structure LandsAt (before after : Catalogue) (viewpoint : Viewpoint) (source target : ScopedName) :
    Prop extends before.Relocatable viewpoint source target where
  noted : after.moved[EntityKey.scope source]? = some (.scope target)
  elsewhere : target ≠ source
  declared : before.isDeclaredScope target
  /-- The scope to which is moved keeps its node unless it lies in the moved one. -/
  node_kept_iff : ∀ id, before.graph.nodeByKey? (.scope target) = some id →
    (after.graph.nodeByKey? (.scope target) = some id ↔ ¬ target.isWithin source)
  declared_kept_iff : after.isDeclaredScope target ↔ ¬ target.isWithin source
  /-- It lies in the moved one exactly where the directive opens the moved one or a namespace in
  it. -/
  within_iff : target.isWithin source ↔
    ∃ outer, target.parent? = some outer ∧ outer.isWithin source

/-- What is moved into itself ends under an implied scope. -/
theorem isDeclaredScope_of_moved_inside (moved : before.Moved after source target)
    (relocatable : before.Relocatable viewpoint source target)
    (inside : target.isWithin source) : after.isDeclaredScope target = false := by
  obtain ⟨profile, known, isImplied⟩ := (Option.any_eq_true _ _).mp relocatable.implied
  rw [isDeclaredScope_eq, moved.profile, profileMoved?]
  simp only [EntityKey.scope_isBelow_self target, scope_isBelow_iff.mpr inside, if_true, EntityKey.moved_scope, known,
    Option.any_some]
  show (!(Mention.firstProfile _).attributes.isSet AttributeName.implied) = false
  have implied : (movedMention source target (profile.nodeUnder (.scope source))).implied = true :=
    isImplied
  simp [Mention.firstProfile, initialAttributes, implied, Attributes.isSet_iff]

/-- A move that took place lands where the name means it to be. -/
theorem Moved.landsAt (moved : before.Moved after source target) (sound : before.graph.Sound)
    (outside : before.KeepsOutside after source)
    (relocatable : before.Relocatable viewpoint source target) :
    before.LandsAt after viewpoint source target := by
  have declared := declared_of_relocationTarget? relocatable.means
  have elsewhere : target ≠ source := by
    rintro rfl
    exact relocatable.not_isDeclaredScope declared
  refine ⟨relocatable, ?noted, elsewhere, declared, ?node, ?stays, isWithin_iff_parent elsewhere⟩
  case noted =>
    rw [moved.moved, if_pos ⟨EntityKey.scope_isBelow_self source, relocatable.source_known⟩,
      EntityKey.moved_scope]
  case node =>
    intro id registered
    have carried := sound.nodeByKey?_eq_some.mp registered
    rw [moved.housed.sound.nodeByKey?_eq_some, outside id _ carried, ← scope_isBelow_iff]
    split <;> simp_all
  case stays =>
    cases inside : target.isWithin source with
    | true => simp [isDeclaredScope_of_moved_inside moved relocatable inside]
    | false =>
      have apart : ¬ (EntityKey.scope target).isBelow source := by
        rw [scope_isBelow_iff, inside]
        exact Bool.false_ne_true
      simp [Steady.isDeclaredScope_of_moved moved declared apart]

/-- When a scope is relocated, what is outside of it keeps its number. -/
theorem ensures_relocateScope_keepsOutside (housed : before.Housed []) (viewpoint : Viewpoint)
    (source : ScopedName) :
    Action.Ensures (relocateScope viewpoint source) before
      (fun _ after => ∀ target, before.moveOf? viewpoint source = some target →
        MoveFits before.graph.profile? source target → before.KeepsOutside after source)
      fun _ => True := by
  refine ensures_relocateScope housed.sound (fun stays target place => ?_)
    fun {id target} place sourceSegment _ scopeKey => ?_
  · rw [stays] at place
    cases place
  · refine (ensures_moveSubtree_keepsOutside housed sourceSegment scopeKey).mono ?_
      fun _ _ => trivial
    intro _ after keepsOutside other samePlace
    rw [place] at samePlace
    cases samePlace
    exact keepsOutside

/-- Relocating a scope leaves the catalogue as it is, or the scope lands where its name means it
to be. -/
theorem succeeds_relocateScope_landing (housed : before.Housed []) (viewpoint : Viewpoint)
    (source : ScopedName) :
    Action.Succeeds (relocateScope viewpoint source) before fun _ after =>
      after = before ∨ ∃ target, before.LandsAt after viewpoint source target := by
  have keeps := ensures_relocateScope_keepsOutside housed viewpoint source
  refine ((succeeds_relocateScope housed viewpoint source).and keeps).mono ?_
    fun _ both => both.1.elim
  rintro _ after ⟨movedTo, keepsOutside⟩
  cases place : before.moveOf? viewpoint source with
  | none =>
    rw [place] at movedTo
    exact .inl movedTo
  | some target =>
    rw [place] at movedTo
    by_cases fits : MoveFits before.graph.profile? source target
    · exact .inr ⟨target, (movedTo.1 fits).landsAt housed.sound (keepsOutside target place fits)
        (relocatable_of_moveOf? place)⟩
    · exact .inl (movedTo.2 fits)

end Catalogue

end DeclGraph

import DeclGraph.Proofs.Catalogue.Relocating

/-!
# Where moves carry keys

Each move of a scope gives new keys to the scope and to everything below it. A list of
moves carries every key from one to the next, whatever else becomes known under it on the
way.
-/

namespace DeclGraph

/-- A move of a scope to another name. Neither is the global namespace. -/
structure Move where
  source : ScopedName
  target : ScopedName
  source_named : source.segments ≠ []
  target_named : target.segments ≠ []
deriving DecidableEq

namespace EntityKey

/-- The key that a move leaves an entity. -/
def afterMove (key : EntityKey) (move : Move) : EntityKey :=
  if key.isBelow move.source then key.moved move.source move.target else key

/-- The key that moves leave an entity, one after the other. -/
def carried (key : EntityKey) (moves : List Move) : EntityKey := moves.foldl afterMove key

/-- The last move carries what the moves before it have carried. -/
theorem carried_concat (key : EntityKey) (moves : List Move) (move : Move) :
    key.carried (moves ++ [move]) = (key.carried moves).afterMove move := by
  simp [carried]

/-- Further moves carry what the first ones have carried. -/
theorem carried_append (key : EntityKey) (first second : List Move) :
    key.carried (first ++ second) = (key.carried first).carried second :=
  List.foldl_append

/-- Those of some moves, made one after the other, that take an entity along. -/
def carriers (key : EntityKey) : List Move → List Move
  | [] => []
  | move :: later =>
    if key.isBelow move.source then
      move :: (key.moved move.source move.target).carriers later
    else key.carriers later

/-- A move leaves an entity its family. -/
theorem family_afterMove (key : EntityKey) (move : Move) :
    (key.afterMove move).family = key.family := by
  unfold afterMove
  split <;> rfl

/-- Moves leave an entity its family. -/
theorem family_carried (key : EntityKey) (moves : List Move) :
    (key.carried moves).family = key.family := by
  unfold carried
  induction moves generalizing key with
  | nil => rfl
  | cons move rest further => rw [List.foldl_cons, further, family_afterMove]

/-- A move leaves a key to what it gives the key to and to what has it already and stays. -/
theorem afterMove_eq_iff {key other : EntityKey} {move : Move} :
    other.afterMove move = key ↔
      (key.isBelow move.target = true ∧ other = key.moved move.target move.source) ∨
        (key.isBelow move.source = false ∧ other = key) := by
  unfold afterMove
  constructor
  · split
    · rename_i below
      rintro rfl
      exact .inl ⟨isBelow_moved move.source_named below, (moved_moved below).symm⟩
    · rename_i apart
      rintro rfl
      exact .inr ⟨by simpa using apart, rfl⟩
  · rintro (⟨below, rfl⟩ | ⟨apart, rfl⟩)
    · rw [if_pos (isBelow_moved move.target_named below), moved_moved below]
    · rw [if_neg (by simp [apart])]

end EntityKey

namespace Catalogue

variable {start before middle after : Catalogue} {viewpoint : Viewpoint}
  {source target : ScopedName}

/-- A node below a scope contradicts a node that is known under the name that a move would give
it. -/
def Opposed (catalogue : Catalogue) (source target : ScopedName) : Prop :=
  ∃ node ∈ catalogue.graph.nodes, node.key.isBelow source ∧
    ∃ existing ∈ catalogue.graph.nodes,
      existing.key.name = (node.key.moved source target).name ∧
        compatible existing.key existing.kind (existing.attributes.isSet AttributeName.implied)
          (movedMention source target node) = false

instance (catalogue : Catalogue) (source target : ScopedName) :
    Decidable (catalogue.Opposed source target) := by
  unfold Opposed
  infer_instance

/-- Everything below a scope fits where a move would put it unless something is opposed. -/
theorem opposed_iff (sound : before.graph.Sound) :
    before.Opposed source target ↔ ¬ MoveFits before.graph.profile? source target := by
  constructor
  · rintro ⟨node, there, below, existing, existingThere, sameName, contradicts⟩ fits
    have held := fits node.key node.profile below (sound.profile?_of_mem there) existing.key
      existing.profile (sound.profile?_of_mem existingThere) sameName
    rw [← movedMention_of_node] at held
    exact Bool.false_ne_true (contradicts.symm.trans held)
  · intro notFits
    by_contra unopposed
    refine notFits fun former profile below known key existingProfile existingKnown sameName => ?_
    obtain ⟨node, there, rfl, rfl⟩ := sound.exists_node_of_profile? known
    obtain ⟨existing, existingThere, rfl, rfl⟩ := sound.exists_node_of_profile? existingKnown
    by_contra contradicts
    exact unopposed ⟨node, there, below, existing, existingThere, sameName,
      Bool.eq_false_iff.mpr contradicts⟩

/-- Neither the scope that a unit asks to be moved nor its new place is the global namespace. -/
theorem named_of_moveOf? (place : before.moveOf? viewpoint source = some target) :
    source.segments ≠ [] ∧ target.segments ≠ [] := by
  unfold moveOf? at place
  split at place
  · exact segments_of_relocationTarget? (Option.filter_eq_some_iff.mp place).1
  · cases place

/-- The move that the relocation of a scope makes: the one that the directives of the unit ask
for, unless something below the scope contradicts what is there. -/
def moveMade? (before : Catalogue) (viewpoint : Viewpoint) (source : ScopedName) : Option Move :=
  match before.moveOf? viewpoint source with
  | none => none
  | some target =>
    if named : source.segments ≠ [] ∧ target.segments ≠ [] then
      if before.Opposed source target then none else some ⟨source, target, named.1, named.2⟩
    else none

/-- The move that is made is the one that is asked for, and everything fits. -/
theorem moveMade?_eq_some (sound : before.graph.Sound) {move : Move} :
    before.moveMade? viewpoint source = some move ↔
      move.source = source ∧ before.moveOf? viewpoint source = some move.target ∧
        MoveFits before.graph.profile? source move.target := by
  unfold moveMade?
  cases place : before.moveOf? viewpoint source with
  | none => simp
  | some target =>
    have named := named_of_moveOf? place
    have unopposed : ¬ before.Opposed source target ↔
        MoveFits before.graph.profile? source target := by
      rw [opposed_iff sound, Classical.not_not]
    simp only [dif_pos named]
    constructor
    · intro made
      split at made
      · cases made
      · obtain rfl := Option.some.inj made
        exact ⟨rfl, rfl, unopposed.mp ‹_›⟩
    · cases move
      rintro ⟨rfl, same, fits⟩
      obtain rfl := Option.some.inj same
      exact if_neg (unopposed.mpr fits)

/-- What becomes of a catalogue by a move, or by none. -/
def Makes (before after : Catalogue) : Option Move → Prop
  | none => after = before
  | some move => before.Moved after move.source move.target

/-- The relocation of a scope makes the move that is to be made, or none. -/
theorem makes_of_movedTo (sound : before.graph.Sound)
    (moved : before.MovedTo after source (before.moveOf? viewpoint source)) :
    before.Makes after (before.moveMade? viewpoint source) := by
  cases made : before.moveMade? viewpoint source with
  | some move =>
    obtain ⟨rfl, place, fits⟩ := (moveMade?_eq_some sound).mp made
    rw [place] at moved
    exact moved.1 fits
  | none =>
    cases place : before.moveOf? viewpoint source with
    | none =>
      rw [place] at moved
      exact moved
    | some target =>
      rw [place] at moved
      obtain ⟨sourceNamed, targetNamed⟩ := named_of_moveOf? place
      refine moved.2 fun fits => ?_
      have would : before.moveMade? viewpoint source =
          some ⟨source, target, sourceNamed, targetNamed⟩ :=
        (moveMade?_eq_some sound).mpr ⟨rfl, place, fits⟩
      rw [made] at would
      cases would

/-- A catalogue after some moves. -/
inductive Relocated (start : Catalogue) : List Move → Catalogue → Prop where
  | refl : Relocated start [] start
  | step {moves : List Move} {middle after : Catalogue} {move : Move}
    (sofar : Relocated start moves middle) (moved : middle.Moved after move.source move.target) :
    Relocated start (moves ++ [move]) after

/-- A further move, or none, is added to those that were made. -/
theorem Relocated.makes {moves : List Move} {made : Option Move}
    (sofar : start.Relocated moves middle) (makes : middle.Makes after made) :
    start.Relocated (moves ++ made.toList) after := by
  cases made with
  | none =>
    obtain rfl : after = middle := makes
    simpa using sofar
  | some move => exact .step sofar makes

/-- Moves from one catalogue to the next, one list after the other. -/
theorem Relocated.trans {first second : List Move} (sofar : start.Relocated first middle)
    (further : middle.Relocated second after) : start.Relocated (first ++ second) after := by
  induction further with
  | refl => simpa using sofar
  | step _ moved earlier => simpa [List.append_assoc] using Relocated.step earlier moved

/-- What was known is known under its new key after a move. -/
theorem Moved.known_afterMove {move : Move} {key : EntityKey}
    (moved : before.Moved after move.source move.target)
    (known : (before.graph.profile? key).isSome) :
    (after.graph.profile? (key.afterMove move)).isSome := by
  obtain ⟨profile, held⟩ := Option.isSome_iff_exists.mp known
  rw [moved.profile]
  by_cases below : key.isBelow move.source
  · have carries : key.afterMove move = key.moved move.source move.target := if_pos below
    have inTarget : (key.moved move.source move.target).isBelow move.target :=
      EntityKey.isBelow_moved move.source_named below
    simp [profileMoved?, carries, inTarget, EntityKey.moved_moved below, held]
  · have stays : key.afterMove move = key := if_neg below
    rw [stays]
    unfold profileMoved?
    simp only [below, held]
    split <;> simp

/-- What was known is known under the key to which the moves carry it. -/
theorem Relocated.known {moves : List Move} {key : EntityKey}
    (relocated : start.Relocated moves after) (known : (start.graph.profile? key).isSome) :
    (after.graph.profile? (key.carried moves)).isSome := by
  induction relocated with
  | refl => exact known
  | step _ moved sofar =>
    rw [EntityKey.carried_concat]
    exact moved.known_afterMove sofar

end Catalogue

end DeclGraph

import DeclGraph.Proofs.Catalogue.Spelled
import Mathlib.Data.List.Basic
import Mathlib.Data.List.Find

/-!
# Catalogues that agree apart from some names

Two catalogues may know different things of the names in which certain simple
names occur, and the same of all others. A lookup that avoids those simple names
means the same in both then, and a scope whose name avoids them is moved in both
or in neither.
-/

namespace DeclGraph

/-- None of some simple names occurs in a name. -/
def ScopedName.Avoids (name : ScopedName) (shunned : List String) : Prop :=
  ∀ segment ∈ name.segments, segment ∉ shunned

instance (name : ScopedName) (shunned : List String) : Decidable (name.Avoids shunned) :=
  inferInstanceAs (Decidable (∀ segment ∈ name.segments, segment ∉ shunned))

/-- None of some simple names occurs in a directive. -/
structure Directive.Avoids (directive : Directive) (shunned : List String) : Prop where
  scope : directive.scope.Avoids shunned
  opened : ∀ component ∈ Spelling.components directive.opened, component ∉ shunned

namespace ScopedName

variable {name outer : ScopedName} {shunned : List String}

/-- The global namespace has no simple name to avoid. -/
theorem avoids_global : global.Avoids shunned := by
  simp [Avoids, global]

/-- A name avoids some simple names when the scope around it does and its own simple name is
another. -/
theorem avoids_child {segment : String} :
    (name.child segment).Avoids shunned ↔ name.Avoids shunned ∧ segment ∉ shunned := by
  simp [Avoids, or_imp, forall_and]

/-- What is around a name that avoids some simple names avoids them too. -/
theorem Avoids.around (avoids : name.Avoids shunned)
    (isPrefix : outer.segments <+: name.segments) : outer.Avoids shunned :=
  fun segment member => avoids segment (isPrefix.subset member)

/-- The scope around a name that avoids some simple names avoids them too. -/
theorem Avoids.of_parent? (avoids : name.Avoids shunned) (around : name.parent? = some outer) :
    outer.Avoids shunned := by
  rw [← child_simple_of_parent? around] at avoids
  exact (avoids_child.mp avoids).1

/-- The simple name of a name that avoids some simple names is none of them. -/
theorem Avoids.simple (avoids : name.Avoids shunned) (someSegment : name.segments ≠ []) :
    name.simple ∉ shunned := by
  have last : name.simple = name.segments.getLast someSegment := by
    simp [ScopedName.simple, List.getLastD_eq_getLast?, List.getLast?_eq_some_getLast someSegment]
  exact avoids _ (last ▸ List.getLast_mem someSegment)

end ScopedName

/-- What has been moved avoids what its place avoids, and what it avoided before. -/
theorem EntityKey.avoids_moved {source target : ScopedName} {key : EntityKey}
    {shunned : List String} (targetAvoids : target.Avoids shunned)
    (avoids : key.name.Avoids shunned) : (key.moved source target).name.Avoids shunned := by
  intro segment member
  rcases List.mem_append.mp member with inTarget | inRest
  · exact targetAvoids segment inTarget
  · exact avoids segment (List.mem_of_mem_drop inRest)

namespace Catalogue

/-- Two catalogues know the same of all names that avoid some simple names. -/
def AgreeApart (shunned : List String) (first second : EntityKey → Option Profile) : Prop :=
  ∀ key, key.name.Avoids shunned → first key = second key

namespace AgreeApart

variable {shunned : List String} {known other : EntityKey → Option Profile} {unit : FilePath}
  {accept : EntityKind → Bool} {simple : String} {scope found : ScopedName}

/-- Agreement is mutual. -/
theorem symm (agree : AgreeApart shunned known other) : AgreeApart shunned other known :=
  fun key avoids => (agree key avoids).symm

/-- Where two catalogues agree on a name, it means something acceptable in both or in neither. -/
theorem carries_iff (agree : AgreeApart shunned known other) {name : ScopedName}
    (avoids : name.Avoids shunned) : Carries known accept name ↔ Carries other accept name := by
  constructor
  · rintro ⟨key, profile, held, rfl, rest⟩
    exact ⟨key, profile, agree key avoids ▸ held, rfl, rest⟩
  · rintro ⟨key, profile, held, rfl, rest⟩
    exact ⟨key, profile, (agree key avoids).symm ▸ held, rfl, rest⟩

/-- What a scope shows avoids what the scope and the lookup avoid, and is shown in the
other catalogue too. -/
theorem shows (agree : AgreeApart shunned known other)
    (unnamed : unit.unnamedNamespace ∉ shunned) (notShunned : simple ∉ shunned)
    (shown : Shows known unit accept simple scope found) (avoids : scope.Avoids shunned) :
    Shows other unit accept simple scope found ∧ found.Avoids shunned := by
  induction shown with
  | member there =>
    have childAvoids := ScopedName.avoids_child.mpr ⟨avoids, notShunned⟩
    exact ⟨.member ((agree.carries_iff childAvoids).mp there), childAvoids⟩
  | unnamed absent _ inner =>
    have childAvoids := ScopedName.avoids_child.mpr ⟨avoids, notShunned⟩
    obtain ⟨shownToo, foundAvoids⟩ := inner (ScopedName.avoids_child.mpr ⟨avoids, unnamed⟩)
    exact ⟨.unnamed (fun there => absent ((agree.carries_iff childAvoids).mpr there)) shownToo,
      foundAvoids⟩

/-- What a lookup outward finds avoids what it started from and looked for, and is found in both. -/
theorem finds (agree : AgreeApart shunned known other)
    (unnamed : unit.unnamedNamespace ∉ shunned) (notShunned : simple ∉ shunned)
    (finds : Finds known unit accept simple scope found) (avoids : scope.Avoids shunned) :
    Finds other unit accept simple scope found ∧ found.Avoids shunned := by
  induction finds with
  | here shown =>
    obtain ⟨shownToo, foundAvoids⟩ := agree.shows unnamed notShunned shown avoids
    exact ⟨.here shownToo, foundAvoids⟩
  | outward absent around _ beyond =>
    obtain ⟨findsToo, foundAvoids⟩ := beyond (avoids.of_parent? around)
    refine ⟨.outward (fun name shown => absent name ?_) around findsToo, foundAvoids⟩
    exact (agree.symm.shows unnamed notShunned shown avoids).1

/-- What a walk along some names ends at avoids what the names do, and both catalogues show it. -/
theorem walks (agree : AgreeApart shunned known other)
    (unnamed : unit.unnamedNamespace ∉ shunned) {names : List String}
    (notShunned : ∀ name ∈ names, name ∉ shunned) (walks : Walks known unit names scope found)
    (avoids : scope.Avoids shunned) :
    Walks other unit names scope found ∧ found.Avoids shunned := by
  induction names generalizing scope with
  | nil =>
    obtain rfl : found = scope := walks
    exact ⟨rfl, avoids⟩
  | cons simple names further =>
    obtain ⟨middle, shown, rest⟩ := walks
    obtain ⟨shownToo, middleAvoids⟩ :=
      agree.shows unnamed (notShunned simple List.mem_cons_self) shown avoids
    obtain ⟨restToo, foundAvoids⟩ :=
      further (fun name member => notShunned name (List.mem_cons_of_mem _ member)) rest middleAvoids
    exact ⟨⟨middle, shownToo, restToo⟩, foundAvoids⟩

/-- What the first name of a spelling means avoids what the spelling does, in both catalogues. -/
theorem begins (agree : AgreeApart shunned known other)
    (unnamed : unit.unnamedNamespace ∉ shunned) {rooted : Bool} (notShunned : simple ∉ shunned)
    (begins : Begins known unit rooted accept simple scope found) (avoids : scope.Avoids shunned) :
    Begins other unit rooted accept simple scope found ∧ found.Avoids shunned := by
  cases rooted with
  | true => exact agree.shows unnamed notShunned begins ScopedName.avoids_global
  | false => exact agree.finds unnamed notShunned begins avoids

/-- What a spelling means avoids what the spelling does, and it means the same in both catalogues.
-/
theorem means (agree : AgreeApart shunned known other)
    (unnamed : unit.unnamedNamespace ∉ shunned) {rooted : Bool} {names : List String}
    (notShunned : ∀ name ∈ names, name ∉ shunned)
    (means : Means known unit rooted accept names scope found) (avoids : scope.Avoids shunned) :
    Means other unit rooted accept names scope found ∧ found.Avoids shunned := by
  match names with
  | [] => exact means.elim
  | [simple] => exact agree.begins unnamed (notShunned simple (by simp)) means avoids
  | first :: second :: further =>
    obtain ⟨inner, ⟨start, begins, walks⟩, shown⟩ := means
    obtain ⟨beginsToo, startAvoids⟩ :=
      agree.begins unnamed (notShunned first (by simp)) begins avoids
    obtain ⟨walksToo, innerAvoids⟩ := agree.walks unnamed
      (fun name member => notShunned name (List.mem_cons_of_mem _ (List.dropLast_subset _ member)))
      walks startAvoids
    have last : (second :: further).getLastD "" ∈ second :: further := by
      rw [List.getLastD_eq_getLast?, List.getLast?_eq_some_getLast (List.cons_ne_nil _ _)]
      exact List.getLast_mem _
    obtain ⟨shownToo, foundAvoids⟩ :=
      agree.shows unnamed (notShunned _ (List.mem_cons_of_mem _ last)) shown innerAvoids
    exact ⟨⟨inner, ⟨start, beginsToo, walksToo⟩, shownToo⟩, foundAvoids⟩

/-- What a directive opens avoids what the directive does, and both catalogues open it. -/
theorem opens (agree : AgreeApart shunned known other)
    (unnamed : unit.unnamedNamespace ∉ shunned) {directive : Directive}
    (avoids : directive.Avoids shunned) {opened : ScopedName}
    (opens : Opens known unit directive opened) :
    Opens other unit directive opened ∧ opened.Avoids shunned := by
  obtain ⟨there, means⟩ := opens
  obtain ⟨meansToo, openedAvoids⟩ := agree.means unnamed avoids.opened means avoids.scope
  have same := agree (.scope directive.scope) avoids.scope
  exact ⟨⟨same ▸ there, meansToo⟩, openedAvoids⟩

end AgreeApart

/-- A scope is declared when it is known and not implied. -/
theorem isDeclaredScope_eq (catalogue : Catalogue) (name : ScopedName) :
    catalogue.isDeclaredScope name = (catalogue.graph.profile? (.scope name)).any
      fun profile => !profile.attributes.isSet AttributeName.implied := by
  unfold isDeclaredScope Graph.profile?
  cases catalogue.graph.nodeByKey? (.scope name) with
  | none => rfl
  | some id => simp [Option.any_map, Node.profile]

section Lookups

variable {first second : Catalogue} {shunned : List String} {viewpoint : Viewpoint}

/-- A directive that avoids the simple names gives a name the same other names. -/
theorem namesThrough_eq (firstBefore : first.BeforeLinking) (secondBefore : second.BeforeLinking)
    (agree : AgreeApart shunned first.graph.profile? second.graph.profile?) {unit : FilePath}
    (unnamed : unit.unnamedNamespace ∉ shunned) (name : ScopedName) {directive : Directive}
    (avoids : directive.Avoids shunned) :
    first.namesThrough unit name directive = second.namesThrough unit name directive := by
  rcases firstBefore.namesThrough_cases unit name directive with
      ⟨nothing, none⟩ | ⟨opened, one, only⟩ <;>
    rcases secondBefore.namesThrough_cases unit name directive with
      ⟨nothingToo, noneToo⟩ | ⟨openedToo, oneToo, onlyToo⟩
  · rw [nothing, nothingToo]
  · exact absurd (agree.symm.opens unnamed avoids ((onlyToo _).mpr rfl)).1 (none _)
  · exact absurd (agree.opens unnamed avoids ((only _).mpr rfl)).1 (noneToo _)
  · have same := (onlyToo _).mp (agree.opens unnamed avoids ((only _).mpr rfl)).1
    rw [one, oneToo, same]

/-- The names that a directive gives a name avoid what the directive and the name avoid. -/
theorem avoids_of_mem_namesThrough (before : first.BeforeLinking) {unit : FilePath}
    (unnamed : unit.unnamedNamespace ∉ shunned) {name : ScopedName}
    (nameAvoids : name.simple ∉ shunned) {directive : Directive} (avoids : directive.Avoids shunned)
    {through : ScopedName} (member : through ∈ first.namesThrough unit name directive) :
    through.Avoids shunned := by
  have itself : AgreeApart shunned first.graph.profile? first.graph.profile? := fun _ _ => rfl
  rcases before.namesThrough_cases unit name directive with ⟨nothing, _⟩ | ⟨opened, one, only⟩
  · rw [nothing] at member
    cases member
  · rw [one, List.mem_singleton] at member
    subst member
    exact ScopedName.avoids_child.mpr
      ⟨(itself.opens unnamed avoids ((only _).mpr rfl)).2, nameAvoids⟩

/-- A name that avoids the simple names means the same other scope. -/
theorem relocationTarget?_eq (firstBefore : first.BeforeLinking)
    (secondBefore : second.BeforeLinking)
    (agree : AgreeApart shunned first.graph.profile? second.graph.profile?)
    (unnamed : viewpoint.unit.unnamedNamespace ∉ shunned)
    (avoids : ∀ directive ∈ viewpoint.directives, directive.Avoids shunned) {name : ScopedName}
    (nameAvoids : name.simple ∉ shunned) :
    first.relocationTarget? viewpoint name = second.relocationTarget? viewpoint name := by
  unfold relocationTarget?
  cases name.parent? with
  | none => rfl
  | some outer =>
    dsimp only
    have through : (viewpoint.directives.filter (·.appliesTo outer)).flatMap
          (first.namesThrough viewpoint.unit name) =
        (viewpoint.directives.filter (·.appliesTo outer)).flatMap
          (second.namesThrough viewpoint.unit name) := by
      refine List.flatMap_congr fun directive member => ?_
      exact namesThrough_eq firstBefore secondBefore agree unnamed name
        (avoids directive (List.mem_filter.mp member).1)
    rw [← through]
    refine List.find?_congr fun candidate member => ?_
    obtain ⟨directive, listed, named⟩ := List.mem_flatMap.mp member
    have candidateAvoids := avoids_of_mem_namesThrough firstBefore unnamed nameAvoids
      (avoids directive (List.mem_filter.mp listed).1) named
    rw [isDeclaredScope_eq, isDeclaredScope_eq, agree (.scope candidate) candidateAvoids]

/-- The scope to which an implied scope is to be moved avoids what the directives and the scope
avoid. -/
theorem avoids_of_relocationTarget? (before : first.BeforeLinking)
    (unnamed : viewpoint.unit.unnamedNamespace ∉ shunned)
    (avoids : ∀ directive ∈ viewpoint.directives, directive.Avoids shunned)
    {name target : ScopedName} (nameAvoids : name.simple ∉ shunned)
    (found : first.relocationTarget? viewpoint name = some target) : target.Avoids shunned := by
  unfold relocationTarget? at found
  cases outer : name.parent? with
  | none => simp [outer] at found
  | some scope =>
    simp only [outer] at found
    obtain ⟨directive, listed, named⟩ := List.mem_flatMap.mp (List.mem_of_find?_eq_some found)
    exact avoids_of_mem_namesThrough before unnamed nameAvoids
      (avoids directive (List.mem_filter.mp listed).1) named

/-- The simple name of a scope stays when the scope is moved. -/
theorem simple_of_relocationTarget? {name target : ScopedName}
    (found : first.relocationTarget? viewpoint name = some target) :
    target.simple = name.simple := by
  unfold relocationTarget? at found
  cases outer : name.parent? with
  | none => simp [outer] at found
  | some scope =>
    simp only [outer] at found
    obtain ⟨directive, _, named⟩ := List.mem_flatMap.mp (List.mem_of_find?_eq_some found)
    unfold namesThrough at named
    split at named
    · cases named
    · obtain ⟨node, _, rfl⟩ := List.mem_map.mp named
      exact ScopedName.simple_child _ _

end Lookups

section Moves

variable {shunned : List String} {known other : EntityKey → Option Profile}
  {source target : ScopedName}

/-- A mention whose name avoids some simple names fits into both catalogues or into neither. -/
theorem AgreeApart.fitsIn_iff (agree : AgreeApart shunned known other) {mention : Mention}
    (avoids : mention.key.name.Avoids shunned) : FitsIn known mention ↔ FitsIn other mention := by
  constructor
  · intro fits key profile held named
    exact fits key profile ((agree key (named ▸ avoids)).trans held) named
  · intro fits key profile held named
    exact fits key profile ((agree key (named ▸ avoids)).symm.trans held) named

/-- A scope below which all names avoid the simple names can be moved in both catalogues or
in neither. -/
theorem AgreeApart.moveFits (agree : AgreeApart shunned known other)
    (targetAvoids : target.Avoids shunned)
    (belowAvoids : ∀ {key : EntityKey}, key.isBelow source → (other key).isSome →
      key.name.Avoids shunned)
    (fits : MoveFits known source target) : MoveFits other source target := by
  intro former profile below held
  have formerAvoids : former.name.Avoids shunned := belowAvoids below (by rw [held]; rfl)
  refine (agree.fitsIn_iff ?_).mp (fits former profile below
    ((agree former formerAvoids).trans held))
  exact EntityKey.avoids_moved targetAvoids formerAvoids

/-- The catalogues still agree when the same scope was moved to the same place. -/
theorem AgreeApart.moved (agree : AgreeApart shunned known other)
    (sourceAvoids : source.Avoids shunned) :
    AgreeApart shunned (profileMoved? known source target) (profileMoved? other source target) := by
  intro key avoids
  unfold profileMoved?
  dsimp only
  rw [agree key avoids,
    agree (key.moved target source) (EntityKey.avoids_moved sourceAvoids avoids)]

end Moves

end Catalogue

end DeclGraph

import DeclGraph.Proofs.Assembly.History
import DeclGraph.Proofs.Catalogue.Landing

/-!
# The relocation of implied scopes

Before kinds are settled, every unit that has directives asks for the implied scopes that it
knows to be moved, outer scopes first. Each of these relocations does nothing, or moves the scope
to another one that is declared and keeps its node, as long as it does not lie in the scope that
is moved.
-/

namespace DeclGraph

namespace Assembly

/-- The scopes that a unit asks to be moved, in the order in which it does. -/
def relocationsOf (unit : Pending) : List (Viewpoint × ScopedName) :=
  if unit.directives.isEmpty then []
  else
    (unit.implied.mergeSort fun first second => first.length ≤ second.length).map
      fun name => (⟨unit.path, unit.directives⟩, name)

/-- The scopes that all units ask to be moved. -/
def relocations (units : List Pending) : List (Viewpoint × ScopedName) :=
  units.flatMap relocationsOf

/-- Relocates scopes one after the other, each as its unit asks. -/
def relocateAll (asked : List (Viewpoint × ScopedName)) : Catalogue.Action Unit :=
  asked.forM fun item => Catalogue.relocateScope item.1 item.2

/-- The catalogue after relocations. -/
def relocated (start : Catalogue) (asked : List (Viewpoint × ScopedName)) : Catalogue :=
  ((relocateAll asked).run.run start).2

/-- Further scopes are relocated after the first ones. -/
theorem relocateAll_append (first second : List (Viewpoint × ScopedName)) :
    relocateAll (first ++ second) = (relocateAll first >>= fun _ => relocateAll second) := by
  unfold relocateAll
  rw [List.forM_eq_forM, List.forM_append]

/-- A unit has the scopes relocated that it asks for. -/
theorem relocateUnit_eq (unit : Pending) : relocateUnit unit = relocateAll (relocationsOf unit) := by
  unfold relocateUnit relocationsOf
  split
  · rfl
  · unfold Catalogue.relocate relocateAll
    rw [List.forM_eq_forM, List.forM_eq_forM, List.forM_map]

/-- The relocations of all units, one after the other. -/
theorem forM_relocateUnit (units : List Pending) :
    units.forM relocateUnit = relocateAll (relocations units) := by
  induction units with
  | nil => rfl
  | cons unit rest further =>
    rw [relocations, List.flatMap_cons, relocateAll_append, ← relocateUnit_eq]
    exact congrArg (fun action => relocateUnit unit >>= fun _ => action) further

/-- Relocations never fail and leave a housed catalogue. -/
theorem succeeds_relocateAll {start : Catalogue} (housed : start.Housed [])
    (asked : List (Viewpoint × ScopedName)) :
    Catalogue.Action.Succeeds (relocateAll asked) start fun _ after =>
      after.Housed [] ∧ after = relocated start asked := by
  have keeps : Catalogue.Action.Succeeds (relocateAll asked) start fun _ after => after.Housed [] :=
    Catalogue.Action.ensures_forM_invariant (fun middle => middle.Housed [])
      (fun item _ middle still => (Catalogue.succeeds_relocateScope still item.1 item.2).weaken
        fun _ _ moved => moved.housed still) housed
  obtain ⟨result, after, ran, still⟩ := keeps.run
  unfold Catalogue.Action.Succeeds Catalogue.Action.Ensures
  rw [relocated, ran]
  exact ⟨still, rfl⟩

/-- Preparing settles the kinds of what the relocations leave. -/
theorem prepare_run_eq {start : Catalogue} (housed : start.Housed []) (units : List Pending) :
    (prepare units).run.run start =
      Catalogue.settleKinds.run.run (relocated start (relocations units)) := by
  obtain ⟨_, after, ran, _, same⟩ := (succeeds_relocateAll housed (relocations units)).run
  unfold prepare
  rw [forM_relocateUnit, Catalogue.Action.run_bind, ran, same]

/-- The next relocation does nothing, or its scope lands where its name means it to be. -/
theorem relocated_concat {start : Catalogue} (housed : start.Housed [])
    (earlier : List (Viewpoint × ScopedName)) (viewpoint : Viewpoint) (source : ScopedName) :
    relocated start (earlier ++ [(viewpoint, source)]) = relocated start earlier ∨
      ∃ target, (relocated start earlier).LandsAt
        (relocated start (earlier ++ [(viewpoint, source)])) viewpoint source target := by
  have lands : Catalogue.Action.Succeeds (relocateAll (earlier ++ [(viewpoint, source)])) start
      fun _ after => after = relocated start earlier ∨
        ∃ target, (relocated start earlier).LandsAt after viewpoint source target := by
    rw [relocateAll_append]
    refine Catalogue.Action.ensures_bind ((succeeds_relocateAll housed earlier).weaken ?_)
    rintro _ middle ⟨still, rfl⟩
    refine Catalogue.Action.ensures_bind
      ((Catalogue.succeeds_relocateScope_landing still viewpoint source).weaken ?_)
    exact fun _ after held => Catalogue.Action.ensures_pure held
  obtain ⟨_, after, ran, held⟩ := lands.run
  rw [relocated, ran]
  exact held

/-- Whatever units were offered, finishing relocates the implied scopes that the units ask for
before it settles kinds, and each relocation does nothing or moves a scope to another one that is
declared. That one keeps its node and stays declared exactly as long as it does not lie in the
scope that is moved, which is to say that the directive opens no namespace in that scope. -/
theorem offered_relocations (settings : Settings) (units : List SourceUnit) :
    let start := (empty settings).offered units
    (prepare start.units.values).run.run start.catalogue =
        Catalogue.settleKinds.run.run
          (relocated start.catalogue (relocations start.units.values)) ∧
      ∀ earlier viewpoint source later,
        relocations start.units.values = earlier ++ (viewpoint, source) :: later →
          relocated start.catalogue (earlier ++ [(viewpoint, source)]) =
              relocated start.catalogue earlier ∨
            ∃ target, (relocated start.catalogue earlier).LandsAt
              (relocated start.catalogue (earlier ++ [(viewpoint, source)])) viewpoint source
                target := by
  have housed := (takenUp_accepted settings units).history.holds.housed
  exact ⟨prepare_run_eq housed _, fun earlier viewpoint source _ _ =>
    relocated_concat housed earlier viewpoint source⟩

section Landings

/-- A header that declares a class in a namespace. -/
def personHeader : SourceUnit where
  path := .ofText "person.h"
  declarations :=
    [{ kind := .namespaceScope, name := "E", line := 1, isDefinition := true },
      { kind := .classRecord, name := "Person", scope := [⟨"E", .namespaceScope⟩], line := 2
        isDefinition := true }]
  directives := []
  parseTime := .zero
  lineCount := 4
  byteCount := 60

/-- A source file that opens the namespace and defines a member of the class. -/
def personSource : SourceUnit where
  path := .ofText "person.cpp"
  declarations :=
    [{ kind := .method, name := "getAge", scope := [⟨"Person", .unknown⟩]
       signature := some ⟨[], some "int", true, false⟩, line := 3, isDefinition := true }]
  directives := [⟨.global, "E", 1⟩]
  parseTime := .zero
  lineCount := 5
  byteCount := 60

/-- From where the source file looks names up. -/
def personViewpoint : Viewpoint := ⟨.ofText "person.cpp", [⟨.global, "E", 1⟩]⟩

/-- The scope in front of the member lands at the class, which keeps its node. -/
theorem offered_relocations_person :
    let start := (empty {}).offered [personHeader, personSource]
    relocations start.units.values = [] ++ (personViewpoint, ⟨["Person"]⟩) :: [] ∧
      start.catalogue.graph.nodeByKey? (.scope ⟨["E", "Person"]⟩) = some 2 ∧
      ∃ target, (relocated start.catalogue []).LandsAt
        (relocated start.catalogue ([] ++ [(personViewpoint, ⟨["Person"]⟩)])) personViewpoint
          ⟨["Person"]⟩ target := by
  have asked : relocations ((empty {}).offered [personHeader, personSource]).units.values =
      [] ++ (personViewpoint, ⟨["Person"]⟩) :: [] := by decide +kernel
  have changes : relocated ((empty {}).offered [personHeader, personSource]).catalogue
      ([] ++ [(personViewpoint, ⟨["Person"]⟩)]) ≠
        relocated ((empty {}).offered [personHeader, personSource]).catalogue [] := by
    decide +kernel
  exact ⟨asked, by decide +kernel,
    ((offered_relocations {} [personHeader, personSource]).2 [] personViewpoint ⟨["Person"]⟩ []
      asked).resolve_left changes⟩

/-- A source file that opens a namespace and defines a class in it, whose name is that of the
scope around the namespace. -/
def nestedSource : SourceUnit where
  path := .ofText "x.cpp"
  declarations :=
    [{ kind := .classRecord, name := "x", scope := [⟨"x", .unknown⟩, ⟨"n", .unknown⟩], line := 3
       isDefinition := true }]
  directives := [⟨.global, "x::n", 1⟩]
  parseTime := .zero
  lineCount := 5
  byteCount := 60

/-- From where the source file looks names up. -/
def nestedViewpoint : Viewpoint := ⟨.ofText "x.cpp", [⟨.global, "x::n", 1⟩]⟩

/-- The source file knows two scopes from qualifiers only, and asks for the outer one first. -/
theorem relocations_nestedSource :
    relocations ((empty {}).offered [nestedSource]).units.values =
      [(nestedViewpoint, ⟨["x"]⟩), (nestedViewpoint, ⟨["x", "n"]⟩)] := by
  have waiting : ((empty {}).offered [nestedSource]).units.values =
      [(nestedSource.contribution {}).pending] := by decide +kernel
  have implied : (nestedSource.contribution {}).pending.implied = [⟨["x"]⟩, ⟨["x", "n"]⟩] := by
    decide +kernel
  rw [waiting, relocations, List.flatMap_singleton, relocationsOf, implied,
    List.mergeSort_of_pairwise (by decide)]
  rfl

/-- The scope around the namespace is moved into itself, to the class, which loses its node. -/
theorem relocated_into_itself :
    let start := (empty {}).offered [nestedSource]
    let target : ScopedName := ⟨["x", "n", "x"]⟩
    let after := relocated start.catalogue [(nestedViewpoint, ⟨["x"]⟩)]
    (empty {}).accepted [nestedSource] = [nestedSource] ∧
      (relocations start.units.values).head? = some (nestedViewpoint, ⟨["x"]⟩) ∧
      after.moved[EntityKey.scope ⟨["x"]⟩]? = some (.scope target) ∧
      target.isWithin ⟨["x"]⟩ = true ∧
      start.catalogue.graph.nodeByKey? (.scope target) = some 3 ∧
      start.catalogue.isDeclaredScope target = true ∧
      after.graph.nodeByKey? (.scope target) = some 4 ∧
      after.isDeclaredScope target = false := by
  refine ⟨?_, congrArg List.head? relocations_nestedSource, ?_, ?_, ?_, ?_, ?_, ?_⟩ <;>
    decide +kernel

end Landings

end Assembly

end DeclGraph

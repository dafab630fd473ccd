import DeclGraph.Proofs.Assembly.Order
import DeclGraph.Proofs.Assembly.Preparing
import DeclGraph.Proofs.Assembly.Strays
import DeclGraph.Proofs.Assembly.OverrideOrder
import DeclGraph.Proofs.Linking.OverrideFrame
import DeclGraph.Proofs.Linking.OverridesTogether
import DeclGraph.Proofs.Linking.RunsTogether

/-!
# The order of units in the finished graph

Where no mentions dispute anything and no two units are shown alike, the order in which units are
taken up does not show in the finished graph. The same entities are known and related, and the graphs say the same of them; of
overrides this holds for methods that ask in no circle. Where a gap is filled differently, the
unit that was taken up first decides, and the order shows.
-/

namespace DeclGraph

namespace Catalogue

/-- Two catalogues know the same entities, say the same of them and relate the same entities, but
for overrides by methods that ask in circles. -/
structure FinishedAlike (first second : Catalogue) : Prop where
  profile : ∀ key, first.graph.profile? key = second.graph.profile? key
  relates : ∀ {relation : Relation}, relation ≠ .overrides → ∀ source target,
    first.graph.Relates source relation target ↔ second.graph.Relates source relation target
  overrides : ∀ {method : Nat} {key : EntityKey}, first.graph.key? method = some key →
    first.AsksInNoCircle method → ∀ base,
      first.graph.Relates key .overrides base ↔ second.graph.Relates key .overrides base

/-- Entities are related by their keys when counterparts are. -/
theorem Corresponds.relates_iff {first second : Catalogue} (corresponds : first.Corresponds second)
    {source target : EntityKey} {relation : Relation}
    (alike : ∀ {one other another anotherToo : Nat}, first.graph.key? one = some source →
      first.graph.Counterparts second.graph one other →
      first.graph.Counterparts second.graph another anotherToo →
        (first.graph.Related one relation another ↔
          second.graph.Related other relation anotherToo)) :
    first.graph.Relates source relation target ↔ second.graph.Relates source relation target := by
  constructor
  · rintro ⟨one, another, carries, carriesToo, related⟩
    obtain ⟨other, carried⟩ := corresponds.exists_key carries
    obtain ⟨anotherToo, carriedToo⟩ := corresponds.exists_key carriesToo
    exact ⟨other, anotherToo, carried, carriedToo, (alike carries ⟨source, carries, carried⟩
      ⟨target, carriesToo, carriedToo⟩).mp related⟩
  · rintro ⟨other, anotherToo, carried, carriedToo, related⟩
    obtain ⟨one, carries⟩ := corresponds.symm.exists_key carried
    obtain ⟨another, carriesToo⟩ := corresponds.symm.exists_key carriedToo
    exact ⟨one, another, carries, carriesToo, (alike carries ⟨source, carries, carried⟩
      ⟨target, carriesToo, carriedToo⟩).mpr related⟩

end Catalogue

namespace Linking.Stages

variable {references : List SeenReference} {start startToo last lastToo : Linking}

/-- In the end those are related as overriding that the table lists then. -/
theorem overrides_iff_last (stages : Stages references start last)
    (housed : start.catalogue.Housed []) (unlinked : start.catalogue.Unlinked) {method base : Nat} :
    last.catalogue.graph.Related method .overrides base ↔
      ∃ found, (method, found) ∈ last.catalogue.overrideTable ∧ base ∈ found := by
  rw [stages.overrides_iff housed unlinked, (stages.overloadedToLast housed).overrideTable_eq
    (stages.housed_overloaded housed) (by decide)]

/-- Linked with the same references, catalogues that correspond are finished alike. -/
theorem finishedAlike (stages : Stages references start last)
    (stagesToo : Stages references startToo lastToo)
    (corresponds : start.catalogue.Corresponds startToo.catalogue)
    (unlinked : start.catalogue.Unlinked) (unlinkedToo : startToo.catalogue.Unlinked) :
    last.catalogue.FinishedAlike lastToo.catalogue := by
  have linked := (stages.proceeds stagesToo corresponds).2.corresponds
  refine ⟨linked.profile, fun apart source target => linked.relates_iff fun _ same sameToo =>
    linked.related apart same sameToo, fun {method key} carried noCircle base => ?_⟩
  refine linked.relates_iff fun {one other another anotherToo} carries same sameToo => ?_
  obtain rfl := linked.housed.sound.id_eq_of_key? carried carries
  rw [stages.overrides_iff_last corresponds.housed unlinked,
    stagesToo.overrides_iff_last corresponds.housedToo unlinkedToo]
  exact linked.mem_overrideTable_iff same sameToo noCircle

end Linking.Stages

section Disputes

variable {mentions : List Mention}

/-- No two mentions of an entity fill a gap differently that the best one leaves. -/
def NothingDisputed (mentions : List Mention) : Prop :=
  ∀ key : EntityKey, Undisputed key.family (mentionsUnder key mentions)

instance {α : Type} [DecidableEq α] (said : Mention → Option α) (mentions : List Mention) :
    Decidable (Settled said mentions) :=
  inferInstanceAs (Decidable ((∃ best ∈ mentions, best.rank.file.isSome ∧ (said best).isSome ∧
    ∀ mention ∈ mentions, ¬ Rank.order mention.rank best.rank = .lt) ∨
      ∀ first ∈ mentions, ∀ second ∈ mentions, (said first).isSome → (said second).isSome →
        said first = said second))

instance (key : String) : Decidable (AttributeName.IsPlain key) :=
  inferInstanceAs (Decidable (key ∉ AttributeName.shared ∧ key ≠ AttributeName.implied))

/-- It is enough to look at the attributes that mentions carry. -/
theorem undisputed_iff {family : Family} : Undisputed family mentions ↔
    (∀ name ∈ mentions.flatMap (·.attributes.keys), AttributeName.IsPlain name →
      Settled (fun mention => mention.attributes[name]?) mentions) ∧
      Settled (fun mention => Aspect.kindOf family mention.implied mention.kind) mentions := by
  constructor
  · exact fun undisputed => ⟨fun _ _ => undisputed.attributes, undisputed.kind⟩
  · rintro ⟨attributes, kind⟩
    refine ⟨fun {name} plain => ?_, kind⟩
    by_cases carried : name ∈ mentions.flatMap (·.attributes.keys)
    · exact attributes name carried plain
    · refine .inr fun first among second _ speaks => absurd ?_ carried
      refine List.mem_flatMap.mpr ⟨first, among, Std.ExtTreeMap.mem_keys.mpr ?_⟩
      exact Std.ExtTreeMap.mem_iff_isSome_getElem?.mpr speaks

/-- It is enough to look at the entities that are mentioned. -/
theorem nothingDisputed_iff : NothingDisputed mentions ↔
    ∀ mention ∈ mentions, Undisputed mention.key.family (mentionsUnder mention.key mentions) := by
  constructor
  · exact fun undisputed mention _ => undisputed mention.key
  · intro mentioned key
    by_cases known : ∃ mention ∈ mentions, mention.key = key
    · obtain ⟨mention, among, rfl⟩ := known
      exact mentioned mention among
    · have nothing : mentionsUnder key mentions = [] :=
        List.eq_nil_iff_forall_not_mem.mpr fun mention listed =>
          known ⟨mention, mem_mentionsUnder.mp listed⟩
      rw [nothing]
      exact ⟨fun _ => .inr nofun, .inr nofun⟩

instance (family : Family) (mentions : List Mention) : Decidable (Undisputed family mentions) :=
  decidable_of_iff' _ undisputed_iff

instance (mentions : List Mention) : Decidable (NothingDisputed mentions) :=
  decidable_of_iff' _ nothingDisputed_iff

end Disputes

namespace Assembly

variable {settings : Settings} {units others : List SourceUnit} {assembly other : Assembly}

/-- The same waits of units that were taken up in two orders. -/
theorem TakenUp.units_eq_of_perm (taken : TakenUp settings units assembly)
    (takenToo : TakenUp settings others other) (distinct : (units.map (·.path.components)).Nodup)
    (perm : units.Perm others) : assembly.units = other.units := by
  obtain ⟨waiting, known⟩ := taken.waiting distinct
  obtain ⟨waitingToo, knownToo⟩ := takenToo.waiting ((perm.map _).nodup_iff.mp distinct)
  have both : ∀ unit ∈ units,
      assembly.units[unit.path.components]? = other.units[unit.path.components]? :=
    fun unit member =>
      (waiting unit member).trans (waitingToo unit (perm.mem_iff.mp member)).symm
  refine Std.ExtTreeMap.ext_getElem? fun path => ?_
  by_cases waits : path ∈ assembly.units
  · obtain ⟨unit, member, rfl⟩ := known path waits
    exact both unit member
  · by_cases waitsToo : path ∈ other.units
    · obtain ⟨unit, member, rfl⟩ := knownToo path waitsToo
      exact both unit (perm.mem_iff.mpr member)
    · rw [Std.ExtTreeMap.getElem?_eq_none waits, Std.ExtTreeMap.getElem?_eq_none waitsToo]

/-- Whatever units were taken up, the assembly can be finished. -/
theorem TakenUp.exists_finishing (taken : TakenUp settings units assembly) :
    ∃ prepared linking, assembly.Finishing prepared linking := by
  have finishing := Assembly.exists_finishing settings units
  rwa [taken.offered_eq] at finishing

/-- Before anything is moved, assemblies that say the same are relocated side by side. -/
theorem TakenUp.sameSoFar (taken : TakenUp settings units assembly)
    (takenToo : TakenUp settings others other) (same : ∀ key,
      assembly.catalogue.graph.profile? key = other.catalogue.graph.profile? key) :
    Catalogue.SameSoFar assembly.catalogue assembly.catalogue other.catalogue := by
  have everything : ∀ name : ScopedName, name.Avoids [] := fun _ _ _ => List.not_mem_nil
  have steady : Catalogue.Steady assembly.catalogue [] (fun _ => True) assembly.catalogue :=
    taken.history.steady fun _ _ _ => everything _
  have unmoved : other.catalogue.moved = assembly.catalogue.moved :=
    takenToo.history.holds.moved.trans taken.history.holds.moved.symm
  refine ⟨⟨steady, ⟨takenToo.history.beforeLinking, fun {name} someSegment anchored => ?_,
    fun _ _ _ => everything _⟩, fun key _ => same key⟩, unmoved.symm⟩
  have declared := steady.anchored someSegment anchored
  rw [Catalogue.isDeclaredScope_eq] at declared ⊢
  rwa [← same]

/-- Units that were taken up in one order are taken up in every order, and the entities are the
same then and lie in the same scopes. Where no two units are shown alike and mentions leave no
choice of what they say, the finished graphs are the same in all orders, but for overrides by
methods that ask in circles. -/
theorem TakenUp.finish_of_perm (taken : TakenUp settings units assembly)
    (distinct : (units.map (·.path.components)).Nodup) (perm : units.Perm others) :
    ∃ other, TakenUp settings others other ∧ Alike units assembly other ∧
      ((units.map (·.path.display)).Nodup → NothingDisputed (allMentions units) →
        ∃ prepared linking preparedToo linkingToo, assembly.Finishes prepared linking ∧
          other.Finishes preparedToo linkingToo ∧
            linking.catalogue.FinishedAlike linkingToo.catalogue) := by
  obtain ⟨other, takenToo, alike⟩ := taken.of_perm perm
  refine ⟨other, takenToo, alike, fun shown undisputed => ?_⟩
  have same : ∀ key, assembly.catalogue.graph.profile? key = other.catalogue.graph.profile? key :=
    fun key => alike.undisputed key (toldApart_of_nodup shown key) (undisputed key)
  obtain ⟨prepared, linking, finishing⟩ := taken.exists_finishing
  obtain ⟨preparedToo, linkingToo, finishingToo⟩ := takenToo.exists_finishing
  refine ⟨prepared, linking, preparedToo, linkingToo, finishing.finishes, finishingToo.finishes, ?_⟩
  obtain ⟨stages⟩ := finishing.stages
  obtain ⟨stagesToo⟩ := finishingToo.stages
  have prepares := finishingToo.finishes.prepares
  rw [← taken.units_eq_of_perm takenToo distinct perm] at stagesToo prepares
  have corresponds : prepared.Corresponds preparedToo :=
    (together_prepare (taken.sameSoFar takenToo same) assembly.units.values).of_run
      finishing.finishes.prepares prepares
  exact stages.finishedAlike stagesToo corresponds finishing.unlinked finishingToo.unlinked

/-- A header with a virtual method. -/
def virtualUnit : SourceUnit :=
  { hierarchyUnit virtualBase with path := .ofText "virtual.h" }

/-- A header with a record that derives from that of the other header. -/
def derivingUnit : SourceUnit :=
  { hierarchyUnit [recordWith "D" ["V"] 1, methodIn "D" 2] with path := .ofText "deriving.h" }

/-- A base and a record that derives from it are finished alike in both orders. -/
theorem TakenUp.finish_of_perm_hierarchy :
    ∃ other prepared linking preparedToo linkingToo,
      TakenUp {} [derivingUnit, virtualUnit] other ∧
      ((empty {}).offered [virtualUnit, derivingUnit]).Finishes prepared linking ∧
      other.Finishes preparedToo linkingToo ∧
      linking.catalogue.FinishedAlike linkingToo.catalogue := by
  have first : TakenUp {} ([] ++ [virtualUnit]) ((empty {}).offered [virtualUnit]) :=
    .next .start rfl
  have taken : TakenUp {} ([virtualUnit] ++ [derivingUnit])
      ((empty {}).offered [virtualUnit, derivingUnit]) := first.next rfl
  obtain ⟨other, takenToo, _, finishes⟩ :=
    taken.finish_of_perm (by decide) (.swap derivingUnit virtualUnit [])
  obtain ⟨prepared, linking, preparedToo, linkingToo, finished⟩ := finishes (by decide) (by decide +kernel)
  exact ⟨other, prepared, linking, preparedToo, linkingToo, takenToo, finished⟩

/-- A unit with one declaration of a data member of a class. -/
def memberUnit (path : String) (line : Nat) (access : Option Access) (isDefinition : Bool) :
    SourceUnit where
  path := .ofText path
  declarations :=
    [{ kind := .field, name := "n", scope := [⟨"A", .classRecord⟩], line, access, isDefinition }]
  directives := []
  parseTime := .zero
  lineCount := 5
  byteCount := 30

/-- A header in which everyone may use the member. -/
def publicUnit : SourceUnit := memberUnit "a.h" 2 (some .everyone) false

/-- A header in which only the class may use the member. -/
def privateUnit : SourceUnit := memberUnit "b.h" 2 (some .ownRecord) false

/-- A source file that defines the member and leaves open who may use it. -/
def definingUnit : SourceUnit := memberUnit "z.cpp" 5 none true

/-- Who may use the member, in the graph finished from units in their order. -/
def finishedAccess? (units : List SourceUnit) : Option Value := do
  let finished ← ((empty {}).offered units).finish.toOption
  let profile ← finished.graph.profile? (.field ⟨["A", "n"]⟩)
  profile.attributes[AttributeName.access]?

/-- Two headers disagree on what a definition leaves open. All three units are taken up in
both orders, and the finished graphs say what the header in front of the other, or in
front of the definition, says. -/
theorem finishedAccess?_depends_on_order :
    let first := [publicUnit, privateUnit, definingUnit]
    let second := [privateUnit, definingUnit, publicUnit]
    first.Perm second ∧ (first.map (·.path.components)).Nodup ∧
      TakenUp {} first ((empty {}).offered first) ∧
      TakenUp {} second ((empty {}).offered second) ∧
      finishedAccess? first = some (.text "public") ∧
      finishedAccess? second = some (.text "private") := by
  refine ⟨?_, by decide, ?_, ?_, rfl, rfl⟩
  · exact (List.perm_append_comm : ([publicUnit] ++ [privateUnit, definingUnit]).Perm _)
  · have one : TakenUp {} [publicUnit] ((empty {}).offered [publicUnit]) := .next .start rfl
    have two : TakenUp {} [publicUnit, privateUnit]
        ((empty {}).offered [publicUnit, privateUnit]) := one.next rfl
    exact two.next rfl
  · have one : TakenUp {} [privateUnit] ((empty {}).offered [privateUnit]) := .next .start rfl
    have two : TakenUp {} [privateUnit, definingUnit]
        ((empty {}).offered [privateUnit, definingUnit]) := one.next rfl
    exact two.next rfl

end Assembly

end DeclGraph

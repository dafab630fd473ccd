import DeclGraph.Proofs.Assembly.Finishing
import DeclGraph.Proofs.Assembly.Relocations
import DeclGraph.Proofs.Catalogue.Ending

/-!
# The catalogues of a build

A build changes its catalogue by single steps: it registers mentions, moves implied scopes,
settles kinds, and relates nodes and adds stand-ins while it links. What holds after every
history of such steps therefore holds whenever a build looks something up; so every lookup of a
build comes to an end.
-/

namespace DeclGraph

namespace Catalogue

/-- Single steps lead from the global namespace alone to the catalogue. -/
def Arises (catalogue : Catalogue) : Prop := ∃ steps, afterLinkedSteps steps = catalogue

/-- The catalogue without requests arises. -/
theorem arises_empty : empty.Arises := ⟨[], rfl⟩

/-- In a catalogue that arises every lookup ends. -/
theorem Arises.lookupsEnd {catalogue : Catalogue} (arises : catalogue.Arises) :
    catalogue.LookupsEnd := by
  obtain ⟨steps, rfl⟩ := arises
  exact (housed_afterLinkedSteps steps).lookupsEnd

/-- A step leads on, be it that it fails. -/
theorem LinkedStep.keeps_arises (step : LinkedStep) : Action.Keeps Arises step.perform := by
  rintro before ⟨steps, rfl⟩
  have next : (step.perform.run.run (afterLinkedSteps steps)).2.Arises :=
    ⟨steps ++ [step], by rw [afterLinkedSteps, List.foldl_append]; rfl⟩
  unfold Action.Ensures
  split <;> simp_all

/-- What a step that succeeds makes of a catalogue arises too. -/
theorem Action.Succeeds.arises {step : LinkedStep} {before after : Catalogue}
    (performed : Action.Succeeds step.perform before fun _ last => last = after)
    (arises : before.Arises) : after.Arises := by
  obtain ⟨_, _, ran, rfl⟩ := performed.run
  have next := step.keeps_arises.after arises
  rwa [ran] at next

/-- What is registered is asked for, so that the catalogue still arises. -/
theorem keeps_arises_registerAll (mentions : List Mention) :
    Action.Keeps Arises (registerAll mentions) :=
  Action.keeps_forM fun mention => (LinkedStep.request (.register mention)).keeps_arises

/-- What is relocated is asked for, so that the catalogue still arises. -/
theorem keeps_arises_relocateScope (viewpoint : Viewpoint) (name : ScopedName) :
    Action.Keeps Arises (relocateScope viewpoint name) := by
  have alone : (Request.relocate viewpoint [name]).perform = relocateScope viewpoint name := by
    simp [Request.perform, relocate]
  exact alone ▸ (LinkedStep.request (.relocate viewpoint [name])).keeps_arises

end Catalogue

open Catalogue (LinkedStep Action) in
/-- Everything that a linking adds is added by single steps. -/
theorem Linking.Grows.arises {bonds : List Bond} {before after : Linking}
    (grows : before.Grows bonds after) (start : before.catalogue.Arises) :
    after.catalogue.Arises := by
  induction grows with
  | refl => exact start
  | @edge middle bond key attributes _ _ joins further =>
    obtain ⟨id, joined⟩ := Graph.connect_of_nodes key.relation attributes joins.source_there
      joins.target_there
    have beside : key.relation ≠ .contains := joins.relation_eq ▸ bond.relation_ne_contains
    let step : LinkedStep := .relate key.source key.target key.relation attributes beside
    have performed : Action.Succeeds step.perform middle.catalogue fun _ after =>
        after = middle.catalogue.withEdge key attributes :=
      Action.ensures_bind (Action.ensures_changing joined (Action.ensures_pure rfl))
    exact performed.arises further
  | @standIn middle spelling _ fresh further =>
    let step : LinkedStep := .request (.placeholder spelling)
    have performed : Action.Succeeds step.perform middle.catalogue fun _ after =>
        after = middle.catalogue.withPlaceholder spelling := by
      refine Action.ensures_bind (Action.ensures_bind (Action.ensures_get ?_))
      rw [fresh]
      exact Action.ensures_changing (Graph.insert_of_fresh ∅ fresh rfl) (Action.ensures_pure rfl)
    exact performed.arises further
  | note _ _ further => exact further

namespace Assembly

/-- The catalogue of an assembly arises, whatever was refused or failed. -/
theorem Reached.arises {settings : Settings} {assembly : Assembly}
    (reached : Reached settings assembly) : assembly.catalogue.Arises := by
  have merged : ∀ {before : Assembly} (contribution : Contribution), before.catalogue.Arises →
      (before.merge contribution).1.catalogue.Arises := by
    intro before contribution arises
    have after := (Catalogue.keeps_arises_registerAll contribution.mentions).after arises
    unfold Assembly.merge
    split
    · exact arises
    · split <;> simp_all
  induction reached with
  | start => exact Catalogue.arises_empty
  | merge _ contribution arises => exact merged contribution arises
  | mergeUnit _ unit arises => exact merged _ arises

/-- Relocating all that units ask for leaves a catalogue that arises. -/
theorem keeps_arises_relocateAll (asked : List (Viewpoint × ScopedName)) :
    Catalogue.Action.Keeps Catalogue.Arises (relocateAll asked) :=
  Catalogue.Action.keeps_forM fun item => Catalogue.keeps_arises_relocateScope item.1 item.2

/-- Preparing leaves a catalogue that arises. -/
theorem keeps_arises_prepare (units : List Pending) :
    Catalogue.Action.Keeps Catalogue.Arises (prepare units) := by
  refine Catalogue.Action.keeps_bind (Catalogue.Action.keeps_forM fun unit => ?_) fun _ =>
    (Catalogue.LinkedStep.request .settleKinds).keeps_arises
  rw [relocateUnit_eq]
  exact keeps_arises_relocateAll _

/-- In whatever order contributions were taken up, single steps lead to every catalogue in which
finishing looks something up: after some of the relocations, and at every stage of the linking. -/
theorem Reached.arises_finishing {settings : Settings} {assembly : Assembly}
    (reached : Reached settings assembly) :
    (∀ asked, (relocated assembly.catalogue asked).Arises) ∧
      ∀ {prepared linking stage}, assembly.Finishes prepared linking →
        (⟨prepared, []⟩ : Linking).Grows Linking.allBonds stage → stage.catalogue.Arises := by
  refine ⟨fun asked => (keeps_arises_relocateAll asked).after reached.arises, ?_⟩
  intro prepared linking stage finishes grows
  have start := (keeps_arises_prepare assembly.units.values).after reached.arises
  rw [finishes.prepares] at start
  exact grows.arises start

/-- Every lookup that finishing makes comes to an end. -/
theorem Reached.lookupsEnd {settings : Settings} {assembly : Assembly}
    (reached : Reached settings assembly) :
    (∀ asked, (relocated assembly.catalogue asked).LookupsEnd) ∧
      ∀ {prepared linking stage}, assembly.Finishes prepared linking →
        (⟨prepared, []⟩ : Linking).Grows Linking.allBonds stage → stage.catalogue.LookupsEnd := by
  obtain ⟨relocating, linking⟩ := reached.arises_finishing
  exact ⟨fun asked => (relocating asked).lookupsEnd,
    fun finishes grows => (linking finishes grows).lookupsEnd⟩

end Assembly

end DeclGraph

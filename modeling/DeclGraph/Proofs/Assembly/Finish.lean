import DeclGraph.Assembly.Finish
import DeclGraph.Proofs.Catalogue.Relocating
import DeclGraph.Proofs.Catalogue.Settling
import DeclGraph.Proofs.Graph.Checking
import DeclGraph.Proofs.Linking.Overloads
import DeclGraph.Proofs.Linking.Overrides
import DeclGraph.Proofs.Linking.Safety

/-!
# Finishing never fails

Whatever was taken up before, contributions that were refused and contributions
that failed halfway included, the catalogue is housed and relates its nodes by
containment only. From such a catalogue the moves, the settling of kinds and the
linking all succeed, and the graph that they leave has the shape of a finished
graph.
-/

namespace DeclGraph

namespace Catalogue

variable {catalogue : Catalogue}

/-- A housed catalogue has the shape of a finished graph once overloads are mutual. -/
theorem Housed.shaped (housed : catalogue.Housed [])
    (mutual_ : ∀ {first second : Nat}, catalogue.graph.Related first .overloads second →
      catalogue.graph.Related second .overloads first) : catalogue.graph.Shaped where
  single_scope := housed.single_scope
  acyclic := housed.forest.not_encloses_self
  overloads_mutual := mutual_

/-- A housed catalogue with mutual overloads passes the check. -/
theorem Housed.check_eq_ok (housed : catalogue.Housed [])
    (mutual_ : ∀ {first second : Nat}, catalogue.graph.Related first .overloads second →
      catalogue.graph.Related second .overloads first) :
    catalogue.graph.check = .ok () :=
  housed.sound.check_eq_ok_iff.mpr (housed.shaped mutual_)

end Catalogue

/-- What the linking makes of a catalogue: every node is still there, what is new is a
stand-in, and overloads are mutual. -/
structure Catalogue.Linked (before after : Catalogue) : Prop where
  housed : after.Housed []
  keys_kept : ∀ {id : Nat} {key : EntityKey}, before.graph.key? id = some key →
    after.graph.key? id = some key
  keys_new : ∀ {id : Nat} {key : EntityKey}, after.graph.key? id = some key →
    before.graph.key? id = some key ∨ key.family = .placeholder
  overloads_mutual : ∀ {first second : Nat}, after.graph.Related first .overloads second →
    after.graph.Related second .overloads first

namespace Linking

/-- What edges are added for. -/
def allBonds : List Bond :=
  aliasBonds ++ .inherits :: fieldBonds ++ signatureBonds ++
    .overloads :: .overrides :: .calls :: localBonds

/-- A linking in which all references have been linked. -/
structure Complete (references : List SeenReference) (before after : Linking) : Prop where
  grows : before.Grows allBonds after
  overloads_mutual : ∀ {first second : Nat},
    after.catalogue.graph.Related first .overloads second →
      after.catalogue.graph.Related second .overloads first
  aliases : ∀ item ∈ references, AliasLinked allBonds item before after
  fields : ∀ item ∈ references, NamesLinked allBonds ["field"] item before after
  signatures : ∀ item ∈ references,
    NamesLinked allBonds ["parameter", "return"] item before after
  locals : ∀ item ∈ references, NamesLinked allBonds ["local"] item before after

/-- When every reference has been linked, every node is still there and overloads are mutual. -/
theorem Complete.linked {references : List SeenReference} {before after : Linking}
    (complete : Complete references before after) (housed : before.catalogue.Housed []) :
    before.catalogue.Linked after.catalogue where
  housed := complete.grows.housed housed
  keys_kept := complete.grows.keys_kept housed
  keys_new := complete.grows.keys_new
  overloads_mutual := complete.overloads_mutual

/-- What edges are added for before the overloads. -/
def earlierBonds : List Bond := aliasBonds ++ .inherits :: fieldBonds ++ signatureBonds

/-- What edges are added for after the overloads. -/
def laterBonds : List Bond := .overrides :: .calls :: localBonds

/-- All steps of the linking succeed in a catalogue that has no overloads yet, and they
link every reference. -/
theorem completes_linkAll {before : Linking} (housed : before.catalogue.Housed [])
    (unlinked : before.catalogue.Unlinked) (references : List SeenReference) :
    Succeeds (linkAll references) before fun _ after => Complete references before after := by
  have earlier : earlierBonds ⊆ allBonds := by decide
  have overload : [Bond.overloads] ⊆ allBonds := by decide
  have later : laterBonds ⊆ allBonds := by decide
  -- Each step is known to succeed in what the steps before it have left.
  refine succeeds_bind ((succeeds_linkAliases housed references).weaken ?_)
  rintro _ one ⟨toOne, aliases⟩
  replace toOne : before.Grows earlierBonds one := toOne.mono (by decide)
  refine succeeds_bind ((succeeds_linkBases (toOne.housed housed) references).weaken ?_)
  intro _ two oneTwo
  replace oneTwo : one.Grows earlierBonds two := oneTwo.mono (by decide)
  have toTwo := toOne.trans oneTwo
  refine succeeds_bind ((succeeds_linkFields (toTwo.housed housed) references).weaken ?_)
  rintro _ three ⟨twoThree, fields⟩
  replace twoThree : two.Grows earlierBonds three := twoThree.mono (by decide)
  have toThree := toTwo.trans twoThree
  refine succeeds_bind ((succeeds_linkSignatures (toThree.housed housed) references).weaken ?_)
  rintro _ four ⟨threeFour, signatures⟩
  replace threeFour : three.Grows earlierBonds four := threeFour.mono (by decide)
  have toFour := toThree.trans threeFour
  have housedFour := toFour.housed housed
  refine succeeds_bind ((succeeds_linkOverloads housedFour).weaken ?_)
  rintro _ five ⟨fourFive, related⟩
  replace fourFive : four.Grows allBonds five := fourFive.mono overload
  have toFive := (toFour.mono earlier).trans fourFive
  have housedFive := toFive.housed housed
  refine succeeds_bind ((succeeds_linkOverrides housedFive).weaken ?_)
  rintro _ six ⟨fiveSix, _⟩
  replace fiveSix : five.Grows laterBonds six := fiveSix.mono (by decide)
  refine succeeds_bind ((succeeds_linkCalls (fiveSix.housed housedFive) references).weaken ?_)
  intro _ seven sixSeven
  have fiveSeven : five.Grows laterBonds seven := fiveSix.trans (sixSeven.mono (by decide))
  refine (succeeds_linkLocals (fiveSeven.housed housedFive) references).weaken ?_
  rintro _ after ⟨toLast, locals⟩
  have fromFive : five.Grows laterBonds after := fiveSeven.trans (toLast.mono (by decide))
  have fromFour := fourFive.trans (fromFive.mono later)
  constructor
  case grows => exact toFive.trans (fromFive.mono later)
  case overloads_mutual =>
    intro first second overloads
    have noneYet : ¬ four.catalogue.graph.Related first .overloads second := fun early => by
      cases unlinked _ _ _ ((toFour.related_iff housed (by decide)).mp early)
    rw [fromFive.related_iff housedFive (by decide), related] at overloads ⊢
    exact .inr (Catalogue.overloadPairs_symm housedFour.sound (overloads.resolve_left noneYet))
  case aliases =>
    exact fun item member => (aliases item member).widen (by decide) housed .refl
      (((oneTwo.trans twoThree).trans threeFour).mono earlier |>.trans fromFour)
  case fields =>
    exact fun item member => (fields item member).widen (by decide) housed
      (toTwo.mono earlier) ((threeFour.mono earlier).trans fromFour)
  case signatures =>
    exact fun item member => (signatures item member).widen (by decide) housed
      (toThree.mono earlier) fromFour
  case locals =>
    exact fun item member => (locals item member).widen (by decide) housed
      (toFive.trans (fiveSeven.mono later)) .refl

/-- All steps of the linking succeed in a catalogue that has no overloads
yet. -/
theorem succeeds_linkAll {before : Linking} (housed : before.catalogue.Housed [])
    (unlinked : before.catalogue.Unlinked) (references : List SeenReference) :
    Succeeds (linkAll references) before fun _ after => after.catalogue.Housed [] ∧
      ∀ {first second : Nat}, after.catalogue.graph.Related first .overloads second →
        after.catalogue.graph.Related second .overloads first :=
  (completes_linkAll housed unlinked references).weaken fun _ _ complete =>
    ⟨complete.grows.housed housed, complete.overloads_mutual⟩

end Linking

namespace Assembly

/-- The assemblies that arise from taking up contributions and units, in any
order and whether they are taken up, refused or fail. -/
inductive Reached (settings : Settings) : Assembly → Prop where
  | start : Reached settings (.empty settings)
  | merge {assembly : Assembly} (before : Reached settings assembly)
    (contribution : Contribution) : Reached settings (assembly.merge contribution).1
  | mergeUnit {assembly : Assembly} (before : Reached settings assembly) (unit : SourceUnit) :
    Reached settings (assembly.mergeUnit unit).1

/-- Registering mentions keeps a catalogue housed and unlinked, even if it
fails. -/
theorem ensures_registerAll {catalogue : Catalogue} (housed : catalogue.Housed [])
    (unlinked : catalogue.Unlinked) (mentions : List Mention) :
    Catalogue.Action.Ensures (Catalogue.registerAll mentions) catalogue
      (fun _ after => after.Housed [] ∧ after.Unlinked)
      (fun after => after.Housed [] ∧ after.Unlinked) := by
  refine Catalogue.Action.ensures_forM_invariant
    (fun middle => middle.Housed [] ∧ middle.Unlinked) ?_ ⟨housed, unlinked⟩
  rintro mention _ middle ⟨housedMiddle, unlinkedMiddle⟩
  refine Catalogue.Action.ensures_bind
    ((Catalogue.ensures_register housedMiddle mention).mono ?_ ?_)
  · rintro _ after ⟨_, housedAfter, registered⟩
    exact Catalogue.Action.ensures_pure ⟨housedAfter, registered.unlinked unlinkedMiddle⟩
  · rintro after ⟨_, housedAfter, stays⟩
    exact ⟨housedAfter, stays unlinkedMiddle⟩

/-- A contribution leaves the catalogue housed and without links, even if it is refused or fails
halfway. -/
theorem merge_invariant {assembly : Assembly} (housed : assembly.catalogue.Housed [])
    (unlinked : assembly.catalogue.Unlinked) (contribution : Contribution) :
    (assembly.merge contribution).1.catalogue.Housed [] ∧
      (assembly.merge contribution).1.catalogue.Unlinked := by
  have ensured := ensures_registerAll housed unlinked contribution.mentions
  unfold merge
  split
  · exact ⟨housed, unlinked⟩
  · unfold Catalogue.Action.Ensures at ensured
    split
    · rename_i ran
      rw [ran] at ensured
      exact ensured
    · rename_i ran
      rw [ran] at ensured
      exact ensured

/-- Every assembly that arises has a housed catalogue without links. -/
theorem Reached.invariant {settings : Settings} {assembly : Assembly}
    (reached : Reached settings assembly) :
    assembly.catalogue.Housed [] ∧ assembly.catalogue.Unlinked := by
  induction reached with
  | start => exact ⟨Catalogue.housed_empty, Catalogue.unlinked_empty⟩
  | merge _ contribution kept => exact merge_invariant kept.1 kept.2 contribution
  | mergeUnit _ unit kept => exact merge_invariant kept.1 kept.2 _

/-- Settling kinds relates nothing. -/
theorem Catalogue.Rekinded.unlinked {before after : Catalogue} {kindOf : Node → EntityKind}
    (rekinded : before.Rekinded after kindOf) (unlinked : before.Unlinked) : after.Unlinked :=
  fun source target relation related =>
    unlinked source target relation (rekinded.related.mp related)

/-- Preparing moves scopes, which keeps what every move keeps, and then settles kinds, those
of scopes first. -/
theorem succeeds_prepare_settling {catalogue : Catalogue} {units : List Pending}
    (invariant : Catalogue → Prop)
    (moves : ∀ {before after : Catalogue} {viewpoint : Viewpoint} {name : ScopedName},
      before.Housed [] → before.MovedTo after name (before.moveOf? viewpoint name) →
        invariant before → invariant after)
    (housed : catalogue.Housed []) (unlinked : catalogue.Unlinked) (start : invariant catalogue) :
    Catalogue.Action.Succeeds (prepare units) catalogue fun _ after => ∃ moved middle : Catalogue,
      moved.Housed [] ∧ moved.Unlinked ∧ invariant moved ∧
        moved.Rekinded middle moved.scopeKind ∧ middle.Rekinded after middle.functionKind := by
  unfold prepare
  refine Catalogue.Action.ensures_bind (Catalogue.Action.Succeeds.weaken
    (Catalogue.Action.ensures_forM_invariant
      (fun middle => middle.Housed [] ∧ middle.Unlinked ∧ invariant middle) ?_
      ⟨housed, unlinked, start⟩) ?_)
  · intro unit _ middle held
    unfold relocateUnit
    split
    · exact Catalogue.Action.ensures_pure held
    · exact Catalogue.succeeds_relocate invariant moves held.1 held.2.1 held.2.2
  · rintro _ moved ⟨housedMoved, unlinkedMoved, kept⟩
    refine (Catalogue.succeeds_settleKinds housedMoved).weaken ?_
    rintro _ after ⟨middle, scopes, functions⟩
    exact ⟨moved, middle, housedMoved, unlinkedMoved, kept, scopes, functions⟩

/-- Moving scopes and settling kinds never fails, and it keeps what every move and every
change of kinds keeps. -/
theorem succeeds_prepare_keeping {catalogue : Catalogue} {units : List Pending}
    (invariant : Catalogue → Prop)
    (moves : ∀ {before after : Catalogue} {viewpoint : Viewpoint} {name : ScopedName},
      before.Housed [] → before.MovedTo after name (before.moveOf? viewpoint name) →
        invariant before → invariant after)
    (settles : ∀ {before after : Catalogue} {kindOf : Node → EntityKind}, before.Housed [] →
      before.Rekinded after kindOf → invariant before → invariant after)
    (housed : catalogue.Housed []) (unlinked : catalogue.Unlinked) (start : invariant catalogue) :
    Catalogue.Action.Succeeds (prepare units) catalogue fun _ after =>
      after.Housed [] ∧ after.Unlinked ∧ invariant after := by
  refine (succeeds_prepare_settling invariant moves housed unlinked start).weaken ?_
  rintro _ after ⟨moved, middle, housedMoved, unlinkedMoved, kept, scopes, functions⟩
  refine ⟨functions.housed, ?_, settles scopes.housed functions (settles housedMoved scopes kept)⟩
  exact Catalogue.Rekinded.unlinked functions (Catalogue.Rekinded.unlinked scopes unlinkedMoved)

/-- Moving scopes and settling kinds never fails. -/
theorem succeeds_prepare {catalogue : Catalogue} (housed : catalogue.Housed [])
    (unlinked : catalogue.Unlinked) (units : List Pending) :
    Catalogue.Action.Succeeds (prepare units) catalogue fun _ after =>
      after.Housed [] ∧ after.Unlinked :=
  (succeeds_prepare_keeping (fun _ => True) (fun _ _ _ => trivial) (fun _ _ _ => trivial) housed
    unlinked trivial).weaken fun _ _ held => ⟨held.1, held.2.1⟩

/-- Finishing an assembly prepares its catalogue and links what waits in it. -/
structure Finishes (assembly : Assembly) (prepared : Catalogue) (linking : Linking) : Prop where
  prepares : (prepare assembly.units.values).run.run assembly.catalogue = (.ok (), prepared)
  links : Linking.run prepared assembly.units.values = .ok linking
  finishes : assembly.finish = .ok ⟨linking.catalogue.graph, linking.unresolved⟩

/-- Finishing prepares the catalogue and links every reference in what was prepared. -/
theorem finish_links {assembly : Assembly} (housed : assembly.catalogue.Housed [])
    (unlinked : assembly.catalogue.Unlinked) :
    ∃ prepared linking, assembly.Finishes prepared linking ∧
      prepared.Housed [] ∧ prepared.Unlinked ∧
      Linking.Complete (seenReferences assembly.units.values) ⟨prepared, []⟩ linking := by
  obtain ⟨_, prepared, ran, housedPrepared, unlinkedPrepared⟩ :=
    (succeeds_prepare housed unlinked assembly.units.values).run
  have start : (⟨prepared, []⟩ : Linking).catalogue.Unlinked := unlinkedPrepared
  obtain ⟨_, linking, ranLinking, complete⟩ :=
    Linking.completes_linkAll housedPrepared start (seenReferences assembly.units.values)
  have linkingRan : Linking.run prepared assembly.units.values = .ok linking := by
    simp only [Linking.run, StateT.run, ranLinking, bind, Except.bind, pure, Except.pure]
  have checked := (complete.linked housedPrepared).housed.check_eq_ok complete.overloads_mutual
  refine ⟨prepared, linking, ⟨ran, linkingRan, ?_⟩, housedPrepared, unlinkedPrepared, complete⟩
  unfold finish
  simp only [ran, linkingRan, checked, bind, Except.bind, pure, Except.pure]

/-- Finishing prepares the catalogue and links what was prepared. -/
theorem finish_run {assembly : Assembly} (housed : assembly.catalogue.Housed [])
    (unlinked : assembly.catalogue.Unlinked) :
    ∃ prepared linking,
      (prepare assembly.units.values).run.run assembly.catalogue = (.ok (), prepared) ∧
      Linking.run prepared assembly.units.values = .ok linking ∧
      prepared.Linked linking.catalogue ∧
      assembly.finish = .ok ⟨linking.catalogue.graph, linking.unresolved⟩ := by
  obtain ⟨prepared, linking, finishes, housedPrepared, _, complete⟩ :=
    finish_links housed unlinked
  exact ⟨prepared, linking, finishes.prepares, finishes.links, complete.linked housedPrepared,
    finishes.finishes⟩

/-- Whatever was taken up before, finishing gives a graph, and the graph has the
shape of a finished graph. -/
theorem finish_succeeds {settings : Settings} {assembly : Assembly}
    (reached : Reached settings assembly) :
    ∃ finished, assembly.finish = .ok finished ∧ finished.graph.check = .ok () ∧
      finished.graph.Shaped := by
  obtain ⟨housed, unlinked⟩ := reached.invariant
  obtain ⟨_, prepared, ran, housedPrepared, unlinkedPrepared⟩ :=
    (succeeds_prepare housed unlinked assembly.units.values).run
  have start : (⟨prepared, []⟩ : Linking).catalogue.Unlinked := unlinkedPrepared
  obtain ⟨_, linking, linked, housedLinking, mutual_⟩ :=
    Linking.succeeds_linkAll housedPrepared start (seenReferences assembly.units.values)
  have linkingRan : Linking.run prepared assembly.units.values = .ok linking := by
    simp only [Linking.run, StateT.run, linked, bind, Except.bind, pure, Except.pure]
  have checked := housedLinking.check_eq_ok mutual_
  refine ⟨⟨linking.catalogue.graph, linking.unresolved⟩, ?_, checked,
    housedLinking.shaped mutual_⟩
  unfold finish
  simp only [ran, linkingRan, checked, bind, Except.bind, pure, Except.pure]

/-- A contribution that fails halfway: its second mention has a kind outside the
family of its key. -/
def halfway : Contribution where
  path := .ofText "half.h"
  mentions :=
    [⟨.scope ⟨["shapes"]⟩, .namespaceScope, ∅, false, false⟩,
      ⟨.scope ⟨["shapes", "Circle"]⟩, .freeFunction, ∅, false, false⟩]
  references := []
  directives := []

/-- An assembly can be finished after a contribution has failed halfway. -/
theorem finish_succeeds_halfway :
    ((Assembly.empty {}).merge halfway).2 ≠ .ok () ∧
      ∃ finished, ((Assembly.empty {}).merge halfway).1.finish = .ok finished ∧
        finished.graph.check = .ok () ∧ finished.graph.Shaped := by
  refine ⟨fun accepted => ?_, finish_succeeds (.merge .start halfway)⟩
  have refused : ((Assembly.empty {}).merge halfway).2 = .error (.graph (.kindOutsideFamily
      .freeFunction (.scope ⟨["shapes", "Circle"]⟩))) := rfl
  rw [refused] at accepted
  cases accepted

end Assembly

end DeclGraph

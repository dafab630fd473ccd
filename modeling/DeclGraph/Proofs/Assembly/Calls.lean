import DeclGraph.Proofs.Assembly.Owners
import DeclGraph.Proofs.Linking.CallSites
import DeclGraph.Proofs.Linking.Stages

/-!
# Calls in the finished graph

A finished graph tells which lines of a body call what. Every call in a body is there with its
line, as long as it is no construction, and every line that is there is the line of a call.
What a call means is told by a lookup in the finished graph itself.
-/

namespace DeclGraph

/-- What is not related has no lines of calls. -/
theorem Graph.Sound.callLines_eq_nil {graph : Graph} (sound : graph.Sound) {source target : Nat}
    (apart : ¬ graph.Related source .calls target) : graph.callLines source target = [] := by
  refine List.eq_nil_iff_forall_not_mem.mpr fun line listed => apart ?_
  obtain ⟨edge, among, ends, _⟩ := sound.callsAt_iff.mpr listed
  exact sound.related_iff.mpr ⟨edge, sound.mem_edges.mp among, ends⟩

namespace Linking

/-- Before any call is linked, no site is. -/
theorem callsLinked_nothing {catalogue : Catalogue} (sound : catalogue.graph.Sound)
    (none : ∀ source target, ¬ catalogue.graph.Related source .calls target) :
    CallsLinked [] catalogue where
  scope_there := by simp
  standIn := by simp
  mem_iff := by
    intro source target line
    simp [sound.callLines_eq_nil (none source target)]
  increasing := by
    intro source target
    rw [sound.callLines_eq_nil (none source target)]
    exact List.Pairwise.nil

namespace Stages

variable {references : List SeenReference} {start last : Linking}
  (stages : Stages references start last) (housed : start.catalogue.Housed [])

include stages housed

/-- When everything is linked, all call sites are, and they are where the last catalogue has
them. -/
theorem callsLinked (unlinked : start.catalogue.Unlinked)
    (keeps : start.catalogue.MovesWithinFamilies) (owned : AllOwned references) :
    CallsLinked (last.catalogue.callSites references) last.catalogue := by
  have toOverridden := stages.toOverridden housed
  have housedOverridden := stages.housed_overridden housed
  have keepsOverridden := toOverridden.movesWithinFamilies keeps
  have nothing : CallsLinked [] stages.overridden.catalogue := by
    refine callsLinked_nothing housedOverridden.sound fun source target related => ?_
    rw [toOverridden.related_iff housed (by decide)] at related
    cases unlinked _ _ _ related
  have called := ((succeeds_linkCalls_linked housedOverridden keepsOverridden owned
    nothing).of_run stages.calls).2
  rw [(stages.overriddenToLast housed).callSites_eq housedOverridden quietBonds_quiet
    keepsOverridden owned]
  exact called.kept (stages.calledToLast housed) (stages.housed_called housed) (by decide)
    (by decide)

/-- The call sites in the end are those in the bodies of callers that were known before. -/
theorem mem_callSites (keeps : start.catalogue.MovesWithinFamilies) (owned : AllOwned references)
    (site : CallSite) : site ∈ last.catalogue.callSites references ↔
      ∃ viewpoint caller parameters body, (viewpoint, .body caller parameters body) ∈ references ∧
        start.catalogue.nodeByKey? caller = some site.caller ∧ site.call ∈ body.calls ∧
          site.place = last.catalogue.placeOf viewpoint site.caller parameters body := by
  rw [Catalogue.mem_callSites]
  refine exists_congr fun viewpoint => exists_congr fun caller => exists_congr fun parameters =>
    exists_congr fun body => and_congr_right fun waits => ?_
  have declared : caller.family ≠ .placeholder := Reference.owner_declared (owned _ waits)
  rw [(stages.toLast housed).nodeByKey?_iff housed keeps declared]

end Stages

end Linking

namespace Assembly

/-- Whatever units were offered, the lines in which a node of the finished graph calls another
one are the lines of those calls in its bodies that mean the other one. In every body of a known
caller every call that is no construction is there, with its line, and every edge lists its
lines in increasing order and each once. -/
theorem offered_callsAt (settings : Settings) (units : List SourceUnit) :
    let assembly := (empty settings).offered units
    let references := seenReferences assembly.units.values
    ∃ prepared linking, assembly.Finishes prepared linking ∧
      (∀ {viewpoint : Viewpoint} {caller : EntityKey} {parameters : List Parameter} {body : Body}
        {call : Call} {source : Nat}, (viewpoint, .body caller parameters body) ∈ references →
          prepared.nodeByKey? caller = some source → call ∈ body.calls →
          call.style ≠ .construct →
            ∃ target, linking.catalogue.graph.CallsAt source target (Int64.ofNat call.line)) ∧
      (∀ {source target : Nat} {line : Int64},
        linking.catalogue.graph.CallsAt source target line ↔
          ∃ viewpoint caller parameters body call,
            (viewpoint, .body caller parameters body) ∈ references ∧
            prepared.nodeByKey? caller = some source ∧ call ∈ body.calls ∧
            line = Int64.ofNat call.line ∧
            linking.catalogue.Targets
              (linking.catalogue.placeOf viewpoint source parameters body) call target) ∧
      ∀ edge ∈ linking.catalogue.graph.edges, edge.relation = .calls →
        edge.callLines.Pairwise (· < ·) := by
  intro assembly references
  have taken := takenUp_accepted settings units
  have holds := taken.history.holds
  obtain ⟨prepared, linking, finishes, housed, unlinked, complete⟩ :=
    finish_links holds.housed holds.unlinked
  obtain ⟨stages⟩ := Linking.exists_stages finishes.links
  have keeps := taken.movesWithinFamilies finishes
  have linked := stages.callsLinked housed unlinked keeps taken.allOwned
  have sites := stages.mem_callSites housed keeps taken.allOwned
  have sound := (complete.grows.housed housed).sound
  refine ⟨prepared, linking, finishes, ?_, ?_, fun edge listed calls => ?_⟩
  · intro viewpoint caller parameters body call source waits known called style
    let site : CallSite :=
      ⟨linking.catalogue.placeOf viewpoint source parameters body, source, call⟩
    have member : site ∈ linking.catalogue.callSites references :=
      (sites site).mpr ⟨viewpoint, caller, parameters, body, waits, known, called, rfl⟩
    obtain ⟨target, targets⟩ := linked.exists_target site member style
    refine ⟨target, sound.callsAt_iff.mpr (linked.mem_iff.mpr ?_)⟩
    exact ⟨site, member, rfl, rfl, targets⟩
  · intro source target line
    rw [sound.callsAt_iff, linked.mem_iff]
    constructor
    · rintro ⟨site, member, rfl, rfl, targets⟩
      obtain ⟨viewpoint, caller, parameters, body, waits, known, called, place⟩ :=
        (sites site).mp member
      exact ⟨viewpoint, caller, parameters, body, site.call, waits, known, called, rfl,
        place ▸ targets⟩
    · rintro ⟨viewpoint, caller, parameters, body, call, waits, known, called, rfl, targets⟩
      let site : CallSite :=
        ⟨linking.catalogue.placeOf viewpoint source parameters body, source, call⟩
      refine ⟨site, (sites site).mpr ?_, rfl, rfl, targets⟩
      exact ⟨viewpoint, caller, parameters, body, waits, known, called, rfl⟩
  · rw [sound.callLines_of_edge listed calls]
    exact linked.increasing edge.source edge.target

end Assembly

end DeclGraph

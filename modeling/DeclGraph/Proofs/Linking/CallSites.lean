import DeclGraph.Proofs.Linking.CallLines
import DeclGraph.Proofs.Linking.Callees
import DeclGraph.Proofs.Linking.Owners

/-!
# Call sites and the lines of calls

Linking a call site adds its line to the edges from its caller to whatever the call means. So,
site by site, the lines that an edge lists come to be the lines of the sites in its source that
mean its target: no line gets lost, and none comes from elsewhere.
-/

namespace DeclGraph

/-- A call in a body, with the place where it stands and the node whose body it is. -/
structure CallSite where
  place : CallPlace
  caller : Nat
  call : Call
deriving DecidableEq

/-- The line of a call site as edges list it. -/
def CallSite.line (site : CallSite) : Int64 := Int64.ofNat site.call.line

namespace Catalogue

variable {catalogue : Catalogue} {references : List SeenReference} {site : CallSite}

/-- The call sites in a body. -/
def bodySites (catalogue : Catalogue) (viewpoint : Viewpoint) (parameters : List Parameter)
    (body : Body) (caller : Nat) : List CallSite :=
  body.calls.map fun call => ⟨catalogue.placeOf viewpoint caller parameters body, caller, call⟩

/-- The call sites of a reference: those in a body whose caller is known. -/
def sitesOf (catalogue : Catalogue) : SeenReference → List CallSite
  | (viewpoint, .body key parameters body) =>
    (catalogue.nodeByKey? key).elim [] (catalogue.bodySites viewpoint parameters body)
  | _ => []

/-- The call sites in all bodies that wait. -/
def callSites (catalogue : Catalogue) (references : List SeenReference) : List CallSite :=
  references.flatMap catalogue.sitesOf

/-- The sites of a body are those of its calls, if the function it belongs to is in the graph. -/
theorem sitesOf_body {viewpoint : Viewpoint} {key : EntityKey} {parameters : List Parameter}
    {body : Body} : catalogue.sitesOf (viewpoint, .body key parameters body) =
      (catalogue.nodeByKey? key).elim [] (catalogue.bodySites viewpoint parameters body) := rfl

/-- A call site is a call of a body whose function is in the graph, seen from the place of that
body. -/
theorem mem_callSites : site ∈ catalogue.callSites references ↔
    ∃ viewpoint key parameters body, (viewpoint, .body key parameters body) ∈ references ∧
      catalogue.nodeByKey? key = some site.caller ∧ site.call ∈ body.calls ∧
        site.place = catalogue.placeOf viewpoint site.caller parameters body := by
  unfold callSites
  rw [List.mem_flatMap]
  constructor
  · rintro ⟨⟨viewpoint, reference⟩, waits, member⟩
    cases reference with
    | body key parameters body =>
      rw [sitesOf_body] at member
      cases known : catalogue.nodeByKey? key with
      | none =>
        rw [known] at member
        cases member
      | some caller =>
        rw [known] at member
        obtain ⟨call, called, rfl⟩ := List.mem_map.mp member
        exact ⟨viewpoint, key, parameters, body, waits, known, called, rfl⟩
    | _ => cases member
  · rintro ⟨viewpoint, key, parameters, body, waits, known, called, place⟩
    refine ⟨_, waits, ?_⟩
    rw [sitesOf_body, known]
    refine List.mem_map.mpr ⟨site.call, called, ?_⟩
    rw [← place]

end Catalogue

namespace Linking

variable {bonds : List Bond} {before middle after : Linking} {sites : List CallSite}
  {site : CallSite} {caller : Nat}

/-- A line was added to the edges from a caller to some targets, and nothing else was. -/
structure CallsAdded (caller : Nat) (targets : List Nat) (line : Int64) (before after : Linking) :
    Prop where
  notes : before.SameNotes after
  mem_iff : ∀ {source target : Nat} {other : Int64},
    other ∈ after.catalogue.graph.callLines source target ↔
      other ∈ before.catalogue.graph.callLines source target ∨
        (caller = source ∧ target ∈ targets ∧ line = other)
  increasing : ∀ {source target : Nat},
    (before.catalogue.graph.callLines source target).Pairwise (· < ·) →
      (after.catalogue.graph.callLines source target).Pairwise (· < ·)

/-- Calling nobody adds no call. -/
theorem CallsAdded.nothing (caller : Nat) (line : Int64) (linking : Linking) :
    CallsAdded caller [] line linking linking where
  notes := .refl linking
  mem_iff := by simp
  increasing := id

/-- Calls of several functions are added one after the other. -/
theorem CallsAdded.cons {first : Nat} {rest : List Nat} {line : Int64}
    (head : CallsAdded caller [first] line before middle)
    (tail : CallsAdded caller rest line middle after) :
    CallsAdded caller (first :: rest) line before after where
  notes := head.notes.trans tail.notes
  mem_iff := by
    intro source target other
    rw [tail.mem_iff, head.mem_iff, List.mem_singleton, List.mem_cons]
    tauto
  increasing := fun increasing => tail.increasing (head.increasing increasing)

/-- One edge of a call gets the line. -/
theorem callsAdded_withCall (sound : before.catalogue.graph.Sound) (target : Nat) (line : Int64) :
    CallsAdded caller [target] line before
      (before.withEdge ⟨caller, target, .calls⟩ (callAttributes line)) := by
  have lines : ∀ source other, (before.withEdge ⟨caller, target, .calls⟩
        (callAttributes line)).catalogue.graph.callLines source other =
      if caller = source ∧ target = other then
        sortedUnion (before.catalogue.graph.callLines source other) [line]
      else before.catalogue.graph.callLines source other :=
    fun source other => sound.callLines_withCall caller target source other line
  constructor
  case notes => exact sameNotes_withEdge _ _ _
  case mem_iff =>
    intro source other listed
    rw [lines]
    by_cases here : caller = source ∧ target = other
    · rw [if_pos here, mem_sortedUnion, List.mem_singleton, List.mem_singleton]
      tauto
    · rw [if_neg here, List.mem_singleton]
      tauto
  case increasing =>
    intro source other increasing
    rw [lines]
    split
    · exact sortedUnion_lines _ _
    · exact increasing

/-- The edges from a caller to its targets get the line. -/
theorem succeeds_relateCalls {targets : List Nat} {line : Int64}
    (housed : before.catalogue.Housed []) (there : before.catalogue.HasNode caller)
    (allThere : ∀ target ∈ targets, before.catalogue.HasNode target) :
    Succeeds (targets.forM fun target => relate caller target .calls (callAttributes line)) before
      fun _ after => before.Grows [.calls] after ∧ CallsAdded caller targets line before after := by
  induction targets generalizing before with
  | nil => exact succeeds_pure ⟨.refl, .nothing caller line before⟩
  | cons first rest further =>
    have firstThere := allThere first List.mem_cons_self
    refine succeeds_bind ((succeeds_relate_eq there firstThere).weaken ?_)
    rintro _ middle rfl
    have grows : before.Grows [.calls]
        (before.withEdge ⟨caller, first, .calls⟩ (callAttributes line)) :=
      .edge .refl List.mem_cons_self (Bond.joins_calls _ there firstThere)
    have restThere : ∀ target ∈ rest, (before.withEdge ⟨caller, first, .calls⟩
        (callAttributes line)).catalogue.HasNode target := fun target member =>
      grows.hasNode housed (allThere target (List.mem_cons_of_mem _ member))
    refine (further (grows.housed housed) (grows.hasNode housed there) restThere).weaken ?_
    rintro _ after ⟨more, added⟩
    exact ⟨grows.trans more, (callsAdded_withCall housed.sound first line).cons added⟩

/-- The sites have been linked: the names that are unknown have their stand-ins, and the lines of
the sites are listed on the edges to what they mean, in increasing order. -/
structure CallsLinked (sites : List CallSite) (catalogue : Catalogue) : Prop where
  scope_there : ∀ site ∈ sites, catalogue.HasNode site.place.scope
  standIn : ∀ site ∈ sites, ∀ spelling,
    catalogue.callees site.place site.call = .unknown spelling →
      ∃ id, catalogue.graph.key? id = some (.placeholder spelling)
  mem_iff : ∀ {source target : Nat} {line : Int64},
    line ∈ catalogue.graph.callLines source target ↔
      ∃ site ∈ sites, site.caller = source ∧ site.line = line ∧
        catalogue.Targets site.place site.call target
  increasing : ∀ source target, (catalogue.graph.callLines source target).Pairwise (· < ·)

/-- What has been linked of calls stays so when other edges are added that lookups do not
follow. -/
theorem CallsLinked.kept (linked : CallsLinked sites before.catalogue)
    (grows : before.Grows bonds after) (start : before.catalogue.Housed [])
    (quiet : ∀ bond ∈ bonds, bond.leads = false)
    (apart : ∀ bond ∈ bonds, bond.relation ≠ .calls) : CallsLinked sites after.catalogue where
  scope_there := fun site member => grows.hasNode start (linked.scope_there site member)
  standIn := by
    intro site member spelling unknown
    rw [grows.callees_eq start quiet (linked.scope_there site member)] at unknown
    obtain ⟨id, carried⟩ := linked.standIn site member spelling unknown
    exact ⟨id, grows.keys_kept start carried⟩
  mem_iff := by
    intro source target line
    rw [grows.callLines_eq start apart, linked.mem_iff]
    refine exists_congr fun site => and_congr_right fun member => ?_
    rw [grows.targets_iff start quiet (linked.scope_there site member) (linked.standIn site member)]
  increasing := by
    intro source target
    rw [grows.callLines_eq start apart]
    exact linked.increasing source target

/-- A call that is no construction means some node, if only a stand-in. -/
theorem CallsLinked.exists_target {catalogue : Catalogue} (linked : CallsLinked sites catalogue)
    (site : CallSite) (member : site ∈ sites) (style : site.call.style ≠ .construct) :
    ∃ target, catalogue.Targets site.place site.call target := by
  unfold Catalogue.Targets
  have some : (catalogue.callees site.place site.call).IsSome := Catalogue.isSome_callees style
  cases means : catalogue.callees site.place site.call with
  | known nodes =>
    rw [means] at some
    obtain ⟨target, listed⟩ := List.exists_mem_of_ne_nil nodes fun none => some (none ▸ rfl)
    exact ⟨target, .known listed⟩
  | unknown spelling =>
    obtain ⟨id, carried⟩ := linked.standIn site member spelling means
    exact ⟨id, .unknown carried⟩

/-- The nodes to which a call is linked, and what giving them leaves. -/
inductive Means (place : CallPlace) (caller : Nat) (call : Call) (before : Linking) :
    List Nat → Linking → Prop where
  | known {nodes : List Nat} (means : before.catalogue.callees place call = .known nodes) :
    Means place caller call before nodes before
  | noted {spelling : String} {id : Nat} {node : Node}
    (means : before.catalogue.callees place call = .unknown spelling)
    (callerNode : before.catalogue.graph.nodeTable[caller]? = some node)
    (carried : (before.catalogue.withStandIn spelling).graph.key? id =
      some (.placeholder spelling)) :
    Means place caller call before [id]
      (before.noting ⟨place.viewpoint.unit, node, spelling, .call⟩)

/-- The nodes that a call is linked to are those that it means once they stand in the graph. -/
theorem succeeds_means {place : CallPlace} {call : Call} (housed : before.catalogue.Housed [])
    (there : before.catalogue.HasNode caller) :
    Succeeds (calleeNodes place caller (before.catalogue.callees place call)) before
      (Means place caller call before) := by
  cases means : before.catalogue.callees place call with
  | known nodes => exact succeeds_pure (.known means)
  | unknown spelling =>
    obtain ⟨node, found⟩ := Graph.isSome_key?_iff.mp there
    refine succeeds_bind ((succeeds_noting housed found).weaken ?_)
    rintro id middle ⟨rfl, carried⟩
    exact succeeds_pure (.noted means found carried)

namespace Means

variable {place : CallPlace} {call : Call} {targets : List Nat}
  (means : Means place caller call before targets middle)

include means

/-- Adding the nodes that a call means makes a catalogue grow. -/
theorem grows (bonds : List Bond) : before.Grows bonds middle := by
  cases means with
  | known => exact .refl
  | noted => exact grows_noting bonds before _

/-- What a call is linked to is there. -/
theorem hasNode (housed : before.catalogue.Housed []) :
    ∀ target ∈ targets, middle.catalogue.HasNode target := by
  cases means with
  | known means =>
    have allThere := Catalogue.allThere_callees housed.sound place call
    rw [means] at allThere
    cases allThere with
    | known there => exact there
  | noted _ _ carried =>
    intro target member
    obtain rfl := List.mem_singleton.mp member
    exact Option.isSome_iff_exists.mpr ⟨_, carried⟩

variable (housed : before.catalogue.Housed []) (scopeThere : before.catalogue.HasNode place.scope)

include housed scopeThere

/-- Looked up again, the call still means the same. -/
theorem callees_eq :
    middle.catalogue.callees place call = before.catalogue.callees place call :=
  (means.grows []).callees_eq housed (by simp) scopeThere

/-- An unknown name has its stand-in now. -/
theorem standIn (spelling : String)
    (unknown : middle.catalogue.callees place call = .unknown spelling) :
    ∃ id, middle.catalogue.graph.key? id = some (.placeholder spelling) := by
  rw [means.callees_eq housed scopeThere] at unknown
  cases means with
  | known means =>
    rw [means] at unknown
    cases unknown
  | @noted _ id _ means _ carried =>
    rw [means] at unknown
    cases unknown
    exact ⟨id, carried⟩

/-- The nodes are those that the call means. -/
theorem mem_iff {target : Nat} :
    target ∈ targets ↔ middle.catalogue.Targets place call target := by
  unfold Catalogue.Targets
  rw [means.callees_eq housed scopeThere]
  have housedMiddle := (means.grows []).housed housed
  cases means with
  | known means =>
    rw [means]
    exact ⟨.known, fun includes => by cases includes; assumption⟩
  | noted means _ carried =>
    rw [means, List.mem_singleton]
    constructor
    · rintro rfl
      exact .unknown carried
    · rintro (_ | same)
      exact housedMiddle.sound.id_eq_of_key? same carried

end Means

/-- Linking one call adds its site to those that have been linked. -/
theorem succeeds_linkCall_linked (housed : before.catalogue.Housed [])
    (linked : CallsLinked sites before.catalogue) (there : before.catalogue.HasNode site.caller)
    (scopeThere : before.catalogue.HasNode site.place.scope) :
    Succeeds (linkCall site.place site.caller site.call) before fun _ after =>
      before.Grows [.calls] after ∧ CallsLinked (sites ++ [site]) after.catalogue := by
  have quiet : ∀ bond ∈ [Bond.calls], bond.leads = false := by decide
  refine succeeds_bind (succeeds_get ?_)
  refine succeeds_bind ((succeeds_means housed there).weaken ?_)
  intro targets middle means
  have grows := means.grows []
  have housedMiddle := grows.housed housed
  have scopeMiddle := grows.hasNode housed scopeThere
  have standIn := means.standIn housed scopeThere
  have former := linked.kept grows housed (by simp) (by simp)
  refine (succeeds_relateCalls housedMiddle (grows.hasNode housed there)
    (means.hasNode housed)).weaken ?_
  rintro _ after ⟨more, added⟩
  refine ⟨(grows.mono (by simp)).trans more, ?_, ?_, ?_, ?_⟩
  · intro other member
    rcases List.mem_append.mp member with old | new
    · exact more.hasNode housedMiddle (former.scope_there other old)
    · obtain rfl := List.mem_singleton.mp new
      exact more.hasNode housedMiddle scopeMiddle
  · intro other member spelling unknown
    rcases List.mem_append.mp member with old | new
    · rw [more.callees_eq housedMiddle quiet (former.scope_there other old)] at unknown
      obtain ⟨id, carried⟩ := former.standIn other old spelling unknown
      exact ⟨id, more.keys_kept housedMiddle carried⟩
    · obtain rfl := List.mem_singleton.mp new
      rw [more.callees_eq housedMiddle quiet scopeMiddle] at unknown
      obtain ⟨id, carried⟩ := standIn spelling unknown
      exact ⟨id, more.keys_kept housedMiddle carried⟩
  · intro source target line
    rw [added.mem_iff, former.mem_iff]
    simp only [List.mem_append, or_and_right, exists_or, List.mem_singleton, exists_eq_left]
    refine or_congr ?_ ?_
    · refine exists_congr fun other => and_congr_right fun old => ?_
      rw [more.targets_iff housedMiddle quiet (former.scope_there other old)
        (former.standIn other old)]
    · rw [means.mem_iff housed scopeThere, more.targets_iff housedMiddle quiet scopeMiddle standIn]
      tauto
  · exact fun source target => added.increasing (former.increasing source target)

/-- Linking a body links the calls in it. -/
theorem succeeds_linkBody_linked {viewpoint : Viewpoint} {parameters : List Parameter}
    {body : Body} (housed : before.catalogue.Housed [])
    (linked : CallsLinked sites before.catalogue) (there : before.catalogue.HasNode caller) :
    Succeeds (linkBody viewpoint parameters body caller) before fun _ after =>
      before.Grows [.calls] after ∧
        CallsLinked (sites ++ before.catalogue.bodySites viewpoint parameters body caller)
          after.catalogue := by
  refine succeeds_bind (succeeds_get ?_)
  refine (succeeds_forM_behind (fun earlier linking => before.Grows [.calls] linking ∧
    CallsLinked (sites ++ earlier.map fun call =>
      ⟨before.catalogue.placeOf viewpoint caller parameters body, caller, call⟩)
      linking.catalogue) ?_ ⟨.refl, by simpa using linked⟩)
  rintro earlier call later linking - ⟨sofar, held⟩
  let site : CallSite := ⟨before.catalogue.placeOf viewpoint caller parameters body, caller, call⟩
  have siteThere : linking.catalogue.HasNode site.caller := sofar.hasNode housed there
  have scopeThere : linking.catalogue.HasNode site.place.scope :=
    sofar.hasNode housed (Catalogue.hasNode_scopeOf housed.sound caller)
  refine (succeeds_linkCall_linked (sofar.housed housed) held siteThere scopeThere).weaken ?_
  rintro _ after ⟨more, next⟩
  refine ⟨sofar.trans more, ?_⟩
  rwa [List.map_append, ← List.append_assoc]

/-- The call sites of a reference stay where they are. -/
theorem Grows.sitesOf_eq (grows : before.Grows bonds after) (start : before.catalogue.Housed [])
    (quiet : ∀ bond ∈ bonds, bond.leads = false) (keeps : before.catalogue.MovesWithinFamilies)
    {item : SeenReference} (owned : item.2.owner.family = item.2.ownerFamily) :
    after.catalogue.sitesOf item = before.catalogue.sitesOf item := by
  obtain ⟨viewpoint, reference⟩ := item
  cases reference with
  | body key parameters body =>
    have known : after.catalogue.nodeByKey? key = before.catalogue.nodeByKey? key := by
      ext id
      exact grows.nodeByKey?_iff start keeps (Reference.owner_declared owned)
    rw [Catalogue.sitesOf_body, Catalogue.sitesOf_body, known]
    cases found : before.catalogue.nodeByKey? key with
    | none => rfl
    | some caller =>
      have there := hasNode_of_nodeByKey? start.sound found
      simp only [Option.elim_some, Catalogue.bodySites, grows.placeOf_eq start quiet there]
  | _ => rfl

/-- Growth that leads no name elsewhere leaves the call sites as they were. -/
theorem Grows.callSites_eq (grows : before.Grows bonds after) (start : before.catalogue.Housed [])
    (quiet : ∀ bond ∈ bonds, bond.leads = false) (keeps : before.catalogue.MovesWithinFamilies)
    {references : List SeenReference} (owned : AllOwned references) :
    after.catalogue.callSites references = before.catalogue.callSites references :=
  List.flatMap_congr fun item member => grows.sitesOf_eq start quiet keeps (owned item member)

/-- Linking the calls links all call sites. -/
theorem succeeds_linkCalls_linked (housed : before.catalogue.Housed [])
    (keeps : before.catalogue.MovesWithinFamilies) {references : List SeenReference}
    (owned : AllOwned references) (linked : CallsLinked [] before.catalogue) :
    Succeeds (linkCalls references) before fun _ after => before.Grows [.calls] after ∧
      CallsLinked (before.catalogue.callSites references) after.catalogue := by
  have quiet : ∀ bond ∈ [Bond.calls], bond.leads = false := by decide
  refine succeeds_forM_behind (fun earlier linking => before.Grows [.calls] linking ∧
    CallsLinked (before.catalogue.callSites earlier) linking.catalogue) ?_ ⟨.refl, linked⟩
  rintro earlier ⟨viewpoint, reference⟩ later linking split ⟨sofar, held⟩
  have housedHere := sofar.housed housed
  have sites : before.catalogue.callSites (earlier ++ [(viewpoint, reference)]) =
      before.catalogue.callSites earlier ++ linking.catalogue.sitesOf (viewpoint, reference) := by
    rw [sofar.sitesOf_eq housed quiet keeps (owned _ (by simp [split]))]
    simp [Catalogue.callSites]
  rw [sites]
  cases reference with
  | body key parameters body =>
    refine succeeds_bind (succeeds_get ?_)
    rw [Catalogue.sitesOf_body]
    cases found : linking.catalogue.nodeByKey? key with
    | none => exact succeeds_pure ⟨sofar, by simpa using held⟩
    | some caller =>
      refine (succeeds_linkBody_linked housedHere held
        (hasNode_of_nodeByKey? housedHere.sound found)).weaken ?_
      rintro _ after ⟨more, next⟩
      exact ⟨sofar.trans more, next⟩
  | _ => exact succeeds_pure ⟨sofar, by simpa [Catalogue.sitesOf] using held⟩

end Linking

end DeclGraph

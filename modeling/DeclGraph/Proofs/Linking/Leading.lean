import DeclGraph.Proofs.Linking.Noting
import DeclGraph.Proofs.Linking.Owners
import DeclGraph.Proofs.Linking.Accounts
import DeclGraph.Proofs.Linking.Purposes

/-!
# Aliases and bases, one after the other

What an alias stands for and the bases of a record decide what lookups go on to, and they are
linked with lookups themselves. A name that meant nothing when its turn came can therefore mean
something in the end, but only when its lookup passes the owner of a reference whose turn came no
earlier.
-/

namespace DeclGraph

namespace Reference

/-- Whether the reference says what an alias stands for. -/
def isAliasTarget : Reference → Bool
  | .aliasTarget _ _ => true
  | _ => false

/-- Whether the reference names a base. -/
def isBase : Reference → Bool
  | .base _ _ => true
  | _ => false

/-- What a reference asks for: an alias for the types that it is spelled with, a record for its
base without the template arguments. -/
inductive Asks : Reference → LookupPurpose → String → Prop where
  | aliasTarget {owner : EntityKey} {spelling name : String}
    (named : name ∈ Spelling.references spelling) :
    Asks (.aliasTarget owner spelling) .aliasTarget name
  | base {derived : EntityKey} {base : Base} :
    Asks (.base derived base) .base (Spelling.withoutArguments base.name)

end Reference

/-- The references to what aliases stand for and to bases, in the order in which they are
linked: unit by unit, but all aliases first. -/
def leadingReferences (references : List SeenReference) : List SeenReference :=
  references.filter (·.2.isAliasTarget) ++ references.filter (·.2.isBase)

namespace Catalogue

/-- A lookup of a spelling from a scope passes a node. It starts in the scopes around and goes on
to the members of the names that it asks for, to bases, and to what aliases stand for. -/
inductive Passes (catalogue : Catalogue) (viewpoint : Viewpoint) (spelling : String)
    (scope : Nat) : Nat → Prop where
  | root : Passes catalogue viewpoint spelling scope Graph.root
  | around {outer : Nat} (outside : outer = scope ∨ catalogue.graph.Encloses outer scope) :
    Passes catalogue viewpoint spelling scope outer
  | member {outer id : Nat} {name : String}
    (passed : Passes catalogue viewpoint spelling scope outer)
    (asked : name ∈ viewpoint.asked spelling) (isMember : id ∈ catalogue.membersNamed outer name) :
    Passes catalogue viewpoint spelling scope id
  | base {record base : Nat} (passed : Passes catalogue viewpoint spelling scope record)
    (isBase : base ∈ catalogue.bases record) : Passes catalogue viewpoint spelling scope base
  | target {id target : Nat} (passed : Passes catalogue viewpoint spelling scope id)
    (standsFor : catalogue.aliasTarget? id = some target) :
    Passes catalogue viewpoint spelling scope target

/-- A node is the owner of one of some references. -/
def IsOwner (catalogue : Catalogue) (items : List SeenReference) (id : Nat) : Prop :=
  ∃ item ∈ items, catalogue.nodeByKey? item.2.owner = some id

variable {catalogue : Catalogue} {items : List SeenReference} {id : Nat}

/-- The owner of one of some references is the owner of one of more. -/
theorem IsOwner.mono {more : List SeenReference} (owner : catalogue.IsOwner items id)
    (fewer : items ⊆ more) : catalogue.IsOwner more id := by
  obtain ⟨item, member, known⟩ := owner
  exact ⟨item, fewer member, known⟩

/-- The node of a reference's owner is an owner for the list that the reference heads. -/
theorem IsOwner.head {item : SeenReference}
    (known : catalogue.nodeByKey? item.2.owner = some id) : catalogue.IsOwner (item :: items) id :=
  ⟨item, List.mem_cons_self, known⟩

end Catalogue

namespace Linking

variable {bonds : List Bond} {before middle after : Linking} {prepared : Catalogue}
  {item : SeenReference} {items later : List SeenReference} {entry : Unresolved}

/-- The linking grew, and only owners of some references have come to lead elsewhere. -/
structure Leads (prepared : Catalogue) (items : List SeenReference) (before after : Linking) :
    Prop where
  grows : before.Grows allBonds after
  leadsAlike : ∀ {id : Nat}, ¬ prepared.IsOwner items id →
    before.catalogue.LeadsAlike after.catalogue id

namespace Leads

/-- Doing nothing leads no name elsewhere. -/
theorem refl (prepared : Catalogue) (items : List SeenReference) (linking : Linking) :
    Leads prepared items linking linking :=
  ⟨.refl, fun _ => .refl _ _⟩

/-- What leads for the same references twice leads for them altogether. -/
theorem trans (first : Leads prepared items before middle)
    (second : Leads prepared items middle after) : Leads prepared items before after :=
  ⟨first.grows.trans second.grows,
    fun apart => (first.leadsAlike apart).trans (second.leadsAlike apart)⟩

/-- What leads for some references leads for more. -/
theorem mono {more : List SeenReference} (leads : Leads prepared items before after)
    (fewer : items ⊆ more) : Leads prepared more before after :=
  ⟨leads.grows, fun apart => leads.leadsAlike fun owner => apart (owner.mono fewer)⟩

/-- Additions that say nothing about what nodes lead to. -/
theorem of_quiet (grows : before.Grows bonds after) (fewer : bonds ⊆ allBonds)
    (quiet : ∀ bond ∈ bonds, bond.leads = false) (start : before.catalogue.Housed []) :
    Leads prepared items before after :=
  ⟨grows.mono fewer, fun _ => grows.leadsAlike start quiet _⟩

end Leads

/-- The name of an entry is one that a reference asks for, and it meant nothing at this stage. -/
structure Missed (prepared : Catalogue) (item : SeenReference) (entry : Unresolved)
    (stage : Linking) : Prop where
  housed : stage.catalogue.Housed []
  unit : item.1.unit = entry.unit
  referrer : prepared.nodeByKey? item.2.owner = some entry.referrer.id
  there : stage.catalogue.HasNode entry.referrer.id
  asks : item.2.Asks entry.purpose entry.spelling
  nothing : stage.catalogue.resolveFrom item.1 (isOtherType entry.referrer.id) entry.spelling
    (stage.catalogue.scopeOf entry.referrer.id) = []

/-- Since the name of an entry was missed, only owners of the reference that asks for it and of
later ones have come to lead elsewhere. -/
def MissedSince (prepared : Catalogue) (item : SeenReference) (later : List SeenReference)
    (entry : Unresolved) (after : Linking) : Prop :=
  ∃ stage, Missed prepared item entry stage ∧ Leads prepared (item :: later) stage after

/-- A reference that was missed stays so while the later references are linked. -/
theorem MissedSince.onward {more : List SeenReference}
    (missed : MissedSince prepared item later entry before)
    (leads : Leads prepared more before after) (fewer : more ⊆ item :: later) :
    MissedSince prepared item later entry after := by
  obtain ⟨stage, nothing, since⟩ := missed
  exact ⟨stage, nothing, since.trans (leads.mono fewer)⟩

/-- What is left when one reference is linked. -/
structure LinksOne (prepared : Catalogue) (item : SeenReference) (before after : Linking) :
    Prop where
  leads : Leads prepared [item] before after
  noted : ∀ entry ∈ after.unresolved, entry ∈ before.unresolved ∨
    MissedSince prepared item [] entry after

namespace LinksOne

/-- Linking that notes nothing as missed links one reference. -/
theorem of_leads (leads : Leads prepared [item] before after)
    (same : after.unresolved = before.unresolved) : LinksOne prepared item before after :=
  ⟨leads, fun _ listed => .inl (same ▸ listed)⟩

/-- Two parts of linking one reference link it together. -/
theorem trans (first : LinksOne prepared item before middle)
    (second : LinksOne prepared item middle after) : LinksOne prepared item before after where
  leads := first.leads.trans second.leads
  noted := by
    intro entry listed
    rcases second.noted entry listed with earlier | missed
    · refine (first.noted entry earlier).imp_right fun missed => ?_
      exact missed.onward second.leads (List.Subset.refl _)
    · exact .inr missed

/-- An edge from the owner of the reference. -/
theorem succeeds_relate (first : LinksOne prepared item before middle)
    (housed : middle.catalogue.Housed []) {bond : Bond} {source target : Nat} {relation : Relation}
    {attributes : Attributes} (among : bond ∈ allBonds)
    (joins : bond.Joins middle.catalogue ⟨source, target, relation⟩ attributes)
    (owner : prepared.nodeByKey? item.2.owner = some source) :
    Succeeds (relate source target relation attributes) middle fun _ =>
      LinksOne prepared item before := by
  refine (succeeds_relate_eq joins.source_there joins.target_there).weaken ?_
  rintro _ after rfl
  refine first.trans (.of_leads ⟨.edge .refl among joins, fun apart => ?_⟩ rfl)
  refine joins.leadsAlike housed.sound (.inl ?_)
  rintro rfl
  exact apart (.head owner)

end LinksOne

section Reference

variable {viewpoint : Viewpoint} {reference : Reference} {referrer : Nat}
  {purpose : LookupPurpose} {name role : String}

/-- A lookup for a reference notes the name only when it means nothing. -/
theorem Looks.linksOne {meant : Option Nat}
    (looks : Looks viewpoint referrer purpose name before meant after)
    (housed : before.catalogue.Housed []) (there : before.catalogue.HasNode referrer)
    (owner : prepared.nodeByKey? reference.owner = some referrer)
    (asks : reference.Asks purpose name) :
    LinksOne prepared (viewpoint, reference) before after := by
  cases looks with
  | hidden => exact .of_leads (.refl _ _ _) rfl
  | found => exact .of_leads (.refl _ _ _) rfl
  | @noted _ node nothing nodeFound =>
    obtain rfl := housed.sound.node_id nodeFound
    have quiet := grows_noting [] before ⟨viewpoint.unit, node, name, purpose⟩
    have leads : Leads prepared [(viewpoint, reference)] before _ :=
      .of_quiet quiet (List.nil_subset _) (by simp) housed
    refine ⟨leads, fun entry listed => (List.mem_append.mp listed).imp_right fun new => ?_⟩
    obtain rfl := List.mem_singleton.mp new
    exact ⟨before, ⟨housed, rfl, owner, there, asks, nothing⟩, leads⟩

variable (housed : before.catalogue.Housed []) (there : before.catalogue.HasNode referrer)
  (owner : prepared.nodeByKey? reference.owner = some referrer)

include housed there owner

/-- Linking a name that a reference asks for is part of linking that reference. -/
theorem succeeds_linkName_linksOne (asks : reference.Asks purpose name)
    (among : .use role ∈ allBonds) :
    Succeeds (linkName viewpoint referrer purpose role name) before fun _ =>
      LinksOne prepared (viewpoint, reference) before := by
  refine succeeds_bind ((succeeds_looks housed there).weaken ?_)
  intro meant middle looks
  have first := looks.linksOne housed there owner asks
  cases meant with
  | none => exact succeeds_pure first
  | some target =>
    have housedMiddle := first.leads.grows.housed housed
    have joins := Bond.joins_use role (first.leads.grows.hasNode housed there) (looks.isUsable housed)
    exact first.succeeds_relate housedMiddle among joins owner

/-- Linking names that a reference asks for is part of linking that reference. -/
theorem succeeds_linkNames_linksOne {names : List String}
    (asks : ∀ name ∈ names, reference.Asks purpose name) (among : .use role ∈ allBonds) :
    Succeeds (names.forM (linkName viewpoint referrer purpose role)) before fun _ =>
      LinksOne prepared (viewpoint, reference) before := by
  refine succeeds_forM_invariant (fun name named linking sofar => ?_)
    (.of_leads (.refl _ _ _) rfl)
  have grows := sofar.leads.grows
  refine (succeeds_linkName_linksOne (grows.housed housed) (grows.hasNode housed there) owner
    (asks name named) among).weaken ?_
  exact fun _ _ more => sofar.trans more

end Reference

/-- Linking the target of an alias links that reference. -/
theorem succeeds_linkAliasTarget_linksOne {viewpoint : Viewpoint} {key : EntityKey}
    {spelling : String} {owner : Nat} (housed : before.catalogue.Housed [])
    (there : before.catalogue.HasNode owner) (known : prepared.nodeByKey? key = some owner) :
    Succeeds (linkAliasTarget viewpoint spelling owner) before fun _ =>
      LinksOne prepared (viewpoint, .aliasTarget key spelling) before := by
  have amongAlias : Bond.use "alias" ∈ allBonds := by decide
  have amongArgument : Bond.use "template_argument" ∈ allBonds := by decide
  have asks : ∀ name ∈ Spelling.references spelling,
      (Reference.aliasTarget key spelling).Asks .aliasTarget name := fun _ => .aliasTarget
  unfold linkAliasTarget
  split
  · refine succeeds_bind ((succeeds_standIn housed).weaken ?_)
    rintro target middle ⟨became, carried⟩
    have quiet : before.Grows [] middle :=
      became ▸ grows_withStandIn [] before (Spelling.canonical spelling)
    have housedMiddle := quiet.housed housed
    have joins := Bond.joins_use "alias" (quiet.hasNode housed there)
      (Catalogue.isUsable_of_placeholder housedMiddle.sound carried)
    have standIn : LinksOne prepared (viewpoint, .aliasTarget key spelling) before middle :=
      .of_leads (.of_quiet quiet (List.nil_subset _) (by simp) housed) (by rw [became])
    exact standIn.succeeds_relate housedMiddle amongAlias joins known
  · rename_i name arguments spelled
    rw [spelled] at asks
    refine succeeds_bind ((succeeds_linkName_linksOne housed there known
      (asks name List.mem_cons_self) amongAlias).weaken ?_)
    intro _ middle first
    have grows := first.leads.grows
    refine (succeeds_linkNames_linksOne (grows.housed housed) (grows.hasNode housed there) known
      (fun other member => asks other (List.mem_cons_of_mem _ member)) amongArgument).weaken ?_
    exact fun _ _ more => first.trans more

/-- Linking a base class links that reference. -/
theorem succeeds_linkBase_linksOne {viewpoint : Viewpoint} {key : EntityKey} {base : Base}
    {derived : Nat} (housed : before.catalogue.Housed [])
    (there : before.catalogue.HasNode derived) (known : prepared.nodeByKey? key = some derived) :
    Succeeds (linkBase viewpoint base derived) before fun _ =>
      LinksOne prepared (viewpoint, .base key base) before := by
  refine succeeds_bind ((succeeds_looks housed there).weaken ?_)
  intro meant middle looks
  have first := looks.linksOne housed there known .base
  cases meant with
  | none => exact succeeds_pure first
  | some found =>
    have grows := first.leads.grows
    have housedMiddle := grows.housed housed
    refine succeeds_bind (succeeds_get ?_)
    dsimp only
    split
    · rename_i apart
      have target := Catalogue.hasNode_dealias housedMiddle.sound (looks.isUsable housed).hasNode
      have joins := Bond.joins_inherits ((∅ : Attributes).insert AttributeName.inheritanceAccess
        (.text base.access.keyword)) (grows.hasNode housed there) target apart
      exact first.succeeds_relate housedMiddle (by decide) joins known
    · exact succeeds_pure first

/-- Links a reference to what an alias stands for, or to a base. -/
def linkLeading : SeenReference → Step Unit
  | (viewpoint, .aliasTarget owner spelling) => forEntity owner (linkAliasTarget viewpoint spelling)
  | (viewpoint, .base derived base) => forEntity derived (linkBase viewpoint base)
  | _ => pure ()

/-- A pass over the references of one sort is one over all that skips the others. -/
theorem forM_filter {β : Type} {items : List β} {chosen : β → Bool} {step whole : β → Step Unit}
    (same : ∀ item, whole item = if chosen item then step item else pure ()) :
    (items.filter chosen).forM step = items.forM whole := by
  induction items with
  | nil => rfl
  | cons item rest further =>
    show _ = whole item >>= fun _ => rest.forM whole
    rw [← further, same, List.filter_cons]
    cases chosen item <;> rfl

/-- The passes over aliases and over bases are one pass over the references of both. -/
theorem forM_linkLeading (references : List SeenReference) :
    (leadingReferences references).forM linkLeading =
      linkAliases references >>= fun _ => linkBases references := by
  refine List.forM_append.trans ?_
  congr 1
  · refine forM_filter fun (viewpoint, reference) => ?_
    cases reference <;> rfl
  · funext _
    refine forM_filter fun (viewpoint, reference) => ?_
    cases reference <;> rfl

/-- When its turn comes, a reference is linked for its owner, if that is known at all. -/
theorem succeeds_linkLeading (start : prepared.Housed []) (keeps : prepared.MovesWithinFamilies)
    (owned : item.2.owner.family = item.2.ownerFamily)
    (sofar : Grows allBonds ⟨prepared, []⟩ before) :
    Succeeds (linkLeading item) before fun _ => LinksOne prepared item before := by
  obtain ⟨viewpoint, reference⟩ := item
  have housed := sofar.housed start
  have nothing : LinksOne prepared (viewpoint, reference) before before :=
    .of_leads (.refl _ _ _) rfl
  have known : ∀ node, before.catalogue.nodeByKey? reference.owner = some node →
      before.catalogue.HasNode node ∧ prepared.nodeByKey? reference.owner = some node :=
    fun node found => ⟨hasNode_of_nodeByKey? housed.sound found,
      (sofar.nodeByKey?_iff start keeps (Reference.owner_declared owned)).mp found⟩
  cases reference
  case aliasTarget =>
    refine succeeds_forEntity_cases (fun _ => nothing) fun node found => ?_
    exact succeeds_linkAliasTarget_linksOne housed (known node found).1 (known node found).2
  case base =>
    refine succeeds_forEntity_cases (fun _ => nothing) fun node found => ?_
    exact succeeds_linkBase_linksOne housed (known node found).1 (known node found).2
  all_goals exact succeeds_pure nothing

/-- What is left when references are linked in turn. -/
structure LinksInTurn (prepared : Catalogue) (items : List SeenReference)
    (before after : Linking) : Prop where
  leads : Leads prepared items before after
  noted : ∀ entry ∈ after.unresolved, entry ∈ before.unresolved ∨
    ∃ item later, item :: later <:+ items ∧ MissedSince prepared item later entry after

/-- References are linked in turn, the first and then the rest. -/
theorem LinksInTurn.cons (first : LinksOne prepared item before middle)
    (rest : LinksInTurn prepared later middle after) :
    LinksInTurn prepared (item :: later) before after where
  leads := (first.leads.mono (by simp)).trans (rest.leads.mono (List.subset_cons_self _ _))
  noted := by
    intro entry listed
    rcases rest.noted entry listed with known | ⟨other, behind, isSuffix, missed⟩
    · refine (first.noted entry known).imp_right fun ⟨stage, nothing, since⟩ => ?_
      have missed : MissedSince prepared item later entry middle :=
        ⟨stage, nothing, since.mono (by simp)⟩
      exact ⟨item, later, List.suffix_refl _,
        missed.onward rest.leads (List.subset_cons_self _ _)⟩
    · exact .inr ⟨other, behind, isSuffix.trans (List.suffix_cons _ _), missed⟩

/-- References that leave what one reference leaves, each in its turn. -/
theorem succeeds_forM_inTurn {start : Linking} {step : SeenReference → Step Unit}
    (each : ∀ item ∈ items, ∀ linking, start.Grows allBonds linking →
      Succeeds (step item) linking fun _ => LinksOne prepared item linking)
    (sofar : start.Grows allBonds before) :
    Succeeds (items.forM step) before fun _ => LinksInTurn prepared items before := by
  induction items generalizing before with
  | nil => exact succeeds_pure ⟨.refl _ _ _, fun _ listed => .inl listed⟩
  | cons item rest further =>
    refine succeeds_bind ((each item List.mem_cons_self before sofar).weaken ?_)
    intro _ middle first
    refine (further (fun other member => each other (List.mem_cons_of_mem _ member))
      (sofar.trans first.leads.grows)).weaken ?_
    exact fun _ _ behind => .cons first behind

section Lookup

variable {viewpoint : Viewpoint} {spelling : String} {scope : Nat}

/-- Whatever a later lookup passes was there before, if it passes nothing that has come to lead
elsewhere. -/
theorem Leads.there_of_passes (leads : Leads prepared items before after)
    (housed : before.catalogue.Housed []) (there : before.catalogue.HasNode scope)
    (apart : ∀ {id : Nat}, after.catalogue.Passes viewpoint spelling scope id →
      ¬ prepared.IsOwner items id)
    {id : Nat} (passed : after.catalogue.Passes viewpoint spelling scope id) :
    before.catalogue.HasNode id := by
  have sound := housed.sound
  cases passed with
  | root => exact Catalogue.hasNode_root sound
  | around outside =>
    rcases outside with rfl | encloses
    · exact there
    · exact sound.there_of_encloses ((leads.grows.encloses_iff housed).mp encloses)
  | member _ _ isMember =>
    rw [Catalogue.membersNamed, leads.grows.memberIndex] at isMember
    exact (sound.there_of_related (housed.mem_members.mp isMember).1).2
  | base passed isBase =>
    rw [(leads.leadsAlike (apart passed)).bases] at isBase
    exact Catalogue.hasNode_of_mem_bases sound isBase
  | target passed standsFor =>
    rw [(leads.leadsAlike (apart passed)).aliasTarget?] at standsFor
    exact Catalogue.hasNode_aliasTarget? sound standsFor

/-- A lookup that passes nothing that has come to lead elsewhere finds what it found before. -/
theorem Leads.resolveFrom_eq (leads : Leads prepared items before after)
    (housed : before.catalogue.Housed []) (there : before.catalogue.HasNode scope)
    (apart : ∀ {id : Nat}, after.catalogue.Passes viewpoint spelling scope id →
      ¬ prepared.IsOwner items id) (accept : Node → Bool) :
    after.catalogue.resolveFrom viewpoint accept spelling scope =
      before.catalogue.resolveFrom viewpoint accept spelling scope := by
  have agree : before.catalogue.AgreeWithin (· ∈ viewpoint.asked spelling)
      (after.catalogue.Passes viewpoint spelling scope) after.catalogue := by
    refine leads.grows.agreeWithin housed (leads.there_of_passes housed there apart) .root
      (fun {outer id name} passed asked isMember => ?_) (fun {record base} passed isBase => ?_)
      (fun {id target} passed standsFor => ?_) fun passed => leads.leadsAlike (apart passed)
    · refine .member passed asked ?_
      rwa [Catalogue.membersNamed, leads.grows.memberIndex]
    · exact .base passed ((leads.leadsAlike (apart passed)).bases ▸ isBase)
    · exact .target passed ((leads.leadsAlike (apart passed)).aliasTarget? ▸ standsFor)
  refine agree.resolveFrom_eq (fun _ asked => asked) fun {outer} outside => .around ?_
  exact outside.imp_right (leads.grows.encloses_iff housed).mpr

end Lookup

/-- What was missed is still missing, or its lookup passes the owner of the reference or of a later
one. -/
theorem MissedSince.nothing_unless (missed : MissedSince prepared item later entry after) :
    let scope := after.catalogue.scopeOf entry.referrer.id
    after.catalogue.resolveFrom item.1 (isOtherType entry.referrer.id) entry.spelling scope = [] ∨
      ∃ id, prepared.IsOwner (item :: later) id ∧
        after.catalogue.Passes item.1 entry.spelling scope id := by
  intro scope
  by_cases passes : ∃ id, prepared.IsOwner (item :: later) id ∧
      after.catalogue.Passes item.1 entry.spelling scope id
  · exact .inr passes
  · left
    obtain ⟨stage, missed, leads⟩ := missed
    have same : scope = stage.catalogue.scopeOf entry.referrer.id :=
      leads.grows.scopeOf_eq missed.housed _
    have there : stage.catalogue.HasNode scope :=
      same ▸ Catalogue.hasNode_scopeOf missed.housed.sound _
    rw [leads.resolveFrom_eq missed.housed there
      fun passed owner => passes ⟨_, owner, passed⟩, same]
    exact missed.nothing

end Linking

end DeclGraph

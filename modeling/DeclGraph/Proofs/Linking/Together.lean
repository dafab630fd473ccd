import DeclGraph.Linking.Types
import DeclGraph.Proofs.Catalogue.Corresponding
import DeclGraph.Proofs.Catalogue.Joining
import DeclGraph.Proofs.Linking.Step

/-!
# Linking side by side

Two linkings whose catalogues correspond are taken through the same passes, with the same
references. What a name means in one of them is the counterpart of what it means in the other, so
that each step leaves catalogues that correspond, in which counterparts are counterparts still.
-/

namespace DeclGraph

namespace Linking

variable {α β γ δ : Type}

/-- Two steps that are taken from a linking each both succeed, and what they leave is related. -/
def SucceedTogether (step : Step α) (stepToo : Step β) (before beforeToo : Linking)
    (done : α → β → Linking → Linking → Prop) : Prop :=
  Succeeds step before fun result after =>
    Succeeds stepToo beforeToo fun resultToo afterToo => done result resultToo after afterToo

/-- Two linkings have come from others so that their catalogues correspond and the counterparts
are what they were. -/
structure Proceeds (before beforeToo after afterToo : Linking) : Prop where
  corresponds : after.catalogue.Corresponds afterToo.catalogue
  keeps : ∀ {one other : Nat},
    before.catalogue.graph.Counterparts beforeToo.catalogue.graph one other →
      after.catalogue.graph.Counterparts afterToo.catalogue.graph one other

variable {before beforeToo middle middleToo after afterToo : Linking}

/-- Catalogues that correspond proceed alike by doing nothing. -/
theorem Proceeds.refl (corresponds : before.catalogue.Corresponds beforeToo.catalogue) :
    Proceeds before beforeToo before beforeToo := ⟨corresponds, id⟩

/-- Proceeding alike twice is proceeding alike. -/
theorem Proceeds.trans (first : Proceeds before beforeToo middle middleToo)
    (second : Proceeds middle middleToo after afterToo) :
    Proceeds before beforeToo after afterToo :=
  ⟨second.corresponds, second.keeps ∘ first.keeps⟩

section Steps

variable {done : α → β → Linking → Linking → Prop}

/-- What two steps succeed in together may be weakened. -/
theorem SucceedTogether.weaken {step : Step α} {stepToo : Step β}
    {weaker : α → β → Linking → Linking → Prop}
    (together : SucceedTogether step stepToo before beforeToo done)
    (onResult : ∀ {result resultToo after afterToo}, done result resultToo after afterToo →
      weaker result resultToo after afterToo) :
    SucceedTogether step stepToo before beforeToo weaker :=
  Succeeds.weaken together fun _ _ success => success.weaken fun _ _ held => onResult held

/-- Giving values succeeds together. -/
theorem together_pure {value : α} {valueToo : β} (held : done value valueToo before beforeToo) :
    SucceedTogether (pure value) (pure valueToo) before beforeToo done :=
  succeeds_pure (succeeds_pure held)

/-- Two sequences succeed together when their parts do, one after the other. -/
theorem together_bind {first : Step γ} {firstToo : Step δ} {next : γ → Step α}
    {nextToo : δ → Step β}
    (together : SucceedTogether first firstToo before beforeToo fun value valueToo after afterToo =>
      SucceedTogether (next value) (nextToo valueToo) after afterToo done) :
    SucceedTogether (first >>= next) (firstToo >>= nextToo) before beforeToo done := by
  refine succeeds_bind (Succeeds.weaken together fun value middle started => ?_)
  obtain ⟨valueToo, middleToo, ran, further⟩ := started
  refine Succeeds.weaken further fun result after held => ?_
  obtain ⟨resultToo, afterToo, ranToo, related⟩ := held
  exact succeeds_bind ⟨valueToo, middleToo, ran, resultToo, afterToo, ranToo, related⟩

/-- What both linkings are is known to both steps. -/
theorem together_get {next : Linking → Step α} {nextToo : Linking → Step β}
    (together : SucceedTogether (next before) (nextToo beforeToo) before beforeToo done) :
    SucceedTogether (get >>= next) (get >>= nextToo) before beforeToo done :=
  together_bind (succeeds_get (succeeds_get together))

/-- A run over a list in two linkings proceeds when it does so item by item. -/
theorem proceeds_forM {items : List γ} {step stepToo : γ → Step Unit}
    (corresponds : before.catalogue.Corresponds beforeToo.catalogue)
    (each : ∀ item ∈ items, ∀ {middle middleToo : Linking},
      Proceeds before beforeToo middle middleToo →
      SucceedTogether (step item) (stepToo item) middle middleToo fun _ _ =>
        Proceeds middle middleToo) :
    SucceedTogether (items.forM step) (items.forM stepToo) before beforeToo fun _ _ =>
      Proceeds before beforeToo := by
  induction items generalizing before beforeToo with
  | nil => exact together_pure (.refl corresponds)
  | cons item rest further =>
    refine together_bind ((each item List.mem_cons_self (.refl corresponds)).weaken ?_)
    intro _ _ _ _ first
    refine (further first.corresponds fun later listed _ _ sofar => ?_).weaken first.trans
    exact each later (List.mem_cons_of_mem _ listed) (first.trans sofar)

/-- What is read of a node on both sides is the same but for the number. -/
theorem together_node {id idToo : Nat} {next : Node → Step α} {nextToo : Node → Step β}
    (corresponds : before.catalogue.Corresponds beforeToo.catalogue)
    (same : before.catalogue.graph.Counterparts beforeToo.catalogue.graph id idToo)
    (together : ∀ node : Node, SucceedTogether (next node) (nextToo { node with id := idToo })
      before beforeToo done) :
    SucceedTogether (perform (Catalogue.Action.reading fun graph => graph.node id) >>= next)
      (perform (Catalogue.Action.reading fun graph => graph.node idToo) >>= nextToo)
      before beforeToo done := by
  obtain ⟨node, found⟩ := Graph.isSome_key?_iff.mp same.there.1
  have foundToo := corresponds.node same found
  exact together_bind (succeeds_perform (Catalogue.Action.ensures_reading
    (Graph.node_of_nodeTable found) (succeeds_perform (Catalogue.Action.ensures_reading
      (Graph.node_of_nodeTable foundToo) (together node)))))

/-- Counterparts are related on both sides. -/
theorem proceeds_relate {source sourceToo target targetToo : Nat} {relation : Relation}
    {attributes : Attributes} (corresponds : before.catalogue.Corresponds beforeToo.catalogue)
    (same : before.catalogue.graph.Counterparts beforeToo.catalogue.graph source sourceToo)
    (sameTarget : before.catalogue.graph.Counterparts beforeToo.catalogue.graph target targetToo)
    (apart : relation ≠ .contains) :
    SucceedTogether (relate source target relation attributes)
      (relate sourceToo targetToo relation attributes) before beforeToo fun _ _ =>
        Proceeds before beforeToo := by
  refine (succeeds_relate_eq same.there.1 sameTarget.there.1).weaken fun _ after became => ?_
  refine (succeeds_relate_eq same.there.2 sameTarget.there.2).weaken fun _ afterToo becameToo => ?_
  subst became becameToo
  refine ⟨corresponds.withEdge same sameTarget apart attributes, fun held => ?_⟩
  simpa [Graph.Counterparts, withEdge, Catalogue.withEdge] using held

/-- Both sides have the stand-in for a spelling, or get it. -/
theorem proceeds_placeholder (corresponds : before.catalogue.Corresponds beforeToo.catalogue)
    (spelling : String) :
    SucceedTogether (perform (Catalogue.placeholder spelling))
      (perform (Catalogue.placeholder spelling)) before beforeToo fun id idToo after afterToo =>
        Proceeds before beforeToo after afterToo ∧
          after.catalogue.graph.Counterparts afterToo.catalogue.graph id idToo := by
  have sound := corresponds.housed.sound
  have soundToo := corresponds.housedToo.sound
  have absent : ∀ {id : Nat}, before.catalogue.graph.nodeByKey? (.placeholder spelling) = none →
      beforeToo.catalogue.graph.nodeByKey? (.placeholder spelling) ≠ some id := by
    intro id fresh known
    rw [corresponds.fresh_placeholder fresh] at known
    cases known
  have absentToo : ∀ {id : Nat},
      beforeToo.catalogue.graph.nodeByKey? (.placeholder spelling) = none →
        before.catalogue.graph.nodeByKey? (.placeholder spelling) ≠ some id := by
    intro id fresh known
    rw [corresponds.symm.fresh_placeholder fresh] at known
    cases known
  refine succeeds_perform (Catalogue.ensures_placeholder (fun id known => ?_) fun fresh => ?_)
  · refine succeeds_perform (Catalogue.ensures_placeholder (fun idToo knownToo => ?_) fun fresh =>
      absurd known (absentToo fresh))
    exact ⟨.refl corresponds, .placeholder spelling, sound.nodeByKey?_eq_some.mp known,
      soundToo.nodeByKey?_eq_some.mp knownToo⟩
  · refine succeeds_perform (Catalogue.ensures_placeholder (fun idToo knownToo =>
      absurd knownToo (absent fresh)) fun _ => ?_)
    refine ⟨⟨corresponds.withPlaceholder fresh, fun held => ?_⟩, ?_⟩
    · exact (corresponds.counterparts_withPlaceholder fresh).mpr (.inl held)
    · exact (corresponds.counterparts_withPlaceholder fresh).mpr (.inr ⟨rfl, rfl⟩)

/-- A name that means nothing known gets a stand-in on both sides. -/
theorem proceeds_substitute (corresponds : before.catalogue.Corresponds beforeToo.catalogue)
    (viewpoint : Viewpoint) {referrer referrerToo : Nat} (spelling : String)
    (purpose : LookupPurpose)
    (same : before.catalogue.graph.Counterparts beforeToo.catalogue.graph referrer referrerToo) :
    SucceedTogether (substitute viewpoint referrer spelling purpose)
      (substitute viewpoint referrerToo spelling purpose) before beforeToo
      fun id idToo after afterToo => Proceeds before beforeToo after afterToo ∧
        after.catalogue.graph.Counterparts afterToo.catalogue.graph id idToo := by
  unfold substitute
  refine together_node corresponds same fun node => together_bind (succeeds_modify
    (succeeds_modify ?_))
  refine SucceedTogether.weaken (proceeds_placeholder ?_ spelling) fun held =>
    ⟨⟨held.1.corresponds, held.1.keeps⟩, held.2⟩
  exact corresponds

/-- A step for the entity of a key is taken for counterparts, or for nothing. -/
theorem proceeds_forEntity {key : EntityKey} {step stepToo : Nat → Step Unit}
    (corresponds : before.catalogue.Corresponds beforeToo.catalogue)
    (each : ∀ {id idToo : Nat},
      before.catalogue.graph.Counterparts beforeToo.catalogue.graph id idToo →
        SucceedTogether (step id) (stepToo idToo) before beforeToo fun _ _ =>
          Proceeds before beforeToo) :
    SucceedTogether (forEntity key step) (forEntity key stepToo) before beforeToo fun _ _ =>
      Proceeds before beforeToo := by
  have known := corresponds.nodeByKey? key
  refine together_get ?_
  generalize before.catalogue.nodeByKey? key = node at known ⊢
  generalize beforeToo.catalogue.nodeByKey? key = nodeToo at known ⊢
  cases known with
  | none => exact together_pure (.refl corresponds)
  | some held => exact each held

end Steps

section Lists

variable {relation : Relation} {attributes : Attributes}

/-- Relating nodes pair by pair adds these pairs and nothing else. -/
theorem succeeds_relates {items : List γ} (source target : γ → Nat) (apart : relation ≠ .contains)
    (housed : before.catalogue.Housed []) (there : ∀ item ∈ items,
      before.catalogue.HasNode (source item) ∧ before.catalogue.HasNode (target item)) :
    Succeeds (items.forM fun item => relate (source item) (target item) relation attributes) before
      fun _ after => Catalogue.Joined relation (items.map fun item => (source item, target item))
        before.catalogue after.catalogue := by
  induction items generalizing before with
  | nil => exact succeeds_pure (.refl housed)
  | cons item rest further =>
    obtain ⟨sourceThere, targetThere⟩ := there item List.mem_cons_self
    have first := Catalogue.Joined.withEdge housed sourceThere targetThere apart attributes
    refine succeeds_bind ((succeeds_relate_eq sourceThere targetThere).weaken ?_)
    rintro _ middle rfl
    refine (further first.housed fun later listed => ?_).weaken fun _ _ rest => first.trans rest
    obtain ⟨laterSource, laterTarget⟩ := there later (List.mem_cons_of_mem _ listed)
    exact ⟨first.hasNode laterSource, first.hasNode laterTarget⟩

/-- Where no lookup goes on along a relation, it does not matter in what order nodes are related
by it. -/
theorem proceeds_of_joined {pairs pairsToo : List (Nat × Nat)}
    (corresponds : before.catalogue.Corresponds beforeToo.catalogue)
    (quiet : relation ≠ .inherits ∧ relation ≠ .usesType)
    (joined : Catalogue.Joined relation pairs before.catalogue after.catalogue)
    (joinedToo : Catalogue.Joined relation pairsToo beforeToo.catalogue afterToo.catalogue)
    (alike : relation ≠ .overrides → ∀ {one other target targetToo : Nat},
      before.catalogue.graph.Counterparts beforeToo.catalogue.graph one other →
      before.catalogue.graph.Counterparts beforeToo.catalogue.graph target targetToo →
        ((one, target) ∈ pairs ↔ (other, targetToo) ∈ pairsToo)) :
    Proceeds before beforeToo after afterToo where
  corresponds := corresponds.joined joined joinedToo
    (fun leading => absurd leading (by simpa using quiet)) alike
  keeps := by
    rintro one other ⟨key, firstKey, secondKey⟩
    exact ⟨key, (joined.key? one).trans firstKey, (joinedToo.key? other).trans secondKey⟩

/-- Counterparts are related to the same nodes on both sides, in any order. -/
theorem proceeds_relateTargets {source sourceToo : Nat} {targets targetsToo : List Nat}
    (corresponds : before.catalogue.Corresponds beforeToo.catalogue)
    (apart : relation ≠ .contains) (quiet : relation ≠ .inherits ∧ relation ≠ .usesType)
    (same : before.catalogue.graph.Counterparts beforeToo.catalogue.graph source sourceToo)
    (alike : SameListed (before.catalogue.graph.Counterparts beforeToo.catalogue.graph) targets
      targetsToo) :
    SucceedTogether (targets.forM fun target => relate source target relation attributes)
      (targetsToo.forM fun target => relate sourceToo target relation attributes) before beforeToo
      fun _ _ => Proceeds before beforeToo := by
  refine (succeeds_relates (fun _ => source) id apart corresponds.housed
    fun target listed => ?_).weaken fun _ after joined => ?_
  · obtain ⟨_, _, held⟩ := alike.onto target listed
    exact ⟨same.there.1, held.there.1⟩
  · refine (succeeds_relates (fun _ => sourceToo) id apart corresponds.housedToo
      fun target listed => ?_).weaken fun _ afterToo joinedToo => ?_
    · obtain ⟨_, _, held⟩ := alike.back target listed
      exact ⟨same.there.2, held.there.2⟩
    · refine proceeds_of_joined corresponds quiet joined joinedToo fun _ _ _ _ _ held target => ?_
      simp only [List.mem_map, Prod.mk.injEq, id, exists_eq_right_right]
      have itself := Relator.rel_eq corresponds.unique same held
      exact and_congr (alike.mem_iff corresponds.unique target) itself

end Lists

section Types

variable (corresponds : before.catalogue.Corresponds beforeToo.catalogue)

include corresponds

section Referring

variable (viewpoint : Viewpoint) (purpose : LookupPurpose) (name : String)
  {referrer referrerToo : Nat}
  (same : before.catalogue.graph.Counterparts beforeToo.catalogue.graph referrer referrerToo)

include same

/-- What is another type than a node is another than its counterpart on the other side. -/
theorem acceptAlike_isOtherType : Catalogue.AcceptAlike before.catalogue beforeToo.catalogue
    (isOtherType referrer) (isOtherType referrerToo) := by
  intro one other node held found
  obtain rfl : node.id = one := corresponds.housed.sound.node_id found
  have itself : node.id = referrer ↔ other = referrerToo :=
    Relator.rel_eq corresponds.unique held same
  simp only [isOtherType, bne, beq_eq_decide, itself]

/-- A name means counterparts for counterparts. -/
theorem proceeds_namedType :
    SucceedTogether (namedType viewpoint referrer purpose name)
      (namedType viewpoint referrerToo purpose name) before beforeToo
      fun type typeToo after afterToo => Proceeds before beforeToo after afterToo ∧
        Option.Rel (after.catalogue.graph.Counterparts afterToo.catalogue.graph) type typeToo := by
  unfold namedType
  refine together_get ?_
  dsimp only
  rw [← corresponds.templateParameters same]
  split
  · exact together_pure ⟨.refl corresponds, .none⟩
  · have first := rel_head? ((corresponds.resolveFrom (acceptAlike_isOtherType corresponds same)
      (Catalogue.orderedAlone_isType fun node accepted => (Bool.and_eq_true_iff.mp accepted).1)
      (corresponds.scopeOf same) viewpoint name).forall₂_nodes)
    generalize List.head? _ = found at first ⊢
    generalize List.head? _ = foundToo at first ⊢
    cases first with
    | some held => exact together_pure ⟨.refl corresponds, .some held⟩
    | none =>
      refine together_bind ((proceeds_substitute corresponds viewpoint name purpose same).weaken ?_)
      intro _ _ _ _ standIn
      exact together_pure ⟨standIn.1, .some standIn.2⟩

/-- Counterparts use counterparts in a role. -/
theorem proceeds_useType {target targetToo : Nat} (role : String)
    (sameTarget : before.catalogue.graph.Counterparts beforeToo.catalogue.graph target targetToo) :
    SucceedTogether (useType role referrer target) (useType role referrerToo targetToo) before
      beforeToo fun _ _ => Proceeds before beforeToo :=
  proceeds_relate corresponds same sameTarget (by decide)

/-- Linking a name proceeds alike on both sides. -/
theorem proceeds_linkName (role : String) :
    SucceedTogether (linkName viewpoint referrer purpose role name)
      (linkName viewpoint referrerToo purpose role name) before beforeToo fun _ _ =>
        Proceeds before beforeToo := by
  unfold linkName
  refine together_bind ((proceeds_namedType corresponds viewpoint purpose name same).weaken ?_)
  intro type typeToo middle middleToo named
  obtain ⟨sofar, means⟩ := named
  cases means with
  | none => exact together_pure sofar
  | some held =>
    exact (proceeds_useType sofar.corresponds (sofar.keeps same) role held).weaken sofar.trans

/-- Linking a list of names proceeds alike on both sides. -/
theorem proceeds_linkNames (role : String) (names : List String) :
    SucceedTogether (names.forM (linkName viewpoint referrer purpose role))
      (names.forM (linkName viewpoint referrerToo purpose role)) before beforeToo fun _ _ =>
        Proceeds before beforeToo :=
  proceeds_forM corresponds fun name _ _ _ sofar =>
    proceeds_linkName sofar.corresponds viewpoint purpose name (sofar.keeps same) role

/-- Linking the target of an alias proceeds alike on both sides. -/
theorem proceeds_linkAliasTarget (spelling : String) :
    SucceedTogether (linkAliasTarget viewpoint spelling referrer)
      (linkAliasTarget viewpoint spelling referrerToo) before beforeToo fun _ _ =>
        Proceeds before beforeToo := by
  unfold linkAliasTarget
  cases Spelling.references spelling with
  | nil =>
    refine together_bind ((proceeds_placeholder corresponds _).weaken ?_)
    intro _ _ _ _ standIn
    obtain ⟨sofar, held⟩ := standIn
    exact (proceeds_useType sofar.corresponds (sofar.keeps same) "alias" held).weaken sofar.trans
  | cons name arguments =>
    refine together_bind ((proceeds_linkName corresponds viewpoint .aliasTarget name same
      "alias").weaken ?_)
    intro _ _ _ _ sofar
    exact (proceeds_linkNames sofar.corresponds viewpoint .aliasTarget (sofar.keeps same)
      "template_argument" arguments).weaken sofar.trans

/-- A record is linked to its base on both sides, or on neither. -/
theorem proceeds_linkBase (base : Base) :
    SucceedTogether (linkBase viewpoint base referrer) (linkBase viewpoint base referrerToo) before
      beforeToo fun _ _ => Proceeds before beforeToo := by
  unfold linkBase
  refine together_bind ((proceeds_namedType corresponds viewpoint .base _ same).weaken ?_)
  intro type typeToo middle middleToo named
  obtain ⟨sofar, means⟩ := named
  cases means with
  | none => exact together_pure sofar
  | some held =>
    have target := sofar.corresponds.dealias held
    have derived := sofar.keeps same
    refine together_get ?_
    dsimp only
    generalize middle.catalogue.dealias _ = base at target ⊢
    generalize middleToo.catalogue.dealias _ = baseToo at target ⊢
    have itself : base ≠ referrer ↔ baseToo ≠ referrerToo :=
      not_congr (Relator.rel_eq sofar.corresponds.unique target derived)
    simp only [itself]
    split
    · exact (proceeds_relate sofar.corresponds derived target (by decide)).weaken sofar.trans
    · exact together_pure sofar

/-- Linking the name of a field's type proceeds alike on both sides. -/
theorem proceeds_linkFieldName :
    SucceedTogether (linkFieldName viewpoint referrer name)
      (linkFieldName viewpoint referrerToo name) before beforeToo fun _ _ =>
        Proceeds before beforeToo := by
  unfold linkFieldName
  refine together_bind ((proceeds_namedType corresponds viewpoint .fieldType name same).weaken ?_)
  intro type typeToo middle middleToo named
  obtain ⟨sofar, means⟩ := named
  cases means with
  | none => exact together_pure sofar
  | some held =>
    refine together_bind ((proceeds_useType sofar.corresponds (sofar.keeps same) "field"
      held).weaken ?_)
    intro _ _ _ _ used
    have again := sofar.trans used
    refine together_node again.corresponds (again.keeps same) fun node => together_get ?_
    exact (proceeds_relate again.corresponds (again.corresponds.scopeOf (again.keeps same))
      (used.keeps held) (by decide)).weaken again.trans

end Referring

section Passes

variable (references : List SeenReference)

/-- The pass over aliases proceeds alike on both sides. -/
theorem proceeds_linkAliases :
    SucceedTogether (linkAliases references) (linkAliases references) before beforeToo
      fun _ _ => Proceeds before beforeToo := by
  refine proceeds_forM corresponds fun reference _ _ _ sofar => ?_
  obtain ⟨viewpoint, reference⟩ := reference
  cases reference with
  | aliasTarget owner spelling =>
    exact proceeds_forEntity sofar.corresponds fun held =>
      proceeds_linkAliasTarget sofar.corresponds viewpoint held spelling
  | _ => exact together_pure (.refl sofar.corresponds)

/-- The pass over base classes proceeds alike on both sides. -/
theorem proceeds_linkBases :
    SucceedTogether (linkBases references) (linkBases references) before beforeToo
      fun _ _ => Proceeds before beforeToo := by
  refine proceeds_forM corresponds fun reference _ _ _ sofar => ?_
  obtain ⟨viewpoint, reference⟩ := reference
  cases reference with
  | base derived base =>
    exact proceeds_forEntity sofar.corresponds fun held =>
      proceeds_linkBase sofar.corresponds viewpoint held base
  | _ => exact together_pure (.refl sofar.corresponds)

/-- The pass over fields proceeds alike on both sides. -/
theorem proceeds_linkFields :
    SucceedTogether (linkFields references) (linkFields references) before beforeToo
      fun _ _ => Proceeds before beforeToo := by
  refine proceeds_forM corresponds fun reference _ _ _ sofar => ?_
  obtain ⟨viewpoint, reference⟩ := reference
  cases reference with
  | fieldType owner spelling =>
    exact proceeds_forEntity sofar.corresponds fun held =>
      proceeds_forM sofar.corresponds fun name _ _ _ more =>
        proceeds_linkFieldName more.corresponds viewpoint name (more.keeps held)
  | _ => exact together_pure (.refl sofar.corresponds)

/-- The pass over signatures proceeds alike on both sides. -/
theorem proceeds_linkSignatures :
    SucceedTogether (linkSignatures references) (linkSignatures references) before beforeToo
      fun _ _ => Proceeds before beforeToo := by
  refine proceeds_forM corresponds fun reference _ _ _ sofar => ?_
  obtain ⟨viewpoint, reference⟩ := reference
  cases reference with
  | parameterType owner spelling =>
    exact proceeds_forEntity sofar.corresponds fun held =>
      proceeds_linkNames sofar.corresponds viewpoint .parameterType held "parameter" _
  | returnType owner spelling =>
    exact proceeds_forEntity sofar.corresponds fun held =>
      proceeds_linkNames sofar.corresponds viewpoint .returnType held "return" _
  | _ => exact together_pure (.refl sofar.corresponds)

/-- The pass over local variables proceeds alike on both sides. -/
theorem proceeds_linkLocals :
    SucceedTogether (linkLocals references) (linkLocals references) before beforeToo
      fun _ _ => Proceeds before beforeToo := by
  refine proceeds_forM corresponds fun reference _ _ _ sofar => ?_
  obtain ⟨viewpoint, reference⟩ := reference
  cases reference with
  | localType owner spelling =>
    exact proceeds_forEntity sofar.corresponds fun held =>
      proceeds_linkNames sofar.corresponds viewpoint .localType held "local" _
  | _ => exact together_pure (.refl sofar.corresponds)

end Passes

end Types

end Linking

end DeclGraph

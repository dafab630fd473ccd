import DeclGraph.Proofs.Linking.Types

/-!
# How names are noted

A name that means nothing known is noted in one way: the list of what is unresolved gets an
entry, and the catalogue a stand-in unless the name has one. Looking up a type does nothing
else.
-/

namespace DeclGraph

namespace Catalogue

/-- The catalogue with a stand-in for a spelling. -/
def withStandIn (catalogue : Catalogue) (spelling : String) : Catalogue :=
  match catalogue.graph.nodeByKey? (.placeholder spelling) with
  | some _ => catalogue
  | none => catalogue.withPlaceholder spelling

variable {catalogue : Catalogue} {spelling : String}

/-- Nothing changes when the placeholder of a spelling is there already. -/
theorem withStandIn_of_known {id : Nat}
    (known : catalogue.graph.nodeByKey? (.placeholder spelling) = some id) :
    catalogue.withStandIn spelling = catalogue := by
  simp [withStandIn, known]

/-- A spelling without a placeholder gets a new one. -/
theorem withStandIn_of_fresh
    (fresh : catalogue.graph.nodeByKey? (.placeholder spelling) = none) :
    catalogue.withStandIn spelling = catalogue.withPlaceholder spelling := by
  simp [withStandIn, fresh]

/-- The stand-in for a spelling is found or added, and nothing else changes. -/
theorem ensures_withStandIn (sound : catalogue.graph.Sound) {done : Nat → Catalogue → Prop}
    {failed : Catalogue → Prop}
    (held : ∀ id, (catalogue.withStandIn spelling).graph.key? id = some (.placeholder spelling) →
      done id (catalogue.withStandIn spelling)) :
    Action.Ensures (placeholder spelling) catalogue done failed := by
  refine ensures_placeholder (fun id known => ?_) fun fresh => ?_
  · rw [withStandIn_of_known known] at held
    exact held id (sound.nodeByKey?_eq_some.mp known)
  · rw [withStandIn_of_fresh fresh] at held
    exact held _ ((catalogue.graph.key?_addNode _ _ _ _).trans (if_pos rfl))

end Catalogue

namespace Linking

/-- The linking in which a name is noted as unresolved. -/
def noting (linking : Linking) (entry : Unresolved) : Linking :=
  ⟨linking.catalogue.withStandIn entry.spelling, linking.unresolved ++ [entry]⟩

/-- Nothing is noted, and no node is added. -/
structure SameNotes (before after : Linking) : Prop where
  unresolved : after.unresolved = before.unresolved
  nodeTable : after.catalogue.graph.nodeTable = before.catalogue.graph.nodeTable

/-- Doing nothing notes nothing. -/
theorem SameNotes.refl (linking : Linking) : linking.SameNotes linking := ⟨rfl, rfl⟩

/-- Noting nothing twice is noting nothing. -/
theorem SameNotes.trans {before middle after : Linking} (first : before.SameNotes middle)
    (second : middle.SameNotes after) : before.SameNotes after :=
  ⟨second.unresolved.trans first.unresolved, second.nodeTable.trans first.nodeTable⟩

/-- Making an edge notes nothing. -/
theorem sameNotes_withEdge (linking : Linking) (key : EdgeKey) (attributes : Attributes) :
    linking.SameNotes (linking.withEdge key attributes) where
  unresolved := rfl
  nodeTable := by simp [withEdge, Catalogue.withEdge]

/-- What the lookup of a type for a referring node gives, and what it leaves. -/
inductive Looks (viewpoint : Viewpoint) (referrer : Nat) (purpose : LookupPurpose)
    (name : String) (before : Linking) : Option Nat → Linking → Prop where
  | hidden (inForce : name ∈ before.catalogue.templateParameters referrer) :
    Looks viewpoint referrer purpose name before none before
  | found {id : Nat} (first : (before.catalogue.resolveFrom viewpoint (isOtherType referrer) name
      (before.catalogue.scopeOf referrer)).head? = some id) :
    Looks viewpoint referrer purpose name before (some id) before
  | noted {id : Nat} {node : Node}
    (nothing : before.catalogue.resolveFrom viewpoint (isOtherType referrer) name
      (before.catalogue.scopeOf referrer) = [])
    (referrerNode : before.catalogue.graph.nodeTable[referrer]? = some node)
    (carried : (before.catalogue.withStandIn name).graph.key? id = some (.placeholder name)) :
    Looks viewpoint referrer purpose name before (some id)
      (before.noting ⟨viewpoint.unit, node, name, purpose⟩)

variable {bonds : List Bond} {before after : Linking} {viewpoint : Viewpoint} {referrer : Nat}
  {purpose : LookupPurpose} {name : String}

/-- Having a placeholder stand in is growth of any sort. -/
theorem grows_withStandIn (bonds : List Bond) (before : Linking) (spelling : String) :
    before.Grows bonds { before with catalogue := before.catalogue.withStandIn spelling } := by
  cases known : before.catalogue.graph.nodeByKey? (.placeholder spelling) with
  | some id =>
    rw [Catalogue.withStandIn_of_known known]
    exact .refl
  | none =>
    rw [Catalogue.withStandIn_of_fresh known]
    exact .standIn .refl known

/-- A linking grows by what is noted in it. -/
theorem grows_noting (bonds : List Bond) (before : Linking) (entry : Unresolved) :
    before.Grows bonds (before.noting entry) :=
  .note (grows_withStandIn bonds before entry.spelling) entry

/-- A placeholder can always be had, and it is the one that stands for the spelling. -/
theorem succeeds_standIn {spelling : String} (housed : before.catalogue.Housed []) :
    Succeeds (perform (Catalogue.placeholder spelling)) before fun id after =>
      after = { before with catalogue := before.catalogue.withStandIn spelling } ∧
        after.catalogue.graph.key? id = some (.placeholder spelling) :=
  succeeds_perform (Catalogue.ensures_withStandIn housed.sound fun _ carried => ⟨rfl, carried⟩)

/-- Noting a name that means nothing succeeds and gives its placeholder. -/
theorem succeeds_noting {spelling : String} (housed : before.catalogue.Housed [])
    {node : Node} (found : before.catalogue.graph.nodeTable[referrer]? = some node) :
    Succeeds (substitute viewpoint referrer spelling purpose) before fun id after =>
      after = before.noting ⟨viewpoint.unit, node, spelling, purpose⟩ ∧
        after.catalogue.graph.key? id = some (.placeholder spelling) := by
  refine succeeds_bind (succeeds_perform (Catalogue.Action.ensures_reading
    (Graph.node_of_nodeTable found) ?_))
  refine succeeds_bind (succeeds_modify (succeeds_perform ?_))
  exact Catalogue.ensures_withStandIn housed.sound fun id carried => ⟨rfl, carried⟩

/-- Looking up a name succeeds and does what is said of such a lookup. -/
theorem succeeds_looks (housed : before.catalogue.Housed [])
    (there : before.catalogue.HasNode referrer) :
    Succeeds (namedType viewpoint referrer purpose name) before
      (Looks viewpoint referrer purpose name before) := by
  obtain ⟨node, nodeFound⟩ := Graph.isSome_key?_iff.mp there
  refine succeeds_bind (succeeds_get ?_)
  dsimp only
  split
  · rename_i inForce
    exact succeeds_pure (.hidden (by simpa using inForce))
  · split
    · rename_i found first
      exact succeeds_pure (.found first)
    · rename_i nothing
      refine succeeds_bind ((succeeds_noting housed nodeFound).weaken ?_)
      rintro id after ⟨rfl, carried⟩
      exact succeeds_pure (.noted (List.head?_eq_none_iff.mp nothing) nodeFound carried)

/-- Looking up a name is growth of any sort. -/
theorem Looks.grows (bonds : List Bond) {meant : Option Nat}
    (looks : Looks viewpoint referrer purpose name before meant after) :
    before.Grows bonds after := by
  cases looks with
  | hidden => exact .refl
  | found => exact .refl
  | noted => exact grows_noting bonds before _

/-- What a lookup gives is a type or a stand-in. -/
theorem Looks.isUsable {id : Nat} (housed : before.catalogue.Housed [])
    (looks : Looks viewpoint referrer purpose name before (some id) after) :
    after.catalogue.Accepts Node.isUsable id := by
  cases looks with
  | found first =>
    obtain ⟨node, found, accepted⟩ :=
      Catalogue.accepts_of_mem_resolveFrom (List.mem_of_mem_head? first)
    simp only [isOtherType, Bool.and_eq_true] at accepted
    exact ⟨node, found, by simp [Node.isUsable, accepted.1]⟩
  | noted _ _ carried =>
    exact Catalogue.isUsable_of_placeholder ((grows_noting [] before _).housed housed).sound carried

end Linking

end DeclGraph

import DeclGraph.Proofs.Linking.CallLines
import DeclGraph.Proofs.Linking.Frame
import DeclGraph.Proofs.Linking.Owners

/-!
# The types that records hold

A record holds a type when one of its data members uses it. Linking a data member adds both at
once: the use of the type by the member, and the name of the member on the edge from the record
to the type. So the names on such an edge are always those of the members that use the type.
-/

namespace DeclGraph

/-- What an edge carries from a record to a type that a data member holds. -/
def fieldAttributes (name : String) : Attributes :=
  (∅ : Attributes).insert AttributeName.viaFields (.texts [name])

/-- The family of fields has one kind. -/
theorem EntityKind.eq_field {kind : EntityKind} (family : kind.family = .field) :
    kind = .field := by
  cases kind <;> simp_all [EntityKind.family]

/-- A union of lists of texts is strictly sorted. -/
theorem sortedUnion_texts (first second : List String) :
    (sortedUnion first second).Pairwise (· < ·) :=
  (sortedUnion_increasing first second).imp compareOfLessAndEq_eq_lt.mp

namespace Graph

/-- The names on the edge from a record to a type that it holds. -/
def viaFields (graph : Graph) (record target : Nat) : List String :=
  ((graph.attributesOf? ⟨record, target, .hasField⟩).bind
    (·.texts? AttributeName.viaFields)).getD []

/-- A record has a data member that uses a type as its own. -/
structure HoldsType (graph : Graph) (record : Nat) (field : Node) (target : Nat) : Prop where
  there : graph.nodeTable[field.id]? = some field
  is_field : field.kind = .field
  member : graph.Related record .contains field.id
  used : graph.UsedAs field.id "field" target

/-- The edges from records to types tell which data members hold which types. -/
structure FieldsTold (graph : Graph) : Prop where
  mem_iff : ∀ {record target : Nat} {name : String}, name ∈ graph.viaFields record target ↔
    ∃ field, graph.HoldsType record field target ∧ field.key.name.simple = name
  told : ∀ {record target : Nat} {attributes : Attributes},
    graph.attributesOf? ⟨record, target, .hasField⟩ = some attributes →
      ∃ names, attributes.texts? AttributeName.viaFields = some names ∧ names ≠ [] ∧
        names.Pairwise (· < ·)

variable {graph : Graph}

/-- An edge made for one field names that field alone. -/
theorem texts?_fieldAttributes (name : String) :
    (fieldAttributes name).texts? AttributeName.viaFields = some [name] := by
  simp [fieldAttributes, Attributes.texts?, Value.texts?]

/-- Making the edge for one more field adds its name to those noted. -/
theorem texts?_absorb_fieldAttributes (attributes : Attributes) (name : String) :
    (attributes.absorb (fieldAttributes name)).texts? AttributeName.viaFields =
      some (sortedUnion ((attributes.texts? AttributeName.viaFields).getD []) [name]) := by
  rw [Attributes.texts?, Attributes.getElem?_absorb]
  simp [fieldAttributes, Attributes.absorbed, Attributes.texts?, Value.texts?]

/-- The graph in which a data member uses a type, and its record holds it. -/
def withField (graph : Graph) (field : Node) (scope type : Nat) : Graph :=
  (graph.withEdge ⟨field.id, type, .usesType⟩ (roleAttributes "field")).withEdge
    ⟨scope, type, .hasField⟩ (fieldAttributes field.key.name.simple)

section Member

variable {field : Node} {scope type record target : Nat} (sound : graph.Sound)
  (found : graph.nodeTable[field.id]? = some field) (typeThere : (graph.key? type).isSome)

include sound found typeThere

/-- Noting that a field uses a type keeps the graph sound. -/
theorem Sound.usedInField : (graph.withEdge ⟨field.id, type, .usesType⟩
    (roleAttributes "field")).Sound :=
  sound.withEdge (key?_of_node found ▸ rfl) typeThere

/-- The edge from the record takes the name of the member up, and no other edge does. -/
theorem Sound.attributesOf?_withField :
    (graph.withField field scope type).attributesOf? ⟨record, target, .hasField⟩ =
      if scope = record ∧ type = target then
        some ((graph.attributesOf? ⟨record, target, .hasField⟩).elim
          (fieldAttributes field.key.name.simple)
          fun held => held.absorb (fieldAttributes field.key.name.simple))
      else graph.attributesOf? ⟨record, target, .hasField⟩ := by
  have before : (graph.withEdge ⟨field.id, type, .usesType⟩
      (roleAttributes "field")).attributesOf? ⟨record, target, .hasField⟩ =
        graph.attributesOf? ⟨record, target, .hasField⟩ := by
    rw [sound.attributesOf?_withEdge, if_neg (by simp)]
  rw [withField, (sound.usedInField found typeThere).attributesOf?_withEdge, before]
  simp only [EdgeKey.mk.injEq, and_true]

/-- A data member adds its name between its record and its type, and nowhere else. -/
theorem Sound.mem_viaFields_withField {name : String} :
    name ∈ (graph.withField field scope type).viaFields record target ↔
      name ∈ graph.viaFields record target ∨
        (scope = record ∧ type = target ∧ field.key.name.simple = name) := by
  rw [viaFields, sound.attributesOf?_withField found typeThere]
  split
  · rename_i same
    obtain ⟨rfl, rfl⟩ := same
    rw [viaFields]
    cases graph.attributesOf? ⟨scope, type, .hasField⟩ with
    | none => simp [texts?_fieldAttributes, eq_comm]
    | some held => simp [texts?_absorb_fieldAttributes, eq_comm]
  · rename_i other
    exact (or_iff_left fun new => other ⟨new.1, new.2.1⟩).symm

/-- A data member that uses one type more is one member more for its record and the type. -/
theorem Sound.holdsType_withField {other : Node} (isField : field.kind = .field)
    (lies : ∀ outer, graph.Related outer .contains field.id ↔ scope = outer) :
    (graph.withField field scope type).HoldsType record other target ↔
      graph.HoldsType record other target ∨ (scope = record ∧ type = target ∧ field = other) := by
  have soundUsed := sound.usedInField found typeThere
  have table : (graph.withField field scope type).nodeTable = graph.nodeTable := by
    simp [withField]
  have contains : ∀ {outer inner : Nat}, (graph.withField field scope type).Related outer
      .contains inner ↔ graph.Related outer .contains inner := by
    intro outer inner
    rw [withField, soundUsed.related_withEdge, sound.related_withEdge]
    simp
  have used : (graph.withField field scope type).UsedAs other.id "field" target ↔
      graph.UsedAs other.id "field" target ∨ (other.id = field.id ∧ target = type) := by
    rw [withField, soundUsed.usedAs_withEdge_of_ne (by simp), sound.usedAs_withEdge]
    simp
  constructor
  · rintro ⟨there, otherField, inRecord, uses⟩
    rw [table] at there
    rw [contains] at inRecord
    rcases used.mp uses with old | ⟨sameId, rfl⟩
    · exact .inl ⟨there, otherField, inRecord, old⟩
    · rw [sameId, found] at there
      obtain rfl := Option.some.inj there
      exact .inr ⟨(lies record).mp inRecord, rfl, rfl⟩
  · rintro (⟨there, otherField, inRecord, uses⟩ | ⟨rfl, rfl, rfl⟩)
    · exact ⟨table ▸ there, otherField, contains.mpr inRecord, used.mpr (.inl uses)⟩
    · exact ⟨table ▸ found, isField, contains.mpr ((lies scope).mpr rfl),
        used.mpr (.inr ⟨rfl, rfl⟩)⟩

/-- Linking a data member to a type keeps told which data members hold which types. -/
theorem FieldsTold.withField (told : graph.FieldsTold) (isField : field.kind = .field)
    (lies : ∀ outer, graph.Related outer .contains field.id ↔ scope = outer) :
    (graph.withField field scope type).FieldsTold where
  mem_iff := by
    intro record target name
    rw [sound.mem_viaFields_withField found typeThere, told.mem_iff]
    simp only [sound.holdsType_withField found typeThere isField lies]
    constructor
    · rintro (⟨other, holds, named⟩ | ⟨inRecord, isType, named⟩)
      · exact ⟨other, .inl holds, named⟩
      · exact ⟨field, .inr ⟨inRecord, isType, rfl⟩, named⟩
    · rintro ⟨other, holds | ⟨inRecord, isType, rfl⟩, named⟩
      · exact .inl ⟨other, holds, named⟩
      · exact .inr ⟨inRecord, isType, named⟩
  told := by
    intro record target attributes held
    rw [sound.attributesOf?_withField found typeThere] at held
    split at held
    · obtain rfl := Option.some.inj held
      cases graph.attributesOf? ⟨record, target, .hasField⟩ with
      | none => exact ⟨_, texts?_fieldAttributes _, by simp, by simp⟩
      | some former =>
        refine ⟨_, texts?_absorb_fieldAttributes former _, fun nothing => ?_,
          sortedUnion_texts _ _⟩
        have listed : field.key.name.simple ∈ sortedUnion
            ((former.texts? AttributeName.viaFields).getD []) [field.key.name.simple] := by simp
        rw [nothing] at listed
        cases listed
    · exact told.told held

end Member

/-- Before anything is linked, there is nothing to tell. -/
theorem Sound.fieldsTold_of_none (sound : graph.Sound)
    (noHolder : ∀ source target, ¬ graph.Related source .hasField target)
    (noUse : ∀ source target, ¬ graph.UsedAs source "field" target) : graph.FieldsTold := by
  have none : ∀ record target, graph.attributesOf? ⟨record, target, .hasField⟩ = none := by
    intro record target
    rw [← Option.not_isSome_iff_eq_none, attributesOf?, Option.isSome_map,
      sound.edgeBetween?_isSome]
    exact noHolder record target
  constructor
  case mem_iff =>
    intro record target name
    simp only [viaFields, none, Option.bind_none, Option.getD_none, List.not_mem_nil, false_iff]
    rintro ⟨field, holds, _⟩
    exact noUse _ _ holds.used
  case told =>
    intro record target attributes held
    rw [none] at held
    cases held

end Graph

namespace Linking

variable {bonds : List Bond} {before middle after : Linking}

/-- Additions for other reasons add no use in a role. -/
theorem Grows.usedAs_iff (grows : before.Grows bonds after) (start : before.catalogue.Housed [])
    {role : String} (apart : .use role ∉ bonds) {source target : Nat} :
    after.catalogue.graph.UsedAs source role target ↔
      before.catalogue.graph.UsedAs source role target := by
  induction grows with
  | refl => rfl
  | @edge middle bond key attributes sofar among joins further =>
    have sound := (sofar.housed start).sound
    refine Iff.trans ?_ further
    show (middle.catalogue.graph.withEdge key attributes).UsedAs source role target ↔ _
    by_cases uses : key.relation = .usesType
    · obtain ⟨other, rfl⟩ : ∃ other, bond = .use other := by
        have relation := joins.relation_eq
        cases bond <;> simp_all [Bond.relation]
      obtain ⟨rfl, _⟩ := joins.of_use rfl
      obtain ⟨first, second, relation⟩ := key
      obtain rfl : relation = .usesType := uses
      rw [sound.usedAs_withEdge]
      refine or_iff_left ?_
      rintro ⟨_, _, rfl⟩
      exact apart among
    · refine sound.usedAs_withEdge_of_ne fun same => uses ?_
      rw [same]
  | standIn _ _ further => exact further
  | note _ _ further => exact further

/-- Additions for other reasons change no type that a record holds. -/
theorem Grows.holdsType_iff (grows : before.Grows bonds after)
    (start : before.catalogue.Housed []) (apart : .use "field" ∉ bonds) {record target : Nat}
    {field : Node} :
    after.catalogue.graph.HoldsType record field target ↔
      before.catalogue.graph.HoldsType record field target := by
  constructor
  · rintro ⟨there, isField, member, used⟩
    exact ⟨grows.nodes_declared there (by simp [isField]), isField,
      (grows.contains_iff start).mp member, (grows.usedAs_iff start apart).mp used⟩
  · rintro ⟨there, isField, member, used⟩
    exact ⟨grows.nodes_kept start there, isField, (grows.contains_iff start).mpr member,
      (grows.usedAs_iff start apart).mpr used⟩

/-- Additions for other reasons keep told which data members hold which types. -/
theorem Grows.fieldsTold (grows : before.Grows bonds after) (start : before.catalogue.Housed [])
    (noUse : .use "field" ∉ bonds) (noHolder : ∀ bond ∈ bonds, bond.relation ≠ .hasField)
    (told : before.catalogue.graph.FieldsTold) : after.catalogue.graph.FieldsTold where
  mem_iff := by
    intro record target name
    rw [Graph.viaFields, grows.attributesOf?_eq start noHolder, ← Graph.viaFields, told.mem_iff]
    simp only [grows.holdsType_iff start noUse]
  told := by
    intro record target attributes held
    rw [grows.attributesOf?_eq start noHolder] at held
    exact told.told held

/-- The linking in which a data member uses a type, and its record holds it. -/
def withField (linking : Linking) (field : Node) (type : Nat) : Linking :=
  (linking.withEdge ⟨field.id, type, .usesType⟩ (roleAttributes "field")).withEdge
    ⟨linking.catalogue.scopeOf field.id, type, .hasField⟩
    (fieldAttributes field.key.name.simple)

/-- What linking a data member to one type leaves: a note or nothing where the name means no
type, else the use of the type and the name of the member on the edge from its record. -/
inductive LinksField (viewpoint : Viewpoint) (field : Node) (name : String) (before : Linking) :
    Linking → Prop where
  | hidden (looks : Looks viewpoint field.id .fieldType name before none before) :
    LinksField viewpoint field name before before
  | linked {type : Nat} {middle : Linking}
    (looks : Looks viewpoint field.id .fieldType name before (some type) middle) :
    LinksField viewpoint field name before (middle.withField field type)

/-- The two edges that a data member adds have their reasons. -/
theorem joins_useOfField {field : Node} {type : Nat}
    (found : before.catalogue.graph.nodeTable[field.id]? = some field)
    (usable : before.catalogue.Accepts Node.isUsable type) :
    (Bond.use "field").Joins before.catalogue ⟨field.id, type, .usesType⟩
      (roleAttributes "field") :=
  Bond.joins_use "field" (Graph.isSome_key?_iff.mpr ⟨field, found⟩) usable

section Member

variable {viewpoint : Viewpoint} {field : Node} {name : String}
  (housed : before.catalogue.Housed [])
  (found : before.catalogue.graph.nodeTable[field.id]? = some field)

include housed found

/-- The record of a field may be joined to the type that the field uses. -/
theorem joins_field {type : Nat} (usable : before.catalogue.Accepts Node.isUsable type) :
    Bond.field.Joins
      (before.withEdge ⟨field.id, type, .usesType⟩ (roleAttributes "field")).catalogue
      ⟨before.catalogue.scopeOf field.id, type, .hasField⟩
      (fieldAttributes field.key.name.simple) := by
  have use := Grows.edge (.refl : before.Grows [.use "field"] before) List.mem_cons_self
    (joins_useOfField found usable)
  refine ⟨?_, use.hasNode housed usable.hasNode, rfl, nofun, nofun, nofun⟩
  exact use.hasNode housed (Catalogue.hasNode_scopeOf housed.sound field.id)

/-- The two edges made for a field are growth that the pass over fields allows. -/
theorem grows_withField {type : Nat} (amongUse : .use "field" ∈ bonds)
    (amongField : .field ∈ bonds) (usable : before.catalogue.Accepts Node.isUsable type) :
    before.Grows bonds (before.withField field type) :=
  .edge (.edge .refl amongUse (joins_useOfField found usable)) amongField
    (joins_field housed found usable)

/-- Linking a data member to one type does this and nothing else. -/
theorem succeeds_linkFieldName_links :
    Succeeds (linkFieldName viewpoint field.id name) before fun _ =>
      LinksField viewpoint field name before := by
  have there : before.catalogue.HasNode field.id := Graph.isSome_key?_iff.mpr ⟨field, found⟩
  refine succeeds_bind ((succeeds_looks housed there).weaken ?_)
  intro meant middle looks
  cases meant with
  | none =>
    cases looks with
    | hidden inForce => exact succeeds_pure (.hidden (.hidden inForce))
  | some type =>
    have grows := looks.grows []
    have housedMiddle := grows.housed housed
    have usable := looks.isUsable housed
    have joins := Bond.joins_use "field" (grows.hasNode housed there) usable
    refine succeeds_bind ((succeeds_relate_eq joins.source_there joins.target_there).weaken ?_)
    rintro _ next became
    have use : middle.Grows [.use "field"] next :=
      became ▸ .edge .refl List.mem_cons_self joins
    have foundNext := use.nodes_kept housedMiddle (grows.nodes_kept housed found)
    refine succeeds_bind (succeeds_perform (Catalogue.Action.ensures_reading
      (Graph.node_of_nodeTable foundNext) ?_))
    refine succeeds_bind (succeeds_get ?_)
    show Succeeds (relate (next.catalogue.scopeOf field.id) type .hasField _) next _
    rw [use.scopeOf_eq housedMiddle]
    refine (succeeds_relate_eq (use.hasNode housedMiddle
      (Catalogue.hasNode_scopeOf housedMiddle.sound field.id))
      (use.hasNode housedMiddle usable.hasNode)).weaken ?_
    rintro _ after rfl
    subst became
    exact .linked looks

/-- Linking a field makes the catalogue grow as that pass allows. -/
theorem LinksField.grows (links : LinksField viewpoint field name before after)
    (amongUse : .use "field" ∈ bonds) (amongField : .field ∈ bonds) :
    before.Grows bonds after := by
  cases links with
  | hidden => exact .refl
  | linked looks =>
    have grows := looks.grows bonds
    exact grows.trans (grows_withField (grows.housed housed) (grows.nodes_kept housed found)
      amongUse amongField (looks.isUsable housed))

/-- Linking a data member to one type keeps told which data members hold which types. -/
theorem LinksField.fieldsTold (links : LinksField viewpoint field name before after)
    (isField : field.kind = .field) (told : before.catalogue.graph.FieldsTold) :
    after.catalogue.graph.FieldsTold := by
  cases links with
  | hidden => exact told
  | @linked type middle looks =>
    have grows := looks.grows []
    have housedMiddle := grows.housed housed
    have foundMiddle := grows.nodes_kept housed found
    have toldMiddle := grows.fieldsTold housed (by simp) (by simp) told
    have related := housedMiddle.related_scopeOf foundMiddle
      (by simp [isField, EntityKind.family]) (by simp [isField, EntityKind.family])
    exact toldMiddle.withField housedMiddle.sound foundMiddle (looks.isUsable housed).hasNode
      isField fun outer =>
        ⟨fun inOuter => housedMiddle.single_scope related inOuter, fun same => same ▸ related⟩

end Member

/-- Linking a data member keeps told which data members hold which types. -/
theorem succeeds_linkField_told {viewpoint : Viewpoint} {spelling : String} {field : Node}
    (housed : before.catalogue.Housed [])
    (found : before.catalogue.graph.nodeTable[field.id]? = some field)
    (isField : field.kind = .field) (told : before.catalogue.graph.FieldsTold) :
    Succeeds (linkField viewpoint spelling field.id) before fun _ after =>
      before.Grows fieldBonds after ∧ after.catalogue.graph.FieldsTold := by
  refine succeeds_forM_invariant (fun name _ linking held => ?_) ⟨.refl, told⟩
  obtain ⟨sofar, toldHere⟩ := held
  have housedHere := sofar.housed housed
  have foundHere := sofar.nodes_kept housed found
  refine (succeeds_linkFieldName_links housedHere foundHere).weaken fun _ after links => ⟨?_, ?_⟩
  · exact sofar.trans (links.grows housedHere foundHere (by decide) (by decide))
  · exact links.fieldsTold housedHere foundHere isField toldHere

/-- Linking all data members keeps told which data members hold which types. -/
theorem succeeds_linkFields_told {references : List SeenReference}
    (housed : before.catalogue.Housed []) (keeps : before.catalogue.MovesWithinFamilies)
    (owned : AllOwned references) (told : before.catalogue.graph.FieldsTold) :
    Succeeds (linkFields references) before fun _ after =>
      before.Grows fieldBonds after ∧ after.catalogue.graph.FieldsTold := by
  refine succeeds_forM_invariant (fun item member linking held => ?_) ⟨.refl, told⟩
  obtain ⟨sofar, toldHere⟩ := held
  obtain ⟨viewpoint, reference⟩ := item
  cases reference with
  | fieldType owner spelling =>
    refine succeeds_forEntity_cases (fun _ => ⟨sofar, toldHere⟩) fun id known => ?_
    have housedHere := sofar.housed housed
    have family : owner.family = .field := owned _ member
    obtain ⟨kind, held, sameFamily⟩ := Catalogue.kind?_of_nodeByKey? housedHere.sound
      (sofar.movesWithinFamilies keeps) known
    obtain ⟨field, found, rfl⟩ := Option.map_eq_some_iff.mp held
    obtain rfl := housedHere.sound.node_id found
    have isField : field.kind = .field := EntityKind.eq_field (sameFamily.trans family)
    refine (succeeds_linkField_told housedHere found isField toldHere).weaken ?_
    rintro _ after ⟨more, next⟩
    exact ⟨sofar.trans more, next⟩
  | _ => exact succeeds_pure ⟨sofar, toldHere⟩

end Linking

end DeclGraph

import DeclGraph.ParseTree.Reading

/-!
# Visits of parse trees

A visit is put together from a few parts: entering and leaving a block, and noting
what a single node declares. What holds of doing nothing and of every part, and goes
from two visits to the one after the other, holds of the visit of any tree, whatever
its shape.
-/

namespace DeclGraph

namespace SourceText

variable {source : SourceText} {tree : ParseTree} {head : RecordHead}

/-- The kinds that a tree can give a record are kinds of records. -/
theorem isRecord_of_recordKind? {kind : EntityKind} (known : recordKind? tree = some kind) :
    kind.isRecord = true := by
  unfold recordKind? at known
  split at known <;> cases known <;> rfl

/-- A head of a record has the kind of one. -/
theorem isRecord_of_recordHead? (known : source.recordHead? tree = some head) :
    head.kind.isRecord = true := by
  simp only [recordHead?, Option.bind_eq_bind, Option.bind_eq_some_iff] at known
  obtain ⟨kind, isKind, name, -, same⟩ := known
  cases same
  exact isRecord_of_recordKind? isKind

/-- A head that is embedded in a type has the kind of a record. -/
theorem isRecord_of_embeddedHead? (known : source.embeddedHead? tree = some head) :
    head.kind.isRecord = true := by
  simp only [embeddedHead?, Option.bind_eq_bind, Option.bind_eq_some_iff] at known
  obtain ⟨_, -, inHead⟩ := known
  exact isRecord_of_recordHead? inHead

/-- The head that a type definition plans has the kind of a record. -/
theorem isRecord_of_typedefPlan? {plan : TypedefPlan} (known : source.typedefPlan? tree = some plan)
    (declares : plan.record = some head) : head.kind.isRecord = true := by
  simp only [typedefPlan?, Option.bind_eq_bind, Option.bind_eq_some_iff] at known
  obtain ⟨type, -, same⟩ := known
  split at same
  · cases same
    cases declares
  · rename_i kind isKind
    split at same
    · cases same
      obtain ⟨_, -, rfl⟩ := Option.map_eq_some_iff.mp declares
      exact isRecord_of_recordKind? isKind
    · obtain ⟨name, -, same⟩ := Option.bind_eq_some_iff.mp same
      cases same
      cases declares
      exact isRecord_of_recordKind? isKind

end SourceText

namespace Reading

variable {source : SourceText} {reading : Reading}

/-! ### What a node declares at the place of the reader -/

/-- The reader at its place, with nothing found so far. -/
def emptyHanded (reading : Reading) : Reading :=
  { reading with declarations := [], directives := [] }

/-- Whether a declaration stands where the reader stands: in its scopes, or in scopes that
a qualifier names below them, and with the access in force. Namespaces are left out, as
they have no access. -/
structure StandsAt (reading : Reading) (declaration : Declaration) : Prop where
  scope : ∃ qualifiers : List String,
    declaration.scope = reading.scope ++ qualifiers.map fun name => ⟨name, .unknown⟩
  access : declaration.access = reading.access
  kind : declaration.kind ≠ .namespaceScope

/-- Whether declarations stand where the reader stands and go by its place only. -/
structure DeclaresAtPlace (declared : Reading → List Declaration) : Prop where
  byPlace (reading : Reading) : declared reading = declared reading.emptyHanded
  standsAt {reading : Reading} {declaration : Declaration}
    (noted : declaration ∈ declared reading) : StandsAt reading declaration

/-- The function that a tree defines. -/
def functionAt (source : SourceText) (tree : ParseTree) (reading : Reading) : List Declaration :=
  match (tree.child? "declarator").map ParseTree.peel with
  | none => []
  | some (function, marks) =>
    if function.kind ≠ "function_declarator" then []
    else ((reading.callableAt? source tree function marks).map (withBody source tree)).toList

/-- The alias that a tree introduces. -/
def aliasAt (source : SourceText) (tree : ParseTree) (reading : Reading) : List Declaration :=
  (source.alias? reading.scope reading.access reading.templateParameters tree).toList

/-- The record with a known head, as a tree declares it. -/
def recordAt (source : SourceText) (head : RecordHead) (tree : ParseTree) (reading : Reading) :
    List Declaration :=
  (reading.recordAt? source head tree).toList

/-- The callables that a declaration announces. -/
def prototypesAt (source : SourceText) (tree : ParseTree) (reading : Reading) :
    List Declaration :=
  (tree.childrenLabelled "declarator").filterMap (reading.prototype? source tree)

/-- The callables and data members that a declaration in a record announces. -/
def membersAt (source : SourceText) (tree : ParseTree) (reading : Reading) : List Declaration :=
  (tree.childrenLabelled "declarator").filterMap (reading.memberAt? source tree)

/-- The aliases that a type definition introduces. -/
def typedefAliasesAt (source : SourceText) (plan : TypedefPlan) (tree : ParseTree)
    (reading : Reading) : List Declaration :=
  (tree.childrenLabelled "declarator").filterMap
    (source.typedefAlias? reading.scope reading.access plan tree)

/-- No callable is a namespace. -/
theorem callableKind_ne_namespaceScope (scope : List ScopeStep) (name : String) :
    SourceText.callableKind scope name ≠ .namespaceScope := by
  unfold SourceText.callableKind
  split
  · decide
  · repeat' split
    all_goals decide

/-- A callable stands where the reader stands. -/
theorem standsAt_of_callableAt? {declaration : Declaration} {tree function : ParseTree}
    {marks : String} (found : reading.callableAt? source tree function marks = some declaration) :
    StandsAt reading declaration := by
  simp only [callableAt?, SourceText.callable?, Option.bind_eq_bind, Option.bind_eq_some_iff]
    at found
  obtain ⟨name, -, found⟩ := found
  split at found
  · cases found
  · cases found
    exact ⟨⟨_, rfl⟩, rfl, callableKind_ne_namespaceScope _ _⟩

/-- Being known for a definition changes nothing about where a callable stands. -/
theorem StandsAt.announced {declaration : Declaration} (stands : StandsAt reading declaration) :
    StandsAt reading (announced declaration) := by
  unfold Reading.announced
  split
  · exact ⟨stands.scope, stands.access, stands.kind⟩
  · exact stands

/-- A prototype stands where the reader stands. -/
theorem standsAt_of_prototype? {declaration : Declaration} {tree declarator : ParseTree}
    (found : reading.prototype? source tree declarator = some declaration) :
    StandsAt reading declaration := by
  simp only [prototype?] at found
  split at found
  · obtain ⟨callable, atPlace, rfl⟩ := Option.map_eq_some_iff.mp found
    exact (standsAt_of_callableAt? atPlace).announced
  · cases found

/-- A member stands where the reader stands. -/
theorem standsAt_of_memberAt? {declaration : Declaration} {tree declarator : ParseTree}
    (found : reading.memberAt? source tree declarator = some declaration) :
    StandsAt reading declaration := by
  unfold memberAt? at found
  split at found
  · exact standsAt_of_prototype? found
  · simp only [SourceText.field?, Option.bind_eq_bind, Option.bind_eq_some_iff] at found
    obtain ⟨name, -, same⟩ := found
    cases same
    exact ⟨⟨[], (List.append_nil _).symm⟩, rfl, EntityKind.noConfusion⟩

/-- An alias stands where the reader stands. -/
theorem standsAt_of_alias? {tree : ParseTree} {declaration : Declaration}
    (found : source.alias? reading.scope reading.access reading.templateParameters tree =
      some declaration) : StandsAt reading declaration := by
  simp only [SourceText.alias?, Option.bind_eq_bind, Option.bind_eq_some_iff] at found
  obtain ⟨_, -, _, -, same⟩ := found
  cases same
  exact ⟨⟨[], (List.append_nil _).symm⟩, rfl, EntityKind.noConfusion⟩

/-- An alias of a type definition stands where the reader stands. -/
theorem standsAt_of_typedefAlias? {plan : TypedefPlan} {tree declarator : ParseTree}
    {declaration : Declaration}
    (found : source.typedefAlias? reading.scope reading.access plan tree declarator =
      some declaration) : StandsAt reading declaration := by
  simp only [SourceText.typedefAlias?, Option.bind_eq_bind, Option.bind_eq_some_iff] at found
  obtain ⟨_, -, same⟩ := found
  split at same
  · cases same
  · cases same
    exact ⟨⟨[], (List.append_nil _).symm⟩, rfl, EntityKind.noConfusion⟩

/-- A record has the kind that its head gives it. -/
theorem kind_of_recordAt? {head : RecordHead} {tree : ParseTree} {declaration : Declaration}
    (found : reading.recordAt? source head tree = some declaration) :
    declaration.kind = head.kind := by
  simp only [recordAt?, SourceText.record?] at found
  split at found <;> cases found
  rfl

/-- A record stands where the reader stands. -/
theorem standsAt_of_recordAt? {head : RecordHead} (isRecord : head.kind.isRecord = true)
    {tree : ParseTree} {declaration : Declaration}
    (found : reading.recordAt? source head tree = some declaration) :
    StandsAt reading declaration := by
  have kind := kind_of_recordAt? found
  simp only [recordAt?, SourceText.record?] at found
  split at found <;> cases found
  refine ⟨⟨_, rfl⟩, rfl, fun other => ?_⟩
  rw [kind.symm.trans other] at isRecord
  cases isRecord

/-- The function that a tree defines is declared at the reader's place. -/
theorem declaresAtPlace_functionAt (source : SourceText) (tree : ParseTree) :
    DeclaresAtPlace (functionAt source tree) where
  byPlace _ := rfl
  standsAt noted := by
    unfold functionAt at noted
    split at noted
    · cases noted
    · split at noted
      · cases noted
      · obtain ⟨callable, found, rfl⟩ :=
          Option.map_eq_some_iff.mp (Option.mem_toList.mp noted)
        have stands := standsAt_of_callableAt? found
        exact ⟨stands.scope, stands.access, stands.kind⟩

/-- Prototypes are declared at the reader's place. -/
theorem declaresAtPlace_prototypesAt (source : SourceText) (tree : ParseTree) :
    DeclaresAtPlace (prototypesAt source tree) where
  byPlace _ := rfl
  standsAt noted := by
    obtain ⟨_, _, found⟩ := List.mem_filterMap.mp noted
    exact standsAt_of_prototype? found

/-- Members are declared at the reader's place. -/
theorem declaresAtPlace_membersAt (source : SourceText) (tree : ParseTree) :
    DeclaresAtPlace (membersAt source tree) where
  byPlace _ := rfl
  standsAt noted := by
    obtain ⟨_, _, found⟩ := List.mem_filterMap.mp noted
    exact standsAt_of_memberAt? found

/-- An alias is declared at the reader's place. -/
theorem declaresAtPlace_aliasAt (source : SourceText) (tree : ParseTree) :
    DeclaresAtPlace (aliasAt source tree) where
  byPlace _ := rfl
  standsAt noted := standsAt_of_alias? (Option.mem_toList.mp noted)

/-- Aliases of a type definition are declared at the reader's place. -/
theorem declaresAtPlace_typedefAliasesAt (source : SourceText) (plan : TypedefPlan)
    (tree : ParseTree) : DeclaresAtPlace (typedefAliasesAt source plan tree) where
  byPlace _ := rfl
  standsAt noted := by
    obtain ⟨_, _, found⟩ := List.mem_filterMap.mp noted
    exact standsAt_of_typedefAlias? found

/-- A record is declared at the reader's place. -/
theorem declaresAtPlace_recordAt {head : RecordHead} (isRecord : head.kind.isRecord = true)
    (source : SourceText) (tree : ParseTree) : DeclaresAtPlace (recordAt source head tree) where
  byPlace _ := rfl
  standsAt noted := standsAt_of_recordAt? isRecord (Option.mem_toList.mp noted)

/-! ### The parts of a visit -/

/-- Notes declarations, which take up the waiting template parameters if there are any
declarations at all. -/
def offer (reading : Reading) (declarations : List Declaration) : Reading :=
  if declarations = [] then reading else reading.declare declarations

/-- A function is added by offering it. -/
theorem addFunction_eq_offer (source : SourceText) (reading : Reading) (tree : ParseTree) :
    reading.addFunction source tree = reading.offer (functionAt source tree reading) := by
  unfold addFunction functionAt
  cases (tree.child? "declarator").map ParseTree.peel with
  | none => rfl
  | some peeled =>
    obtain ⟨function, marks⟩ := peeled
    dsimp only
    by_cases other : function.kind ≠ "function_declarator"
    · rw [if_pos other, if_pos other]
      rfl
    · rw [if_neg other, if_neg other]
      cases reading.callableAt? source tree function marks <;> rfl

/-- An alias is added by offering it. -/
theorem addAlias_eq_offer (source : SourceText) (reading : Reading) (tree : ParseTree) :
    reading.addAlias source tree = reading.offer (aliasAt source tree reading) := by
  unfold addAlias aliasAt
  cases source.alias? reading.scope reading.access reading.templateParameters tree <;> rfl

/-- Reads a record whose head is known. `inside` reads its body. -/
def throughRecord (source : SourceText) (inside : Reading → Reading) (head : RecordHead)
    (tree : ParseTree) (reading : Reading) : Reading :=
  match reading.recordAt? source head tree with
  | none => reading
  | some declaration =>
    if declaration.isDefinition then leaveTo reading (inside (reading.enterRecord head declaration))
    else reading.declare [declaration]

/-- Reads a template. `inside` reads what it declares, for which its parameters wait. -/
def throughTemplate (source : SourceText) (inside : Reading → Reading) (tree : ParseTree)
    (reading : Reading) : Reading :=
  { inside { reading with templateParameters := templateNames source tree } with
    templateParameters := reading.templateParameters }

/-- Whether a property of visits holds of doing nothing, of every single thing that is
read, and of visits that are put together from visits that have it. -/
structure HoldsOfParts (source : SourceText) (holds : (Reading → Reading) → Prop) : Prop where
  nothing : holds id
  further {first second : Reading → Reading} (ofFirst : holds first) (ofSecond : holds second) :
    holds fun reading => second (first reading)
  namespaceBlock {inside : Reading → Reading} (ofInside : holds inside) (tree : ParseTree) :
    holds fun reading => closeNamespace reading (inside (reading.openNamespace source tree))
  record {inside : Reading → Reading} (ofInside : holds inside) (head : RecordHead)
    (tree : ParseTree) (isRecord : head.kind.isRecord = true) :
    holds (throughRecord source inside head tree)
  template {inside : Reading → Reading} (ofInside : holds inside) (tree : ParseTree) :
    holds (throughTemplate source inside tree)
  offering {declared : Reading → List Declaration} (atPlace : DeclaresAtPlace declared) :
    holds fun reading => reading.offer (declared reading)
  declaring {declared : Reading → List Declaration} (atPlace : DeclaresAtPlace declared) :
    holds fun reading => reading.declare (declared reading)
  noting {declared : Reading → List Declaration} (atPlace : DeclaresAtPlace declared) :
    holds fun reading => reading.note (declared reading)
  accessLabel (tree : ParseTree) : holds fun reading => reading.changeAccess source tree
  directive (tree : ParseTree) : holds fun reading => reading.addDirective source tree

namespace HoldsOfParts

variable {holds : (Reading → Reading) → Prop}

mutual

/-- What holds of the parts of visits holds of the visit of a tree. -/
theorem visit (parts : HoldsOfParts source holds) :
    (tree : ParseTree) → holds fun reading => visit source reading tree
  | .node info children => by
    unfold Reading.visit
    dsimp only
    split
    · exact parts.namespaceBlock (parts.visitBody children) _
    · split
      · exact parts.nothing
      · rename_i head isHead
        exact parts.record (parts.visitBody children) head _
          (SourceText.isRecord_of_recordHead? isHead)
    · simp only [addFunction_eq_offer]
      exact parts.offering (declaresAtPlace_functionAt source _)
    · exact parts.further
        (parts.visitType _ (fun _ _ => SourceText.isRecord_of_embeddedHead?) children)
        (parts.declaring (declaresAtPlace_prototypesAt source _))
    · exact parts.further
        (parts.visitType _ (fun _ _ => SourceText.isRecord_of_embeddedHead?) children)
        (parts.declaring (declaresAtPlace_membersAt source _))
    · exact parts.template (parts.visitTemplated children) _
    · simp only [addAlias_eq_offer]
      exact parts.offering (declaresAtPlace_aliasAt source _)
    · split
      · exact parts.nothing
      · rename_i plan isPlan
        exact parts.further
          (parts.visitType _ (fun _ _ => SourceText.isRecord_of_typedefPlan? isPlan) children)
          (parts.noting (declaresAtPlace_typedefAliasesAt source plan _))
    · exact parts.accessLabel _
    · exact parts.directive _
    · exact parts.visitLinked children
    · exact parts.nothing
    · exact parts.visitAll children

/-- What holds of the parts of visits holds of visiting trees one after the other. -/
theorem visitAll (parts : HoldsOfParts source holds) :
    (trees : List ParseTree) → holds fun reading => visitAll source reading trees
  | [] => by
    unfold Reading.visitAll
    exact parts.nothing
  | tree :: rest => by
    unfold Reading.visitAll
    exact parts.further (parts.visit tree) (parts.visitAll rest)

/-- What holds of all parts of a visit holds of visiting a body. -/
theorem visitBody (parts : HoldsOfParts source holds) :
    (trees : List ParseTree) → holds fun reading => visitBody source reading trees
  | [] => by
    unfold Reading.visitBody
    exact parts.nothing
  | .node info children :: rest => by
    unfold Reading.visitBody
    split
    · exact parts.visitAll children
    · exact parts.visitBody rest

/-- What holds of all parts of a visit holds of visiting a linkage. -/
theorem visitLinked (parts : HoldsOfParts source holds) :
    (trees : List ParseTree) → holds fun reading => visitLinked source reading trees
  | [] => by
    unfold Reading.visitLinked
    exact parts.nothing
  | .node info children :: rest => by
    unfold Reading.visitLinked
    split
    · exact parts.visit (.node info children)
    · exact parts.visitLinked rest

/-- What holds of all parts of a visit holds of visiting the record in a type. -/
theorem visitType (parts : HoldsOfParts source holds) (head : ParseTree → Option RecordHead)
    (isRecord : ∀ tree found, head tree = some found → found.kind.isRecord = true) :
    (trees : List ParseTree) → holds fun reading => visitType source reading head trees
  | [] => by
    unfold Reading.visitType
    exact parts.nothing
  | .node info children :: rest => by
    unfold Reading.visitType
    dsimp only
    split
    · split
      · exact parts.nothing
      · rename_i found isHead
        exact parts.record (parts.visitBody children) found _ (isRecord _ _ isHead)
    · exact parts.visitType head isRecord rest

/-- What holds of all parts of a visit holds of visiting a template. -/
theorem visitTemplated (parts : HoldsOfParts source holds) :
    (trees : List ParseTree) → holds fun reading => visitTemplated source reading trees
  | [] => by
    unfold Reading.visitTemplated
    exact parts.nothing
  | .node info children :: rest => by
    unfold Reading.visitTemplated
    split
    · exact parts.further (parts.visit (.node info children)) (parts.visitTemplated rest)
    · exact parts.visitTemplated rest

end

end HoldsOfParts

end Reading

end DeclGraph

import DeclGraph.Linking.Types
import DeclGraph.Proofs.Catalogue.Following
import DeclGraph.Proofs.Linking.Step

/-!
# Linking types never fails

Every node that a reference to a type relates is a node of the graph: referring
nodes are looked up by key, and targets are found by name or are stand-ins. What
a name meant when it was linked is still told by the graph in the end: the
referring node uses the first type that the name meant then, or its stand-in.
-/

namespace DeclGraph

/-- A reference of a node of the key names a type in a role. -/
inductive Reference.Names : Reference → EntityKey → String → String → Prop where
  | aliasTarget {owner : EntityKey} {spelling name : String} {arguments : List String}
    (first : Spelling.references spelling = name :: arguments) :
    Names (.aliasTarget owner spelling) owner "alias" name
  | fieldType {owner : EntityKey} {spelling name : String}
    (among : name ∈ Spelling.references spelling) :
    Names (.fieldType owner spelling) owner "field" name
  | parameterType {owner : EntityKey} {spelling name : String}
    (among : name ∈ Spelling.references spelling) :
    Names (.parameterType owner spelling) owner "parameter" name
  | returnType {owner : EntityKey} {spelling name : String}
    (among : name ∈ Spelling.references spelling) :
    Names (.returnType owner spelling) owner "return" name
  | localType {owner : EntityKey} {spelling name : String}
    (among : name ∈ Spelling.references spelling) :
    Names (.localType owner spelling) owner "local" name

namespace Linking

variable {α β : Type} {bonds : List Bond} {before after : Linking}

/-- An entity that is known stays known under its key. -/
theorem Grows.nodeByKey?_kept (grows : before.Grows bonds after)
    (start : before.catalogue.Housed []) {key : EntityKey} {id : Nat}
    (known : before.catalogue.nodeByKey? key = some id) :
    after.catalogue.nodeByKey? key = some id := by
  obtain ⟨last, settles, carried⟩ := (Catalogue.nodeByKey?_eq_some start.sound).mp known
  exact (Catalogue.nodeByKey?_eq_some (grows.housed start).sound).mpr
    ⟨last, settles.of_moved grows.moved, grows.keys_kept start carried⟩

/-- What a name means to a referring node when it is linked: nothing where it is a
template parameter, else the first type that it is found to mean, else its
stand-in, which is there in the end. -/
inductive TypeMeant (viewpoint : Viewpoint) (referrer : Nat) (name : String)
    (stage final : Catalogue) : Option Nat → Prop where
  | hidden (inForce : name ∈ stage.templateParameters referrer) :
    TypeMeant viewpoint referrer name stage final none
  | found {id : Nat} (shown : name ∉ stage.templateParameters referrer)
    (first : (stage.resolveFrom viewpoint (isOtherType referrer) name
      (stage.scopeOf referrer)).head? = some id) :
    TypeMeant viewpoint referrer name stage final (some id)
  | standIn {id : Nat} (shown : name ∉ stage.templateParameters referrer)
    (nothing : stage.resolveFrom viewpoint (isOtherType referrer) name
      (stage.scopeOf referrer) = [])
    (carried : final.graph.key? id = some (.placeholder name)) :
    TypeMeant viewpoint referrer name stage final (some id)

/-- A node is linked to what a name means to it. -/
def LinksName (viewpoint : Viewpoint) (referrer : Nat) (role name : String)
    (stage final : Catalogue) : Prop :=
  ∃ meant, TypeMeant viewpoint referrer name stage final meant ∧
    ∀ id, meant = some id → final.graph.UsedAs referrer role id

/-- An alias is linked to what it stands for: the first name in the spelling or, where
the spelling names nothing, a stand-in for the spelling. -/
inductive LinksAlias (viewpoint : Viewpoint) (owner : Nat) (spelling : String)
    (stage final : Catalogue) : Prop where
  | unnamed {id : Nat} (nothing : Spelling.references spelling = [])
    (carried : final.graph.key? id = some (.placeholder (Spelling.canonical spelling)))
    (used : final.graph.UsedAs owner "alias" id)
  | named {name : String} {arguments : List String}
    (first : Spelling.references spelling = name :: arguments)
    (links : LinksName viewpoint owner "alias" name stage final)

/-- Between two linkings there was a stage as `held` has it, and it has it still in
the later one. -/
def Sometime (bonds : List Bond) (before after : Linking)
    (held : Catalogue → Catalogue → Prop) : Prop :=
  ∃ stage, before.Grows bonds stage ∧ stage.Grows bonds after ∧
    held stage.catalogue after.catalogue

/-- What a name was found to mean lasts while the catalogue grows. -/
theorem TypeMeant.lasts {viewpoint : Viewpoint} {referrer : Nat} {name : String}
    {stage : Catalogue} {meant : Option Nat} (grows : before.Grows bonds after)
    (start : before.catalogue.Housed [])
    (held : TypeMeant viewpoint referrer name stage before.catalogue meant) :
    TypeMeant viewpoint referrer name stage after.catalogue meant := by
  cases held with
  | hidden inForce => exact .hidden inForce
  | found shown first => exact .found shown first
  | standIn shown nothing carried => exact .standIn shown nothing (grows.keys_kept start carried)

/-- The edge for a name lasts while the catalogue grows. -/
theorem LinksName.lasts {viewpoint : Viewpoint} {referrer : Nat} {role name : String}
    {stage : Catalogue} (grows : before.Grows bonds after) (start : before.catalogue.Housed [])
    (held : LinksName viewpoint referrer role name stage before.catalogue) :
    LinksName viewpoint referrer role name stage after.catalogue := by
  obtain ⟨meant, means, used⟩ := held
  exact ⟨meant, means.lasts grows start, fun id same => grows.usedAs_kept start (used id same)⟩

/-- The edges of an alias last while the catalogue grows. -/
theorem LinksAlias.lasts {viewpoint : Viewpoint} {owner : Nat} {spelling : String}
    {stage : Catalogue} (grows : before.Grows bonds after) (start : before.catalogue.Housed [])
    (held : LinksAlias viewpoint owner spelling stage before.catalogue) :
    LinksAlias viewpoint owner spelling stage after.catalogue := by
  cases held with
  | unnamed nothing carried used =>
    exact .unnamed nothing (grows.keys_kept start carried) (grows.usedAs_kept start used)
  | named first links => exact .named first (links.lasts grows start)

/-- What held at some stage of a pass may be weakened there. -/
theorem Sometime.imp {held weaker : Catalogue → Catalogue → Prop}
    (sometime : Sometime bonds before after held)
    (implies : ∀ stage, before.Grows bonds stage → stage.Grows bonds after →
      held stage.catalogue after.catalogue → weaker stage.catalogue after.catalogue) :
    Sometime bonds before after weaker := by
  obtain ⟨stage, toStage, fromStage, holds⟩ := sometime
  exact ⟨stage, toStage, fromStage, implies stage toStage fromStage holds⟩

/-- A stage between a later and an earlier linking is one between any that lie further
apart. -/
theorem Sometime.widen {more : List Bond} {first last : Linking}
    {held : Catalogue → Catalogue → Prop} (sometime : Sometime bonds before after held)
    (fewer : bonds ⊆ more) (earlier : first.Grows more before) (later : after.Grows more last)
    (lasts : ∀ stage, first.Grows more after → held stage after.catalogue →
      held stage last.catalogue) :
    Sometime more first last held := by
  obtain ⟨stage, toStage, fromStage, holds⟩ := sometime
  refine ⟨stage, earlier.trans (toStage.mono fewer), (fromStage.mono fewer).trans later, ?_⟩
  exact lasts _ ((earlier.trans (toStage.mono fewer)).trans (fromStage.mono fewer)) holds

/-- What a name means to a node is a type or a stand-in. -/
theorem TypeMeant.isUsable {viewpoint : Viewpoint} {referrer : Nat} {name : String} {id : Nat}
    (grows : before.Grows bonds after) (start : before.catalogue.Housed [])
    (held : TypeMeant viewpoint referrer name before.catalogue after.catalogue (some id)) :
    after.catalogue.Accepts Node.isUsable id := by
  cases held with
  | found _ first =>
    refine grows.accepts start ?_
    obtain ⟨node, found, accepted⟩ :=
      Catalogue.accepts_of_mem_resolveFrom (List.mem_of_mem_head? first)
    refine ⟨node, found, ?_⟩
    simp only [isOtherType, Bool.and_eq_true] at accepted
    simp [Node.isUsable, accepted.1]
  | standIn _ _ carried => exact Catalogue.isUsable_of_placeholder (grows.housed start).sound carried

/-- Looking up a type succeeds, grows the catalogue and gives what the name means. -/
theorem succeeds_namedType (bonds : List Bond) {viewpoint : Viewpoint} {referrer : Nat}
    {purpose : LookupPurpose} {name : String} (housed : before.catalogue.Housed [])
    (there : before.catalogue.HasNode referrer) :
    Succeeds (namedType viewpoint referrer purpose name) before fun meant after =>
      before.Grows bonds after ∧
        TypeMeant viewpoint referrer name before.catalogue after.catalogue meant := by
  refine succeeds_bind (succeeds_get ?_)
  dsimp only
  split
  · rename_i inForce
    exact succeeds_pure ⟨.refl, .hidden (by simpa using inForce)⟩
  · rename_i notInForce
    have shown : name ∉ before.catalogue.templateParameters referrer := by simpa using notInForce
    split
    · rename_i found first
      exact succeeds_pure ⟨.refl, .found shown first⟩
    · rename_i nothing
      refine succeeds_bind ((succeeds_substitute bonds housed there).weaken ?_)
      rintro id after ⟨grows, carried⟩
      exact succeeds_pure ⟨grows, .standIn shown (List.head?_eq_none_iff.mp nothing) carried⟩

/-- Linking a name succeeds and makes the edge to what the name means. -/
theorem succeeds_linkName {viewpoint : Viewpoint} {referrer : Nat} {purpose : LookupPurpose}
    {role name : String} (among : .use role ∈ bonds) (housed : before.catalogue.Housed [])
    (there : before.catalogue.HasNode referrer) :
    Succeeds (linkName viewpoint referrer purpose role name) before fun _ after =>
      before.Grows bonds after ∧
        LinksName viewpoint referrer role name before.catalogue after.catalogue := by
  refine succeeds_bind ((succeeds_namedType bonds housed there).weaken ?_)
  rintro meant middle ⟨grows, means⟩
  cases meant with
  | none => exact succeeds_pure ⟨grows, none, means, nofun⟩
  | some target =>
    refine (succeeds_useType among (grows.housed housed) (grows.hasNode housed there)
      (means.isUsable grows housed)).weaken ?_
    rintro _ after ⟨more, used⟩
    refine ⟨grows.trans more, some target, means.lasts more (grows.housed housed), ?_⟩
    rintro id same
    cases same
    exact used

/-- Names are linked one after the other, each as it is understood when its turn
comes. -/
theorem succeeds_linkNames {viewpoint : Viewpoint} {referrer : Nat} {purpose : LookupPurpose}
    {role : String} {names : List String} (among : .use role ∈ bonds)
    (housed : before.catalogue.Housed []) (there : before.catalogue.HasNode referrer) :
    Succeeds (names.forM (linkName viewpoint referrer purpose role)) before fun _ after =>
      before.Grows bonds after ∧ ∀ name ∈ names,
        Sometime bonds before after (LinksName viewpoint referrer role name) :=
  succeeds_forM_reaches
    (fun _ _ _ sofar =>
      succeeds_linkName among (sofar.housed housed) (sofar.hasNode housed there))
    fun _ _ _ _ toStage toMiddle fromMiddle held =>
      held.lasts fromMiddle ((toStage.trans toMiddle).housed housed)

/-- Linking the target of an alias succeeds and makes the edges for it. -/
theorem succeeds_linkAliasTarget {viewpoint : Viewpoint} {spelling : String} {owner : Nat}
    (amongAlias : .use "alias" ∈ bonds) (amongArgument : .use "template_argument" ∈ bonds)
    (housed : before.catalogue.Housed []) (there : before.catalogue.HasNode owner) :
    Succeeds (linkAliasTarget viewpoint spelling owner) before fun _ after =>
      before.Grows bonds after ∧
        LinksAlias viewpoint owner spelling before.catalogue after.catalogue := by
  unfold linkAliasTarget
  split
  · rename_i nothing
    refine succeeds_bind ((succeeds_placeholder bonds housed).weaken ?_)
    rintro target middle ⟨grows, carried⟩
    refine (succeeds_useType amongAlias (grows.housed housed) (grows.hasNode housed there)
      (Catalogue.isUsable_of_placeholder (grows.housed housed).sound carried)).weaken ?_
    rintro _ after ⟨more, used⟩
    exact ⟨grows.trans more,
      .unnamed nothing (more.keys_kept (grows.housed housed) carried) used⟩
  · rename_i first
    refine succeeds_bind ((succeeds_linkName amongAlias housed there).weaken ?_)
    rintro _ middle ⟨grows, links⟩
    refine (succeeds_linkNames amongArgument (grows.housed housed)
      (grows.hasNode housed there)).weaken ?_
    rintro _ after ⟨more, _⟩
    exact ⟨grows.trans more, .named first (links.lasts more (grows.housed housed))⟩

/-- Linking the name of a field's type succeeds and makes the edge to what it means. -/
theorem succeeds_linkFieldName {viewpoint : Viewpoint} {field : Nat} {name : String}
    (amongUse : .use "field" ∈ bonds) (amongField : .field ∈ bonds)
    (housed : before.catalogue.Housed []) (there : before.catalogue.HasNode field) :
    Succeeds (linkFieldName viewpoint field name) before fun _ after =>
      before.Grows bonds after ∧
        LinksName viewpoint field "field" name before.catalogue after.catalogue := by
  refine succeeds_bind ((succeeds_namedType bonds housed there).weaken ?_)
  rintro meant middle ⟨grows, means⟩
  cases meant with
  | none => exact succeeds_pure ⟨grows, none, means, nofun⟩
  | some target =>
    refine succeeds_bind ((succeeds_useType amongUse (grows.housed housed)
      (grows.hasNode housed there) (means.isUsable grows housed)).weaken ?_)
    rintro _ next ⟨more, used⟩
    have sofar := grows.trans more
    have housedNext := sofar.housed housed
    obtain ⟨node, nodeFound⟩ := Graph.isSome_key?_iff.mp (sofar.hasNode housed there)
    refine succeeds_bind (succeeds_perform (Catalogue.Action.ensures_reading
      (Graph.node_of_nodeTable nodeFound) ?_))
    refine succeeds_bind (succeeds_get ?_)
    have targetThere : next.catalogue.HasNode target :=
      (more.accepts (grows.housed housed) (means.isUsable grows housed)).hasNode
    refine (succeeds_relate amongField ⟨Catalogue.hasNode_scopeOf housedNext.sound field,
      targetThere, rfl, nofun, nofun, nofun⟩).weaken ?_
    rintro _ after ⟨last, _⟩
    refine ⟨sofar.trans last, some target, ?_, ?_⟩
    · exact (means.lasts more (grows.housed housed)).lasts last housedNext
    · rintro id same
      cases same
      exact last.usedAs_kept housedNext used

/-- Linking a field succeeds and links each name in its type at some stage. -/
theorem succeeds_linkField {viewpoint : Viewpoint} {spelling : String} {field : Nat}
    (amongUse : .use "field" ∈ bonds) (amongField : .field ∈ bonds)
    (housed : before.catalogue.Housed []) (there : before.catalogue.HasNode field) :
    Succeeds (linkField viewpoint spelling field) before fun _ after =>
      before.Grows bonds after ∧ ∀ name ∈ Spelling.references spelling,
        Sometime bonds before after (LinksName viewpoint field "field" name) :=
  succeeds_forM_reaches
    (fun _ _ _ sofar => succeeds_linkFieldName amongUse amongField (sofar.housed housed)
      (sofar.hasNode housed there))
    fun _ _ _ _ toStage toMiddle fromMiddle held =>
      held.lasts fromMiddle ((toStage.trans toMiddle).housed housed)

/-- What aliases are linked for. -/
def aliasBonds : List Bond := [.use "alias", .use "template_argument"]

/-- What data members are linked for. -/
def fieldBonds : List Bond := [.use "field", .field]

/-- What signatures are linked for. -/
def signatureBonds : List Bond := [.use "parameter", .use "return"]

/-- What the variables in bodies are linked for. -/
def localBonds : List Bond := [.use "local"]

/-- What a reference names in some roles was linked when its turn came. -/
def NamesLinked (bonds : List Bond) (roles : List String) (item : SeenReference)
    (before after : Linking) : Prop :=
  ∀ ⦃owner : EntityKey⦄ ⦃role name : String⦄ ⦃node : Nat⦄, item.2.Names owner role name →
    role ∈ roles → before.catalogue.nodeByKey? owner = some node →
      Sometime bonds before after (LinksName item.1 node role name)

/-- What an alias reference spells was linked when its turn came. -/
def AliasLinked (bonds : List Bond) (item : SeenReference) (before after : Linking) : Prop :=
  ∀ ⦃owner : EntityKey⦄ ⦃spelling : String⦄ ⦃node : Nat⦄,
    item.2 = .aliasTarget owner spelling → before.catalogue.nodeByKey? owner = some node →
      Sometime bonds before after (LinksAlias item.1 node spelling)

section Widen

variable {more : List Bond} {roles : List String} {item : SeenReference} {first last : Linking}

/-- What was linked between two linkings was linked between any that lie further
apart. -/
theorem NamesLinked.widen (linked : NamesLinked bonds roles item before after)
    (fewer : bonds ⊆ more) (start : first.catalogue.Housed [])
    (earlier : first.Grows more before) (later : after.Grows more last) :
    NamesLinked more roles item first last := by
  intro owner role name node names among known
  refine (linked names among (earlier.nodeByKey?_kept start known)).widen fewer earlier later ?_
  exact fun _ sofar held => held.lasts later (sofar.housed start)

/-- An alias that was linked during a part of the passes was linked during all. -/
theorem AliasLinked.widen (linked : AliasLinked bonds item before after)
    (fewer : bonds ⊆ more) (start : first.catalogue.Housed [])
    (earlier : first.Grows more before) (later : after.Grows more last) :
    AliasLinked more item first last := by
  intro owner spelling node alias_ known
  refine (linked alias_ (earlier.nodeByKey?_kept start known)).widen fewer earlier later ?_
  exact fun _ sofar held => held.lasts later (sofar.housed start)

end Widen

/-- What is linked for every reference when its turn comes is linked for all of them
in the end. -/
theorem succeeds_forM_linked {references : List SeenReference} {step : SeenReference → Step Unit}
    {linked : SeenReference → Linking → Linking → Prop} (housed : before.catalogue.Housed [])
    (each : ∀ item linking, linking.catalogue.Housed [] →
      Succeeds (step item) linking fun _ after =>
        linking.Grows bonds after ∧ linked item linking after)
    (widen : ∀ item {first stage middle last : Linking}, first.catalogue.Housed [] →
      first.Grows bonds stage → middle.Grows bonds last → linked item stage middle →
        linked item first last) :
    Succeeds (references.forM step) before fun _ after => before.Grows bonds after ∧
      ∀ item ∈ references, linked item before after := by
  refine (succeeds_forM_reaches (fun item _ linking sofar => each item linking
    (sofar.housed housed)) ?_).weaken ?_
  · exact fun item stage middle after toStage _ fromMiddle held =>
      widen item (toStage.housed housed) .refl fromMiddle held
  · rintro _ after ⟨grows, reached⟩
    refine ⟨grows, fun item member => ?_⟩
    obtain ⟨stage, toStage, _, held⟩ := reached item member
    exact widen item housed toStage .refl held

/-- Aliases are linked to what they stand for. -/
theorem succeeds_linkAliases (housed : before.catalogue.Housed [])
    (references : List SeenReference) :
    Succeeds (linkAliases references) before fun _ after =>
      before.Grows aliasBonds after ∧
        ∀ item ∈ references, AliasLinked aliasBonds item before after := by
  have amongAlias : Bond.use "alias" ∈ aliasBonds := by decide
  have amongArgument : Bond.use "template_argument" ∈ aliasBonds := by decide
  refine succeeds_forM_linked housed (fun item linking housedHere => ?_)
    fun item _ _ _ _ start earlier later linked =>
      linked.widen (List.Subset.refl _) start earlier later
  split
  · refine (succeeds_forEntity housedHere fun _ there =>
      succeeds_linkAliasTarget amongAlias amongArgument housedHere there).weaken ?_
    rintro _ after ⟨grows, linked⟩
    refine ⟨grows, ?_⟩
    rintro owner spelling node same known
    cases same
    exact ⟨linking, .refl, grows, linked node known⟩
  · rename_i other
    refine succeeds_pure ⟨.refl, ?_⟩
    rintro owner spelling node same
    exact (other _ _ _ (Prod.ext rfl same)).elim

/-- Data members are linked to their types. -/
theorem succeeds_linkFields (housed : before.catalogue.Housed [])
    (references : List SeenReference) :
    Succeeds (linkFields references) before fun _ after =>
      before.Grows fieldBonds after ∧
        ∀ item ∈ references, NamesLinked fieldBonds ["field"] item before after := by
  have amongUse : Bond.use "field" ∈ fieldBonds := by decide
  have amongField : Bond.field ∈ fieldBonds := by decide
  refine succeeds_forM_linked housed (fun item linking housedHere => ?_)
    fun item _ _ _ _ start earlier later linked =>
      linked.widen (List.Subset.refl _) start earlier later
  obtain ⟨viewpoint, reference⟩ := item
  cases reference
  case fieldType =>
    refine (succeeds_forEntity housedHere fun _ there =>
      succeeds_linkField amongUse amongField housedHere there).weaken ?_
    rintro _ after ⟨grows, linked⟩
    refine ⟨grows, ?_⟩
    rintro owner role name node names _ known
    cases names with
    | fieldType among => exact linked node known name among
  all_goals
    refine succeeds_pure ⟨.refl, ?_⟩
    rintro owner role name node names inRole
    cases names <;> simp at inRole

/-- Signatures are linked to the types in them. -/
theorem succeeds_linkSignatures (housed : before.catalogue.Housed [])
    (references : List SeenReference) :
    Succeeds (linkSignatures references) before fun _ after =>
      before.Grows signatureBonds after ∧
        ∀ item ∈ references,
          NamesLinked signatureBonds ["parameter", "return"] item before after := by
  have amongParameter : Bond.use "parameter" ∈ signatureBonds := by decide
  have amongReturn : Bond.use "return" ∈ signatureBonds := by decide
  refine succeeds_forM_linked housed (fun item linking housedHere => ?_)
    fun item _ _ _ _ start earlier later linked =>
      linked.widen (List.Subset.refl _) start earlier later
  obtain ⟨viewpoint, reference⟩ := item
  cases reference
  case parameterType =>
    refine (succeeds_forEntity housedHere fun _ there =>
      succeeds_linkNames amongParameter housedHere there).weaken ?_
    rintro _ after ⟨grows, linked⟩
    refine ⟨grows, ?_⟩
    rintro owner role name node names _ known
    cases names with
    | parameterType among => exact linked node known name among
  case returnType =>
    refine (succeeds_forEntity housedHere fun _ there =>
      succeeds_linkNames amongReturn housedHere there).weaken ?_
    rintro _ after ⟨grows, linked⟩
    refine ⟨grows, ?_⟩
    rintro owner role name node names _ known
    cases names with
    | returnType among => exact linked node known name among
  all_goals
    refine succeeds_pure ⟨.refl, ?_⟩
    rintro owner role name node names inRoles
    cases names <;> simp at inRoles

/-- Bodies are linked to the types of their variables. -/
theorem succeeds_linkLocals (housed : before.catalogue.Housed [])
    (references : List SeenReference) :
    Succeeds (linkLocals references) before fun _ after =>
      before.Grows localBonds after ∧
        ∀ item ∈ references, NamesLinked localBonds ["local"] item before after := by
  have amongLocal : Bond.use "local" ∈ localBonds := by decide
  refine succeeds_forM_linked housed (fun item linking housedHere => ?_)
    fun item _ _ _ _ start earlier later linked =>
      linked.widen (List.Subset.refl _) start earlier later
  obtain ⟨viewpoint, reference⟩ := item
  cases reference
  case localType =>
    refine (succeeds_forEntity housedHere fun _ there =>
      succeeds_linkNames amongLocal housedHere there).weaken ?_
    rintro _ after ⟨grows, linked⟩
    refine ⟨grows, ?_⟩
    rintro owner role name node names _ known
    cases names with
    | localType among => exact linked node known name among
  all_goals
    refine succeeds_pure ⟨.refl, ?_⟩
    rintro owner role name node names inRole
    cases names <;> simp at inRole

end Linking

end DeclGraph

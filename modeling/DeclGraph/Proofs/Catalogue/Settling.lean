import DeclGraph.Catalogue.Kinds
import DeclGraph.Proofs.Catalogue.Housed

/-!
# Settling kinds

Kinds are settled in two passes, each of which gives every node the kind that
the catalogue in front of the pass asks for. Neither pass can fail, as it never
leaves the family of a kind.
-/

namespace DeclGraph

namespace Catalogue

/-- One catalogue differs from another in the kinds of its nodes only. -/
structure Rekinded (before after : Catalogue) (kindOf : Node → EntityKind) : Prop where
  housed : after.Housed []
  nodeTable : ∀ id : Nat, after.graph.nodeTable[id]? =
    (before.graph.nodeTable[id]?).map fun node => { node with kind := kindOf node }
  others : after =
    { before with graph := { before.graph with nodeTable := after.graph.nodeTable } }

namespace Rekinded

variable {before after : Catalogue} {kindOf : Node → EntityKind}

/-- A catalogue has the kinds that its nodes have. -/
theorem initial (housed : before.Housed []) (same : ∀ {id : Nat} {node : Node},
    before.graph.nodeTable[id]? = some node → kindOf node = node.kind) :
    before.Rekinded before kindOf where
  housed := housed
  nodeTable := by
    intro id
    cases found : before.graph.nodeTable[id]? with
    | none => rfl
    | some node => simp [same found]
  others := rfl

/-- Which kinds nodes are given may be told in another way. -/
theorem congr {other : Node → EntityKind} (rekinded : before.Rekinded after kindOf)
    (same : ∀ {id : Nat} {node : Node}, before.graph.nodeTable[id]? = some node →
      kindOf node = other node) : before.Rekinded after other where
  housed := rekinded.housed
  nodeTable := by
    intro id
    rw [rekinded.nodeTable]
    cases found : before.graph.nodeTable[id]? with
    | none => rfl
    | some node => simp [same found]
  others := rekinded.others

/-- A node whose kind was changed was there before with the same key and attributes. -/
theorem exists_former (rekinded : before.Rekinded after kindOf) {id : Nat} {node : Node}
    (found : after.graph.nodeTable[id]? = some node) :
    ∃ former, before.graph.nodeTable[id]? = some former ∧
      node = { former with kind := kindOf former } := by
  rw [rekinded.nodeTable] at found
  obtain ⟨former, held, became⟩ := Option.map_eq_some_iff.mp found
  exact ⟨former, held, became.symm⟩

/-- Settling kinds leaves keys alone. -/
theorem key? (rekinded : before.Rekinded after kindOf) (id : Nat) :
    after.graph.key? id = before.graph.key? id := by
  simp [Graph.key?, rekinded.nodeTable, Function.comp_def]

/-- Settling kinds leaves the children of a scope alone. -/
theorem children (rekinded : before.Rekinded after kindOf) (scope : Nat) :
    after.graph.children scope = before.graph.children scope := by
  rw [rekinded.others]
  rfl

/-- Settling kinds leaves every node in its scope. -/
theorem parent? (rekinded : before.Rekinded after kindOf) (id : Nat) :
    after.graph.parent? id = before.graph.parent? id := by
  rw [rekinded.others]
  rfl

/-- Settling kinds leaves relations alone. -/
theorem related (rekinded : before.Rekinded after kindOf) {source target : Nat}
    {relation : Relation} : after.graph.Related source relation target ↔
      before.graph.Related source relation target := by
  rw [rekinded.others]
  rfl

/-- Settling kinds moves nothing. -/
theorem moved (rekinded : before.Rekinded after kindOf) : after.moved = before.moved := by
  rw [rekinded.others]

/-- Every node has its own number. -/
theorem node_id (rekinded : before.Rekinded after kindOf) {id : Nat} {node : Node}
    (found : before.graph.nodeTable[id]? = some node) : node.id = id := by
  have foundAfter : after.graph.nodeTable[id]? = some { node with kind := kindOf node } := by
    rw [rekinded.nodeTable, found]
    rfl
  have sameId := rekinded.housed.sound.node_id foundAfter
  exact sameId

/-- The kinds in the course of a pass: the nodes ahead still have the kinds they had. -/
def kindsWhile (kindOf : Node → EntityKind) (ahead : List Nat) (node : Node) : EntityKind :=
  if node.id ∈ ahead then node.kind else kindOf node

/-- A pass can start if only the nodes ahead are to change their kinds. -/
theorem start {ahead : List Nat} (housed : before.Housed [])
    (others : ∀ {id : Nat} {node : Node}, before.graph.nodeTable[id]? = some node →
      node.id ∉ ahead → kindOf node = node.kind) :
    before.Rekinded before (kindsWhile kindOf ahead) :=
  initial housed fun {_ node} found => by
    by_cases listed : node.id ∈ ahead
    · exact if_pos listed
    · exact (if_neg listed).trans (others found listed)

/-- At the end of a pass no node is ahead. -/
theorem finish (rekinded : before.Rekinded after (kindsWhile kindOf [])) :
    before.Rekinded after kindOf :=
  rekinded.congr fun _ => if_neg List.not_mem_nil

section Pass

variable {id : Nat} {ahead : List Nat} {node : Node}
  (rekinded : before.Rekinded after (kindsWhile kindOf (id :: ahead)))
  (found : before.graph.nodeTable[id]? = some node)

include rekinded found

/-- A pass is done with a node that has its kind already. -/
theorem kept (same : kindOf node = node.kind) : before.Rekinded after (kindsWhile kindOf ahead) := by
  refine rekinded.congr fun {other held} heldFound => ?_
  unfold kindsWhile
  by_cases itself : other = id
  · subst itself
    rw [found] at heldFound
    cases heldFound
    simp [same]
  · simp [rekinded.node_id heldFound, itself]

/-- A pass is done with a node once it is given its kind. -/
theorem succeeds_setKind (apart : id ∉ ahead) (family : node.key.family = (kindOf node).family) :
    Action.Succeeds (Action.editing fun graph => graph.setKind id (kindOf node)) after
      fun _ next => before.Rekinded next (kindsWhile kindOf ahead) := by
  have sameId := rekinded.node_id found
  have here : kindsWhile kindOf (id :: ahead) node = node.kind := if_pos (by simp [sameId])
  have foundAfter : after.graph.nodeTable[id]? = some node := by
    rw [rekinded.nodeTable, found, Option.map_some, here]
  refine Action.ensures_editing (Graph.setKind_of_node foundAfter family) ?_
  constructor
  case housed => exact rekinded.housed.withNode foundAfter rfl rfl family.symm
  case nodeTable =>
    intro other
    rw [Graph.nodeTable_withNode, rekinded.nodeTable]
    by_cases same : id = other
    · subst same
      simp [found, kindsWhile, sameId, apart]
    · rw [if_neg same]
      cases held : before.graph.nodeTable[other]? with
      | none => rfl
      | some node => simp [kindsWhile, rekinded.node_id held, Ne.symm same]
  case others =>
    have others := rekinded.others
    rw [others]
    rfl

end Pass

end Rekinded

variable {catalogue : Catalogue}

/-- The kind of a scope as its members ask for it. -/
def scopeKind (catalogue : Catalogue) (node : Node) : EntityKind :=
  if node.key.family = .scope ∧ node.attributes.isSet AttributeName.implied
      ∧ holdsMembers catalogue.graph node.id then
    .classRecord
  else node.kind

/-- The kind of a function or a method as its scope asks for it. -/
def functionKind (catalogue : Catalogue) (node : Node) : EntityKind :=
  if node.kind = .freeFunction ∨ node.kind = .method then
    if (catalogue.graph.parent? node.id).any catalogue.isRecord then .method else .freeFunction
  else node.kind

/-- The scopes to settle are those that are only implied. -/
theorem mem_impliedScopes (sound : catalogue.graph.Sound) {id : Nat} :
    id ∈ impliedScopes catalogue.graph ↔
      ∃ node, catalogue.graph.nodeTable[id]? = some node ∧ node.key.family = .scope ∧
        node.attributes.isSet AttributeName.implied := by
  simp only [impliedScopes, List.mem_map, List.mem_filter, sound.mem_nodes, Bool.and_eq_true,
    decide_eq_true_eq]
  constructor
  · rintro ⟨node, ⟨found, implied⟩, rfl⟩
    exact ⟨node, found, implied⟩
  · rintro ⟨node, found, implied⟩
    have same := sound.node_id found
    exact ⟨node, ⟨by rwa [same], implied⟩, same⟩

/-- The functions to settle are the free functions and methods. -/
theorem mem_functions (sound : catalogue.graph.Sound) {id : Nat} {kind : EntityKind} :
    (id, kind) ∈ functions catalogue.graph ↔
      ∃ node, catalogue.graph.nodeTable[id]? = some node ∧ node.kind = kind ∧
        (node.kind = .freeFunction ∨ node.kind = .method) := by
  simp only [functions, List.mem_map, List.mem_filter, sound.mem_nodes, Bool.or_eq_true,
    decide_eq_true_eq, Prod.mk.injEq]
  constructor
  · rintro ⟨node, ⟨found, callable⟩, rfl, rfl⟩
    exact ⟨node, found, rfl, callable⟩
  · rintro ⟨node, found, rfl, callable⟩
    have same := sound.node_id found
    exact ⟨node, ⟨by rwa [same], callable⟩, same, rfl⟩

/-- Which scope holds something that only a record can hold does not depend on
the kinds of scopes. -/
theorem Rekinded.holdsMembers {after : Catalogue} {kindOf : Node → EntityKind}
    (rekinded : catalogue.Rekinded after kindOf)
    (same : ∀ {id : Nat} {node : Node}, catalogue.graph.nodeTable[id]? = some node →
      needsRecord { node with kind := kindOf node } = needsRecord node) (scope : Nat) :
    Catalogue.holdsMembers after.graph scope = Catalogue.holdsMembers catalogue.graph scope := by
  unfold Catalogue.holdsMembers
  rw [rekinded.children]
  induction catalogue.graph.children scope with
  | nil => rfl
  | cons member rest further =>
    have table := rekinded.nodeTable member
    cases found : catalogue.graph.nodeTable[member]? with
    | none =>
      rw [found, Option.map_none] at table
      simpa [found, table] using further
    | some node =>
      rw [found, Option.map_some] at table
      simp only [List.filterMap_cons, found, table, List.any_cons, same found, further]

/-- No kind of a scope needs a record around it. -/
theorem needsRecord_scopeKind (sound : catalogue.graph.Sound) {id : Nat} {node : Node}
    (found : catalogue.graph.nodeTable[id]? = some node) :
    needsRecord { node with kind := catalogue.scopeKind node } = needsRecord node := by
  unfold scopeKind
  split
  · rename_i isScope
    have family := (sound.kind_family found).trans isScope.1
    cases kind : node.kind <;> simp_all [EntityKind.family, needsRecord, EntityKind.isCallable]
  · rfl

/-- The first pass gives implied scopes their kinds. -/
theorem succeeds_settleScopes (housed : catalogue.Housed []) :
    Action.Succeeds ((impliedScopes catalogue.graph).forM settleScope) catalogue
      fun _ after => catalogue.Rekinded after catalogue.scopeKind := by
  have sound := housed.sound
  have nodup : (impliedScopes catalogue.graph).Nodup :=
    sound.nodes_nodup.sublist (List.filter_sublist.map _)
  refine Action.Succeeds.weaken (Action.ensures_forM (fun rest middle =>
    catalogue.Rekinded middle (Rekinded.kindsWhile catalogue.scopeKind rest)) ?_
      (Rekinded.start housed ?_)) fun _ _ rekinded => rekinded.finish
  · intro item rest middle isSuffix rekinded
    have listed : item ∈ impliedScopes catalogue.graph := isSuffix.subset List.mem_cons_self
    have apart : item ∉ rest := (List.nodup_cons.mp (nodup.sublist isSuffix.sublist)).1
    obtain ⟨node, found, isScope, implied⟩ := (mem_impliedScopes sound).mp listed
    have nodeId := sound.node_id found
    have holds := rekinded.holdsMembers (fun {id node} held => by
      unfold Rekinded.kindsWhile
      split
      · rfl
      · exact needsRecord_scopeKind sound held) item
    unfold settleScope
    refine Action.ensures_bind (Action.ensures_get ?_)
    rw [holds]
    by_cases members : holdsMembers catalogue.graph item = true
    · have becomes : catalogue.scopeKind node = .classRecord := by
        simp [scopeKind, isScope, implied, nodeId, members]
      have next := rekinded.succeeds_setKind found apart (by rw [becomes, isScope]; rfl)
      rwa [if_pos members, ← becomes]
    · rw [if_neg members]
      exact Action.ensures_pure (rekinded.kept found (by simp [scopeKind, nodeId, members]))
  · rintro id node found unlisted
    refine if_neg fun ⟨isScope, implied, _⟩ => unlisted ?_
    exact (mem_impliedScopes sound).mpr ⟨node, by rwa [sound.node_id found], isScope, implied⟩

/-- The kind settled for a function makes no record of it, and of a record nothing else. -/
theorem isRecord_functionKind (node : Node) :
    (catalogue.functionKind node).isRecord = node.kind.isRecord := by
  unfold functionKind
  split
  · rename_i callable
    obtain plain | method := callable
    · split <;> simp [plain, EntityKind.isRecord]
    · split <;> simp [method, EntityKind.isRecord]
  · rfl

/-- Which nodes are records does not depend on the kinds of functions. -/
theorem Rekinded.isRecord {after : Catalogue} {kindOf : Node → EntityKind}
    (rekinded : catalogue.Rekinded after kindOf)
    (same : ∀ node, (kindOf node).isRecord = node.kind.isRecord) (id : Nat) :
    after.isRecord id = catalogue.isRecord id := by
  simp only [Catalogue.isRecord, kind?, rekinded.nodeTable, Option.map_map]
  cases catalogue.graph.nodeTable[id]? with
  | none => rfl
  | some node => simp [same]

/-- Which kind a function or a method is given does not depend on kinds that make no record and
leave no record out. -/
theorem Rekinded.functionKind_eq {after : Catalogue} {kindOf : Node → EntityKind} {node : Node}
    (rekinded : catalogue.Rekinded after kindOf)
    (same : ∀ node, (kindOf node).isRecord = node.kind.isRecord)
    (callable : node.kind = .freeFunction ∨ node.kind = .method) :
    (if (after.graph.parent? node.id).any after.isRecord then EntityKind.method
      else .freeFunction) = catalogue.functionKind node := by
  have records : after.isRecord = catalogue.isRecord := funext (rekinded.isRecord same)
  rw [rekinded.parent?, records, functionKind, if_pos callable]

/-- A function or a method is given a kind of its family. -/
theorem family_functionKind (sound : catalogue.graph.Sound) {id : Nat} {node : Node}
    (found : catalogue.graph.nodeTable[id]? = some node)
    (callable : node.kind = .freeFunction ∨ node.kind = .method) :
    node.key.family = (catalogue.functionKind node).family := by
  rw [← sound.kind_family found, functionKind, if_pos callable]
  obtain plain | method := callable
  · rw [plain]
    split <;> rfl
  · rw [method]
    split <;> rfl

/-- The second pass gives functions and methods their kinds. -/
theorem succeeds_settleFunctions (housed : catalogue.Housed []) :
    Action.Succeeds ((functions catalogue.graph).forM fun (id, kind) => settleFunction id kind)
      catalogue fun _ after => catalogue.Rekinded after catalogue.functionKind := by
  have sound := housed.sound
  have nodup : ((functions catalogue.graph).map (·.1)).Nodup := by
    have ids : (functions catalogue.graph).map (·.1) = (catalogue.graph.nodes.filter fun node =>
        node.kind = .freeFunction || node.kind = .method).map (·.id) := by
      simp [functions, Function.comp_def]
    rw [ids]
    exact sound.nodes_nodup.sublist (List.filter_sublist.map _)
  refine Action.Succeeds.weaken (Action.ensures_forM (fun rest middle =>
    catalogue.Rekinded middle (Rekinded.kindsWhile catalogue.functionKind (rest.map (·.1)))) ?_
      (Rekinded.start housed ?_)) fun _ _ rekinded => rekinded.finish
  · rintro ⟨item, kind⟩ rest middle isSuffix rekinded
    have listed : (item, kind) ∈ functions catalogue.graph := isSuffix.subset List.mem_cons_self
    have apart : item ∉ rest.map (·.1) :=
      (List.nodup_cons.mp (nodup.sublist (isSuffix.sublist.map (·.1)))).1
    obtain ⟨node, found, rfl, callable⟩ := (mem_functions sound).mp listed
    have settled := rekinded.functionKind_eq (fun node => by
      unfold Rekinded.kindsWhile
      split
      · rfl
      · exact isRecord_functionKind node) callable
    rw [sound.node_id found] at settled
    unfold settleFunction
    refine Action.ensures_bind (Action.ensures_get ?_)
    dsimp only
    rw [settled]
    by_cases changes : catalogue.functionKind node ≠ node.kind
    · rw [if_pos changes]
      exact rekinded.succeeds_setKind found apart (family_functionKind sound found callable)
    · rw [if_neg changes]
      exact Action.ensures_pure (rekinded.kept found (Classical.not_not.mp changes))
  · rintro id node found unlisted
    refine if_neg fun callable => unlisted (List.mem_map.mpr ⟨(node.id, node.kind), ?_, rfl⟩)
    exact (mem_functions sound).mpr ⟨node, by rwa [sound.node_id found], rfl, callable⟩

/-- Settling kinds never fails. -/
theorem succeeds_settleKinds (housed : catalogue.Housed []) :
    Action.Succeeds settleKinds catalogue fun _ after => ∃ middle,
      catalogue.Rekinded middle catalogue.scopeKind ∧
        middle.Rekinded after middle.functionKind := by
  unfold settleKinds
  refine Action.ensures_bind (Action.ensures_get ?_)
  refine Action.ensures_bind ((succeeds_settleScopes housed).weaken ?_)
  intro _ middle scopes
  refine Action.ensures_bind (Action.ensures_get ?_)
  exact (succeeds_settleFunctions scopes.housed).weaken fun _ after callables =>
    ⟨middle, scopes, callables⟩

/-- One catalogue has the keys of another, and its moves. -/
structure SameKeys (before after : Catalogue) : Prop where
  key? : ∀ id, after.graph.key? id = before.graph.key? id
  moved : after.moved = before.moved

/-- Settling kinds keeps keys and moves. -/
theorem succeeds_settleKinds_sameKeys (housed : catalogue.Housed []) :
    Action.Succeeds settleKinds catalogue fun _ after => catalogue.SameKeys after := by
  refine (succeeds_settleKinds housed).weaken ?_
  rintro _ after ⟨middle, scopes, callables⟩
  exact ⟨fun id => (callables.key? id).trans (scopes.key? id),
    callables.moved.trans scopes.moved⟩

end Catalogue

end DeclGraph

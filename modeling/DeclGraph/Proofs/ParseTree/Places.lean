import DeclGraph.Proofs.ParseTree.Balance
import Mathlib.Data.List.Forall2

/-!
# The places of declarations

What the reader declares belongs to a block: to the body of the record or the namespace
closest around it, or to no body at all. A block is read through nodes that hold other
nodes of the block, and not through the bodies below it. In a record the access in force
at a node is the one that the last label in front of it names, among the nodes that are
read for the same body, or that of the record where there is no such label.
-/

namespace DeclGraph

namespace ParseTree

mutual

/-- A tree and the nodes below it that are read for the same body, in document order. -/
def readAlong : ParseTree → List ParseTree
  | .node info children =>
    .node info children ::
      match Construct.ofKind info.kind with
      | .template => readAlongTemplated children
      | .linkage => readAlongLinked children
      | .transparent => readAlongAll children
      | _ => []

/-- The nodes of several trees that are read for the same body. -/
def readAlongAll : List ParseTree → List ParseTree
  | [] => []
  | tree :: rest => tree.readAlong ++ readAlongAll rest

/-- The nodes of the first tree that is labelled as a body. -/
def readAlongLinked : List ParseTree → List ParseTree
  | [] => []
  | .node info children :: rest =>
    if info.label = "body" then readAlong (.node info children) else readAlongLinked rest

/-- The nodes of the trees that a template declares. -/
def readAlongTemplated : List ParseTree → List ParseTree
  | [] => []
  | .node info children :: rest =>
    (if Reading.isTemplated info then readAlong (.node info children) else [])
      ++ readAlongTemplated rest

end

mutual

/-- What is read for the same body keeps the order of the document. -/
theorem readAlong_sublist : (tree : ParseTree) → tree.readAlong.Sublist tree.preorder
  | .node info children => by
    unfold readAlong preorder
    refine List.Sublist.cons_cons _ ?_
    split
    · exact readAlongTemplated_sublist children
    · exact readAlongLinked_sublist children
    · exact readAlongAll_sublist children
    · exact List.nil_sublist _

/-- Trees that are read along with a block are trees below it, in their order. -/
theorem readAlongAll_sublist :
    (trees : List ParseTree) → (readAlongAll trees).Sublist (preorderAll trees)
  | [] => by simp [readAlongAll]
  | tree :: rest => by
    unfold readAlongAll preorderAll
    exact (readAlong_sublist tree).append (readAlongAll_sublist rest)

/-- Trees that are read along with a linkage are trees below it, in their order. -/
theorem readAlongLinked_sublist :
    (trees : List ParseTree) → (readAlongLinked trees).Sublist (preorderAll trees)
  | [] => by simp [readAlongLinked]
  | .node info children :: rest => by
    unfold readAlongLinked preorderAll
    split
    · exact (readAlong_sublist (.node info children)).trans (List.sublist_append_left _ _)
    · exact (readAlongLinked_sublist rest).trans (List.sublist_append_right _ _)

/-- Trees that are read along with a template are trees below it, in their order. -/
theorem readAlongTemplated_sublist :
    (trees : List ParseTree) → (readAlongTemplated trees).Sublist (preorderAll trees)
  | [] => by simp [readAlongTemplated]
  | .node info children :: rest => by
    unfold readAlongTemplated preorderAll
    refine List.Sublist.append ?_ (readAlongTemplated_sublist rest)
    split
    · exact readAlong_sublist (.node info children)
    · exact List.nil_sublist _

end

end ParseTree

namespace Reading

/-! ### Blocks and sites -/

/-- The trees of a body, or of no body at all. -/
structure Block where
  /-- The access of the members of a record for which none is given. Other blocks give
  no access. -/
  fallback : Option Access
  trees : List ParseTree

/-- The access that a node names, if it is a label that names one. -/
def labelled? (source : SourceText) (node : ParseTree) : Option Access :=
  if node.kind = "access_specifier" then accessNamed? (source.spelling node) else none

/-- The access in force in a block behind some of its nodes: that of the last label. -/
def Block.accessBehind (source : SourceText) (block : Block) (nodes : List ParseTree) :
    Option Access :=
  block.fallback.map fun fallback =>
    ((nodes.filterMap (labelled? source)).getLast?).getD fallback

/-- What a node declares by itself. -/
inductive Entry where
  | namespaces
  /-- The record that the node declares, or that its type `tree` does. -/
  | record (head : RecordHead) (tree : ParseTree)
  | function
  | prototypes
  | members
  | alias
  | typedefAliases (plan : TypedefPlan)

/-- What a node declares where the reader stands. -/
def Entry.declaredAt (source : SourceText) (node : ParseTree) (reading : Reading) :
    Entry → List Declaration
  | .namespaces => (reading.emptyHanded.openNamespace source node).declarations
  | .record head tree => recordAt source head tree reading
  | .function => functionAt source node reading
  | .prototypes => prototypesAt source node reading
  | .members => membersAt source node reading
  | .alias => aliasAt source node reading
  | .typedefAliases plan => typedefAliasesAt source plan node reading

/-- A place where something is declared: a node of a block, behind other nodes of it. -/
structure Site where
  block : Block
  /-- The nodes that are read for the block before the node is. -/
  before : List ParseTree
  node : ParseTree
  entry : Entry

/-- The access in force at a site. -/
def Site.access (source : SourceText) (site : Site) : Option Access :=
  site.block.accessBehind source site.before

mutual

/-- The sites in a tree of a block and in the bodies below it, in the order in which they
are read. The nodes `before` the tree were read for the same block. -/
def sites (source : SourceText) (block : Block) (before : List ParseTree) :
    ParseTree → List Site
  | .node info children =>
    let tree := ParseTree.node info children
    match Construct.ofKind info.kind with
    | .namespaceBlock => ⟨block, before, tree, .namespaces⟩ :: sitesInBody source none children
    | .record _ =>
      match source.recordHead? tree with
      | none => []
      | some head =>
        ⟨block, before, tree, .record head tree⟩ ::
          if (ScopedName.ofSpelling head.spelled).isGlobal then []
          else sitesInBody source (some (defaultAccess head.kind)) children
    | .functionDefinition => [⟨block, before, tree, .function⟩]
    | .declaration =>
      sitesInType source (⟨block, before, tree, .record · ·⟩) source.embeddedHead? children
        ++ [⟨block, before, tree, .prototypes⟩]
    | .memberDeclaration =>
      sitesInType source (⟨block, before, tree, .record · ·⟩) source.embeddedHead? children
        ++ [⟨block, before, tree, .members⟩]
    | .template => sitesTemplated source block (before ++ [tree]) children
    | .aliasDeclaration => [⟨block, before, tree, .alias⟩]
    | .typeDefinition =>
      match source.typedefPlan? tree with
      | none => []
      | some plan =>
        sitesInType source (⟨block, before, tree, .record · ·⟩) (fun _ => plan.record) children
          ++ [⟨block, before, tree, .typedefAliases plan⟩]
    | .linkage => sitesLinked source block (before ++ [tree]) children
    | .transparent => sitesAll source block (before ++ [tree]) children
    | .accessLabel | .usingDirective | .skipped => []
termination_by structural tree => tree

/-- The sites in trees that follow each other in a block. -/
def sitesAll (source : SourceText) (block : Block) (before : List ParseTree) :
    List ParseTree → List Site
  | [] => []
  | tree :: rest =>
    sites source block before tree ++ sitesAll source block (before ++ tree.readAlong) rest
termination_by structural trees => trees

/-- The sites in the first tree that is labelled as a body. Its children are a block. -/
def sitesInBody (source : SourceText) (fallback : Option Access) : List ParseTree → List Site
  | [] => []
  | .node info children :: rest =>
    if info.label = "body" then sitesAll source ⟨fallback, children⟩ [] children
    else sitesInBody source fallback rest
termination_by structural trees => trees

/-- The sites in the first tree that is labelled as a body and belongs to the block. -/
def sitesLinked (source : SourceText) (block : Block) (before : List ParseTree) :
    List ParseTree → List Site
  | [] => []
  | .node info children :: rest =>
    if info.label = "body" then sites source block before (.node info children)
    else sitesLinked source block before rest
termination_by structural trees => trees

/-- The site of the record that the first tree labelled as a type declares, and the sites
in its body. -/
def sitesInType (source : SourceText) (here : RecordHead → ParseTree → Site)
    (head : ParseTree → Option RecordHead) : List ParseTree → List Site
  | [] => []
  | .node info children :: rest =>
    let tree := ParseTree.node info children
    if info.label = "type" then
      match head tree with
      | none => []
      | some head =>
        here head tree ::
          if (ScopedName.ofSpelling head.spelled).isGlobal then []
          else sitesInBody source (some (defaultAccess head.kind)) children
    else sitesInType source here head rest
termination_by structural trees => trees

/-- The sites in what a template declares. -/
def sitesTemplated (source : SourceText) (block : Block) (before : List ParseTree) :
    List ParseTree → List Site
  | [] => []
  | .node info children :: rest =>
    if isTemplated info then
      sites source block before (.node info children)
        ++ sitesTemplated source block (before ++ (ParseTree.node info children).readAlong) rest
    else sitesTemplated source block before rest
termination_by structural trees => trees

end

/-- Whether a site accounts for some declarations. -/
structure Site.Gives (source : SourceText) (site : Site) (group : List Declaration) : Prop where
  /-- The node is read for its block, behind the nodes in front of it. -/
  placed : ∃ after, ParseTree.readAlongAll site.block.trees = site.before ++ site.node :: after
  /-- The declarations are those of the node at a reader with the access of the site. -/
  declared : ∃ reading : Reading, reading.access = site.access source ∧
    group = site.entry.declaredAt source site.node reading
  /-- All but namespaces have the access in force at the site. -/
  access : ∀ declaration ∈ group, declaration.access =
    if declaration.kind = .namespaceScope then none else site.access source

/-- Whether the declarations that were added are, group by group, those of the sites. -/
def Accounted (source : SourceText) (sites : List Site) (before after : List Declaration) :
    Prop :=
  ∃ groups : List (List Declaration), after = before ++ groups.flatten ∧
    List.Forall₂ (Site.Gives source) sites groups

variable {source : SourceText}

/-- No sites account for no declarations. -/
theorem accounted_nil (declarations : List Declaration) :
    Accounted source [] declarations declarations := ⟨[], by simp, .nil⟩

/-- Sites account for what is declared one after the other. -/
theorem Accounted.append {first second : List Site} {before middle after : List Declaration}
    (ofFirst : Accounted source first before middle)
    (ofSecond : Accounted source second middle after) :
    Accounted source (first ++ second) before after := by
  obtain ⟨firstGroups, rfl, firstGives⟩ := ofFirst
  obtain ⟨secondGroups, rfl, secondGives⟩ := ofSecond
  exact ⟨firstGroups ++ secondGroups, by simp, List.rel_append firstGives secondGives⟩

/-- A single site accounts for the group that it gives. -/
theorem accounted_singleton {site : Site} {group : List Declaration}
    (gives : site.Gives source group) (declarations : List Declaration) :
    Accounted source [site] declarations (declarations ++ group) :=
  ⟨[group], by simp, .cons gives .nil⟩

/-- A site gives what is declared at the place of a reader that has its access. -/
theorem Site.gives_of_declaresAtPlace (site : Site) {reading : Reading}
    (placed : ∃ after,
      ParseTree.readAlongAll site.block.trees = site.before ++ site.node :: after)
    (inForce : reading.access = site.access source)
    (atPlace : DeclaresAtPlace fun reading => site.entry.declaredAt source site.node reading) :
    site.Gives source (site.entry.declaredAt source site.node reading) where
  placed := placed
  declared := ⟨reading, inForce, rfl⟩
  access declaration noted := by
    have stands := atPlace.standsAt noted
    rw [if_neg stands.kind, stands.access, inForce]

/-! ### The access in force -/

/-- A node that is no label leaves the access in force as it was. -/
theorem Block.accessBehind_append_of_unlabelled {block : Block} {before : List ParseTree}
    {node : ParseTree} (unlabelled : labelled? source node = none) :
    block.accessBehind source (before ++ [node]) = block.accessBehind source before := by
  simp [accessBehind, List.filterMap_append, unlabelled]

/-- Behind a label the access that it names is in force, where accesses are given at all. -/
theorem Block.accessBehind_append_of_labelled {block : Block} {before : List ParseTree}
    {node : ParseTree} {access : Access} (labelled : labelled? source node = some access) :
    block.accessBehind source (before ++ [node]) = block.fallback.map fun _ => access := by
  simp [accessBehind, List.filterMap_append, labelled]

/-- The labels are the nodes that the parser calls access specifiers. -/
theorem ofKind_eq_accessLabel_iff {kind : String} :
    Construct.ofKind kind = .accessLabel ↔ kind = "access_specifier" := by
  unfold Construct.ofKind
  split <;> simp_all

/-- Only labels name an access. -/
theorem labelled?_of_ofKind_ne {info : NodeInfo} {children : List ParseTree}
    (other : Construct.ofKind info.kind ≠ .accessLabel) :
    labelled? source (.node info children) = none :=
  if_neg fun same => other (ofKind_eq_accessLabel_iff.mpr same)

end Reading

end DeclGraph

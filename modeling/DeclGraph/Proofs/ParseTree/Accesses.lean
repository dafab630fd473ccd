import DeclGraph.Proofs.ParseTree.Places

/-!
# The access of declarations

A visit finds what the sites in a tree declare, site by site and in their order, each
with the access in force there, and leaves in force what the last label of the block
names. Labels in other bodies never matter.
-/

namespace DeclGraph.Reading

variable {source : SourceText} {block : Block} {before : List ParseTree} {reading : Reading}

/-! ### Single sites -/

/-- What namespaces add to what was found. -/
theorem declarations_openNamespace (source : SourceText) (tree : ParseTree) (reading : Reading) :
    (reading.openNamespace source tree).declarations =
      reading.declarations ++ (reading.emptyHanded.openNamespace source tree).declarations :=
  congrArg declarations (addsByPlace_openNamespace source tree reading)

/-- What opening namespaces adds are namespaces, which have no access. -/
theorem of_mem_foldl_enterNamespace {line : Nat} {names : List String} {declaration : Declaration}
    (member : declaration ∈ (names.foldl (enterNamespace line) reading).declarations) :
    declaration ∈ reading.declarations ∨
      declaration.kind = .namespaceScope ∧ declaration.access = none := by
  induction names generalizing reading with
  | nil => exact .inl member
  | cons name rest ih =>
    rcases ih member with earlier | found
    · rcases List.mem_append.mp earlier with older | own
      · exact .inl older
      · rw [List.mem_singleton.mp own]
        exact .inr ⟨rfl, rfl⟩
    · exact .inr found

/-- Opening the namespaces of a node gives what its site accounts for. -/
theorem gives_namespaces {tree : ParseTree}
    (placed : ∃ after, ParseTree.readAlongAll block.trees = before ++ tree :: after)
    (inForce : reading.access = block.accessBehind source before) :
    Site.Gives source ⟨block, before, tree, .namespaces⟩
      (reading.emptyHanded.openNamespace source tree).declarations where
  placed := placed
  declared := ⟨reading, inForce, rfl⟩
  access declaration noted := by
    rcases of_mem_foldl_enterNamespace noted with none | ⟨kind, access⟩
    · cases none
    · rw [if_pos kind, access]

/-- Only a record whose name is empty is not declared. -/
theorem recordAt?_eq_none_iff {head : RecordHead} {tree : ParseTree} :
    reading.recordAt? source head tree = none ↔
      (ScopedName.ofSpelling head.spelled).isGlobal = true := by
  simp only [recordAt?, SourceText.record?]
  split <;> simp [*]

/-- A record is declared as a definition exactly when it has a body. -/
theorem isDefinition_of_recordAt? {head : RecordHead} {tree : ParseTree}
    {declaration : Declaration}
    (found : reading.recordAt? source head tree = some declaration) :
    declaration.isDefinition = (tree.child? "body").isSome := by
  simp only [recordAt?, SourceText.record?] at found
  split at found <;> cases found
  rfl

/-- A record is declared at its site, and what its body holds at the sites in there. -/
theorem accounted_throughRecord (inside : Reading → Reading) {nested : List Site}
    {head : RecordHead} {node tree : ParseTree} (isRecord : head.kind.isRecord = true)
    (placed : ∃ after, ParseTree.readAlongAll block.trees = before ++ node :: after)
    (inForce : reading.access = block.accessBehind source before)
    (ofInside : ∀ entered : Reading, entered.access = some (defaultAccess head.kind) →
      Accounted source nested entered.declarations (inside entered).declarations)
    (bodiless : tree.child? "body" = none → nested = []) :
    Accounted source
      (⟨block, before, node, .record head tree⟩ ::
        if (ScopedName.ofSpelling head.spelled).isGlobal then [] else nested)
      reading.declarations (throughRecord source inside head tree reading).declarations := by
  have gives : Site.Gives source ⟨block, before, node, .record head tree⟩
      (recordAt source head tree reading) :=
    Site.gives_of_declaresAtPlace ⟨block, before, node, .record head tree⟩ placed inForce
      (declaresAtPlace_recordAt isRecord source tree)
  have alone := accounted_singleton gives reading.declarations
  unfold recordAt at alone
  unfold throughRecord
  cases found : reading.recordAt? source head tree with
  | none =>
    rw [found] at alone
    rw [if_pos (recordAt?_eq_none_iff.mp found)]
    simpa using alone
  | some declaration =>
    rw [found] at alone
    have named : ¬ (ScopedName.ofSpelling head.spelled).isGlobal = true := by
      intro global
      rw [recordAt?_eq_none_iff.mpr global] at found
      cases found
    rw [if_neg named]
    dsimp only
    split
    · exact alone.append (ofInside (reading.enterRecord head declaration) rfl)
    · rename_i onlyAnnounced
      rw [isDefinition_of_recordAt? found, Bool.not_eq_true, Option.isSome_eq_false_iff,
        Option.isNone_iff_eq_none] at onlyAnnounced
      rw [bodiless onlyAnnounced]
      exact alone

/-- A type without a body has no sites inside. -/
theorem sitesInBody_eq_nil {fallback : Option Access} {info : NodeInfo}
    {children : List ParseTree} (bodiless : (ParseTree.node info children).child? "body" = none) :
    sitesInBody source fallback children = [] := by
  have unlabelled : ∀ child ∈ children, child.info.label ≠ "body" := by
    simpa [ParseTree.child?, ParseTree.children] using bodiless
  clear bodiless
  induction children with
  | nil => rfl
  | cons child rest ih =>
    obtain ⟨childInfo, below⟩ := child
    have other : childInfo.label ≠ "body" := unlabelled _ List.mem_cons_self
    unfold sitesInBody
    rw [if_neg other]
    exact ih fun later member => unlabelled later (List.mem_cons_of_mem _ member)

/-! ### Visits -/

/-- Whether a reader has passed some nodes of a block: it has found what their sites
declare, and the access in force is the one behind them. -/
structure Passed (source : SourceText) (block : Block) (nodes : List ParseTree)
    (sites : List Site) (reading after : Reading) : Prop where
  told : Accounted source sites reading.declarations after.declarations
  access : after.access = block.accessBehind source nodes

/-- Whether nodes are the first ones that are read for a block. -/
def Leads (block : Block) (nodes : List ParseTree) : Prop :=
  nodes <+: ParseTree.readAlongAll block.trees

/-- The last of some leading nodes is read behind the others. -/
theorem Leads.placed {node : ParseTree} {further : List ParseTree}
    (leads : Leads block (before ++ node :: further)) :
    ∃ after, ParseTree.readAlongAll block.trees = before ++ node :: after := by
  obtain ⟨after, whole⟩ := leads
  exact ⟨further ++ after, by simpa using whole.symm⟩

/-- A reader that passes some nodes and then further ones has passed them all. -/
theorem Passed.append {first second : List Site} {nodes further : List ParseTree}
    {middle after : Reading} (ofFirst : Passed source block nodes first reading middle)
    (ofSecond : Passed source block further second middle after) :
    Passed source block further (first ++ second) reading after :=
  ⟨ofFirst.told.append ofSecond.told, ofSecond.access⟩

/-- A site at which the reader adds what is declared there, and which changes no access. -/
theorem passed_site {nodes : List ParseTree} (site : Site) {after : Reading}
    (placed : ∃ rest, ParseTree.readAlongAll site.block.trees = site.before ++ site.node :: rest)
    (inForce : reading.access = site.access source)
    (atPlace : DeclaresAtPlace fun reading => site.entry.declaredAt source site.node reading)
    (added : after.declarations =
      reading.declarations ++ site.entry.declaredAt source site.node reading)
    (behind : after.access = block.accessBehind source nodes) :
    Passed source block nodes [site] reading after := by
  refine ⟨?_, behind⟩
  rw [added]
  exact accounted_singleton (site.gives_of_declaresAtPlace placed inForce atPlace) _

/-- What is offered is found behind what was found before. -/
theorem declarations_offer (reading : Reading) (declared : List Declaration) :
    (reading.offer declared).declarations = reading.declarations ++ declared := by
  unfold offer
  split
  · simp [*]
  · rfl

/-- An offer leaves the access in force as it was. -/
theorem access_offer (reading : Reading) (declared : List Declaration) :
    (reading.offer declared).access = reading.access := by
  unfold offer
  split <;> rfl

/-- A site at which the reader is offered what is declared there. -/
theorem passed_offer {nodes : List ParseTree} (site : Site)
    (placed : ∃ rest, ParseTree.readAlongAll site.block.trees = site.before ++ site.node :: rest)
    (inForce : reading.access = site.access source)
    (atPlace : DeclaresAtPlace fun reading => site.entry.declaredAt source site.node reading)
    (behind : reading.access = block.accessBehind source nodes) :
    Passed source block nodes [site] reading
      (reading.offer (site.entry.declaredAt source site.node reading)) :=
  passed_site site placed inForce atPlace (declarations_offer _ _)
    ((access_offer _ _).trans behind)

/-- A site whose node declares something behind what is embedded in it. -/
theorem Passed.concat {nodes : List ParseTree} {node : ParseTree} {embedded : List Site}
    {middle after : Reading} (passed : Passed source block before embedded reading middle)
    (inForce : reading.access = block.accessBehind source before) (entry : Entry)
    (placed : ∃ rest, ParseTree.readAlongAll block.trees = before ++ node :: rest)
    (atPlace : DeclaresAtPlace fun reading => entry.declaredAt source node reading)
    (added : after.declarations = middle.declarations ++ entry.declaredAt source node middle)
    (kept : after.access = middle.access)
    (behind : reading.access = block.accessBehind source nodes) :
    Passed source block nodes (embedded ++ [⟨block, before, node, entry⟩]) reading after :=
  passed.append (passed_site ⟨block, before, node, entry⟩ placed passed.access atPlace added
    (kept.trans (passed.access.trans (inForce.symm.trans behind))))

/-- The access in force behind a record is the one in front of it. -/
theorem access_throughRecord (inside : Reading → Reading) (head : RecordHead) (tree : ParseTree) :
    (throughRecord source inside head tree reading).access = reading.access := by
  unfold throughRecord
  split
  · rfl
  · split <;> rfl

/-- A label declares nothing. -/
theorem declarations_changeAccess (tree : ParseTree) :
    (reading.changeAccess source tree).declarations = reading.declarations := by
  unfold changeAccess
  split <;> rfl

/-- In a record a label puts its access in force, and elsewhere nothing does. -/
theorem access_changeAccess {tree : ParseTree} (isLabel : tree.kind = "access_specifier")
    (inForce : reading.access = block.accessBehind source before) :
    (reading.changeAccess source tree).access = block.accessBehind source (before ++ [tree]) := by
  have labelled : labelled? source tree = accessNamed? (source.spelling tree) := if_pos isLabel
  cases named : accessNamed? (source.spelling tree) with
  | none =>
    rw [Block.accessBehind_append_of_unlabelled (labelled.trans named), ← inForce]
    unfold changeAccess
    rw [named]
    split <;> simp_all
  | some access =>
    rw [Block.accessBehind_append_of_labelled (labelled.trans named)]
    unfold changeAccess
    cases given : block.fallback with
    | none =>
      have outside : reading.access = none := by rw [inForce, Block.accessBehind, given]; rfl
      simp only [outside, Option.map_none]
    | some fallback =>
      have inside : reading.access.isSome = true := by rw [inForce, Block.accessBehind, given]; rfl
      obtain ⟨earlier, there⟩ := Option.isSome_iff_exists.mp inside
      simp only [there, named, Option.map_some]

/-- A directive declares nothing. -/
theorem declarations_addDirective (tree : ParseTree) :
    (reading.addDirective source tree).declarations = reading.declarations := by
  unfold addDirective
  split
  · split <;> rfl
  · rfl

/-- A directive leaves the access in force as it was. -/
theorem access_addDirective (tree : ParseTree) :
    (reading.addDirective source tree).access = reading.access := by
  unfold addDirective
  split
  · split <;> rfl
  · rfl

mutual

/-- A visit passes a tree of a block. -/
theorem passed_visit (source : SourceText) (block : Block) (before : List ParseTree)
    (reading : Reading) (inForce : reading.access = block.accessBehind source before) :
    (tree : ParseTree) → Leads block (before ++ tree.readAlong) →
      Passed source block (before ++ tree.readAlong) (sites source block before tree) reading
        (visit source reading tree)
  | .node info children, leads => by
    unfold ParseTree.readAlong at leads ⊢
    unfold visit sites
    have placed := leads.placed
    have unlabelled : Construct.ofKind info.kind ≠ .accessLabel →
        labelled? source (.node info children) = none := labelled?_of_ofKind_ne
    generalize node : ParseTree.node info children = tree at placed unlabelled leads ⊢
    -- Every node but a label leaves the access as it is.
    have behind (other : Construct.ofKind info.kind ≠ .accessLabel) :
        reading.access = block.accessBehind source (before ++ [tree]) :=
      inForce.trans (Block.accessBehind_append_of_unlabelled (unlabelled other)).symm
    cases kind : Construct.ofKind info.kind with
    | namespaceBlock =>
      have entered := accounted_singleton (gives_namespaces placed inForce) reading.declarations
      rw [← declarations_openNamespace] at entered
      exact ⟨entered.append (accounted_visitBody source none _ rfl children),
        behind (by simp [kind])⟩
    | record _ =>
      dsimp only
      cases isHead : source.recordHead? tree with
      | none => exact ⟨accounted_nil _, behind (by simp [kind])⟩
      | some head =>
        refine ⟨accounted_throughRecord (fun reading => visitBody source reading children)
          (SourceText.isRecord_of_recordHead? isHead) placed inForce
          (fun entered inside => accounted_visitBody source _ entered inside children)
          (fun bodiless => sitesInBody_eq_nil (node ▸ bodiless)), ?_⟩
        exact (access_throughRecord (fun reading => visitBody source reading children) head
          tree).trans (behind (by simp [kind]))
    | functionDefinition =>
      dsimp only
      rw [addFunction_eq_offer]
      exact passed_offer ⟨block, before, tree, .function⟩ placed inForce
        (declaresAtPlace_functionAt source tree) (behind (by simp [kind]))
    | declaration =>
      have embedded := passed_visitType source block before reading inForce placed
        source.embeddedHead? (fun _ _ => SourceText.isRecord_of_embeddedHead?) children
      exact embedded.concat inForce .prototypes placed
        (declaresAtPlace_prototypesAt source tree) rfl rfl (behind (by simp [kind]))
    | memberDeclaration =>
      have embedded := passed_visitType source block before reading inForce placed
        source.embeddedHead? (fun _ _ => SourceText.isRecord_of_embeddedHead?) children
      exact embedded.concat inForce .members placed
        (declaresAtPlace_membersAt source tree) rfl rfl (behind (by simp [kind]))
    | template =>
      have declared := passed_visitTemplated source block (before ++ [tree])
        { reading with templateParameters := templateNames source tree }
        (behind (by simp [kind])) children (by simpa [kind] using leads)
      rw [List.append_assoc] at declared
      exact ⟨declared.told, declared.access⟩
    | aliasDeclaration =>
      dsimp only
      rw [addAlias_eq_offer]
      exact passed_offer ⟨block, before, tree, .alias⟩ placed inForce
        (declaresAtPlace_aliasAt source tree) (behind (by simp [kind]))
    | typeDefinition =>
      dsimp only
      cases isPlan : source.typedefPlan? tree with
      | none => exact ⟨accounted_nil _, behind (by simp [kind])⟩
      | some plan =>
        have embedded := passed_visitType source block before reading inForce placed
          (fun _ => plan.record) (fun _ _ => SourceText.isRecord_of_typedefPlan? isPlan) children
        exact embedded.concat inForce (.typedefAliases plan) placed
          (declaresAtPlace_typedefAliasesAt source plan tree) rfl rfl (behind (by simp [kind]))
    | accessLabel =>
      dsimp only
      have isLabel : tree.kind = "access_specifier" := by
        rw [← node]
        exact ofKind_eq_accessLabel_iff.mp kind
      refine ⟨?_, access_changeAccess isLabel inForce⟩
      rw [declarations_changeAccess]
      exact accounted_nil _
    | usingDirective =>
      dsimp only
      refine ⟨?_, (access_addDirective tree).trans (behind (by simp [kind]))⟩
      rw [declarations_addDirective]
      exact accounted_nil _
    | linkage =>
      have linked := passed_visitLinked source block (before ++ [tree]) reading
        (behind (by simp [kind])) children (by simpa [kind] using leads)
      simpa using linked
    | skipped => exact ⟨accounted_nil _, behind (by simp [kind])⟩
    | transparent =>
      have inner := passed_visitAll source block (before ++ [tree]) reading
        (behind (by simp [kind])) children (by simpa [kind] using leads)
      simpa using inner
termination_by structural tree _ => tree

/-- Visits pass the trees of a block one after the other. -/
theorem passed_visitAll (source : SourceText) (block : Block) (before : List ParseTree)
    (reading : Reading) (inForce : reading.access = block.accessBehind source before) :
    (trees : List ParseTree) → Leads block (before ++ ParseTree.readAlongAll trees) →
      Passed source block (before ++ ParseTree.readAlongAll trees)
        (sitesAll source block before trees) reading (visitAll source reading trees)
  | [], _ => by
    unfold ParseTree.readAlongAll visitAll sitesAll
    exact ⟨accounted_nil _, by rw [List.append_nil, inForce]⟩
  | tree :: rest, leads => by
    unfold ParseTree.readAlongAll at leads ⊢
    unfold visitAll sitesAll
    rw [← List.append_assoc] at leads ⊢
    have first := passed_visit source block before reading inForce tree
      ((List.prefix_append _ _).trans leads)
    exact first.append (passed_visitAll source block _ _ first.access rest leads)
termination_by structural trees _ => trees

/-- A body is a block of its own, at the beginning of which its fallback is in force. -/
theorem accounted_visitBody (source : SourceText) (fallback : Option Access) (reading : Reading)
    (inForce : reading.access = fallback) : (trees : List ParseTree) →
      Accounted source (sitesInBody source fallback trees) reading.declarations
        (visitBody source reading trees).declarations
  | [] => by
    unfold sitesInBody visitBody
    exact accounted_nil _
  | .node info children :: rest => by
    unfold sitesInBody visitBody
    split
    · have atStart : reading.access = Block.accessBehind source ⟨fallback, children⟩ [] := by
        rw [inForce]
        cases fallback <;> rfl
      exact (passed_visitAll source ⟨fallback, children⟩ [] reading atStart children
        (List.prefix_refl _)).told
    · exact accounted_visitBody source fallback reading inForce rest
termination_by structural trees => trees

/-- A reader passes the block of a linkage. -/
theorem passed_visitLinked (source : SourceText) (block : Block) (before : List ParseTree)
    (reading : Reading) (inForce : reading.access = block.accessBehind source before) :
    (trees : List ParseTree) → Leads block (before ++ ParseTree.readAlongLinked trees) →
      Passed source block (before ++ ParseTree.readAlongLinked trees)
        (sitesLinked source block before trees) reading (visitLinked source reading trees)
  | [], _ => by
    unfold ParseTree.readAlongLinked visitLinked sitesLinked
    exact ⟨accounted_nil _, by rw [List.append_nil, inForce]⟩
  | .node info children :: rest, leads => by
    unfold ParseTree.readAlongLinked at leads ⊢
    unfold visitLinked sitesLinked
    split at leads
    · rename_i isBody
      simp only [if_pos isBody]
      exact passed_visit source block before reading inForce (.node info children) leads
    · rename_i other
      simp only [if_neg other]
      exact passed_visitLinked source block before reading inForce rest leads
termination_by structural trees _ => trees

/-- The record that a type declares belongs to the node around the type. -/
theorem passed_visitType (source : SourceText) (block : Block) (before : List ParseTree)
    (reading : Reading) (inForce : reading.access = block.accessBehind source before)
    {node : ParseTree}
    (placed : ∃ after, ParseTree.readAlongAll block.trees = before ++ node :: after)
    (head : ParseTree → Option RecordHead)
    (isRecord : ∀ tree found, head tree = some found → found.kind.isRecord = true) :
    (trees : List ParseTree) →
      Passed source block before
        (sitesInType source (⟨block, before, node, .record · ·⟩) head trees) reading
        (visitType source reading head trees)
  | [] => by
    unfold visitType sitesInType
    exact ⟨accounted_nil _, inForce⟩
  | .node info children :: rest => by
    unfold visitType sitesInType
    dsimp only
    split
    · cases isHead : head (.node info children) with
      | none => exact ⟨accounted_nil _, inForce⟩
      | some found =>
        refine ⟨accounted_throughRecord (fun reading => visitBody source reading children)
          (isRecord _ _ isHead) placed inForce
          (fun entered inside => accounted_visitBody source _ entered inside children)
          sitesInBody_eq_nil, ?_⟩
        exact (access_throughRecord (fun reading => visitBody source reading children) found
          _).trans inForce
    · exact passed_visitType source block before reading inForce placed head isRecord rest
termination_by structural trees => trees

/-- A reader passes what a template declares. -/
theorem passed_visitTemplated (source : SourceText) (block : Block) (before : List ParseTree)
    (reading : Reading) (inForce : reading.access = block.accessBehind source before) :
    (trees : List ParseTree) → Leads block (before ++ ParseTree.readAlongTemplated trees) →
      Passed source block (before ++ ParseTree.readAlongTemplated trees)
        (sitesTemplated source block before trees) reading (visitTemplated source reading trees)
  | [], _ => by
    unfold ParseTree.readAlongTemplated visitTemplated sitesTemplated
    exact ⟨accounted_nil _, by rw [List.append_nil, inForce]⟩
  | .node info children :: rest, leads => by
    unfold ParseTree.readAlongTemplated at leads ⊢
    unfold visitTemplated sitesTemplated
    by_cases declared : isTemplated info = true
    · simp only [if_pos declared] at leads ⊢
      rw [← List.append_assoc] at leads ⊢
      have first := passed_visit source block before reading inForce (.node info children)
        ((List.prefix_append _ _).trans leads)
      exact first.append (passed_visitTemplated source block _ _ first.access rest leads)
    · simp only [if_neg declared, List.nil_append] at leads ⊢
      exact passed_visitTemplated source block before reading inForce rest leads
termination_by structural trees _ => trees

end

/-- All that is found in a tree is declared at the sites in it, site by site. A record, a
callable, a data member or an alias has the access in force at its site: in the body of a
record that of the last label which is read for this body in front of the node, in the order
of the document, or that of the record without one, and none anywhere else. -/
theorem visit_start_accesses (source : SourceText) :
    (∀ trees, (ParseTree.readAlongAll trees).Sublist (ParseTree.preorderAll trees)) ∧
      ∀ tree, ∃ groups : List (List Declaration),
        (visit source start tree).declarations = groups.flatten ∧
        List.Forall₂ (Site.Gives source) (sites source ⟨none, [tree]⟩ [] tree) groups := by
  refine ⟨ParseTree.readAlongAll_sublist, fun tree => ?_⟩
  have leads : Leads ⟨none, [tree]⟩ ([] ++ tree.readAlong) := by
    simp [Leads, ParseTree.readAlongAll]
  obtain ⟨groups, found, gives⟩ :=
    (passed_visit source ⟨none, [tree]⟩ [] start rfl tree leads).told
  exact ⟨groups, by simpa [start] using found, gives⟩

end DeclGraph.Reading

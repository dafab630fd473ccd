import DeclGraph.Proofs.Assembly.Directives
import DeclGraph.Proofs.Assembly.Leading
import DeclGraph.Proofs.Assembly.Structure

/-!
# Settings and structure

Settings say whether calls and the uses of types are read. Without them a unit
still mentions what it mentions, and still refers to its bases and to what its
aliases stand for. So an assembly differs from the one under the fast settings
only in references that wait for the end, and these are linked when the structure
of the graph is settled already. Whatever is read, the structure is the same.
-/

namespace DeclGraph

/-- Whether the reference is one to a base or to what an alias stands for. -/
def Reference.isLeading (reference : Reference) : Bool :=
  reference.isAliasTarget || reference.isBase

/-- What is kept of a unit without the references that settings can leave out. -/
def Pending.pared (pending : Pending) : Pending :=
  { pending with references := pending.references.filter (·.isLeading) }

namespace Declaration

variable {settings : Settings} {owner : EntityKey} {reference : Reference}

/-- A reference in a signature does not lead a lookup on. -/
theorem not_isLeading_of_mem_signature {signature : Signature}
    (member : reference ∈ signatureReferences owner signature) : reference.isLeading = false := by
  simp only [signatureReferences, List.mem_append, List.mem_map] at member
  rcases member with ⟨parameter, _, rfl⟩ | ⟨type, _, rfl⟩ <;> rfl

/-- A reference in a body does not lead a lookup on. -/
theorem not_isLeading_of_mem_body {parameters : List Parameter} {body : Body}
    (member : reference ∈ bodyReferences settings owner parameters body) :
    reference.isLeading = false := by
  unfold bodyReferences at member
  rcases List.mem_append.mp member with isLocal | isBody
  · split at isLocal
    · obtain ⟨held, _, rfl⟩ := List.mem_map.mp isLocal
      rfl
    · cases isLocal
  · split at isBody
    · obtain rfl := List.mem_singleton.mp isBody
      rfl
    · cases isBody

/-- The fast settings read the references that no settings leave out. -/
theorem references_fast (settings : Settings) (declaration : Declaration) :
    declaration.references .fast = (declaration.references settings).filter (·.isLeading) := by
  have all : ∀ {references : List Reference}, (∀ reference ∈ references, reference.isLeading) →
      references = references.filter (·.isLeading) := fun every =>
    (List.filter_eq_self.mpr every).symm
  have none : ∀ {references : List Reference},
      (∀ reference ∈ references, reference.isLeading = false) →
        [] = references.filter (·.isLeading) := fun never =>
    (List.filter_eq_nil_iff.mpr fun reference member => by simp [never reference member]).symm
  unfold references
  cases declaration.kind with
  | classRecord | structRecord =>
    refine all fun reference member => ?_
    obtain ⟨base, _, rfl⟩ := List.mem_map.mp member
    rfl
  | typeAlias =>
    refine all fun reference member => ?_
    obtain ⟨spelling, _, rfl⟩ := List.mem_map.mp member
    rfl
  | freeFunction | method | constructor | destructor =>
    have nothing : declaration.body.toList.flatMap (bodyReferences .fast declaration.key
        ((declaration.signature.map (·.parameters)).getD [])) = [] := by
      simp [bodyReferences, Settings.fast]
    refine Eq.trans nothing (none fun reference member => ?_)
    rcases List.mem_append.mp member with inSignature | inBody
    · split at inSignature
      · obtain ⟨signature, _, named⟩ := List.mem_flatMap.mp inSignature
        exact not_isLeading_of_mem_signature named
      · cases inSignature
    · obtain ⟨body, _, named⟩ := List.mem_flatMap.mp inBody
      exact not_isLeading_of_mem_body named
  | field =>
    refine none fun reference member => ?_
    dsimp only at member
    split at member
    · obtain ⟨spelling, _, rfl⟩ := List.mem_map.mp member
      rfl
    · cases member
  | namespaceScope | placeholder => rfl

end Declaration

/-- Under the fast settings what waits of a unit is pared down. -/
theorem SourceUnit.pending_fast (settings : Settings) (unit : SourceUnit) :
    (unit.contribution .fast).pending = (unit.contribution settings).pending.pared := by
  have references : (unit.contribution .fast).references =
      (unit.contribution settings).references.filter (·.isLeading) := by
    show unit.declarations.flatMap _ = (unit.declarations.flatMap _).filter _
    rw [List.filter_flatMap]
    exact List.flatMap_congr fun declaration _ => declaration.references_fast settings
  rw [Pending.pared, Contribution.pending, references]
  rfl

/-- What waits without the references that settings can leave out. -/
def PendingUnits.pared (units : PendingUnits) : PendingUnits :=
  units.map fun _ pending => pending.pared

namespace PendingUnits

/-- What waits under a path is pared down. -/
theorem getElem?_pared (units : PendingUnits) (path : List FilePath.Component) :
    units.pared[path]? = units[path]?.map Pending.pared :=
  Std.ExtTreeMap.getElem?_map

/-- The units that wait are pared down one by one. -/
theorem values_pared (units : PendingUnits) : units.pared.values = units.values.map Pending.pared := by
  rw [values_eq_map_toList, values_eq_map_toList, pared, Std.ExtTreeMap.toList_map,
    List.map_map, List.map_map]
  rfl

/-- A unit that is pared down replaces what was pared down under its path. -/
theorem keep_pared (units : PendingUnits) (unit : Pending) :
    units.pared.keep unit.pared = (units.keep unit).pared := by
  have ownPath : unit.pared.path = unit.path := rfl
  refine Std.ExtTreeMap.ext_getElem? fun path => ?_
  rw [getElem?_keep, getElem?_pared, getElem?_pared, getElem?_pared, getElem?_keep, ownPath,
    Option.map_map]
  split <;> rfl

end PendingUnits

/-- References that settings can leave out do not come into the pass over the others. -/
theorem leadingReferences_pared (units : List Pending) :
    leadingReferences (seenReferences (units.map Pending.pared)) =
      leadingReferences (seenReferences units) := by
  have chosen : ∀ choose : Reference → Bool,
      (∀ reference, choose reference → reference.isLeading) →
        (seenReferences (units.map Pending.pared)).filter (fun item => choose item.2) =
          (seenReferences units).filter fun item => choose item.2 := by
    intro choose leading
    simp only [seenReferences, List.flatMap_map, List.filter_flatMap, List.filter_map]
    refine List.flatMap_congr fun unit _ => congrArg _ ?_
    show (unit.references.filter (·.isLeading)).filter _ = _
    rw [List.filter_filter]
    refine List.filter_congr fun reference _ => ?_
    cases isChosen : choose reference with
    | false => simp [isChosen]
    | true => simp [isChosen, leading reference isChosen]
  unfold leadingReferences
  rw [chosen Reference.isAliasTarget, chosen Reference.isBase]
  · intro reference isBase
    simp [Reference.isLeading, isBase]
  · intro reference isAlias
    simp [Reference.isLeading, isAlias]

namespace Assembly

/-- The assembly with the same catalogue, as it is under the fast settings. -/
def pared (assembly : Assembly) : Assembly :=
  ⟨.fast, assembly.catalogue, assembly.units.pared⟩

/-- A contribution without the pared references is taken up alike. -/
theorem merge_pared (assembly : Assembly) {contribution fast : Contribution}
    (mentions : fast.mentions = contribution.mentions) (path : fast.path = contribution.path)
    (pending : fast.pending = contribution.pending.pared) :
    assembly.pared.merge fast =
      ((assembly.merge contribution).1.pared, (assembly.merge contribution).2) := by
  have catalogue : assembly.pared.catalogue = assembly.catalogue := rfl
  have units : assembly.pared.units = assembly.units.pared := rfl
  unfold merge
  rw [catalogue, units, mentions, path, pending, PendingUnits.keep_pared]
  cases assembly.catalogue.firstConflict? [] contribution.mentions with
  | some conflict => rfl
  | none =>
    cases (Catalogue.registerAll contribution.mentions).run.run assembly.catalogue with
    | mk outcome after => cases outcome <;> rfl

/-- Under the fast settings the same units are taken up, and the same is known. -/
theorem mergeUnit_pared (assembly : Assembly) (unit : SourceUnit) :
    assembly.pared.mergeUnit unit =
      ((assembly.mergeUnit unit).1.pared, (assembly.mergeUnit unit).2) :=
  assembly.merge_pared rfl rfl (unit.pending_fast assembly.settings)

/-- Units are offered alike to an assembly that is pared down. -/
theorem offered_pared (assembly : Assembly) (units : List SourceUnit) :
    assembly.pared.offered units = (assembly.offered units).pared := by
  induction units generalizing assembly with
  | nil => rfl
  | cons unit rest further =>
    show (assembly.pared.mergeUnit unit).1.offered rest = _
    rw [mergeUnit_pared]
    exact further (assembly.mergeUnit unit).1

/-- An assembly under the fast settings starts pared down. -/
theorem empty_pared (settings : Settings) : (empty settings).pared = empty .fast := by
  have units : PendingUnits.pared ∅ = ∅ := rfl
  rw [pared, empty, units]
  rfl

/-- What is pared down is prepared alike, as references do not matter before the linking. -/
theorem prepare_pared (units : List Pending) :
    prepare (units.map Pending.pared) = prepare units := by
  have each : (units.map Pending.pared).forM relocateUnit = units.forM relocateUnit :=
    List.forM_map
  rw [prepare, each, prepare]

/-- Under all settings finishing prepares the same catalogue. -/
theorem Finishes.prepares_pared {assembly : Assembly} {prepared : Catalogue} {linking : Linking}
    (finishes : assembly.Finishes prepared linking) :
    (prepare assembly.pared.units.values).run.run assembly.pared.catalogue = (.ok (), prepared) := by
  have units : assembly.pared.units.values = assembly.units.values.map Pending.pared :=
    assembly.units.values_pared
  rw [units, prepare_pared]
  exact finishes.prepares

/-- Whatever units are offered, settings do not change the structure of the finished graph. -/
theorem offered_sameStructure (first second : Settings) (units : List SourceUnit) :
    ∃ one other, ((empty first).offered units).finish = .ok one ∧
      ((empty second).offered units).finish = .ok other ∧
      one.graph.SameStructure other.graph := by
  have same : ((empty first).offered units).pared = ((empty second).offered units).pared := by
    rw [← offered_pared, ← offered_pared, empty_pared, empty_pared]
  obtain ⟨prepared, one, finishing⟩ := exists_finishing first units
  obtain ⟨preparedToo, other, finishingToo⟩ := exists_finishing second units
  obtain ⟨stages⟩ := finishing.stages
  obtain ⟨stagesToo⟩ := finishingToo.stages
  refine ⟨_, _, finishing.finishes.finishes, finishingToo.finishes.finishes, ?_⟩
  obtain rfl : prepared = preparedToo := by
    have prepares := finishing.finishes.prepares_pared
    rw [same, finishingToo.finishes.prepares_pared] at prepares
    exact (congrArg Prod.snd prepares).symm
  have leading : leadingReferences (seenReferences ((empty first).offered units).units.values) =
      leadingReferences (seenReferences ((empty second).offered units).units.values) := by
    have waiting : ((empty first).offered units).units.values.map Pending.pared =
        ((empty second).offered units).units.values.map Pending.pared := by
      rw [← PendingUnits.values_pared, ← PendingUnits.values_pared]
      exact congrArg (fun assembly => assembly.units.values) same
    rw [← leadingReferences_pared, waiting, leadingReferences_pared]
  have foretells := stages.foretellsStructure finishing.housed finishing.unlinked
  rw [stages.based_eq stagesToo leading] at foretells
  exact foretells.sameStructure (stagesToo.housed_based finishing.housed).sound
    (stagesToo.foretellsStructure finishing.housed finishing.unlinked)

/-- A unit with a function that calls what nothing declares. -/
def callingUnit : SourceUnit where
  path := .ofText "main.cpp"
  declarations :=
    [{ kind := .freeFunction, name := "main", line := 1, isDefinition := true
       signature := some ⟨[], some "int", false, false⟩
       body := some ⟨[⟨"start", .absent, .plain, 0, 2⟩], []⟩ }]
  directives := []
  parseTime := .zero
  lineCount := 3
  byteCount := 30

/-- What is called and not known stands in the graph only where calls are read; the declared
nodes are the same. -/
example :
    let sizes (settings : Settings) :=
      ((empty settings).offered [callingUnit]).finish.toOption.map fun finished =>
        (finished.graph.declaredNodes.length, finished.graph.nodes.length)
    sizes .standard = some (2, 3) ∧ sizes .fast = some (2, 2) := by decide +kernel

end Assembly

end DeclGraph

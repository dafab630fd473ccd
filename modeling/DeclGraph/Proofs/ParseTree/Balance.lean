import DeclGraph.Proofs.ParseTree.Visiting

/-!
# What a visit leaves behind

A visit adds to what was found and stands in the end where it stood before. Of the
template parameters that waited it leaves all or none. What it adds depends on the
reader's place only, so a tree is read in the same way whatever was read before it,
as far as the place is the same.
-/

namespace DeclGraph.Reading

variable {source : SourceText}

/-! ### The place of the reader -/

/-- Whether a reader stands in the same scopes as before, and none or all of the
template parameters wait that waited before. -/
structure BackAt (before after : Reading) : Prop where
  scope : after.scope = before.scope
  templateParameters : after.templateParameters = before.templateParameters ∨
    after.templateParameters = []

/-- A reader is back at the place where it is. -/
theorem BackAt.refl (reading : Reading) : BackAt reading reading := ⟨rfl, .inl rfl⟩

/-- A reader that comes back twice is back. -/
theorem BackAt.trans {first second third : Reading} (before : BackAt first second)
    (after : BackAt second third) : BackAt first third where
  scope := after.scope.trans before.scope
  templateParameters := by
    rcases after.templateParameters with same | none
    · rw [same]
      exact before.templateParameters
    · exact .inr none

/-- Noting declarations leaves a reader at its place. -/
theorem backAt_declare (reading : Reading) (declarations : List Declaration) :
    BackAt reading (reading.declare declarations) := ⟨rfl, .inr rfl⟩

/-- Offering declarations leaves a reader at its place. -/
theorem backAt_offer (reading : Reading) (declarations : List Declaration) :
    BackAt reading (reading.offer declarations) := by
  unfold offer
  split
  · exact .refl reading
  · exact backAt_declare reading declarations

/-- The namespaces of a block are entered below the scopes around it. -/
theorem scope_foldl_enterNamespace (line : Nat) (names : List String) (reading : Reading) :
    (names.foldl (enterNamespace line) reading).scope =
      reading.scope ++ names.map fun name => ⟨name, .namespaceScope⟩ := by
  induction names generalizing reading with
  | nil => simp
  | cons name rest ih => simp [ih, enterNamespace]

/-- Entering namespaces leaves the waiting template parameters alone. -/
theorem templateParameters_foldl_enterNamespace (line : Nat) (names : List String)
    (reading : Reading) :
    (names.foldl (enterNamespace line) reading).templateParameters =
      reading.templateParameters := by
  induction names generalizing reading with
  | nil => rfl
  | cons name rest ih => exact ih _

/-- Every part of a visit leads back to its place. -/
theorem holdsOfParts_backAt :
    HoldsOfParts source fun visit => ∀ reading, BackAt reading (visit reading) where
  nothing := BackAt.refl
  further ofFirst ofSecond reading := (ofFirst reading).trans (ofSecond _)
  namespaceBlock {inside} ofInside tree reading := by
    have back := ofInside (reading.openNamespace source tree)
    constructor
    · show (inside (reading.openNamespace source tree)).scope.take reading.scope.length = _
      rw [back.scope]
      show List.take _ (List.foldl _ reading _).scope = _
      rw [scope_foldl_enterNamespace, List.take_left]
    · have waiting : (reading.openNamespace source tree).templateParameters =
          reading.templateParameters := templateParameters_foldl_enterNamespace _ _ _
      rw [← waiting]
      exact back.templateParameters
  record {inside} ofInside head tree isRecord reading := by
    unfold throughRecord
    split
    · exact .refl reading
    · rename_i declaration _
      split
      · refine ⟨rfl, .inr ?_⟩
        -- Entering the record has taken the waiting parameters.
        rcases (ofInside (reading.enterRecord head declaration)).templateParameters with same | none
        · exact same
        · exact none
      · exact backAt_declare reading _
  template ofInside tree reading := ⟨(ofInside _).scope, .inl rfl⟩
  offering _ reading := backAt_offer reading _
  declaring _ reading := backAt_declare reading _
  noting _ _ := ⟨rfl, .inl rfl⟩
  accessLabel tree reading := by
    dsimp only [changeAccess]
    split
    · exact ⟨rfl, .inl rfl⟩
    · exact .refl reading
  directive tree reading := by
    dsimp only [addDirective]
    split
    · split
      · exact .refl reading
      · exact ⟨rfl, .inl rfl⟩
    · exact .refl reading

/-- A visit of a tree leaves a reader at its place. -/
theorem backAt_visit (source : SourceText) (reading : Reading) (tree : ParseTree) :
    BackAt reading (visit source reading tree) :=
  holdsOfParts_backAt.visit tree reading

/-- A visit of several trees leaves a reader at its place. -/
theorem backAt_visitAll (source : SourceText) (reading : Reading) (trees : List ParseTree) :
    BackAt reading (visitAll source reading trees) :=
  holdsOfParts_backAt.visitAll trees reading

/-! ### What a visit adds -/

/-- What was found before, and then what was found `later`, with the reader where it
stands then. -/
def followedBy (earlier later : Reading) : Reading :=
  { later with
    declarations := earlier.declarations ++ later.declarations
    directives := earlier.directives ++ later.directives }

/-- Whether a visit goes by the reader's place only, and adds to what was found. -/
def AddsByPlace (visit : Reading → Reading) : Prop :=
  ∀ reading : Reading, visit reading = reading.followedBy (visit reading.emptyHanded)

/-- What was found earlier does not show in an empty-handed reader. -/
theorem emptyHanded_followedBy (earlier later : Reading) :
    (earlier.followedBy later).emptyHanded = later.emptyHanded := rfl

/-- Finding three times one behind the other goes together either way. -/
theorem followedBy_followedBy (first second third : Reading) :
    (first.followedBy second).followedBy third = first.followedBy (second.followedBy third) := by
  simp [followedBy, List.append_assoc]

/-- An empty-handed reader adds nothing. -/
theorem followedBy_emptyHanded (reading : Reading) :
    reading.followedBy reading.emptyHanded = reading := by
  simp [followedBy, emptyHanded]

/-- One visit after the other adds by place when both do. -/
theorem AddsByPlace.further {first second : Reading → Reading} (ofFirst : AddsByPlace first)
    (ofSecond : AddsByPlace second) : AddsByPlace fun reading => second (first reading) := by
  intro reading
  calc second (first reading)
      = second (reading.followedBy (first reading.emptyHanded)) := by rw [← ofFirst reading]
    _ = (reading.followedBy (first reading.emptyHanded)).followedBy
          (second (first reading.emptyHanded).emptyHanded) := ofSecond _
    _ = reading.followedBy ((first reading.emptyHanded).followedBy
          (second (first reading.emptyHanded).emptyHanded)) := followedBy_followedBy _ _ _
    _ = reading.followedBy (second (first reading.emptyHanded)) := by
      rw [← ofSecond (first reading.emptyHanded)]

/-- Entering namespaces adds by place. -/
theorem addsByPlace_foldl_enterNamespace (line : Nat) (names : List String) :
    AddsByPlace fun reading => names.foldl (enterNamespace line) reading := by
  induction names with
  | nil => exact fun reading => (followedBy_emptyHanded reading).symm
  | cons name rest ih =>
    have one : AddsByPlace fun reading => enterNamespace line reading name := by
      intro reading
      simp [enterNamespace, followedBy, emptyHanded]
    exact one.further ih

/-- Opening the namespaces of a node adds by place. -/
theorem addsByPlace_openNamespace (source : SourceText) (tree : ParseTree) :
    AddsByPlace (openNamespace source tree) := by
  intro reading
  have entered := addsByPlace_foldl_enterNamespace tree.line (namespaceNames source tree) reading
  exact congrArg (fun entered : Reading => { entered with access := none }) entered

/-- Every part of a visit goes by the place of the reader only. -/
theorem holdsOfParts_addsByPlace : HoldsOfParts source AddsByPlace where
  nothing reading := (followedBy_emptyHanded reading).symm
  further := AddsByPlace.further
  namespaceBlock {inside} ofInside tree reading := by
    have read := (addsByPlace_openNamespace source tree).further ofInside reading
    exact congrArg (closeNamespace reading) read
  record {inside} ofInside head tree isRecord reading := by
    have byPlace : reading.emptyHanded.recordAt? source head tree =
        reading.recordAt? source head tree := rfl
    unfold throughRecord
    rw [byPlace]
    cases reading.recordAt? source head tree with
    | none => exact (followedBy_emptyHanded reading).symm
    | some declaration =>
      dsimp only
      split
      · have entered : reading.enterRecord head declaration =
            reading.followedBy (reading.emptyHanded.enterRecord head declaration) := by
          simp [enterRecord, declare, followedBy, emptyHanded]
        have read : inside (reading.enterRecord head declaration) =
            reading.followedBy (inside (reading.emptyHanded.enterRecord head declaration)) := by
          rw [entered, ofInside, followedBy_followedBy, emptyHanded_followedBy,
            ← ofInside (reading.emptyHanded.enterRecord head declaration)]
        rw [read]
        rfl
      · simp [declare, followedBy, emptyHanded]
  template {inside} ofInside tree reading := by
    have read := ofInside { reading with templateParameters := templateNames source tree }
    exact congrArg (fun read : Reading =>
      { read with templateParameters := reading.templateParameters }) read
  offering {declared} atPlace reading := by
    dsimp only
    rw [← atPlace.byPlace reading]
    unfold offer
    split
    · exact (followedBy_emptyHanded reading).symm
    · simp [declare, followedBy, emptyHanded]
  declaring {declared} atPlace reading := by
    dsimp only
    rw [← atPlace.byPlace reading]
    simp [declare, followedBy, emptyHanded]
  noting {declared} atPlace reading := by
    dsimp only
    rw [← atPlace.byPlace reading]
    simp [note, followedBy, emptyHanded]
  accessLabel tree reading := by
    have byPlace : reading.emptyHanded.access = reading.access := rfl
    dsimp only [changeAccess]
    rw [byPlace]
    split <;> simp [followedBy, emptyHanded]
  directive tree reading := by
    dsimp only [addDirective]
    split
    · split <;> simp [followedBy, emptyHanded]
    · simp [followedBy, emptyHanded]

/-- A visit adds by place. -/
theorem addsByPlace_visit (source : SourceText) (tree : ParseTree) :
    AddsByPlace fun reading => visit source reading tree :=
  holdsOfParts_addsByPlace.visit tree

end DeclGraph.Reading

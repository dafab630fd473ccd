import DeclGraph.Proofs.ParseTree.Balance

/-!
# Scopes are declared before what lies in them

The reader enters a namespace or a record only after it has noted a declaration of it,
so that on the scope path of every declaration the scopes whose kind is known were
declared before, and as what the path says they are. Scopes that a qualifier names need
not be declared at all.
-/

namespace DeclGraph

/-- The kind of the entity that a scope is, where it is known. -/
def ScopeKind.entityKind? : ScopeKind → Option EntityKind
  | .namespaceScope => some .namespaceScope
  | .classRecord => some .classRecord
  | .structRecord => some .structRecord
  | .unknown => none

/-- Whether a scope is declared as an entity of its kind, as far as the kind is known. The
scope is the last step of a path. -/
def StepDeclared (earlier : List Declaration) (front : List ScopeStep) (step : ScopeStep) : Prop :=
  ∀ kind, step.kind.entityKind? = some kind →
    ∃ declaration ∈ earlier, declaration.kind = kind ∧
      declaration.scopedName = ⟨(front ++ [step]).map (·.name)⟩

/-- Whether all scopes on a path whose kinds are known are declared as what they are. -/
def ScopesDeclared (earlier : List Declaration) (path : List ScopeStep) : Prop :=
  ∀ front step, front ++ [step] <+: path → StepDeclared earlier front step

/-- Whether in front of every declaration the scopes around it are declared. -/
def ScopesComeFirst (declarations : List Declaration) : Prop :=
  ∀ before declaration after, declarations = before ++ declaration :: after →
    ScopesDeclared before declaration.scope

variable {earlier later : List Declaration} {path : List ScopeStep}

/-- No scopes at all are declared anywhere. -/
theorem scopesDeclared_nil (earlier : List Declaration) : ScopesDeclared earlier [] := by
  intro front step isPrefix
  exact absurd (List.prefix_nil.mp isPrefix) (by simp)

/-- Scopes are declared when those around the innermost are, and it is too. -/
theorem scopesDeclared_concat {step : ScopeStep} :
    ScopesDeclared earlier (path ++ [step]) ↔
      ScopesDeclared earlier path ∧ StepDeclared earlier path step := by
  constructor
  · intro declared
    exact ⟨fun front last inFront => declared front last (inFront.trans (List.prefix_append _ _)),
      declared path step (List.prefix_refl _)⟩
  · rintro ⟨onPath, atEnd⟩ front last isPrefix
    rcases List.prefix_concat_iff.mp isPrefix with whole | inFront
    · obtain ⟨rfl, same⟩ := List.append_inj' whole rfl
      cases same
      exact atEnd
    · exact onPath front last inFront

/-- Qualifiers ask for no declarations. -/
theorem ScopesDeclared.qualified (declared : ScopesDeclared earlier path)
    (qualifiers : List String) :
    ScopesDeclared earlier (path ++ qualifiers.map fun name => ⟨name, .unknown⟩) := by
  induction qualifiers generalizing path with
  | nil => simpa using declared
  | cons name rest ih =>
    have one : ScopesDeclared earlier (path ++ [⟨name, .unknown⟩]) :=
      scopesDeclared_concat.mpr ⟨declared, fun kind known => by cases known⟩
    simpa using ih one

/-- Scopes that are declared stay so when more is declared. -/
theorem ScopesDeclared.mono (declared : ScopesDeclared earlier path) (grows : earlier <+: later) :
    ScopesDeclared later path := by
  intro front step isPrefix kind known
  obtain ⟨declaration, member, same⟩ := declared front step isPrefix kind known
  exact ⟨declaration, grows.subset member, same⟩

/-- Scopes come first where nothing is declared. -/
theorem scopesComeFirst_nil : ScopesComeFirst [] := by
  intro before declaration after split
  simp at split

/-- Scopes still come first behind one more declaration whose scopes are declared. -/
theorem ScopesComeFirst.concat {declaration : Declaration} (first : ScopesComeFirst earlier)
    (around : ScopesDeclared earlier declaration.scope) :
    ScopesComeFirst (earlier ++ [declaration]) := by
  intro before other after split
  rcases List.eq_nil_or_concat after with rfl | ⟨front, last, rfl⟩
  · obtain ⟨rfl, same⟩ := List.append_inj' split rfl
    cases same
    exact around
  · have whole : earlier ++ [declaration] = (before ++ other :: front) ++ [last] := by
      simpa using split
    exact first before other front (List.append_inj' whole rfl).1

namespace Reading

variable {source : SourceText} {reading : Reading}

/-- Whether the scopes around everything that was found are declared in front of it, and
those around the reader by now. -/
structure Anchored (reading : Reading) : Prop where
  here : ScopesDeclared reading.declarations reading.scope
  found : ScopesComeFirst reading.declarations

/-- A reader starts out anchored. -/
theorem anchored_start : Anchored start := ⟨scopesDeclared_nil _, scopesComeFirst_nil⟩

/-- What is declared where the reader stands has its scopes in front of it. -/
theorem Anchored.append (anchored : Anchored reading) {declarations : List Declaration}
    (stand : ∀ declaration ∈ declarations, StandsAt reading declaration) :
    ScopesComeFirst (reading.declarations ++ declarations) := by
  obtain ⟨here, found⟩ := anchored
  generalize reading.declarations = earlier at here found
  induction declarations generalizing earlier with
  | nil => simpa using found
  | cons declaration rest ih =>
    obtain ⟨qualifiers, path⟩ := (stand declaration List.mem_cons_self).scope
    have around : ScopesDeclared earlier declaration.scope := by
      rw [path]
      exact here.qualified qualifiers
    have further := ih (fun other member => stand other (List.mem_cons_of_mem _ member))
      (earlier ++ [declaration]) (here.mono (List.prefix_append _ _)) (found.concat around)
    simpa using further

/-- Whether a visit leaves the reader anchored and drops nothing that was found. -/
structure KeepsAnchored (visit : Reading → Reading) : Prop where
  backAt (reading : Reading) : BackAt reading (visit reading)
  anchored {reading : Reading} (anchored : Anchored reading) : Anchored (visit reading)
  grows (reading : Reading) : reading.declarations <+: (visit reading).declarations

/-- Noting what is declared where the reader stands keeps it anchored. -/
theorem Anchored.noted (anchored : Anchored reading) {declarations : List Declaration}
    (stand : ∀ declaration ∈ declarations, StandsAt reading declaration) (after : Reading)
    (sameScope : after.scope = reading.scope)
    (appended : after.declarations = reading.declarations ++ declarations) : Anchored after where
  here := by
    rw [sameScope, appended]
    exact anchored.here.mono (List.prefix_append _ _)
  found := by
    rw [appended]
    exact anchored.append stand

/-- Entering a namespace keeps a reader anchored. -/
theorem Anchored.enterNamespace (anchored : Anchored reading) (line : Nat) (name : String) :
    Anchored (enterNamespace line reading name) where
  here := by
    refine scopesDeclared_concat.mpr ⟨anchored.here.mono (List.prefix_append _ _), ?_⟩
    intro kind known
    refine ⟨_, List.mem_append_right _ (List.mem_singleton_self _), Option.some.inj known, ?_⟩
    simp [Declaration.scopedName, Declaration.scopeName, ScopedName.child]
  found := anchored.found.concat anchored.here

/-- Entering namespaces one inside the other keeps a reader anchored. -/
theorem Anchored.enterNamespaces (line : Nat) (names : List String) {reading : Reading}
    (anchored : Anchored reading) : Anchored (names.foldl (Reading.enterNamespace line) reading) := by
  induction names generalizing reading with
  | nil => exact anchored
  | cons name rest ih => exact ih (anchored.enterNamespace line name)

/-- Entering namespaces drops nothing that was found. -/
theorem prefix_foldl_enterNamespace (line : Nat) (names : List String) (reading : Reading) :
    reading.declarations <+: (names.foldl (Reading.enterNamespace line) reading).declarations := by
  induction names generalizing reading with
  | nil => exact List.prefix_refl _
  | cons name rest ih =>
    have entered : reading.declarations <+: (reading.enterNamespace line name).declarations :=
      List.prefix_append _ _
    exact entered.trans (ih _)

/-- Behind the declaration of a record the reader is anchored inside of it. -/
theorem Anchored.enterRecord (anchored : Anchored reading) {head : RecordHead}
    (isRecord : head.kind.isRecord = true) {declaration : Declaration}
    (kind : declaration.kind = head.kind) (stands : StandsAt reading declaration) :
    Anchored (reading.enterRecord head declaration) where
  here := by
    have outside : ScopesDeclared (reading.declarations ++ [declaration]) declaration.scope := by
      obtain ⟨qualifiers, path⟩ := stands.scope
      rw [path]
      exact (anchored.here.mono (List.prefix_append _ _)).qualified qualifiers
    refine scopesDeclared_concat.mpr ⟨outside, fun entity known => ?_⟩
    refine ⟨declaration, List.mem_append_right _ (List.mem_singleton_self _), ?_, ?_⟩
    · rw [kind]
      cases head with
      | mk headKind _ => cases headKind <;> simp_all [EntityKind.isRecord, ScopeKind.entityKind?]
    · simp [Declaration.scopedName, Declaration.scopeName, ScopedName.child]
  found := anchored.append (List.forall_mem_singleton.mpr stands)

/-- One visit after the other keeps a reader anchored when both do. -/
theorem KeepsAnchored.further {first second : Reading → Reading} (ofFirst : KeepsAnchored first)
    (ofSecond : KeepsAnchored second) : KeepsAnchored fun reading => second (first reading) where
  backAt reading := (ofFirst.backAt reading).trans (ofSecond.backAt _)
  anchored anchored := ofSecond.anchored (ofFirst.anchored anchored)
  grows reading := (ofFirst.grows reading).trans (ofSecond.grows _)

/-- Offering what is declared where the reader stands keeps it anchored. -/
theorem keepsAnchored_offer {declared : Reading → List Declaration}
    (atPlace : DeclaresAtPlace declared) :
    KeepsAnchored fun reading => reading.offer (declared reading) where
  backAt reading := backAt_offer reading _
  anchored {reading} anchored := by
    unfold offer
    split
    · exact anchored
    · exact anchored.noted (fun _ => atPlace.standsAt) _ rfl rfl
  grows reading := by
    unfold offer
    split
    · exact List.prefix_refl _
    · exact List.prefix_append _ _

/-- Reading a record keeps a reader anchored when reading its body does. -/
theorem keepsAnchored_throughRecord {inside : Reading → Reading} (ofInside : KeepsAnchored inside)
    (head : RecordHead) (tree : ParseTree) (isRecord : head.kind.isRecord = true) :
    KeepsAnchored (throughRecord source inside head tree) where
  backAt := holdsOfParts_backAt.record ofInside.backAt head tree isRecord
  anchored {reading} anchored := by
    unfold throughRecord
    split
    · exact anchored
    · rename_i declaration found
      have stands := standsAt_of_recordAt? isRecord found
      split
      · have entered := anchored.enterRecord isRecord (kind_of_recordAt? found) stands
        refine ⟨anchored.here.mono ?_, (ofInside.anchored entered).found⟩
        exact (List.prefix_append _ [declaration]).trans
          (ofInside.grows (reading.enterRecord head declaration))
      · exact anchored.noted (List.forall_mem_singleton.mpr stands) _ rfl rfl
  grows reading := by
    unfold throughRecord
    split
    · exact List.prefix_refl _
    · rename_i declaration _
      split
      · exact (List.prefix_append _ [declaration]).trans
          (ofInside.grows (reading.enterRecord head declaration))
      · exact List.prefix_append _ _

/-- Every part of a visit keeps the reader anchored. -/
theorem holdsOfParts_keepsAnchored : HoldsOfParts source KeepsAnchored where
  nothing := ⟨BackAt.refl, id, fun _ => List.prefix_refl _⟩
  further := KeepsAnchored.further
  namespaceBlock {inside} ofInside tree := by
    have backAt : ∀ reading, BackAt reading
        (closeNamespace reading (inside (reading.openNamespace source tree))) :=
      holdsOfParts_backAt.namespaceBlock ofInside.backAt tree
    refine ⟨backAt, fun {reading} anchored => ?_, fun reading => ?_⟩
    · have entered := anchored.enterNamespaces tree.line (namespaceNames source tree)
      have grows := prefix_foldl_enterNamespace tree.line (namespaceNames source tree) reading
      have opened : Anchored (reading.openNamespace source tree) := ⟨entered.here, entered.found⟩
      refine ⟨?_, (ofInside.anchored opened).found⟩
      rw [(backAt reading).scope]
      exact anchored.here.mono (grows.trans (ofInside.grows (reading.openNamespace source tree)))
    · exact (prefix_foldl_enterNamespace _ _ reading).trans
        (ofInside.grows (reading.openNamespace source tree))
  record := keepsAnchored_throughRecord
  template {inside} ofInside tree := by
    refine ⟨holdsOfParts_backAt.template ofInside.backAt tree, fun {reading} anchored => ?_,
      fun reading => ?_⟩
    · have waiting : Anchored { reading with templateParameters := templateNames source tree } :=
        ⟨anchored.here, anchored.found⟩
      have read := ofInside.anchored waiting
      exact ⟨read.here, read.found⟩
    · exact ofInside.grows { reading with templateParameters := templateNames source tree }
  offering := keepsAnchored_offer
  declaring atPlace :=
    ⟨fun reading => backAt_declare reading _,
      fun anchored => anchored.noted (fun _ => atPlace.standsAt) _ rfl rfl,
      fun _ => List.prefix_append _ _⟩
  noting atPlace :=
    ⟨fun _ => ⟨rfl, .inl rfl⟩,
      fun anchored => anchored.noted (fun _ => atPlace.standsAt) _ rfl rfl,
      fun _ => List.prefix_append _ _⟩
  accessLabel tree := by
    refine ⟨holdsOfParts_backAt.accessLabel tree, fun {reading} anchored => ?_,
      fun reading => ?_⟩ <;> dsimp only [changeAccess] <;> split
    · exact ⟨anchored.here, anchored.found⟩
    · exact anchored
    · exact List.prefix_refl _
    · exact List.prefix_refl _
  directive tree := by
    refine ⟨holdsOfParts_backAt.directive tree, fun {reading} anchored => ?_,
      fun reading => ?_⟩ <;> dsimp only [addDirective] <;> repeat' split
    · exact anchored
    · exact ⟨anchored.here, anchored.found⟩
    · exact anchored
    all_goals exact List.prefix_refl _

/-- A visit keeps a reader anchored. -/
theorem keepsAnchored_visit (source : SourceText) (tree : ParseTree) :
    KeepsAnchored fun reading => visit source reading tree :=
  holdsOfParts_keepsAnchored.visit tree

/-- However a tree is shaped, the reader comes back to the scopes in which it stood, with all
or none of the template parameters that waited. So a tree behind others is read as it would
be read in front of them, but for the access in force by then and for parameters that were
taken. In what is found from the start every scope of a known kind is declared, as what it
is, before what lies in it. -/
theorem visit_balanced (source : SourceText) :
    (∀ reading tree, BackAt reading (visit source reading tree)) ∧
      (∀ reading before tree, ∃ waiting,
        (waiting = reading.templateParameters ∨ waiting = []) ∧
        visit source (visitAll source reading before) tree =
          (visitAll source reading before).followedBy
            (visit source
              { reading.emptyHanded with
                access := (visitAll source reading before).access
                templateParameters := waiting } tree)) ∧
      ∀ tree, ScopesComeFirst (visit source start tree).declarations := by
  refine ⟨backAt_visit source, fun reading before tree => ?_, fun tree => ?_⟩
  · have back := backAt_visitAll source reading before
    refine ⟨(visitAll source reading before).templateParameters, back.templateParameters, ?_⟩
    have place : (visitAll source reading before).emptyHanded =
        { reading.emptyHanded with
          access := (visitAll source reading before).access
          templateParameters := (visitAll source reading before).templateParameters } := by
      simp only [emptyHanded, back.scope]
    rw [← place]
    exact addsByPlace_visit source tree (visitAll source reading before)
  · exact ((keepsAnchored_visit source tree).anchored anchored_start).found

end Reading

end DeclGraph

import DeclGraph.Proofs.Linking.Stages

/-!
# What passes note names for

A name is noted as unresolved together with what it was looked up for. Every pass looks names up
for purposes of its own, so what is noted of aliases and bases is noted while these are linked.
-/

namespace DeclGraph

namespace Linking

variable {α β : Type} {purposes : List LookupPurpose}

/-- Whenever the step succeeds, what it has noted was looked up for one of some purposes. -/
def NotesFor (purposes : List LookupPurpose) (step : Step α) : Prop :=
  ∀ ⦃before after : Linking⦄ ⦃result : α⦄, step before = .ok (result, after) →
    ∀ entry ∈ after.unresolved, entry ∈ before.unresolved ∨ entry.purpose ∈ purposes

/-- Giving a value notes nothing. -/
theorem notesFor_pure (value : α) : NotesFor purposes (pure value) := by
  intro before after result ran entry listed
  cases ran
  exact .inl listed

/-- Reading the state notes nothing. -/
theorem notesFor_get : NotesFor purposes get := by
  intro before after result ran entry listed
  cases ran
  exact .inl listed

/-- Two steps note for the purposes for which each of them does. -/
theorem NotesFor.bind {first : Step β} {next : β → Step α} (start : NotesFor purposes first)
    (rest : ∀ value, NotesFor purposes (next value)) : NotesFor purposes (first >>= next) := by
  intro before after result ran entry listed
  obtain ⟨value, middle, ranFirst, ranNext⟩ := exists_of_bind ran
  rcases rest value ranNext entry listed with known | noted
  · exact start ranFirst entry known
  · exact .inr noted

/-- An action on the catalogue notes nothing. -/
theorem notesFor_perform (action : Catalogue.Action α) : NotesFor purposes (perform action) := by
  intro before after result ran entry listed
  unfold perform at ran
  split at ran
  · cases ran
    exact .inl listed
  · cases ran

/-- Relating two nodes notes nothing. -/
theorem notesFor_relate {source target : Nat} {relation : Relation} {attributes : Attributes} :
    NotesFor purposes (relate source target relation attributes) :=
  (notesFor_perform _).bind fun _ => notesFor_pure _

/-- A loop notes for the purposes for which its body does. -/
theorem NotesFor.forM {items : List β} {step : β → Step Unit}
    (each : ∀ item, NotesFor purposes (step item)) : NotesFor purposes (items.forM step) := by
  induction items with
  | nil => exact notesFor_pure ()
  | cons item rest further => exact (each item).bind fun _ => further

/-- A step made for an entity notes for the purposes of that step. -/
theorem NotesFor.forEntity {key : EntityKey} {step : Nat → Step Unit}
    (each : ∀ node, NotesFor purposes (step node)) : NotesFor purposes (forEntity key step) := by
  refine notesFor_get.bind fun linking => ?_
  cases linking.catalogue.nodeByKey? key with
  | none => exact notesFor_pure ()
  | some node => exact each node

variable {viewpoint : Viewpoint} {referrer : Nat} {purpose : LookupPurpose}

/-- A placeholder that stands in is noted for the purpose of the lookup. -/
theorem notesFor_substitute {spelling : String} (among : purpose ∈ purposes) :
    NotesFor purposes (substitute viewpoint referrer spelling purpose) := by
  refine (notesFor_perform _).bind fun node => NotesFor.bind ?_ fun _ => notesFor_perform _
  intro before after result ran entry listed
  cases ran
  rcases List.mem_append.mp listed with known | new
  · exact .inl known
  · obtain rfl := List.mem_singleton.mp new
    exact .inr among

/-- Looking up a name notes for the purpose of the lookup. -/
theorem notesFor_namedType {name : String} (among : purpose ∈ purposes) :
    NotesFor purposes (namedType viewpoint referrer purpose name) := by
  refine notesFor_get.bind fun linking => ?_
  dsimp only
  split
  · exact notesFor_pure _
  · split
    · exact notesFor_pure _
    · exact (notesFor_substitute among).bind fun _ => notesFor_pure _

/-- Linking what a type is made of notes for one purpose. -/
theorem notesFor_linkSpelling {role spelling : String} (among : purpose ∈ purposes) :
    NotesFor purposes (linkSpelling viewpoint purpose role spelling referrer) := by
  refine NotesFor.forM fun name => (notesFor_namedType among).bind fun meant => ?_
  cases meant with
  | none => exact notesFor_pure ()
  | some target => exact notesFor_relate

/-- The pass over fields notes types of fields alone. -/
theorem notesFor_linkFields (references : List SeenReference) :
    NotesFor [.fieldType] (linkFields references) := by
  refine NotesFor.forM fun item => ?_
  split
  · refine NotesFor.forEntity fun field => NotesFor.forM fun name =>
      (notesFor_namedType List.mem_cons_self).bind fun meant => ?_
    cases meant with
    | none => exact notesFor_pure ()
    | some target =>
      exact notesFor_relate.bind fun _ => (notesFor_perform _).bind fun _ =>
        notesFor_get.bind fun _ => notesFor_relate
  · exact notesFor_pure ()

/-- The pass over signatures notes types of parameters and results alone. -/
theorem notesFor_linkSignatures (references : List SeenReference) :
    NotesFor [.parameterType, .returnType] (linkSignatures references) := by
  refine NotesFor.forM fun item => ?_
  split
  · exact NotesFor.forEntity fun _ => notesFor_linkSpelling (by decide)
  · exact NotesFor.forEntity fun _ => notesFor_linkSpelling (by decide)
  · exact notesFor_pure ()

/-- The pass over overloads notes nothing. -/
theorem notesFor_linkOverloads : NotesFor [] linkOverloads :=
  notesFor_get.bind fun _ => NotesFor.forM fun _ => notesFor_relate

/-- The pass over overrides notes nothing. -/
theorem notesFor_linkOverrides : NotesFor [] linkOverrides :=
  notesFor_get.bind fun _ => NotesFor.forM fun _ => NotesFor.forM fun _ => notesFor_relate

/-- The pass over calls notes calls alone. -/
theorem notesFor_linkCalls (references : List SeenReference) :
    NotesFor [.call] (linkCalls references) := by
  refine NotesFor.forM fun item => ?_
  split
  · refine NotesFor.forEntity fun caller => notesFor_get.bind fun _ => NotesFor.forM fun call =>
      notesFor_get.bind fun _ => NotesFor.bind ?_ fun _ => NotesFor.forM fun _ => notesFor_relate
    generalize Catalogue.callees _ _ call = callees
    cases callees with
    | known nodes => exact notesFor_pure nodes
    | unknown spelling =>
      exact (notesFor_substitute List.mem_cons_self).bind fun _ => notesFor_pure _
  · exact notesFor_pure ()

/-- The pass over local variables notes their types alone. -/
theorem notesFor_linkLocals (references : List SeenReference) :
    NotesFor [.localType] (linkLocals references) := by
  refine NotesFor.forM fun item => ?_
  split
  · exact NotesFor.forEntity fun _ => notesFor_linkSpelling List.mem_cons_self
  · exact notesFor_pure ()

/-- What is noted of aliases and bases is noted by the time the bases are linked. -/
theorem Stages.noted_of_leading {references : List SeenReference} {start last : Linking}
    (stages : Stages references start last) {entry : Unresolved} (listed : entry ∈ last.unresolved)
    (leading : entry.purpose = .aliasTarget ∨ entry.purpose = .base) :
    entry ∈ stages.based.unresolved := by
  -- No pass behind the bases notes a name for either purpose.
  have known : ∀ {purposes : List LookupPurpose} {step : Step Unit} {before after : Linking},
      NotesFor purposes step → .aliasTarget ∉ purposes → .base ∉ purposes →
        step before = .ok ((), after) → entry ∈ after.unresolved → entry ∈ before.unresolved := by
    intro purposes step before after notes noAlias noBase ran held
    refine (notes ran entry held).resolve_right fun among => ?_
    rcases leading with purpose | purpose
    · exact noAlias (purpose ▸ among)
    · exact noBase (purpose ▸ among)
  have called := known (notesFor_linkLocals _) (by decide) (by decide) stages.locals listed
  have overridden := known (notesFor_linkCalls _) (by decide) (by decide) stages.calls called
  have overloaded := known notesFor_linkOverrides (by decide) (by decide) stages.overrides
    overridden
  have signed := known notesFor_linkOverloads (by decide) (by decide) stages.overloads overloaded
  have fielded := known (notesFor_linkSignatures _) (by decide) (by decide) stages.signatures
    signed
  exact known (notesFor_linkFields _) (by decide) (by decide) stages.fields fielded

end Linking

end DeclGraph

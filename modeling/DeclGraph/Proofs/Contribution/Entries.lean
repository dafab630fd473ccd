import DeclGraph.Contribution.OfUnit
import DeclGraph.Proofs.Attributes

/-!
# Attributes of declarations

A declaration lists its attributes under distinct keys, so that its attribute map
holds exactly what it lists. Flags stand under the keys of flags and are set, and
shared keys hold increasing lists of texts.
-/

namespace DeclGraph

/-- The attributes that are flags. -/
def AttributeName.flags : List String :=
  [isVirtual, isOverride, isPure, isStatic, isConst, isDefaulted, isDeleted, isVariadic,
    isDefinition, implied, isStruct]

namespace Attributes

/-- A map made from entries of distinct keys holds these entries. -/
theorem getElem?_ofList {entries : List (String × Value)} (distinct : (entries.map (·.1)).Nodup)
    {key : String} {value : Value} :
    (Std.ExtTreeMap.ofList entries : Attributes)[key]? = some value ↔ (key, value) ∈ entries := by
  have apart : entries.Pairwise fun left right => ¬ compare left.1 right.1 = .eq := by
    refine (List.pairwise_map.mp distinct).imp fun different equal => different ?_
    exact Std.LawfulEqOrd.eq_of_compare equal
  have of_mem : ∀ {held : Value}, (key, held) ∈ entries →
      (Std.ExtTreeMap.ofList entries : Attributes)[key]? = some held :=
    fun member => Std.ExtTreeMap.getElem?_ofList_of_mem (by simp) apart member
  refine ⟨fun held => ?_, of_mem⟩
  by_cases listed : key ∈ entries.map (·.1)
  · obtain ⟨⟨_, other⟩, member, rfl⟩ := List.mem_map.mp listed
    rw [of_mem member] at held
    cases held
    exact member
  · rw [Std.ExtTreeMap.getElem?_ofList_of_contains_eq_false (by simpa using listed)] at held
    cases held

end Attributes

/-- Whether an entry is of the kind that its key asks for. -/
structure EntryFits (entry : String × Value) : Prop where
  flag_iff : entry.2 = .flag true ↔ entry.1 ∈ AttributeName.flags
  shared : entry.1 ∈ AttributeName.shared →
    ∃ texts, entry.2 = .texts texts ∧ Attributes.Increasing texts

/-- Under a key that is neither a flag nor shared, anything but a flag fits. -/
theorem EntryFits.of_plain {key : String} {value : Value} (notFlag : key ∉ AttributeName.flags)
    (notShared : key ∉ AttributeName.shared) (other : value ≠ .flag true) :
    EntryFits (key, value) :=
  ⟨by simp [other, notFlag], fun shared => absurd shared notShared⟩

/-- An entry for a flag fits, as it is made only when the flag is set. -/
theorem fits_flagEntry {key : String} (isFlag : key ∈ AttributeName.flags)
    (notShared : key ∉ AttributeName.shared) (isSet : Bool) :
    ∀ entry ∈ flagEntry key isSet, EntryFits entry := by
  intro entry member
  unfold flagEntry at member
  cases isSet with
  | false => simp at member
  | true =>
    simp only [if_true, List.mem_singleton] at member
    subst member
    exact ⟨by simp [isFlag], fun shared => absurd shared notShared⟩

/-- An entry for a text that may be missing fits. -/
theorem fits_optionalText {key : String} (notFlag : key ∉ AttributeName.flags)
    (notShared : key ∉ AttributeName.shared) (text : Option String) :
    ∀ entry ∈ optionalEntry key (text.map .text), EntryFits entry := by
  intro entry member
  cases text with
  | none => simp [optionalEntry] at member
  | some text =>
    simp only [optionalEntry, Option.map_some, Option.toList_some, List.map_cons, List.map_nil,
      List.mem_singleton] at member
    subst member
    exact .of_plain notFlag notShared (by simp)

/-- An entry that is listed only under a condition. -/
theorem fits_unless {entry : String × Value} {condition : Prop} [Decidable condition]
    (fits : EntryFits entry) :
    ∀ listed ∈ (if condition then [] else [entry]), EntryFits listed := by
  intro listed member
  by_cases holds : condition
  · simp [holds] at member
  · simp only [if_neg holds, List.mem_singleton] at member
    exact member ▸ fits

/-- A flag makes one entry at most. -/
theorem flagEntry_keys (key : String) (isSet : Bool) :
    ((flagEntry key isSet).map (·.1)).Sublist [key] := by
  cases isSet <;> simp [flagEntry]

/-- A value that may be missing makes one entry at most. -/
theorem optionalEntry_keys (key : String) (value : Option Value) :
    ((optionalEntry key value).map (·.1)).Sublist [key] := by
  cases value <;> simp [optionalEntry]

/-- An entry that is made on a condition is one at most. -/
theorem unless_keys (entry : String × Value) (condition : Prop) [Decidable condition] :
    ((if condition then [] else [entry]).map (·.1)).Sublist [entry.1] := by
  by_cases holds : condition <;> simp [holds]

namespace Declaration

/-- The keys under which every declaration may list something. -/
def placeKeys : List String :=
  [AttributeName.sourceFile, AttributeName.line, AttributeName.declaredIn,
    AttributeName.isDefinition, AttributeName.definedIn, AttributeName.access,
    AttributeName.templateParameters]

/-- The keys under which a declaration of a kind may list something more. -/
def kindKeys : EntityKind → List String
  | .classRecord | .structRecord =>
    [AttributeName.isStruct, AttributeName.bases, AttributeName.methods]
  | .freeFunction | .method | .constructor | .destructor =>
    [AttributeName.isVirtual, AttributeName.isOverride, AttributeName.isPure,
      AttributeName.isStatic, AttributeName.isDefaulted, AttributeName.isDeleted,
      AttributeName.parameterTypes, AttributeName.parameterNames, AttributeName.minArity,
      AttributeName.returnType, AttributeName.isConst, AttributeName.isVariadic]
  | .typeAlias => [AttributeName.underlyingType]
  | .field => [AttributeName.isStatic, AttributeName.fieldType]
  | .namespaceScope | .placeholder => []

/-- No key is used twice among those of places and those of one kind. -/
theorem keys_nodup (kind : EntityKind) : (placeKeys ++ kindKeys kind).Nodup := by
  cases kind <;> decide

/-- Where a declaration stands is noted under the keys of places, in their order. -/
theorem placeEntries_keys (file : String) (declaration : Declaration) :
    ((declaration.placeEntries file).map (·.1)).Sublist placeKeys := by
  have defined : ((if declaration.isDefinition then
      [(AttributeName.definedIn, Value.text file)] else []).map (·.1)).Sublist
        [AttributeName.definedIn] := by
    cases declaration.isDefinition <;> simp
  have first : [AttributeName.sourceFile, AttributeName.line, AttributeName.declaredIn].Sublist
      [AttributeName.sourceFile, AttributeName.line, AttributeName.declaredIn] :=
    List.Sublist.refl _
  have all := (((first.append (flagEntry_keys AttributeName.isDefinition
    declaration.isDefinition)).append defined).append (optionalEntry_keys AttributeName.access
      (declaration.access.map fun access => .text access.keyword))).append
    (unless_keys (AttributeName.templateParameters, .texts declaration.templateParameters)
      declaration.templateParameters.isEmpty)
  simpa [placeEntries, placeKeys] using all

/-- What a record notes stands under its own keys, in their order. -/
theorem recordEntries_keys (siblings : List Declaration) (declaration : Declaration) :
    ((declaration.recordEntries siblings).map (·.1)).Sublist
      [AttributeName.isStruct, AttributeName.bases, AttributeName.methods] := by
  have all := ((flagEntry_keys AttributeName.isStruct
    (declaration.kind = .structRecord)).append
    (unless_keys (AttributeName.bases, .texts (declaration.bases.map (·.name)))
      declaration.bases.isEmpty)).append
    (unless_keys (AttributeName.methods,
      .texts (sortedUnion [] (callablesIn siblings declaration.scopedName)))
      (callablesIn siblings declaration.scopedName).isEmpty)
  simpa [recordEntries] using all

/-- Modifiers are noted under their own keys, in their order. -/
theorem modifierEntries_keys (modifiers : Modifiers) :
    ((modifierEntries modifiers).map (·.1)).Sublist
      [AttributeName.isVirtual, AttributeName.isOverride, AttributeName.isPure,
        AttributeName.isStatic, AttributeName.isDefaulted, AttributeName.isDeleted] := by
  have all := (((((flagEntry_keys AttributeName.isVirtual
    (modifiers.isVirtual || modifiers.isPure)).append
    (flagEntry_keys AttributeName.isOverride (modifiers.isOverride || modifiers.isFinal))).append
    (flagEntry_keys AttributeName.isPure modifiers.isPure)).append
    (flagEntry_keys AttributeName.isStatic modifiers.isStatic)).append
    (flagEntry_keys AttributeName.isDefaulted modifiers.isDefaulted)).append
    (flagEntry_keys AttributeName.isDeleted modifiers.isDeleted)
  simpa [modifierEntries] using all

/-- A signature is noted under its own keys, in their order. -/
theorem signatureEntries_keys (signature : Option Signature) :
    ((signatureEntries signature).map (·.1)).Sublist
      [AttributeName.parameterTypes, AttributeName.parameterNames, AttributeName.minArity,
        AttributeName.returnType, AttributeName.isConst, AttributeName.isVariadic] := by
  cases signature with
  | none =>
    refine List.Sublist.cons_cons _ (List.Sublist.cons _ (List.Sublist.cons_cons _ ?_))
    exact List.nil_sublist _
  | some signature =>
    have first : [AttributeName.parameterTypes, AttributeName.parameterNames,
        AttributeName.minArity].Sublist [AttributeName.parameterTypes,
          AttributeName.parameterNames, AttributeName.minArity] := List.Sublist.refl _
    have all := ((first.append (optionalEntry_keys AttributeName.returnType
      (signature.returnType.map .text))).append
      (flagEntry_keys AttributeName.isConst signature.isConst)).append
      (flagEntry_keys AttributeName.isVariadic signature.isVariadic)
    simpa [signatureEntries] using all

/-- What a declaration notes besides its place stands under the keys of its kind. -/
theorem kindEntries_keys (siblings : List Declaration) (declaration : Declaration) :
    ((declaration.kindEntries siblings).map (·.1)).Sublist (kindKeys declaration.kind) := by
  unfold kindEntries
  cases kind : declaration.kind <;> dsimp only [kindKeys]
  case classRecord | structRecord => exact recordEntries_keys siblings declaration
  case freeFunction | method | constructor | destructor =>
    rw [List.map_append]
    exact (modifierEntries_keys declaration.modifiers).append
      (signatureEntries_keys declaration.signature)
  case typeAlias => exact optionalEntry_keys _ _
  case field =>
    rw [List.map_append]
    exact (flagEntry_keys _ _).append (optionalEntry_keys _ _)
  case namespaceScope | placeholder => exact List.Sublist.refl _

/-- A declaration lists nothing twice. -/
theorem entries_nodup (file : String) (siblings : List Declaration) (declaration : Declaration) :
    ((declaration.placeEntries file ++ declaration.kindEntries siblings).map (·.1)).Nodup := by
  rw [List.map_append]
  exact ((placeEntries_keys file declaration).append
    (kindEntries_keys siblings declaration)).nodup (keys_nodup declaration.kind)

/-- The entries for the place of a declaration fit. -/
theorem fits_placeEntries (file : String) (declaration : Declaration) :
    ∀ entry ∈ declaration.placeEntries file, EntryFits entry := by
  have fixed : ∀ entry ∈ [(AttributeName.sourceFile, Value.text file),
      (AttributeName.line, .ofCount declaration.line),
      (AttributeName.declaredIn, .texts [file])], EntryFits entry := by
    simp only [List.forall_mem_cons]
    refine ⟨.of_plain (by decide) (by decide) (by simp), ?_, ?_, by simp⟩
    · exact .of_plain (by decide) (by decide) (by simp [Value.ofCount])
    · refine ⟨?_, fun _ => ⟨[file], rfl, by simp [Attributes.Increasing]⟩⟩
      have notFlag : AttributeName.declaredIn ∉ AttributeName.flags := by decide
      simpa using notFlag
  have defined : ∀ entry ∈ (if declaration.isDefinition then
      [(AttributeName.definedIn, Value.text file)] else []), EntryFits entry := by
    intro entry member
    cases isDefinition : declaration.isDefinition with
    | false => simp [isDefinition] at member
    | true =>
      simp only [isDefinition, if_true, List.mem_singleton] at member
      exact member ▸ .of_plain (by decide) (by decide) (by simp)
  have access : ∀ entry ∈ optionalEntry AttributeName.access
      (declaration.access.map fun access => .text access.keyword), EntryFits entry := by
    have texts : ∀ entry ∈ optionalEntry AttributeName.access
        ((declaration.access.map (·.keyword)).map .text), EntryFits entry :=
      fits_optionalText (by decide) (by decide) _
    simpa [Option.map_map, Function.comp_def] using texts
  unfold placeEntries
  simp only [List.forall_mem_append]
  exact ⟨⟨⟨⟨fixed, fits_flagEntry (by decide) (by decide) _⟩, defined⟩, access⟩,
    fits_unless (.of_plain (by decide) (by decide) (by simp))⟩

/-- The entries of a record fit. -/
theorem fits_recordEntries (siblings : List Declaration) (declaration : Declaration) :
    ∀ entry ∈ declaration.recordEntries siblings, EntryFits entry := by
  have methods : EntryFits (AttributeName.methods,
      .texts (sortedUnion [] (callablesIn siblings declaration.scopedName))) := by
    refine ⟨?_, fun _ => ⟨_, rfl, sortedUnion_increasing _ _⟩⟩
    have notFlag : AttributeName.methods ∉ AttributeName.flags := by decide
    simp [notFlag]
  unfold recordEntries
  simp only [List.forall_mem_append]
  exact ⟨⟨fits_flagEntry (by decide) (by decide) _,
    fits_unless (.of_plain (by decide) (by decide) (by simp))⟩, fits_unless methods⟩

/-- The entries for modifiers fit. -/
theorem fits_modifierEntries (modifiers : Modifiers) :
    ∀ entry ∈ modifierEntries modifiers, EntryFits entry := by
  unfold modifierEntries
  simp only [List.forall_mem_append]
  refine ⟨⟨⟨⟨⟨?_, ?_⟩, ?_⟩, ?_⟩, ?_⟩, ?_⟩ <;> exact fits_flagEntry (by decide) (by decide) _

/-- The entries of a signature fit. -/
theorem fits_signatureEntries (signature : Option Signature) :
    ∀ entry ∈ signatureEntries signature, EntryFits entry := by
  cases signature with
  | none =>
    simp only [signatureEntries, List.forall_mem_cons]
    exact ⟨.of_plain (by decide) (by decide) (by simp),
      .of_plain (by decide) (by decide) (by simp [Value.ofCount]), by simp⟩
  | some signature =>
    simp only [signatureEntries, List.forall_mem_append, List.forall_mem_cons]
    refine ⟨⟨⟨⟨?_, ?_, ?_, by simp⟩, fits_optionalText (by decide) (by decide) _⟩,
      fits_flagEntry (by decide) (by decide) _⟩, fits_flagEntry (by decide) (by decide) _⟩
    · exact .of_plain (by decide) (by decide) (by simp)
    · exact .of_plain (by decide) (by decide) (by simp)
    · exact .of_plain (by decide) (by decide) (by simp [Value.ofCount])

/-- The entries that depend on the kind of a declaration fit. -/
theorem fits_kindEntries (siblings : List Declaration) (declaration : Declaration) :
    ∀ entry ∈ declaration.kindEntries siblings, EntryFits entry := by
  unfold kindEntries
  cases declaration.kind <;> dsimp only
  case classRecord | structRecord => exact fits_recordEntries siblings declaration
  case freeFunction | method | constructor | destructor =>
    rw [List.forall_mem_append]
    exact ⟨fits_modifierEntries _, fits_signatureEntries _⟩
  case typeAlias => exact fits_optionalText (by decide) (by decide) _
  case field =>
    rw [List.forall_mem_append]
    exact ⟨fits_flagEntry (by decide) (by decide) _,
      fits_optionalText (by decide) (by decide) _⟩
  case namespaceScope | placeholder => exact fun _ member => absurd member List.not_mem_nil

variable {file : String} {siblings : List Declaration} {declaration : Declaration}

/-- What a declaration says under a key is what it lists there. -/
theorem mention_attributes {key : String} {value : Value} :
    (declaration.mention file siblings).attributes[key]? = some value ↔
      (key, value) ∈ declaration.placeEntries file ∨
        (key, value) ∈ declaration.kindEntries siblings := by
  rw [← List.mem_append]
  exact Attributes.getElem?_ofList (entries_nodup file siblings declaration)

/-- Every attribute of a mention fits its key. -/
theorem mention_fits {key : String} {value : Value}
    (held : (declaration.mention file siblings).attributes[key]? = some value) :
    EntryFits (key, value) := by
  obtain place | kind := mention_attributes.mp held
  · exact fits_placeEntries file declaration _ place
  · exact fits_kindEntries siblings declaration _ kind

/-- A key that no declaration of the kind can use holds nothing. -/
theorem mention_absent {key : String} (notPlace : key ∉ placeKeys)
    (notKind : key ∉ kindKeys declaration.kind) :
    (declaration.mention file siblings).attributes[key]? = none := by
  rw [Option.eq_none_iff_forall_ne_some]
  intro value held
  obtain place | kind := mention_attributes.mp held
  · exact notPlace ((placeEntries_keys file declaration).subset (List.mem_map_of_mem place))
  · exact notKind ((kindEntries_keys siblings declaration).subset (List.mem_map_of_mem kind))

/-- A declaration is mentioned with the file of its unit. -/
theorem mention_sourceFile :
    (declaration.mention file siblings).attributes[AttributeName.sourceFile]? =
      some (.text file) :=
  mention_attributes.mpr (.inl (by simp [placeEntries]))

/-- A declaration is never mentioned as implied. -/
theorem mention_implied :
    (declaration.mention file siblings).attributes[AttributeName.implied]? = none := by
  refine mention_absent (by decide) ?_
  cases declaration.kind <;> decide

/-- A declaration is mentioned as a definition exactly when it is one. -/
theorem mention_isDefinition :
    (declaration.mention file siblings).attributes.isSet AttributeName.isDefinition =
      declaration.isDefinition := by
  have notKind : AttributeName.isDefinition ∉ kindKeys declaration.kind := by
    cases declaration.kind <;> decide
  rw [Bool.eq_iff_iff, Attributes.isSet_iff, mention_attributes]
  constructor
  · rintro (place | kind)
    · cases isDefinition : declaration.isDefinition with
      | true => rfl
      | false =>
        simp [placeEntries, flagEntry, optionalEntry, isDefinition, Value.ofCount] at place
    · exact absurd ((kindEntries_keys siblings declaration).subset (List.mem_map_of_mem kind))
        notKind
  · intro isDefinition
    left
    simp [placeEntries, flagEntry, isDefinition]

end Declaration

end DeclGraph

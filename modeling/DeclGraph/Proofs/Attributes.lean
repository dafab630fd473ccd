import DeclGraph.Catalogue.Merge
import DeclGraph.Proofs.Table

/-!
# Merged attributes

What a merged attribute map holds under a key follows from what the two sides
hold there: the winning side keeps its value, a gap is filled by the losing
side, and shared lists are united. An edge that absorbs attributes unites all
lists.
-/

namespace DeclGraph

namespace Attributes

/-- Whether a list of texts is strictly increasing. -/
def Increasing (values : List String) : Prop :=
  values.Pairwise fun left right => compare left right = .lt

/-- Increasing lists of the same texts are equal. -/
theorem Increasing.eq {first second : List String} (firstIncreasing : Increasing first)
    (secondIncreasing : Increasing second) (same : ∀ text, text ∈ first ↔ text ∈ second) :
    first = second :=
  eq_of_ordered Std.OrientedCmp.not_lt_of_lt firstIncreasing secondIncreasing same

/-- Taking up a map entry by entry changes under each key what the entry of that
key changes there. -/
theorem getElem?_foldl {step : Attributes → String → Value → Attributes}
    (put : Option Value → Value → Option Value) {key : String}
    (here : ∀ attributes value, (step attributes key value)[key]? = put attributes[key]? value)
    (elsewhere : ∀ attributes other value, other ≠ key →
      (step attributes other value)[key]? = attributes[key]?) (start taken : Attributes) :
    (taken.foldl step start)[key]? =
      match taken[key]? with
      | none => start[key]?
      | some value => put start[key]? value := by
  rw [Std.ExtTreeMap.foldl_eq_foldl_toList]
  have untouched : ∀ (entries : List (String × Value)) (start : Attributes),
      (∀ entry ∈ entries, entry.1 ≠ key) →
      (entries.foldl (fun attributes entry => step attributes entry.1 entry.2) start)[key]? =
        start[key]? := by
    intro entries
    induction entries with
    | nil => exact fun _ _ => rfl
    | cons entry rest kept =>
      intro start apart
      rw [List.foldl_cons, kept _ fun other member => apart other (List.mem_cons_of_mem _ member)]
      exact elsewhere _ _ _ (apart entry List.mem_cons_self)
  have touched : ∀ (entries : List (String × Value)) (start : Attributes) (value : Value),
      entries.Pairwise (fun left right => ¬ compare left.1 right.1 = .eq) →
      (key, value) ∈ entries →
      (entries.foldl (fun attributes entry => step attributes entry.1 entry.2) start)[key]? =
        put start[key]? value := by
    intro entries
    induction entries with
    | nil => exact fun _ _ _ member => absurd member List.not_mem_nil
    | cons entry rest further =>
      intro start value distinct member
      obtain ⟨apart, distinctRest⟩ := List.pairwise_cons.mp distinct
      rw [List.foldl_cons]
      obtain same | inRest := List.mem_cons.mp member
      · subst same
        rw [untouched rest]
        · exact here start value
        · intro other inRest equal
          exact apart other inRest (by simp [equal])
      · have different : entry.1 ≠ key := fun equal => apart _ inRest (by simp [equal])
        rw [further _ value distinctRest inRest, elsewhere _ _ _ different]
  cases held : taken[key]? with
  | none =>
    refine untouched _ start fun entry member equal => ?_
    obtain ⟨other, value⟩ := entry
    cases equal
    rw [Std.ExtTreeMap.mem_toList_iff_getElem?_eq_some.mp member] at held
    cases held
  | some value =>
    exact touched _ start value Std.ExtTreeMap.distinct_keys_toList
      (Std.ExtTreeMap.mem_toList_iff_getElem?_eq_some.mpr held)

/-- What is held under a key once the losing side has filled it. -/
def filled (key : String) (winner loser : Option Value) : Option Value :=
  if key ∈ AttributeName.shared then
    match loser with
    | some (.texts values) =>
      some (.texts (sortedUnion ((winner.bind Value.texts?).getD []) values))
    | _ => winner
  else winner.or loser

/-- An entry is filled in under its own key. -/
theorem getElem?_fillEntry_self (winner : Attributes) (key : String) (value : Value) :
    (fillEntry winner key value)[key]? = filled key winner[key]? (some value) := by
  unfold fillEntry filled
  by_cases shared : key ∈ AttributeName.shared
  · have contained : AttributeName.shared.contains key = true := by simpa using shared
    simp only [contained, shared, if_true]
    cases value <;> simp [unionTexts, texts?]
  · have absent : ¬ AttributeName.shared.contains key = true := by simpa using shared
    have mem : key ∈ winner ↔ winner[key]?.isSome = true :=
      Std.ExtTreeMap.isSome_getElem?_iff_mem.symm
    rw [if_neg absent, if_neg shared, Std.ExtTreeMap.getElem?_insertIfNew]
    simp only [mem]
    cases winner[key]? <;> simp

/-- Filling in an entry leaves all other entries alone. -/
theorem getElem?_fillEntry_of_ne (winner : Attributes) {key other : String} (value : Value)
    (different : other ≠ key) : (fillEntry winner other value)[key]? = winner[key]? := by
  unfold fillEntry
  by_cases shared : AttributeName.shared.contains other = true
  · rw [if_pos shared]
    cases value <;> simp [unionTexts, Std.ExtTreeMap.getElem?_insert, different]
  · rw [if_neg shared, Std.ExtTreeMap.getElem?_insertIfNew]
    simp [different]

/-- When the loser has filled in all its entries, each one is filled under its key. -/
theorem getElem?_foldl_fillEntry (winner loser : Attributes) (key : String) :
    (loser.foldl fillEntry winner)[key]? = filled key winner[key]? loser[key]? := by
  rw [getElem?_foldl (fun held value => filled key held (some value))
    (fun attributes => getElem?_fillEntry_self attributes key)
    (fun attributes _ value => getElem?_fillEntry_of_ne attributes value)]
  cases loser[key]? with
  | none => simp [filled]
  | some value => rfl

/-- Merged attributes by key. -/
theorem getElem?_mergedAttributes {existing incoming : Attributes} {wins : Bool} {key : String}
    (notImplied : key ≠ AttributeName.implied) :
    (mergedAttributes existing incoming wins)[key]? =
      if wins then filled key incoming[key]? existing[key]?
      else filled key existing[key]? incoming[key]? := by
  have apart : AttributeName.implied ≠ key := Ne.symm notImplied
  unfold mergedAttributes
  by_cases both : (existing.isSet AttributeName.implied && incoming.isSet AttributeName.implied)
  · cases wins <;>
      simp [both, Std.ExtTreeMap.getElem?_insert, apart, getElem?_foldl_fillEntry]
  · cases wins <;>
      simp [both, Std.ExtTreeMap.getElem?_erase, apart, getElem?_foldl_fillEntry]

/-- A merged scope is implied when both sides are. -/
theorem getElem?_mergedAttributes_implied (existing incoming : Attributes) (wins : Bool) :
    (mergedAttributes existing incoming wins)[AttributeName.implied]? =
      if existing.isSet AttributeName.implied && incoming.isSet AttributeName.implied then
        some (.flag true)
      else none := by
  unfold mergedAttributes
  by_cases both : (existing.isSet AttributeName.implied && incoming.isSet AttributeName.implied)
  · simp [both]
  · simp [both]

/-- What is held under a key once an edge has absorbed a value. -/
def absorbed (held : Option Value) : Value → Value
  | .texts values => .texts (sortedUnion ((held.bind Value.texts?).getD []) values)
  | .ints values => .ints (sortedUnion ((held.bind Value.ints?).getD []) values)
  | value => held.getD value

/-- Absorbed attributes by key. -/
theorem getElem?_absorb (attributes taken : Attributes) (key : String) :
    (attributes.absorb taken)[key]? =
      match taken[key]? with
      | none => attributes[key]?
      | some value => some (absorbed attributes[key]? value) := by
  refine getElem?_foldl (fun held value => some (absorbed held value)) (fun held value => ?_)
    (fun held other value different => ?_) attributes taken
  · have mem : key ∈ held ↔ held[key]?.isSome = true :=
      Std.ExtTreeMap.isSome_getElem?_iff_mem.symm
    cases value <;> simp only [absorbEntry, unionTexts, unionInts, texts?, ints?, absorbed,
      Std.ExtTreeMap.getElem?_insert_self, Std.ExtTreeMap.getElem?_insertIfNew, mem]
    all_goals cases held[key]? <;> simp
  · cases value <;> simp [absorbEntry, unionTexts, unionInts, Std.ExtTreeMap.getElem?_insert,
      Std.ExtTreeMap.getElem?_insertIfNew, different]

/-- A flag is set when it stands there as true. -/
theorem isSet_iff {attributes : Attributes} {key : String} :
    attributes.isSet key = true ↔ attributes[key]? = some (.flag true) := by
  unfold isSet flag?
  cases attributes[key]? with
  | none => simp
  | some value => cases value <;> simp [Value.flag?]

/-- A text is there when the entry of the key is that text. -/
theorem text?_eq_some {attributes : Attributes} {key text : String} :
    attributes.text? key = some text ↔ attributes[key]? = some (.text text) := by
  unfold text?
  cases attributes[key]? with
  | none => simp
  | some value => cases value <;> simp [Value.text?]

/-- Texts are there when the entry of the key is that list of texts. -/
theorem texts?_eq_some {attributes : Attributes} {key : String} {texts : List String} :
    attributes.texts? key = some texts ↔ attributes[key]? = some (.texts texts) := by
  unfold texts?
  cases attributes[key]? with
  | none => simp
  | some value => cases value <;> simp [Value.texts?]

end Attributes

end DeclGraph

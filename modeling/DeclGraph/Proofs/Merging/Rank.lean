import DeclGraph.Proofs.Graph.Profile
import DeclGraph.Catalogue.Merge

/-!
# Ranks of mentions

Of several mentions of an entity one speaks for it: a definition before a
declaration, then one with a file before one without, then the one from the
earlier file. Of two mentions of equal rank the later one takes over, if they
have a file.
-/

namespace DeclGraph

/-- What decides which mention speaks for an entity. -/
structure Rank where
  isDefinition : Bool
  file : Option String
deriving DecidableEq, Repr

namespace Rank

/-- Definitions come before declarations, then what has a file before what has
none, then the earlier file. -/
def order : Rank → Rank → Ordering :=
  compareLex (compareOn fun rank => !rank.isDefinition)
    (compareLex (compareOn fun rank => rank.file.isNone)
      (compareOn fun rank => rank.file.getD ""))

instance : Std.TransCmp order :=
  inferInstanceAs (Std.TransCmp (compareLex (compareOn fun rank : Rank => !rank.isDefinition)
    (compareLex (compareOn fun rank : Rank => rank.file.isNone)
      (compareOn fun rank : Rank => rank.file.getD ""))))

instance : Std.LawfulEqCmp order where
  compare_self := by intro rank; exact Std.ReflCmp.compare_self
  eq_of_compare := by
    intro first second same
    obtain ⟨definition, rest⟩ := compareLex_eq_eq.mp same
    obtain ⟨presence, file⟩ := compareLex_eq_eq.mp rest
    have sameDefinition := Std.LawfulEqOrd.eq_of_compare definition
    have samePresence := Std.LawfulEqOrd.eq_of_compare presence
    have sameFile := Std.LawfulEqOrd.eq_of_compare file
    obtain ⟨firstDefines, _ | _⟩ := first <;> obtain ⟨secondDefines, _ | _⟩ := second <;>
      simp_all

/-- Whether one rank is strictly better than another. -/
def Outranks (first second : Rank) : Prop := order first second = .lt

/-- Whether what is known of an entity gives way to a mention of another rank. -/
def yields (known incoming : Rank) : Bool :=
  if incoming.isDefinition ≠ known.isDefinition then incoming.isDefinition
  else
    match known.file, incoming.file with
    | some old, some new => compare new old != .gt
    | none, some _ => true
    | _, none => false

/-- What is known gives way to what outranks it, and to its equal if it has a
file. -/
theorem yields_iff {known incoming : Rank} :
    known.yields incoming = true ↔
      incoming.Outranks known ∨ (incoming = known ∧ incoming.file.isSome) := by
  have apart : ∀ {old new : String}, compare new old ≠ .gt ↔
      compare new old = .lt ∨ new = old := by
    intro old new
    rw [← Std.LawfulEqOrd.compare_eq_iff_eq (a := new)]
    cases compare new old <;> simp
  have before : compare false true = .lt := rfl
  obtain ⟨knownDefines, _ | old⟩ := known <;> obtain ⟨incomingDefines, _ | new⟩ := incoming <;>
    cases knownDefines <;> cases incomingDefines <;>
    simp [yields, Outranks, order, compareLex, compareOn, apart, before, Ordering.then]

variable {first second third : Rank}

/-- A rank does not outrank exactly those that come no later than it in the order. -/
theorem not_outranks_iff : ¬ first.Outranks second ↔ (order second first).isLE := by
  unfold Outranks
  constructor
  · intro notBetter
    cases compared : (order second first).isLE with
    | true => rfl
    | false => exact absurd (Std.OrientedCmp.lt_of_not_isLE (by simp [compared])) notBetter
  · exact Std.OrientedCmp.not_lt_of_isLE

/-- No rank outranks itself. -/
theorem not_outranks_self (rank : Rank) : ¬ rank.Outranks rank := by
  have same : order rank rank = .eq := Std.ReflCmp.compare_self
  rw [not_outranks_iff, same]
  rfl

/-- Of two ranks at most one outranks the other. -/
theorem Outranks.asymm (outranks : first.Outranks second) : ¬ second.Outranks first :=
  Std.OrientedCmp.not_lt_of_lt outranks

/-- Of two ranks of which neither is better, both are equal. -/
theorem eq_of_not_outranks (notFirst : ¬ first.Outranks second)
    (notSecond : ¬ second.Outranks first) : first = second := by
  rw [not_outranks_iff] at notFirst notSecond
  exact Std.LawfulEqCmp.eq_of_compare (Std.OrientedCmp.isLE_antisymm notSecond notFirst)

/-- What is no better than the second of two ranks is no better than the first,
if the second is no better either. -/
theorem not_outranks_trans (notFirst : ¬ first.Outranks second)
    (notSecond : ¬ second.Outranks third) : ¬ first.Outranks third := by
  rw [not_outranks_iff] at *
  exact Std.TransCmp.isLE_trans notSecond notFirst

/-- Nothing gives way to the lowest rank. -/
theorem not_yields_lowest (known : Rank) : known.yields ⟨false, none⟩ = false := by
  obtain ⟨_ | _, _ | file⟩ := known <;> rfl

/-- A definition gives way to definitions only. -/
theorem isDefinition_of_yields (yields : first.yields second = true)
    (isDefinition : first.isDefinition = true) : second.isDefinition = true := by
  by_cases same : second.isDefinition = first.isDefinition
  · exact same.trans isDefinition
  · rwa [Rank.yields, if_pos same] at yields

/-- Only definitions do not give way to a definition. -/
theorem isDefinition_of_keeps (keeps : first.yields second = false)
    (isDefinition : second.isDefinition = true) : first.isDefinition = true := by
  by_cases same : second.isDefinition = first.isDefinition
  · exact same.symm.trans isDefinition
  · rw [Rank.yields, if_pos same, isDefinition] at keeps
    cases keeps

/-- A declaration without a file gives way to everything with one. -/
theorem noFile_of_keeps (keeps : first.yields second = false)
    (declares : first.isDefinition = false) (noFile : first.file = none) : second.file = none := by
  obtain ⟨firstDefines, firstFile⟩ := first
  obtain ⟨secondDefines, secondFile⟩ := second
  simp only at declares noFile
  subst declares noFile
  cases secondDefines <;> cases secondFile <;> simp [yields] at keeps ⊢

/-- What gives way is no better. -/
theorem not_outranks_of_yields (yields : first.yields second = true) :
    ¬ first.Outranks second := by
  obtain outranks | ⟨rfl, _⟩ := yields_iff.mp yields
  · exact outranks.asymm
  · exact not_outranks_self _

/-- What keeps its place is no worse. -/
theorem not_outranks_of_keeps (keeps : first.yields second = false) :
    ¬ second.Outranks first := by
  intro outranks
  rw [yields_iff.mpr (.inl outranks)] at keeps
  cases keeps

end Rank

end DeclGraph

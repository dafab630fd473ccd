import DeclGraph.Statistics
import Mathlib.Algebra.BigOperators.Group.List.Basic
import Mathlib.Tactic.Linarith

/-!
# Average times

Statistics gathered from groups of units count the units of all of them in one
word and add up their times, as long as these make a duration. Only the low half of
the word divides the time, so the average is the rounded share of one unit as long as
the count fits into half a word, and is lost or too large beyond.
-/

namespace DeclGraph.Statistics

/-- The statistics of several groups of units together, unless the time spent on them
is too long. -/
def gathered? (groups : List Statistics) : Option Statistics := groups.foldlM merge? {}

/-- The units read in several groups, as far as a word can count them. -/
def unitsRead (groups : List Statistics) : Nat :=
  (groups.map (·.succeeded.toNat)).sum % 2 ^ 64

/-- The time spent on several groups, in nanoseconds. -/
def timeSpent (groups : List Statistics) : Nat := (groups.map (·.totalTime.nanoseconds)).sum

/-- Whether a time is the share of each of `count` units in a time, rounded
down. Where there are no units the share is zero. -/
structure IsShare (time count share : Nat) : Prop where
  lower : 0 < count → share * count ≤ time
  upper : 0 < count → time < (share + 1) * count
  ofNone : count = 0 → share = 0

/-- The share of each unit is the quotient rounded down. -/
theorem isShare_iff {time count share : Nat} :
    IsShare time count share ↔ share = time / count := by
  constructor
  · intro given
    rcases Nat.eq_zero_or_pos count with none | some
    · rw [given.ofNone none, none, Nat.div_zero]
    · apply Nat.le_antisymm
      · exact (Nat.le_div_iff_mul_le some).mpr (given.lower some)
      · exact Nat.le_of_lt_succ ((Nat.div_lt_iff_lt_mul some).mpr (given.upper some))
  · rintro rfl
    exact ⟨fun _ => Nat.div_mul_le_self time count,
      fun some => Nat.lt_mul_of_div_lt (Nat.lt_succ_self _) some,
      fun none => by rw [none, Nat.div_zero]⟩

variable {first total : Statistics} {groups : List Statistics}

/-- Groups are gathered unless their times and what was spent before reach the limit. -/
theorem foldlM_merge?_eq_none : groups.foldlM merge? first = none ↔
    Duration.limit ≤ first.totalTime.nanoseconds + timeSpent groups := by
  induction groups generalizing first with
  | nil => simpa [timeSpent] using first.totalTime.fits
  | cons group rest further =>
    rw [List.foldlM_cons]
    cases merged : first.merge? group with
    | none =>
      have long := merge?_eq_none.mp merged
      refine iff_of_true rfl (long.trans ?_)
      simp [timeSpent, ← Nat.add_assoc]
    | some middle =>
      obtain ⟨_, _, _, time, _⟩ := merge?_eq_some.mp merged
      rw [Option.bind_eq_bind, Option.bind_some, further, time]
      simp [timeSpent, Nat.add_assoc]

/-- Gathering counts modulo the size of a word and adds up the times, whatever was counted
before. -/
theorem counts_of_foldlM_merge? (gathered : groups.foldlM merge? first = some total) :
    total.succeeded.toNat =
        (first.succeeded.toNat + (groups.map (·.succeeded.toNat)).sum) % 2 ^ 64 ∧
      total.totalTime.nanoseconds = first.totalTime.nanoseconds + timeSpent groups := by
  induction groups generalizing first with
  | nil =>
    obtain rfl : first = total := Option.some.inj gathered
    simp [timeSpent, Nat.mod_eq_of_lt first.succeeded.toNat_lt]
  | cons group rest further =>
    rw [List.foldlM_cons] at gathered
    obtain ⟨middle, merged, gatheredToo⟩ := Option.bind_eq_some_iff.mp gathered
    obtain ⟨_, count, _, time, _⟩ := merge?_eq_some.mp merged
    obtain ⟨countLast, timeLast⟩ := further gatheredToo
    rw [countLast, timeLast, count, time]
    simp [timeSpent, UInt64.toNat_add, Nat.add_assoc]

/-- There is no average exactly when units were read and the low half of their
count is zero. -/
theorem averageTime?_eq_none_iff {statistics : Statistics} :
    statistics.averageTime? = none ↔
      0 < statistics.succeeded.toNat ∧ statistics.succeeded.toNat % 2 ^ 32 = 0 := by
  have zero : statistics.succeeded = 0 ↔ statistics.succeeded.toNat = 0 := by
    rw [← UInt64.toNat_inj, UInt64.toNat_zero]
  simp only [averageTime?, zero, UInt64.toNat_toUInt32]
  split_ifs with none low
  · simp [none]
  · exact iff_of_true rfl ⟨Nat.pos_of_ne_zero none, low⟩
  · exact iff_of_false (by simp) fun missing => low missing.2

/-- An average is the share of one unit, with the low half of the count for the
count. -/
theorem isShare_of_averageTime? {statistics : Statistics} {share : Duration}
    (average : statistics.averageTime? = some share) :
    IsShare statistics.totalTime.nanoseconds (statistics.succeeded.toNat % 2 ^ 32)
      share.nanoseconds := by
  have zero : statistics.succeeded = 0 ↔ statistics.succeeded.toNat = 0 := by
    rw [← UInt64.toNat_inj, UInt64.toNat_zero]
  rw [isShare_iff]
  simp only [averageTime?, zero, UInt64.toNat_toUInt32] at average
  split_ifs at average with none low
  · rw [none, Nat.zero_mod, Nat.div_zero]
    exact congrArg Duration.nanoseconds (Option.some.inj average).symm
  · exact congrArg Duration.nanoseconds (Option.some.inj average).symm

/-- A count beyond half a word and its low half give different quotients, unless
both quotients are zero. -/
theorem div_low_eq_div_iff {time count : Nat} (large : 2 ^ 32 ≤ count)
    (low : count % 2 ^ 32 ≠ 0) :
    time / (count % 2 ^ 32) = time / count ↔ time < count % 2 ^ 32 := by
  have small : count % 2 ^ 32 < 2 ^ 32 := Nat.mod_lt _ (by decide)
  constructor
  · intro same
    by_contra enough
    -- The two counts differ by at least half a word, which the low half is below.
    have apart : count % 2 ^ 32 * 2 ≤ count := by
      have split := Nat.div_add_mod count (2 ^ 32)
      have more : 1 ≤ count / 2 ^ 32 := (Nat.one_le_div_iff (by decide)).mpr large
      omega
    have positive : 0 < time / (count % 2 ^ 32) :=
      Nat.div_pos (Nat.le_of_not_lt enough) (Nat.pos_of_ne_zero low)
    have below : time < (time / (count % 2 ^ 32) + 1) * (count % 2 ^ 32) :=
      Nat.lt_mul_of_div_lt (Nat.lt_succ_self _) (Nat.pos_of_ne_zero low)
    have above : time / (count % 2 ^ 32) * count ≤ time := by
      rw [same]
      exact Nat.div_mul_le_self time count
    nlinarith
  · intro few
    have fewer : time < count := few.trans_le (Nat.mod_le _ _)
    rw [Nat.div_eq_of_lt few, Nat.div_eq_of_lt fewer]

/-- Statistics are gathered as long as the time spent is a duration. Their average is missing
exactly when units were read and the low half of their count is zero. Otherwise it is the share
of one unit with the low half for the count, and thus the share of one of the units read exactly
when their count fits into half a word or the time is below its low half. -/
theorem averageTime?_gathered (groups : List Statistics) :
    (gathered? groups = none ↔ Duration.limit ≤ timeSpent groups) ∧
    ∀ total, gathered? groups = some total →
      (total.averageTime? = none ↔ 0 < unitsRead groups ∧ unitsRead groups % 2 ^ 32 = 0) ∧
      (∀ share, total.averageTime? = some share →
        IsShare (timeSpent groups) (unitsRead groups % 2 ^ 32) share.nanoseconds) ∧
      ((∃ share, total.averageTime? = some share ∧
          IsShare (timeSpent groups) (unitsRead groups) share.nanoseconds) ↔
        unitsRead groups < 2 ^ 32 ∨ timeSpent groups < unitsRead groups % 2 ^ 32) := by
  have tooLong : gathered? groups = none ↔ _ := foldlM_merge?_eq_none
  refine ⟨by simpa [Duration.zero] using tooLong, fun total merged => ?_⟩
  have counts := counts_of_foldlM_merge? merged
  have count : total.succeeded.toNat = unitsRead groups := by simpa [unitsRead] using counts.1
  have time : total.totalTime.nanoseconds = timeSpent groups := by
    simpa [Duration.zero] using counts.2
  have missing : total.averageTime? = none ↔ _ := averageTime?_eq_none_iff
  have shared : ∀ share, total.averageTime? = some share →
      IsShare (timeSpent groups) (unitsRead groups % 2 ^ 32) share.nanoseconds := by
    intro share average
    simpa only [time, count] using isShare_of_averageTime? average
  rw [count] at missing
  refine ⟨missing, shared, ?_⟩
  cases average : total.averageTime? with
  | none =>
    obtain ⟨some, low⟩ := missing.mp average
    refine iff_of_false (by simp) ?_
    rintro (small | few)
    · exact some.ne' ((Nat.mod_eq_of_lt small).symm.trans low)
    · rw [low] at few
      exact Nat.not_lt_zero _ few
  | some share =>
    have low := isShare_iff.mp (shared share average)
    simp only [Option.some.injEq, exists_eq_left', isShare_iff, low]
    rcases Nat.lt_or_ge (unitsRead groups) (2 ^ 32) with small | large
    · exact iff_of_true (by rw [Nat.mod_eq_of_lt small]) (.inl small)
    · have known : unitsRead groups % 2 ^ 32 ≠ 0 := by
        intro zero
        have lost := missing.mpr ⟨(Nat.two_pow_pos 32).trans_le large, zero⟩
        rw [lost] at average
        cases average
      rw [div_low_eq_div_iff large known]
      exact (or_iff_right (Nat.not_lt.mpr large)).symm

/-- Two groups, with as many units as half a word cannot count, have no average. -/
theorem averageTime?_missing :
    (gathered? [{ attempted := 4294967295, succeeded := 4294967295
                  totalTime := ⟨8589934590000, by decide⟩ },
      { attempted := 1, succeeded := 1, totalTime := ⟨2000, by decide⟩ }]).map averageTime? =
        some none := by
  decide

end DeclGraph.Statistics

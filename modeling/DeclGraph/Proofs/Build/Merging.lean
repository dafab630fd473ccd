import DeclGraph.Build.Basic
import DeclGraph.Proofs.Assembly.History
import Mathlib.Algebra.Ring.Nat

/-!
# What merging leaves

Each input that is merged either adds its unit to the assembly, or is skipped or
rejected and then leaves the assembly as it is. Every input is listed once in the
summary, and inputs that are not in the graph in the end could as well have been
left out.
-/

namespace DeclGraph

variable {settings : Settings} {units : List SourceUnit}

/-- The time spent on reading an input, in nanoseconds. One that could not be read takes none. -/
def BuildInput.time (input : BuildInput) : Nat :=
  (Statistics.ofOutcome input.result).totalTime.nanoseconds

namespace Build

/-- The time spent on reading some inputs, in nanoseconds. -/
def readingTime (inputs : List BuildInput) : Nat := (inputs.map (·.time)).sum

/-- The time spent on reading what was merged so far, in nanoseconds. -/
def Progress.time (progress : Progress) : Nat := progress.summary.statistics.totalTime.nanoseconds

/-- What becomes of the progress when one more input is merged. -/
inductive Advance (progress : Progress) (input : BuildInput) : Progress → Prop where
  | skipped {statistics : Statistics} {cause : ReadError}
    (counted : progress.summary.statistics.merge? (.ofOutcome input.result) = some statistics)
    (unread : input.result = .error cause) :
    Advance progress input { progress with
      summary := { progress.summary with
        statistics, skipped := progress.summary.skipped ++ [⟨input.path, cause⟩] } }
  | rejected {statistics : Statistics} {unit : SourceUnit} {conflict : Conflict}
    (counted : progress.summary.statistics.merge? (.ofOutcome input.result) = some statistics)
    (isRead : input.result = .ok unit)
    (refused : progress.assembly.mergeUnit unit =
      (progress.assembly, .error (.conflict unit.path conflict))) :
    Advance progress input { progress with
      summary := { progress.summary with
        statistics
        rejected := progress.summary.rejected ++
          [⟨input.path, .conflict unit.path conflict⟩] } }
  | merged {statistics : Statistics} {unit : SourceUnit} {after : Assembly}
    (counted : progress.summary.statistics.merge? (.ofOutcome input.result) = some statistics)
    (isRead : input.result = .ok unit)
    (accepted : progress.assembly.mergeUnit unit = (after, .ok ())) :
    Advance progress input
      { assembly := after
        summary := { progress.summary with
          statistics, merged := progress.summary.merged ++ [input.path] } }

/-- What becomes of the progress when inputs are merged one after the other. -/
inductive Advances : Progress → List BuildInput → Progress → Prop where
  | done {progress : Progress} : Advances progress [] progress
  | next {progress middle last : Progress} {input : BuildInput} {rest : List BuildInput}
    (first : Advance progress input middle) (further : Advances middle rest last) :
    Advances progress (input :: rest) last

variable {progress next last : Progress} {input : BuildInput} {inputs : List BuildInput}

/-- An advance is what merging an input gives. -/
theorem Advance.ran (advance : Advance progress input next) :
    mergeInput progress input = .ok next := by
  cases advance with
  | skipped counted unread =>
    rw [unread] at counted
    simp only [mergeInput, unread, counted]
  | rejected counted isRead refused =>
    rw [isRead] at counted
    simp only [mergeInput, isRead, counted, refused]
  | merged counted isRead accepted =>
    rw [isRead] at counted
    simp only [mergeInput, isRead, counted, accepted]

/-- Advances are what merging inputs one after the other gives. -/
theorem Advances.ran (advances : Advances progress inputs last) :
    inputs.foldlM mergeInput progress = .ok last := by
  induction advances with
  | done => rfl
  | next first _ more =>
    rw [List.foldlM_cons, first.ran]
    exact more

/-- An advance counts the statistics of its input. -/
theorem Advance.counted (advance : Advance progress input next) :
    progress.summary.statistics.merge? (.ofOutcome input.result) =
      some next.summary.statistics := by
  cases advance with
  | skipped counted _ => exact counted
  | rejected counted _ _ => exact counted
  | merged counted _ _ => exact counted

/-- An advance adds the time spent on its input. -/
theorem Advance.time (advance : Advance progress input next) :
    next.time = progress.time + input.time := by
  obtain ⟨_, _, _, time, _⟩ := Statistics.merge?_eq_some.mp advance.counted
  exact time

/-- Advances add the time spent on all inputs. -/
theorem Advances.time (advances : Advances progress inputs last) :
    last.time = progress.time + readingTime inputs := by
  induction advances with
  | done => simp [readingTime]
  | next first _ more =>
    rw [more, first.time]
    simp [readingTime, Nat.add_assoc]

/-- As long as the time spent is a duration, one more input can be counted. -/
theorem exists_counted (fits : progress.time + input.time < Duration.limit) :
    ∃ statistics,
      progress.summary.statistics.merge? (.ofOutcome input.result) = some statistics := by
  refine Option.ne_none_iff_exists'.mp fun overflow => ?_
  exact Nat.not_lt.mpr (Statistics.merge?_eq_none.mp overflow) fits

/-- As long as the time spent is a duration, merging an input does not fail, since units only
ever contradict each other. -/
theorem exists_advance (history : Assembly.History settings units progress.assembly)
    (fits : progress.time + input.time < Duration.limit) :
    ∃ next, Advance progress input next ∧
      ∃ further, Assembly.History settings further next.assembly := by
  obtain ⟨statistics, counted⟩ := exists_counted fits
  cases outcome : input.result with
  | error cause => exact ⟨_, .skipped counted outcome, units, history⟩
  | ok unit =>
    rcases history.mergeUnit_cases unit with ⟨_, _, _, accepted, next⟩ | ⟨_, conflict, refused⟩
    · exact ⟨_, .merged counted outcome accepted, units ++ [unit], next⟩
    · exact ⟨_, .rejected counted outcome refused, units, history⟩

/-- Once the time spent is too long, merging an input fails. -/
theorem mergeInput_of_overflow (long : Duration.limit ≤ progress.time + input.time) :
    mergeInput progress input = .error .timeOverflow := by
  have overflow : progress.summary.statistics.merge? (.ofOutcome input.result) = none :=
    Statistics.merge?_eq_none.mpr long
  simp only [mergeInput, overflow]

/-- Inputs are all merged, or the time spent on them and before is too long. -/
theorem advances_or_overflow (history : Assembly.History settings units progress.assembly)
    (inputs : List BuildInput) :
    (∃ last, Advances progress inputs last ∧
      ∃ further, Assembly.History settings further last.assembly) ∨
    (inputs.foldlM mergeInput progress = .error .timeOverflow ∧
      Duration.limit ≤ progress.time + readingTime inputs) := by
  induction inputs generalizing progress units with
  | nil => exact .inl ⟨progress, .done, units, history⟩
  | cons input rest more =>
    have all : progress.time + readingTime (input :: rest) =
        progress.time + input.time + readingTime rest := by
      simp [readingTime, Nat.add_assoc]
    rw [List.foldlM_cons, all]
    rcases Nat.lt_or_ge (progress.time + input.time) Duration.limit with fits | long
    · obtain ⟨middle, first, _, between⟩ := exists_advance history fits
      rw [first.ran, ← first.time]
      rcases more between with ⟨last, further, inTheEnd⟩ | ⟨failed, long⟩
      · exact .inl ⟨last, .next first further, inTheEnd⟩
      · exact .inr ⟨failed, long⟩
    · rw [mergeInput_of_overflow long]
      exact .inr ⟨rfl, Nat.le_trans long (Nat.le_add_right _ _)⟩

/-- Whenever the flag is raised, merging inputs ends, unless the time spent on them and before is
too long. -/
theorem mergeInputs_ends (cancellation : Cancellation) (readingCancelled raised : Bool)
    (history : Assembly.History settings units progress.assembly) (inputs : List BuildInput) :
    (∃ flag last,
      mergeInputs cancellation readingCancelled raised progress inputs = .ok (flag, last) ∧
      ∃ further, Assembly.History settings further last.assembly) ∨
    (mergeInputs cancellation readingCancelled raised progress inputs = .error .timeOverflow ∧
      Duration.limit ≤ progress.time + readingTime inputs) := by
  induction inputs generalizing raised progress units with
  | nil => exact .inl ⟨raised, progress, rfl, units, history⟩
  | cons input rest more =>
    have all : progress.time + readingTime (input :: rest) =
        progress.time + input.time + readingTime rest := by
      simp [readingTime, Nat.add_assoc]
    unfold mergeInputs
    rw [all]
    split
    · exact .inl ⟨raised, progress, rfl, units, history⟩
    · rcases Nat.lt_or_ge (progress.time + input.time) Duration.limit with fits | long
      · obtain ⟨middle, first, _, between⟩ := exists_advance history fits
        rw [first.ran, ← first.time]
        exact more _ between
      · rw [mergeInput_of_overflow long]
        exact .inr ⟨rfl, Nat.le_trans long (Nat.le_add_right _ _)⟩

/-- A flag that is down, or that stopped the reading, stops no merging as long as it
is not raised in between. -/
theorem mergeInputs_of_quiet {cancellation : Cancellation} {readingCancelled raised : Bool}
    {inputs : List BuildInput} (idle : raised = true → readingCancelled = true)
    (quiet : ∀ input ∈ inputs, cancellation.strikesBehind input.path = false)
    (progress : Progress) :
    mergeInputs cancellation readingCancelled raised progress inputs =
      (inputs.foldlM mergeInput progress).map fun last => (raised, last) := by
  induction inputs generalizing progress with
  | nil => rfl
  | cons input rest more =>
    have goesOn : (raised && !readingCancelled) = false := by
      cases raised <;> simp_all
    have tail : ∀ other ∈ rest, cancellation.strikesBehind other.path = false :=
      fun other member => quiet other (List.mem_cons_of_mem _ member)
    rw [mergeInputs, goesOn, quiet input List.mem_cons_self, Bool.or_false, List.foldlM_cons]
    cases mergeInput progress input with
    | error error => rfl
    | ok next => exact more tail next

/-- Whether a summary accounts for some inputs: each of them is listed once, the counts are those
of the lists, and the time is that spent on all of them. -/
structure Accounts (inputs : List BuildInput) (summary : Summary) : Prop where
  listed : (summary.merged ++ summary.skipped.map (·.path) ++ summary.rejected.map (·.path)).Perm
    (inputs.map (·.path))
  attempted : summary.statistics.attempted = .ofNat inputs.length
  failed : summary.statistics.failed = .ofNat summary.skipped.length
  succeeded : summary.statistics.succeeded =
    .ofNat (summary.merged.length + summary.rejected.length)
  time : summary.statistics.totalTime.nanoseconds = readingTime inputs

/-- The summary of nothing accounts for no inputs. -/
theorem accounts_empty : Accounts [] {} := ⟨.refl _, rfl, rfl, rfl, rfl⟩

/-- One more path may be listed at the end of a list that stands before another. -/
theorem perm_listed {before after seen : List FilePath} (listed : (before ++ after).Perm seen)
    (path : FilePath) : (before ++ [path] ++ after).Perm (seen ++ [path]) := by
  rw [List.append_assoc, List.singleton_append]
  have inFront : (before ++ path :: after).Perm (path :: seen) :=
    List.perm_middle.trans (listed.cons path)
  exact inFront.trans (List.perm_append_singleton path seen).symm

/-- One more input is listed in one place and counted as it is listed. -/
theorem Accounts.advance {seen : List BuildInput} (accounts : Accounts seen progress.summary)
    (first : Advance progress input next) : Accounts (seen ++ [input]) next.summary := by
  obtain ⟨listed, attempted, failed, succeeded, time⟩ := accounts
  obtain ⟨attemptedNow, succeededNow, failedNow, _⟩ := Statistics.merge?_eq_some.mp first.counted
  have timeNow : next.time = readingTime (seen ++ [input]) := by
    have before : progress.time = readingTime seen := time
    have added : next.time = readingTime seen + input.time := by rw [first.time, before]
    simpa [readingTime] using added
  rw [List.append_assoc] at listed
  cases first with
  | skipped _ unread =>
    rw [unread] at attemptedNow succeededNow failedNow
    refine ⟨?_, ?_, ?_, ?_, timeNow⟩
    case refine_1 =>
      rw [← List.append_assoc] at listed
      simpa using perm_listed listed input.path
    all_goals simp_all [Statistics.ofOutcome]
  | rejected _ isRead _ =>
    rw [isRead] at attemptedNow succeededNow failedNow
    refine ⟨?_, ?_, ?_, ?_, timeNow⟩
    case refine_1 =>
      rw [← List.append_nil (_ ++ _)] at listed
      simpa using perm_listed listed input.path
    all_goals simp_all [Statistics.ofOutcome, UInt64.add_assoc]
  | merged _ isRead _ =>
    rw [isRead] at attemptedNow succeededNow failedNow
    refine ⟨?_, ?_, ?_, ?_, timeNow⟩
    case refine_1 => simpa using perm_listed listed input.path
    all_goals simp_all [Statistics.ofOutcome, UInt64.add_assoc, UInt64.add_comm 1]

/-- Advances account for their inputs and those before. -/
theorem Advances.accounts {seen : List BuildInput} (advances : Advances progress inputs last)
    (accounts : Accounts seen progress.summary) : Accounts (seen ++ inputs) last.summary := by
  induction advances generalizing seen with
  | done => simpa using accounts
  | @next _ _ _ input rest first _ more =>
    have all : seen ++ input :: rest = seen ++ [input] ++ rest := by simp
    rw [all]
    exact more (accounts.advance first)

/-- The inputs that are in the graph in the end give the same assembly on their own, as long as
what was spent before is no longer. -/
theorem Advances.included (advances : Advances progress inputs last) :
    ∃ kept : List BuildInput, kept.Sublist inputs ∧
      last.summary.merged = progress.summary.merged ++ kept.map (·.path) ∧
      ∀ other : Progress, other.assembly = progress.assembly → other.time ≤ progress.time →
        ∃ again, Advances other kept again ∧ again.assembly = last.assembly ∧
          again.summary.merged = other.summary.merged ++ kept.map (·.path) := by
  induction advances with
  | done => exact ⟨[], .refl _, by simp, fun other same _ => ⟨other, .done, same, by simp⟩⟩
  | @next progress middle last input rest first _ more =>
    obtain ⟨kept, inside, merged, onTheirOwn⟩ := more
    have longer : progress.time ≤ middle.time := by
      rw [first.time]
      exact Nat.le_add_right _ _
    have fits : middle.time < Duration.limit := middle.summary.statistics.totalTime.fits
    have time := first.time
    cases first with
    | skipped _ _ =>
      exact ⟨kept, inside.cons input, merged,
        fun other same earlier => onTheirOwn other same (Nat.le_trans earlier longer)⟩
    | rejected _ _ _ =>
      exact ⟨kept, inside.cons input, merged,
        fun other same earlier => onTheirOwn other same (Nat.le_trans earlier longer)⟩
    | @merged statistics unit after counted isRead accepted =>
      refine ⟨input :: kept, inside.cons_cons input, by simpa using merged,
        fun other same earlier => ?_⟩
      rw [← same] at accepted
      have shorter : other.time + input.time < Duration.limit :=
        Nat.lt_of_le_of_lt (Nat.add_le_add_right earlier _) (time ▸ fits)
      obtain ⟨own, ownCounted⟩ := exists_counted shorter
      have advance := Advance.merged ownCounted isRead accepted
      have fewer := Nat.add_le_add_right earlier input.time
      rw [← advance.time, ← time] at fewer
      obtain ⟨again, further, assembly, mergedAgain⟩ := onTheirOwn
        { assembly := after
          summary := { other.summary with
            statistics := own, merged := other.summary.merged ++ [input.path] } } rfl fewer
      exact ⟨again, .next advance further, assembly, by simpa using mergedAgain⟩

end Build

end DeclGraph

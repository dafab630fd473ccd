import DeclGraph.Proofs.Build.Merging
import DeclGraph.Proofs.Build.Reading
import Mathlib.Algebra.BigOperators.Group.List.Basic
import Mathlib.Data.List.Nodup

/-!
# What a build depends on

A build depends on its inputs as a set, as they are merged in the order of their
paths, and not on how many of them are read at the same time. Inputs that are
rejected or skipped leave no trace in the graph. A build only fails where the time
spent on reading is too long for a duration.
-/

namespace DeclGraph

/-- What a unit contributes does not depend on how many units are read at the same
time. -/
theorem SourceUnit.contribution_inParallel (settings : Settings) (parallel : Bool)
    (workers : Option Nat) (unit : SourceUnit) :
    unit.contribution { settings with parallel, workers } = unit.contribution settings := rfl

namespace Assembly

variable (parallel : Bool) (workers : Option Nat) (assembly : Assembly)

/-- The assembly under settings that differ in what is read at the same time. -/
def inParallel : Assembly :=
  { assembly with settings := { assembly.settings with parallel, workers } }

/-- A contribution is taken up alike whatever the settings of the workers. -/
theorem merge_inParallel (contribution : Contribution) :
    (assembly.inParallel parallel workers).merge contribution =
      ((assembly.merge contribution).1.inParallel parallel workers,
        (assembly.merge contribution).2) := by
  have catalogue : (assembly.inParallel parallel workers).catalogue = assembly.catalogue := rfl
  unfold merge
  rw [catalogue]
  cases assembly.catalogue.firstConflict? [] contribution.mentions with
  | some conflict => rfl
  | none =>
    cases (Catalogue.registerAll contribution.mentions).run.run assembly.catalogue with
    | mk outcome after => cases outcome <;> rfl

/-- A unit is taken up alike whatever the settings of the workers. -/
theorem mergeUnit_inParallel (unit : SourceUnit) :
    (assembly.inParallel parallel workers).mergeUnit unit =
      ((assembly.mergeUnit unit).1.inParallel parallel workers, (assembly.mergeUnit unit).2) := by
  have same : unit.contribution (assembly.inParallel parallel workers).settings =
      unit.contribution assembly.settings :=
    unit.contribution_inParallel assembly.settings parallel workers
  unfold mergeUnit
  rw [same]
  exact assembly.merge_inParallel parallel workers _

end Assembly

namespace Build

section Parallel

variable (parallel : Bool) (workers : Option Nat)

/-- The progress under settings that differ in what is read at the same time. -/
def Progress.inParallel (progress : Progress) : Progress :=
  { progress with assembly := progress.assembly.inParallel parallel workers }

/-- An input is merged alike whatever the settings of the workers. -/
theorem mergeInput_inParallel (progress : Progress) (input : BuildInput) :
    mergeInput (progress.inParallel parallel workers) input =
      (mergeInput progress input).map (Progress.inParallel parallel workers) := by
  cases isRead : input.result with
  | error cause =>
    cases counted : progress.summary.statistics.merge? (.ofOutcome (.error cause)) <;>
      simp [mergeInput, isRead, counted, Progress.inParallel, Except.map]
  | ok unit =>
    have took := progress.assembly.mergeUnit_inParallel parallel workers unit
    cases counted : progress.summary.statistics.merge? (.ofOutcome (.ok unit)) with
    | none => simp [mergeInput, isRead, counted, Progress.inParallel, Except.map]
    | some statistics =>
      simp only [mergeInput, isRead, counted, Progress.inParallel, took]
      rcases progress.assembly.mergeUnit unit with ⟨after, (_ | _) | _⟩ <;> rfl

/-- Inputs are merged alike whatever the settings of the workers. -/
theorem mergeInputs_inParallel (cancellation : Cancellation) (readingCancelled raised : Bool)
    (progress : Progress) (inputs : List BuildInput) :
    mergeInputs cancellation readingCancelled raised (progress.inParallel parallel workers) inputs =
      (mergeInputs cancellation readingCancelled raised progress inputs).map
        fun outcome => (outcome.1, outcome.2.inParallel parallel workers) := by
  induction inputs generalizing raised progress with
  | nil => rfl
  | cons input rest more =>
    unfold mergeInputs
    rw [mergeInput_inParallel]
    split
    · rfl
    · cases mergeInput progress input with
      | error error => rfl
      | ok next => exact more _ next

/-- A build is completed alike whatever the settings of the workers. -/
theorem complete_inParallel (raised : Bool) (progress : Progress) :
    complete raised (progress.inParallel parallel workers) = complete raised progress := rfl

/-- What becomes of what was read does not depend on what is read at the same time. -/
theorem assemble_inParallel (settings : Settings) (cancellation : Cancellation) (taken : Intake) :
    assemble { settings with parallel, workers } cancellation taken =
      assemble settings cancellation taken := by
  have start : (⟨.empty { settings with parallel, workers }, {}⟩ : Progress) =
      Progress.inParallel parallel workers ⟨.empty settings, {}⟩ := rfl
  unfold assemble
  rw [start, mergeInputs_inParallel]
  cases mergeInputs cancellation taken.cancelled taken.cancelled ⟨.empty settings, {}⟩
      (inPathOrder taken.inputs) with
  | error error => rfl
  | ok outcome => exact complete_inParallel parallel workers outcome.1 outcome.2

end Parallel

variable {settings : Settings} {cancellation : Cancellation} {inputs others : List BuildInput}
  {taken : Intake}

/-- Sorting by paths loses no input and repeats none. -/
theorem perm_inPathOrder (inputs : List BuildInput) : (inPathOrder inputs).Perm inputs :=
  List.mergeSort_perm _ _

/-- Inputs in the order of their paths are in this order pair by pair. -/
theorem pairwise_inPathOrder (inputs : List BuildInput) :
    (inPathOrder inputs).Pairwise fun first second => first.path.notAfter second.path := by
  unfold inPathOrder
  apply List.pairwise_mergeSort
  · exact fun _ _ _ before behind => FilePath.notAfter_trans before behind
  · exact fun first second => FilePath.notAfter_total first.path second.path

/-- Inputs with distinct paths have one order of paths. -/
theorem inPathOrder_eq (distinct : (inputs.map (·.path.components)).Nodup)
    (perm : others.Perm inputs)
    (ordered : others.Pairwise fun first second => first.path.notAfter second.path) :
    inPathOrder inputs = others := by
  have samePaths := perm_inPathOrder inputs
  refine List.Perm.eq_of_pairwise ?_ (pairwise_inPathOrder inputs) ordered
    (samePaths.trans perm.symm)
  intro first second firstMember secondMember before behind
  refine List.inj_on_of_nodup_map distinct (samePaths.mem_iff.mp firstMember)
    (perm.mem_iff.mp secondMember) ?_
  exact FilePath.components_eq_of_notAfter before behind

/-- Leaving inputs of different paths out before they are sorted comes to the same as afterwards. -/
theorem inPathOrder_filter (distinct : (inputs.map (·.path.components)).Nodup)
    (kept : BuildInput → Bool) :
    inPathOrder (inputs.filter kept) = (inPathOrder inputs).filter kept :=
  inPathOrder_eq (distinct.sublist (List.filter_sublist.map _))
    ((perm_inPathOrder inputs).filter kept) ((pairwise_inPathOrder inputs).filter kept)

/-- The time spent on reading inputs does not depend on their order. -/
theorem readingTime_inPathOrder (inputs : List BuildInput) :
    readingTime (inPathOrder inputs) = readingTime inputs :=
  ((perm_inPathOrder inputs).map _).sum_eq

/-- A build with what was read. -/
theorem run_of_intake {pool : WorkerPool}
    (read : intake pool settings cancellation inputs = .ok taken) :
    run pool settings cancellation inputs = assemble settings cancellation taken := by
  unfold run
  rw [read]
  rfl

/-- A build whose assembly can be finished is completed with the finished graph. -/
theorem complete_of_finish {progress : Progress} {finished : Finished}
    (done : progress.assembly.finish = .ok finished) (raised : Bool) :
    complete raised progress = .ok
      { graph := finished.graph
        summary := { progress.summary with
          unresolved := finished.unresolved
          cancelled := raised } } := by
  simp only [complete, done, Except.mapError, bind, Except.bind, pure, Except.pure]

/-- What a build gives when nothing raises the flag in the course of the merging. -/
theorem assemble_of_advances (quiet : ∀ path, cancellation.strikesBehind path = false)
    {last : Progress} {finished : Finished}
    (advances : Advances ⟨.empty settings, {}⟩ (inPathOrder taken.inputs) last)
    (done : last.assembly.finish = .ok finished) :
    assemble settings cancellation taken = .ok
      { graph := finished.graph
        summary := { last.summary with
          unresolved := finished.unresolved
          cancelled := taken.cancelled } } := by
  unfold assemble
  rw [mergeInputs_of_quiet id fun input _ => quiet input.path, advances.ran]
  exact complete_of_finish done _

/-- A build fails as the merging of all that was read fails. -/
theorem assemble_of_failure (quiet : ∀ path, cancellation.strikesBehind path = false)
    {failure : BuildFailure}
    (failed : (inPathOrder taken.inputs).foldlM mergeInput ⟨.empty settings, {}⟩ = .error failure) :
    assemble settings cancellation taken = .error failure := by
  unfold assemble
  rw [mergeInputs_of_quiet id fun input _ => quiet input.path, failed]
  rfl

/-- An empty assembly has taken up no unit. -/
theorem history_empty (settings : Settings) :
    Assembly.History settings [] (.empty settings) := Assembly.TakenUp.start.history

/-- What has been taken up can be finished. -/
theorem exists_finished {units : List SourceUnit} {assembly : Assembly}
    (history : Assembly.History settings units assembly) :
    ∃ finished, assembly.finish = .ok finished := by
  obtain ⟨_, _, _, _, _, finished⟩ :=
    Assembly.finish_run history.holds.housed history.holds.unlinked
  exact ⟨_, finished⟩

/-- Inputs are merged in the order of paths and linked, or the time spent on them is too long. -/
theorem merged_or_overflow (settings : Settings) (inputs : List BuildInput) :
    (∃ last finished, Advances ⟨.empty settings, {}⟩ (inPathOrder inputs) last ∧
      last.assembly.finish = .ok finished) ∨
    ((inPathOrder inputs).foldlM mergeInput ⟨.empty settings, {}⟩ = .error .timeOverflow ∧
      Duration.limit ≤ readingTime inputs) := by
  have start : Assembly.History settings [] (⟨.empty settings, {}⟩ : Progress).assembly :=
    history_empty settings
  rcases advances_or_overflow start (inPathOrder inputs) with
    ⟨last, advances, _, history⟩ | ⟨failed, long⟩
  · obtain ⟨finished, done⟩ := exists_finished history
    exact .inl ⟨last, finished, advances, done⟩
  · rw [readingTime_inPathOrder] at long
    exact .inr ⟨failed, Nat.le_trans long (Nat.le_of_eq (Nat.zero_add _))⟩

/-- What was read gives a graph, or the time spent on it is too long. -/
theorem assemble_ends (settings : Settings) (cancellation : Cancellation) (taken : Intake) :
    (∃ output, assemble settings cancellation taken = .ok output) ∨
    (assemble settings cancellation taken = .error .timeOverflow ∧
      Duration.limit ≤ readingTime taken.inputs) := by
  have start : Assembly.History settings [] (⟨.empty settings, {}⟩ : Progress).assembly :=
    history_empty settings
  unfold assemble
  rcases mergeInputs_ends cancellation taken.cancelled taken.cancelled start
    (inPathOrder taken.inputs) with ⟨flag, last, merged, _, history⟩ | ⟨failed, long⟩
  · obtain ⟨finished, done⟩ := exists_finished history
    rw [merged]
    exact .inl ⟨_, complete_of_finish done flag⟩
  · rw [failed]
    rw [readingTime_inPathOrder] at long
    exact .inr ⟨rfl, Nat.le_trans long (Nat.le_of_eq (Nat.zero_add _))⟩

/-- Nothing cancels a build that is never cancelled. -/
theorem run_never {pool : WorkerPool} {settings : Settings} (reliable : pool.Reliable settings)
    (inputs : List BuildInput) :
    run pool settings .never inputs = assemble settings .never ⟨false, inputs⟩ :=
  run_of_intake (intake_of_quiet reliable fun _ _ => rfl)

/-- A build fails for want of workers exactly if the settings ask for workers that cannot be set
up, and with the reason for that. -/
theorem run_eq_noWorkers_iff {pool : WorkerPool} {reason : String} :
    run pool settings cancellation inputs = .error (.noWorkers reason) ↔
      settings.readsInTurn inputs.length = false ∧
        pool.setUp settings.workers = .error reason := by
  rw [← intake_eq_error_iff cancellation]
  cases read : intake pool settings cancellation inputs with
  | error own =>
    have failed : run pool settings cancellation inputs = .error (.noWorkers own) := by
      unfold run
      rw [read]
      rfl
    simp [failed]
  | ok taken =>
    rw [run_of_intake read]
    rcases assemble_ends settings cancellation taken with ⟨output, ran⟩ | ⟨failed, _⟩
    · simp [ran]
    · simp [failed]

/-- Inputs whose paths differ in their components have different paths. -/
theorem nodup_paths (distinct : (inputs.map (·.path.components)).Nodup) :
    (inputs.map (·.path)).Nodup := by
  refine List.Nodup.of_map FilePath.components ?_
  rwa [List.map_map]

/-- Of a list without repeats, the members of a part of it are that part. -/
theorem filter_eq_of_sublist {kept : List BuildInput} (distinct : (inputs.map (·.path)).Nodup)
    (inside : kept.Sublist inputs) :
    inputs.filter (fun input => input.path ∈ kept.map (·.path)) = kept := by
  induction inside with
  | slnil => rfl
  | @cons kept rest input inside more =>
    rw [List.map_cons, List.nodup_cons] at distinct
    have absent : input.path ∉ kept.map (·.path) :=
      fun member => distinct.1 ((inside.map _).subset member)
    rw [List.filter_cons_of_neg (by simpa using absent), more distinct.2]
  | @cons_cons kept rest input inside more =>
    rw [List.map_cons, List.nodup_cons] at distinct
    have further := more distinct.2
    rw [List.filter_cons_of_pos (by simp), List.cons_inj_right]
    refine (List.filter_congr fun other member => ?_).trans further
    have apart : other.path ≠ input.path :=
      fun same => distinct.1 (same ▸ List.mem_map_of_mem member)
    simp [apart]

/-- Inputs that are rejected or skipped leave no trace: the graph, the numbers of its
nodes and edges included, and what means nothing in it are those of a build of the
merged inputs alone. There is no graph only where the time spent on reading is too long. -/
theorem run_filter_merged {pool other : WorkerPool} {settings : Settings}
    (reliable : pool.Reliable settings) (otherReliable : other.Reliable settings)
    (inputs : List BuildInput)
    (distinct : (inputs.map (·.path.components)).Nodup) :
    (∃ output again : BuildOutput, run pool settings .never inputs = .ok output ∧
      run other settings .never (inputs.filter fun input => input.path ∈ output.summary.merged) =
        .ok again ∧
      again.graph = output.graph ∧ again.summary.unresolved = output.summary.unresolved ∧
      again.summary.merged = output.summary.merged) ∨
    (run pool settings .never inputs = .error .timeOverflow ∧
      Duration.limit ≤ readingTime inputs) := by
  rw [run_never reliable]
  have quiet : ∀ path, Cancellation.strikesBehind path .never = false := fun _ => rfl
  rcases merged_or_overflow settings inputs with ⟨last, finished, advances, done⟩ | ⟨failed, long⟩
  · left
    have ran : assemble settings .never ⟨false, inputs⟩ = .ok _ :=
      assemble_of_advances quiet advances done
    obtain ⟨kept, inside, merged, onTheirOwn⟩ := advances.included
    obtain ⟨again, advancesAgain, assembly, mergedAgain⟩ :=
      onTheirOwn ⟨.empty settings, {}⟩ rfl (Nat.le_refl _)
    have sortedPaths : ((inPathOrder inputs).map (·.path)).Nodup :=
      ((perm_inPathOrder inputs).map _).nodup_iff.mpr (nodup_paths distinct)
    have listed : last.summary.merged = kept.map (·.path) := by simpa using merged
    have listedAgain : again.summary.merged = kept.map (·.path) := by simpa using mergedAgain
    have onlyMerged : inPathOrder (inputs.filter fun input => input.path ∈ last.summary.merged) =
        kept := by
      rw [inPathOrder_filter distinct, listed, filter_eq_of_sublist sortedPaths inside]
    have ranAgain : run other settings .never _ = .ok _ := (run_never otherReliable _).trans
      (assemble_of_advances quiet (by rwa [onlyMerged]) (assembly ▸ done))
    exact ⟨_, _, ran, ranAgain, rfl, rfl, listedAgain.trans listed.symm⟩
  · exact .inr ⟨assemble_of_failure quiet failed, long⟩

/-- Three units, of which the second contradicts the first, and a file that could not
be read. -/
def mixedInputs : List BuildInput :=
  [.ofUnit Assembly.contraryUnit, .ofUnit Assembly.headerUnit, .ofUnit Assembly.sourceUnit,
    ⟨.ofText "lost.h", .error (.inaccessible (.ofText "lost.h") .missing)⟩]

/-- Neither the unit that contradicts the others nor the file that could not be read
leaves a trace. -/
theorem run_filter_merged_mixed :
    WorkerPool.single.Reliable {} ∧ (mixedInputs.map (·.path.components)).Nodup ∧
    ∃ output again : BuildOutput, run .single {} .never mixedInputs = .ok output ∧
      run .single {} .never
        (mixedInputs.filter fun input => input.path ∈ output.summary.merged) = .ok again ∧
      again.graph = output.graph ∧ again.summary.unresolved = output.summary.unresolved ∧
      again.summary.merged = output.summary.merged := by
  have reliable := WorkerPool.reliable_single {}
  have distinct : (mixedInputs.map (·.path.components)).Nodup := by decide
  refine ⟨reliable, distinct, ?_⟩
  refine (run_filter_merged reliable reliable mixedInputs distinct).resolve_right ?_
  exact fun overflow => absurd overflow.2 (by decide)

/-- What is read, in the order of paths, depends on the set of inputs only, unless the
reading of one of them raises the flag. -/
theorem assemble_of_perm (settings : Settings) (cancellation : Cancellation)
    (distinct : (inputs.map (·.path.components)).Nodup) (perm : inputs.Perm others) :
    assemble settings cancellation
        (if cancellation = .beforehand then ⟨true, []⟩ else ⟨false, others⟩) =
      assemble settings cancellation
        (if cancellation = .beforehand then ⟨true, []⟩ else ⟨false, inputs⟩) := by
  split
  · rfl
  · have same : inPathOrder inputs = inPathOrder others :=
      inPathOrder_eq distinct ((perm_inPathOrder others).trans perm.symm)
        (pairwise_inPathOrder others)
    simp only [assemble, same]

/-- What accounts for inputs accounts for them in any order. -/
theorem Accounts.perm {summary : Summary} (accounts : Accounts inputs summary)
    (perm : inputs.Perm others) : Accounts others summary where
  listed := accounts.listed.trans (perm.map _)
  attempted := by rw [← perm.length_eq, accounts.attempted]
  failed := accounts.failed
  succeeded := accounts.succeeded
  time := accounts.time.trans (perm.map _).sum_eq

/-- Without cancellation every input that was read is accounted for, unless the time spent on
reading is too long. -/
theorem assemble_accounts (settings : Settings) (inputs : List BuildInput) :
    (∃ output : BuildOutput, assemble settings .never ⟨false, inputs⟩ = .ok output ∧
      Accounts inputs output.summary) ∨
    (assemble settings .never ⟨false, inputs⟩ = .error .timeOverflow ∧
      Duration.limit ≤ readingTime inputs) := by
  have quiet : ∀ path, Cancellation.strikesBehind path .never = false := fun _ => rfl
  rcases merged_or_overflow settings inputs with ⟨last, finished, advances, done⟩ | ⟨failed, long⟩
  · have ran : assemble settings .never ⟨false, inputs⟩ = .ok _ :=
      assemble_of_advances quiet advances done
    have accounts : Accounts (inPathOrder inputs) last.summary := advances.accounts accounts_empty
    obtain ⟨listed, attempted, failed, succeeded, time⟩ := accounts.perm (perm_inPathOrder inputs)
    exact .inl ⟨_, ran, listed, attempted, failed, succeeded, time⟩
  · exact .inr ⟨assemble_of_failure quiet failed, long⟩

/-- A build depends on the set of its inputs only, neither on their order nor on how many of them
are read at the same time and by which workers, unless the reading of one of them cancels it. It
gives a graph unless the time spent on reading is too long, and without cancellation every input
is then accounted for. -/
theorem run_of_perm {pool other : WorkerPool} {settings : Settings} {parallel : Bool}
    {workers : Option Nat} (reliable : pool.Reliable settings)
    (otherReliable : other.Reliable { settings with parallel, workers })
    (cancellation : Cancellation) (inputs others : List BuildInput)
    (quiet : ∀ input ∈ inputs, cancellation.strikes input.path = false)
    (distinct : (inputs.map (·.path.components)).Nodup) (perm : inputs.Perm others) :
    (∃ output : BuildOutput, run pool settings cancellation inputs = .ok output ∧
      run other { settings with parallel, workers } cancellation others = .ok output ∧
      (cancellation = .never → Accounts inputs output.summary ∧
        (output.summary.merged ++ output.summary.skipped.map (·.path) ++
          output.summary.rejected.map (·.path)).Nodup)) ∨
    (run pool settings cancellation inputs = .error .timeOverflow ∧
      run other { settings with parallel, workers } cancellation others = .error .timeOverflow ∧
      Duration.limit ≤ readingTime inputs) := by
  have quietToo : ∀ input ∈ others, cancellation.strikes input.path = false :=
    fun input member => quiet input (perm.mem_iff.mpr member)
  have ran := run_of_intake (intake_of_quiet reliable quiet)
  have same : run other { settings with parallel, workers } cancellation others =
      run pool settings cancellation inputs := by
    rw [ran, run_of_intake (intake_of_quiet otherReliable quietToo),
      assemble_inParallel parallel workers, assemble_of_perm settings cancellation distinct perm]
  rw [same, ran]
  by_cases never : cancellation = .never
  · subst never
    simp only [reduceCtorEq, ↓reduceIte]
    rcases assemble_accounts settings inputs with ⟨output, ran, accounts⟩ | ⟨failed, long⟩
    · exact .inl ⟨output, ran, ran, fun _ =>
        ⟨accounts, accounts.listed.nodup_iff.mpr (nodup_paths distinct)⟩⟩
    · exact .inr ⟨failed, failed, long⟩
  · rcases assemble_ends settings cancellation
      (if cancellation = .beforehand then ⟨true, []⟩ else ⟨false, inputs⟩) with
      ⟨output, ran⟩ | ⟨failed, long⟩
    · exact .inl ⟨output, ran, ran, fun same => absurd same never⟩
    · refine .inr ⟨failed, failed, Nat.le_trans long ?_⟩
      split
      · exact Nat.zero_le _
      · exact Nat.le_refl _

/-- Inputs in two orders, one of them rejected and one skipped, read one after the other or by three
workers of whom the last is done first. -/
theorem run_of_perm_mixed :
    WorkerPool.single.Reliable { parallel := false } ∧
    WorkerPool.lastFirst.Reliable { parallel := true, workers := some 3 } ∧
    (∀ input ∈ mixedInputs, Cancellation.strikes input.path .never = false) ∧
    (mixedInputs.map (·.path.components)).Nodup ∧ mixedInputs.Perm mixedInputs.reverse ∧
    ∃ output : BuildOutput,
      run .single { parallel := false } .never mixedInputs = .ok output ∧
      run .lastFirst { parallel := true, workers := some 3 } .never mixedInputs.reverse =
        .ok output ∧
      (Cancellation.never = .never → Accounts mixedInputs output.summary ∧
        (output.summary.merged ++ output.summary.skipped.map (·.path) ++
          output.summary.rejected.map (·.path)).Nodup) := by
  have reliable := WorkerPool.reliable_single { parallel := false }
  have otherReliable := WorkerPool.reliable_lastFirst { parallel := true, workers := some 3 }
  have quiet : ∀ input ∈ mixedInputs, Cancellation.strikes input.path .never = false :=
    fun _ _ => rfl
  have distinct : (mixedInputs.map (·.path.components)).Nodup := by decide
  have perm : mixedInputs.Perm mixedInputs.reverse := (List.reverse_perm mixedInputs).symm
  refine ⟨reliable, otherReliable, quiet, distinct, perm, ?_⟩
  refine (run_of_perm reliable otherReliable .never mixedInputs mixedInputs.reverse quiet distinct
    perm).resolve_right ?_
  exact fun overflow => absurd overflow.2.2 (by decide)

end Build

end DeclGraph

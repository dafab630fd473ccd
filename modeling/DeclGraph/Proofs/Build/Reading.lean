import DeclGraph.Build.Workers

/-!
# What is read of some inputs

As long as the reading of no input raises the flag, it does not matter whether inputs are
read one after the other or by workers at the same time: all inputs are kept, or none if
the flag was raised beforehand. One after the other, the inputs in front of the one that
raises the flag are kept.
-/

namespace DeclGraph.Build

variable {cancellation : Cancellation} {job : Job} {raised : Bool} {inputs : List BuildInput}

/-- What jobs give that leave the flag as it is does not depend on those before. -/
theorem inTurn_of_steady (steady : ∀ input ∈ inputs, (job raised input).1 = raised) :
    inTurn job raised inputs = (raised, inputs.map fun input => (job raised input).2) := by
  induction inputs with
  | nil => rfl
  | cons input rest further =>
    rw [List.forall_mem_cons] at steady
    simp only [inTurn, steady.1, further steady.2, List.map_cons]

/-- One worker, who does one job after the other, can be relied on. -/
theorem WorkerPool.reliable_single (settings : Settings) : single.Reliable settings where
  available _ := rfl
  keepsOrder _ _ _ := inTurn_of_steady

/-- Workers of whom those with the last inputs are done first. -/
def WorkerPool.lastFirst : WorkerPool where
  setUp _ := .ok ()
  doAll job raised inputs :=
    let outcome := inTurn job raised inputs.reverse
    (outcome.1, outcome.2.reverse)

/-- It does not matter that the last inputs are read first, as what they give is put in order. -/
theorem WorkerPool.reliable_lastFirst (settings : Settings) : lastFirst.Reliable settings where
  available _ := rfl
  keepsOrder job raised inputs steady := by
    have turned : ∀ input ∈ inputs.reverse, (job raised input).1 = raised :=
      fun input member => steady input (List.mem_reverse.mp member)
    simp only [lastFirst, inTurn_of_steady turned, List.map_reverse, List.reverse_reverse]

/-- Jobs that leave the flag as it is give the same whoever does them. -/
theorem doAll_of_steady {pool : WorkerPool} {settings : Settings}
    (reliable : pool.Reliable settings)
    (steady : ∀ input ∈ inputs, (job raised input).1 = raised) :
    doAll pool settings job raised inputs =
      .ok (raised, inputs.map fun input => (job raised input).2) := by
  unfold doAll
  by_cases oneByOne : settings.readsInTurn inputs.length = true
  · rw [if_pos oneByOne, inTurn_of_steady steady]
  · have parallel : settings.parallel = true := by
      simp_all [Settings.readsInTurn]
    rw [if_neg oneByOne, reliable.available parallel, reliable.keepsOrder job raised inputs steady]
    rfl

/-- Inputs are read, unless workers are asked for that cannot be set up. -/
theorem intake_eq_error_iff {pool : WorkerPool} {settings : Settings} {reason : String}
    (cancellation : Cancellation) :
    intake pool settings cancellation inputs = .error reason ↔
      settings.readsInTurn inputs.length = false ∧ pool.setUp settings.workers = .error reason := by
  unfold intake doAll
  cases settings.readsInTurn inputs.length <;> cases pool.setUp settings.workers <;>
    simp [Except.map]

/-- Reading an input that does not raise the flag leaves it as it is. -/
theorem readInput_fst_of_quiet {input : BuildInput}
    (quiet : cancellation.strikes input.path = false) :
    (readInput cancellation raised input).1 = raised := by
  cases raised <;> simp [readInput, quiet]

/-- While the flag stays down every input is kept. -/
theorem kept_of_down (quiet : ∀ input ∈ inputs, cancellation.strikes input.path = false) :
    (inputs.map fun input => (readInput cancellation false input).2).filterMap id = inputs := by
  induction inputs with
  | nil => rfl
  | cons input rest further =>
    rw [List.forall_mem_cons] at quiet
    have kept : (readInput cancellation false input).2 = some input := by
      simp [readInput, quiet.1]
    rw [List.map_cons, kept, List.filterMap_cons_some (by rfl), further quiet.2]

/-- While the flag is raised no input is kept. -/
theorem kept_of_raised (inputs : List BuildInput) :
    (inputs.map fun input => (readInput cancellation true input).2).filterMap id = [] := by
  simp [readInput]

/-- If no reading raises the flag, all inputs are kept whoever reads them, or none if the flag was
raised beforehand. -/
theorem intake_of_quiet {pool : WorkerPool} {settings : Settings}
    (reliable : pool.Reliable settings)
    (quiet : ∀ input ∈ inputs, cancellation.strikes input.path = false) :
    intake pool settings cancellation inputs =
      .ok (if cancellation = .beforehand then ⟨true, []⟩ else ⟨false, inputs⟩) := by
  rw [intake, doAll_of_steady reliable
    fun input member => readInput_fst_of_quiet (quiet input member)]
  by_cases before : cancellation = .beforehand
  · simp only [before, decide_true, ↓reduceIte, Except.map, kept_of_raised]
  · simp only [before, decide_false, ↓reduceIte, Except.map, kept_of_down quiet]

/-- The inputs in front of the first one of a path. -/
def inputsBefore (path : FilePath) (inputs : List BuildInput) : List BuildInput :=
  inputs.takeWhile fun input => !input.path.same path

/-- Read one after the other, up to the path that raises the flag every input is kept, and nothing
behind. -/
theorem inTurn_atStartOf (path : FilePath) (inputs : List BuildInput) :
    let outcome := inTurn (readInput (.atStartOf path)) false inputs
    outcome.1 = inputs.any (fun input => input.path.same path) ∧
      outcome.2.filterMap id = inputsBefore path inputs := by
  induction inputs with
  | nil => exact ⟨rfl, rfl⟩
  | cons input rest further =>
    cases strikes : input.path.same path with
    | true =>
      have dropped : readInput (.atStartOf path) false input = (true, none) := by
        simp [readInput, Cancellation.strikes, strikes]
      have behind : inTurn (readInput (.atStartOf path)) true rest = _ :=
        inTurn_of_steady fun _ _ => by simp [readInput]
      have outcome : inTurn (readInput (.atStartOf path)) false (input :: rest) =
          (true, none :: rest.map fun input => (readInput (.atStartOf path) true input).2) := by
        simp only [inTurn, dropped, behind]
      have noneBefore : inputsBefore path (input :: rest) = [] := by
        simp [inputsBefore, strikes]
      rw [outcome, noneBefore]
      exact ⟨by simp [strikes], (List.filterMap_cons_none rfl).trans (kept_of_raised rest)⟩
    | false =>
      have kept : readInput (.atStartOf path) false input = (false, some input) := by
        simp [readInput, Cancellation.strikes, strikes]
      simpa [inTurn, kept, inputsBefore, strikes] using further

/-- A build that reads one input after the other takes in those in front of the one that raises
the flag. -/
theorem intake_atStartOf (pool : WorkerPool) {settings : Settings} (path : FilePath)
    (oneByOne : settings.readsInTurn inputs.length = true) :
    intake pool settings (.atStartOf path) inputs =
      .ok ⟨inputs.any fun input => input.path.same path, inputsBefore path inputs⟩ := by
  obtain ⟨flag, kept⟩ := inTurn_atStartOf path inputs
  simp only [intake, doAll, if_pos oneByOne, reduceCtorEq, decide_false, Except.map, flag, kept]

/-- A build that reads one input after the other and is not cancelled takes in all of them. -/
theorem intake_never (pool : WorkerPool) {settings : Settings}
    (oneByOne : settings.readsInTurn inputs.length = true) :
    intake pool settings .never inputs = .ok ⟨false, inputs⟩ := by
  have quiet : ∀ input ∈ inputs, Cancellation.strikes input.path .never = false :=
    fun _ _ => rfl
  have steady : inTurn (readInput .never) false inputs = _ :=
    inTurn_of_steady fun input member => readInput_fst_of_quiet (quiet input member)
  simp only [intake, doAll, if_pos oneByOne, reduceCtorEq, decide_false, Except.map, steady,
    kept_of_down quiet]

end DeclGraph.Build

import DeclGraph.Settings
import DeclGraph.SourceFile

/-!
# Reading inputs

The inputs of a build are read one after the other, or by workers at the same time if
the settings allow that and there are several. A build is cancelled by a flag
that all reading shares: what is read while the flag is raised is dropped.
-/

namespace DeclGraph

/-- One input of a build: a path with the unit that was read there, or the reason why
none could be read. -/
structure BuildInput where
  path : FilePath
  result : Except ReadError SourceUnit

/-- A unit that is at hand and need not be read. -/
def BuildInput.ofUnit (unit : SourceUnit) : BuildInput := ⟨unit.path, .ok unit⟩

/-- When the flag that cancels a build is raised. -/
inductive Cancellation where
  | never
  /-- Before the first input is read. -/
  | beforehand
  /-- When the reading of an input of this path starts. -/
  | atStartOf (path : FilePath)
  /-- When an input of this path has been merged, skipped or rejected. -/
  | onceMerged (path : FilePath)
deriving DecidableEq, Repr, Inhabited

/-- Whether the flag is raised when the reading of a path starts. -/
def Cancellation.strikes (path : FilePath) : Cancellation → Bool
  | .atStartOf stop => path.same stop
  | .never | .beforehand | .onceMerged _ => false

/-- Whether the flag is raised once the merging is done with a path. -/
def Cancellation.strikesBehind (path : FilePath) : Cancellation → Bool
  | .onceMerged stop => path.same stop
  | .never | .beforehand | .atStartOf _ => false

namespace Build

/-- What a worker does with an input: it reads the flag, may raise it, and gives the
input if it is kept. -/
abbrev Job := Bool → BuildInput → Bool × Option BuildInput

/-- Reads an input. What is read while the flag is raised is dropped. -/
def readInput (cancellation : Cancellation) : Job := fun raised input =>
  if raised || cancellation.strikes input.path then (true, none) else (false, some input)

/-- Does a job for one input after the other. -/
def inTurn (job : Job) : Bool → List BuildInput → Bool × List (Option BuildInput)
  | raised, [] => (raised, [])
  | raised, input :: rest =>
    let first := job raised input
    let further := inTurn job first.1 rest
    (further.1, first.2 :: further.2)

/-- Workers that do the jobs for several inputs at the same time. -/
structure WorkerPool where
  /-- Sets up the number of workers that is asked for, or as many as suit the machine.
  Where that fails there is a reason. -/
  setUp : Option Nat → Except String Unit
  /-- The flag after a job was done for every input, and what each of them gave. -/
  doAll : Job → Bool → List BuildInput → Bool × List (Option BuildInput)

namespace WorkerPool

/-- One worker, who does one job after the other. -/
def single : WorkerPool := ⟨fun _ => .ok (), inTurn⟩

/-- What a build relies on of its workers. -/
structure Reliable (pool : WorkerPool) (settings : Settings) : Prop where
  /-- If the settings ask for workers, these can be set up. -/
  available : settings.parallel = true → pool.setUp settings.workers = .ok ()
  /-- What jobs give that leave the flag as it is comes in the order of the inputs,
  whichever worker is done first. -/
  keepsOrder : ∀ (job : Job) (raised : Bool) (inputs : List BuildInput),
    (∀ input ∈ inputs, (job raised input).1 = raised) →
      pool.doAll job raised inputs = (raised, inputs.map fun input => (job raised input).2)

end WorkerPool

/-- What was read, and whether the flag was raised by then. -/
structure Intake where
  cancelled : Bool
  inputs : List BuildInput

/-- Does a job for all inputs as the settings ask for, or gives the reason why no workers
could be set up. -/
def doAll (pool : WorkerPool) (settings : Settings) (job : Job) (raised : Bool)
    (inputs : List BuildInput) : Except String (Bool × List (Option BuildInput)) :=
  if settings.readsInTurn inputs.length then .ok (inTurn job raised inputs)
  else (pool.setUp settings.workers).map fun _ => pool.doAll job raised inputs

/-- Reads inputs as the settings ask for. -/
def intake (pool : WorkerPool) (settings : Settings) (cancellation : Cancellation)
    (inputs : List BuildInput) : Except String Intake :=
  (doAll pool settings (readInput cancellation) (cancellation = .beforehand) inputs).map
    fun outcome => ⟨outcome.1, outcome.2.filterMap id⟩

end Build

end DeclGraph

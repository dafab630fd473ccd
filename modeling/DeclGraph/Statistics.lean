import DeclGraph.Duration

/-!
# Reading statistics

How many units were read, how long it took and how much they held. Counts are
words of 64 bits and wrap around, times are durations and do not.
-/

namespace DeclGraph

/-- The statistics of a number of source units. -/
structure Statistics where
  attempted : UInt64 := 0
  succeeded : UInt64 := 0
  failed : UInt64 := 0
  /-- The time spent on reading. -/
  totalTime : Duration := .zero
  declarations : UInt64 := 0
  references : UInt64 := 0
deriving DecidableEq, Repr, Inhabited

namespace Statistics

/-- The statistics of two groups of units together, unless the time spent on both is
too long for a duration. -/
def merge? (first second : Statistics) : Option Statistics := do
  let totalTime ← first.totalTime.add? second.totalTime
  return {
    attempted := first.attempted + second.attempted
    succeeded := first.succeeded + second.succeeded
    failed := first.failed + second.failed
    totalTime
    declarations := first.declarations + second.declarations
    references := first.references + second.references }

/-- Two groups have statistics together unless their times reach the limit. -/
theorem merge?_eq_none {first second : Statistics} : first.merge? second = none ↔
    Duration.limit ≤ first.totalTime.nanoseconds + second.totalTime.nanoseconds := by
  rw [← Duration.ofNanoseconds?_eq_none]
  unfold merge? Duration.add?
  cases Duration.ofNanoseconds? (first.totalTime.nanoseconds + second.totalTime.nanoseconds) <;>
    simp

/-- Two groups are counted together word by word, and their times are added. -/
theorem merge?_eq_some {first second total : Statistics} : first.merge? second = some total ↔
    total.attempted = first.attempted + second.attempted ∧
    total.succeeded = first.succeeded + second.succeeded ∧
    total.failed = first.failed + second.failed ∧
    total.totalTime.nanoseconds =
      first.totalTime.nanoseconds + second.totalTime.nanoseconds ∧
    total.declarations = first.declarations + second.declarations ∧
    total.references = first.references + second.references := by
  rw [← Duration.ofNanoseconds?_eq_some]
  unfold merge? Duration.add?
  cases Duration.ofNanoseconds? (first.totalTime.nanoseconds + second.totalTime.nanoseconds) <;>
    cases total <;> simp [eq_comm]

/-- A quotient of counts, zero when nothing was counted. -/
def ratio (part whole : UInt64) : Float :=
  if whole = 0 then 0 else part.toFloat / whole.toFloat

/-- The share of attempted units that were read. -/
def successRate (statistics : Statistics) : Float :=
  ratio statistics.succeeded statistics.attempted

/-- The declarations per unit read. -/
def averageDeclarations (statistics : Statistics) : Float :=
  ratio statistics.declarations statistics.succeeded

/-- The time per unit read. The divisor is the low half of the count, and a count
whose low half is zero has no average. -/
def averageTime? (statistics : Statistics) : Option Duration :=
  if statistics.succeeded = 0 then some .zero
  else
    let divisor := statistics.succeeded.toUInt32.toNat
    if divisor = 0 then none else some (statistics.totalTime.part divisor)

end Statistics

end DeclGraph

/-!
# Durations

A duration is a span of time in whole nanoseconds. Its seconds are counted in a word
of 64 bits, so two durations need not have a sum.
-/

namespace DeclGraph

/-- The nanoseconds that are too many for a duration. -/
def Duration.limit : Nat := UInt64.size * 1000000000

/-- A span of time that can be counted. -/
structure Duration where
  nanoseconds : Nat
  fits : nanoseconds < Duration.limit
deriving DecidableEq, Repr

namespace Duration

/-- The empty span of time. -/
def zero : Duration := ⟨0, by decide⟩

instance : Inhabited Duration := ⟨zero⟩

/-- The span of some nanoseconds, unless they are too many. -/
def ofNanoseconds? (nanoseconds : Nat) : Option Duration :=
  if fits : nanoseconds < limit then some ⟨nanoseconds, fits⟩ else none

/-- Two spans one after the other, unless they are too long together. -/
def add? (first second : Duration) : Option Duration :=
  ofNanoseconds? (first.nanoseconds + second.nanoseconds)

/-- One of `count` equal parts of a span, rounded down. -/
def part (whole : Duration) (count : Nat) : Duration :=
  ⟨whole.nanoseconds / count, Nat.lt_of_le_of_lt (Nat.div_le_self ..) whole.fits⟩

/-- Some nanoseconds make a duration exactly if they are below the limit. -/
theorem ofNanoseconds?_eq_some {nanoseconds : Nat} {duration : Duration} :
    ofNanoseconds? nanoseconds = some duration ↔ duration.nanoseconds = nanoseconds := by
  obtain ⟨own, fits⟩ := duration
  unfold ofNanoseconds?
  constructor
  · intro made
    split at made
    · exact (congrArg Duration.nanoseconds (Option.some.inj made)).symm
    · cases made
  · rintro rfl
    rw [dif_pos fits]

/-- Nanoseconds make no duration exactly if they reach the limit. -/
theorem ofNanoseconds?_eq_none {nanoseconds : Nat} :
    ofNanoseconds? nanoseconds = none ↔ limit ≤ nanoseconds := by
  unfold ofNanoseconds?
  split <;> simp_all [Nat.not_lt]

end Duration

end DeclGraph

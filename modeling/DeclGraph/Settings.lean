/-!
# Settings

What is read from source files and under which limits.
-/

namespace DeclGraph

/-- The settings of a build. -/
structure Settings where
  /-- The size in bytes above which a file is refused. -/
  maxFileSize : Nat := 10 * 1024 * 1024
  /-- The time in milliseconds after which a file is given up. -/
  timeout : Option Nat := some 30000
  /-- Whether files may be read at the same time. -/
  parallel : Bool := true
  /-- How many files may be read at the same time. -/
  workers : Option Nat := none
  /-- Whether calls are read from function bodies. -/
  readCalls : Bool := true
  /-- Whether the uses of types are read. -/
  readTypeUses : Bool := true
  /-- Whether a file with syntax errors is kept. -/
  tolerateErrors : Bool := false
deriving DecidableEq, Repr, Inhabited

namespace Settings

/-- Whether some inputs are read one after the other, as the settings ask for it or there
are not several. -/
def readsInTurn (settings : Settings) (count : Nat) : Bool := !settings.parallel || count < 2

/-- The usual settings. -/
def standard : Settings := {}

/-- Declarations only, neither calls nor uses of types. -/
def fast : Settings := { readCalls := false, readTypeUses := false }

/-- Everything that can be read. -/
def comprehensive : Settings := { readCalls := true, readTypeUses := true }

/-- Everything that can be read, also from files with syntax errors. -/
def tolerant : Settings := { comprehensive with tolerateErrors := true }

/-- The settings known by a name. -/
def named? : String → Option Settings
  | "default" => some standard
  | "fast" => some fast
  | "comprehensive" => some comprehensive
  | "tolerant" => some tolerant
  | _ => none

end Settings

end DeclGraph

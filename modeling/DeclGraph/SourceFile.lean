import DeclGraph.ParseTree.Reading
import DeclGraph.Settings
import DeclGraph.Statistics

/-!
# Source files

A source file is a text together with its parse tree. Reading it gives a source
unit, or says why the file cannot be used: it is too large, it has syntax errors
that are not tolerated, or its text could not be had at all.
-/

namespace DeclGraph

/-- Why the text of a file could not be had. -/
inductive AccessFailure where
  | missing
  /-- A file stands where its path needs a directory. -/
  | notDirectory
  | directory
  | notUtf8
deriving DecidableEq, Repr, Inhabited

/-- The text reported for a file that could not be had. -/
def AccessFailure.message : AccessFailure → String
  | .missing => "No such file or directory (os error 2)"
  | .notDirectory => "Not a directory (os error 20)"
  | .directory => "Is a directory (os error 21)"
  | .notUtf8 => "stream did not contain valid UTF-8"

/-- Why a file gives no source unit. -/
inductive ReadError where
  | inaccessible (path : FilePath) (failure : AccessFailure)
  /-- The place of the first error, line and column counted from one; both are
  zero when the error has no place. -/
  | syntaxError (path : FilePath) (line column : Nat)
  | tooLarge (path : FilePath) (size : Nat)
deriving DecidableEq, Repr, Inhabited

namespace ReadError

/-- The file that could not be read. -/
def path : ReadError → FilePath
  | .inaccessible path _ => path
  | .syntaxError path _ _ => path
  | .tooLarge path _ => path

/-- The text reported for an error. -/
def message : ReadError → String
  | .inaccessible path failure => "IO error reading " ++ path.display ++ ": " ++ failure.message
  | .syntaxError path line column =>
    "Syntax error in " ++ path.display ++ ":" ++ toString line ++ ":" ++ toString column
      ++ ": Syntax error"
  | .tooLarge path size =>
    "File " ++ path.display ++ " exceeds maximum size (" ++ toString size ++ " bytes)"

end ReadError

/-- A source text with its parse tree. -/
structure SourceFile where
  path : FilePath
  text : String
  tree : ParseTree
deriving Repr, Inhabited

namespace SourceFile

/-- The size in bytes. -/
def size (file : SourceFile) : Nat := file.text.utf8ByteSize

/-- The first syntax error of the file. -/
def syntaxError (file : SourceFile) : ReadError :=
  match file.tree.firstError? with
  | some place => .syntaxError file.path (place.row + 1) (place.column + 1)
  | none => .syntaxError file.path 0 0

/-- What is read from the tree of the file. -/
def reading (settings : Settings) (file : SourceFile) : Reading :=
  Reading.start.visit ⟨file.path, file.text, settings.readCalls⟩ file.tree

/-- The declarations and directives of the file, errors or not. -/
def unit (settings : Settings) (file : SourceFile) : SourceUnit :=
  let reading := file.reading settings
  { path := file.path
    declarations := reading.declarations
    directives := reading.directives
    parseTime := .zero
    lineCount := SourceText.lineCount file.text
    byteCount := file.size }

/-- Reads the file within the limits that the settings set. -/
def read (settings : Settings) (file : SourceFile) : Except ReadError SourceUnit :=
  if file.size > settings.maxFileSize then .error (.tooLarge file.path file.size)
  else if file.tree.info.hasError ∧ settings.tolerateErrors = false then
    .error file.syntaxError
  else .ok (file.unit settings)

/-- Only the size decides whether a file is too large, errors or not. -/
theorem read_of_large {settings : Settings} {file : SourceFile}
    (large : settings.maxFileSize < file.size) :
    file.read settings = .error (.tooLarge file.path file.size) := by
  simp [read, large]

/-- A file is read exactly when it is not too large and its errors, if there are
any, are tolerated. -/
theorem read_eq_ok_iff {settings : Settings} {file : SourceFile} {unit : SourceUnit} :
    file.read settings = .ok unit ↔
      file.size ≤ settings.maxFileSize
        ∧ (file.tree.info.hasError = true → settings.tolerateErrors = true)
        ∧ unit = file.unit settings := by
  unfold read
  by_cases large : file.size > settings.maxFileSize
  · simp [large, Nat.not_le.mpr large]
  · have fits : file.size ≤ settings.maxFileSize := Nat.le_of_not_gt large
    cases errors : file.tree.info.hasError <;> cases tolerated : settings.tolerateErrors <;>
      simp [large, fits, eq_comm]

end SourceFile

/-- What the outcome of reading one file adds to the statistics. -/
def Statistics.ofOutcome : Except ReadError SourceUnit → Statistics
  | .error _ => { attempted := 1, failed := 1 }
  | .ok unit =>
    { attempted := 1
      succeeded := 1
      totalTime := unit.parseTime
      declarations := .ofNat unit.declarations.length
      references := .ofNat unit.referenceCount }

end DeclGraph

import DeclGraph.FileStore

/-!
# The source reader

A source reader reads stored files under fixed settings and counts what it has
read. Texts that are already at hand are read by `SourceFile.read`, which counts
nothing.
-/

namespace DeclGraph

/-- A reader of source files. -/
structure SourceReader where
  settings : Settings
  statistics : Statistics := {}
deriving DecidableEq, Repr, Inhabited

namespace SourceReader

/-- The language of the files that are read. -/
def language : String := "cpp"

/-- The extensions of the files that are read. -/
def extensions : List String :=
  [".cpp", ".cc", ".cxx", ".c++", ".hpp", ".hh", ".hxx", ".h", ".h++"]

/-- Whether a file of this path is one to read. -/
def canRead (path : FilePath) : Bool :=
  path.extension?.any fun extension => extensions.contains ("." ++ extension)

/-- The text of a stored file with its tree. The size is looked at before the
text. -/
def textOf (settings : Settings) (path : FilePath) (file : StoredFile) :
    Except ReadError SourceFile :=
  if file.bytes.size > settings.maxFileSize then .error (.tooLarge path file.bytes.size)
  else
    match String.fromUTF8? file.bytes with
    | none => .error (.inaccessible path .notUtf8)
    | some text => .ok ⟨path, text, file.tree⟩

/-- The unit of the file that a path leads to. -/
def unitOf (settings : Settings) (store : FileStore) (path : FilePath) :
    Except ReadError SourceUnit := do
  let file ← (store.find path).mapError (.inaccessible path)
  (← textOf settings path file).read settings

/-- Reads the file that a path leads to, if there is one, and counts it, unless the
time spent so far becomes too long. -/
def readStored? (reader : SourceReader) (store : FileStore) (path : FilePath) :
    Option (SourceReader × Except ReadError SourceUnit) := do
  let result := unitOf reader.settings store path
  let statistics ← reader.statistics.merge? (.ofOutcome result)
  return ({ reader with statistics }, result)

/-- Forgets what was counted. -/
def reset (reader : SourceReader) : SourceReader := { reader with statistics := {} }

end SourceReader

end DeclGraph
